import JobCluster.Proofs.Job.FailedRun
import JobCluster.Proofs.Job.LoadPass
/-!
# Outstanding jobs

A stored job is offered to the todo queue by the commit that publishes it and by load passes. It is
marked when it is let in, and while the mark is fresh it is not let in again, until a run of the job
ends, or the job is cancelled, or the scheduler is stopped. There is one mark for all copies of the
job. When a cancellation or a stop has taken the mark of a job off while one copy of it was in hand,
another copy can be let in beside it; and when the run of the first one ends, it takes the mark of
the second one off, which then stands in the queue without a mark and does not keep a third one out.

Main results:

- `Traffic.play_loadImmediate`: a load pass is a sequence of offers;
- `Traffic.Turns`, `Traffic.turns_step`: what a step makes of the account of one job;
- `Traffic.bare_step_iff`: how a queued copy loses its mark;
- `Traffic.Turns.sole`: a copy keeps its mark where nothing interferes with it;
- `Traffic.one_queued_iff`: when a job is queued no more than once;
- `Cluster.queued_twice`: how a job comes to be queued twice on a node.
-/

namespace JobCluster

/-! ## A queue in use -/

/-- Whether a task is a copy of a stored job. -/
def Task.isStored (id : JobId) : Task → Bool
  | .job (.persisted r) => decide (r.id = id)
  | .job (.volatile _) | .loadImmediate | .upgradeJobs | .checkStaleNodes => false

/-- A task runs a job if it is that job. -/
theorem Task.runs_job (job : ScheduledJob) (id : JobId) :
    (Task.job job).runs id = decide (job.jobId = id) := rfl

/-- A task that is taken out brings a job in hand, if it runs one. -/
theorem Task.countP_job? (task : Task) (id : JobId) :
    (task.job?.toList.countP fun job => decide (job.jobId = id)) = (task.runs id).toNat := by
  cases task with
  | job job => cases h : decide (job.jobId = id) <;> simp [job?, runs_job, h]
  | loadImmediate | upgradeJobs | checkStaleNodes => rfl

/-- A copy of a stored job runs the job. -/
theorem Task.runs_of_isStored {id : JobId} {task : Task} (h : task.isStored id = true) :
    task.runs id = true := by
  rcases task with (r | info) | _ | _ | _
  · exact beq_iff_eq.mpr (of_decide_eq_true h)
  all_goals cases h

/-- A task that does not run a job is no copy of it. -/
theorem Task.isStored_eq_false {id : JobId} {task : Task} (h : task.runs id = false) :
    task.isStored id = false :=
  Bool.eq_false_iff.mpr fun hstored => by simp [runs_of_isStored hstored] at h

/-- Housekeeping runs no job. -/
theorem Task.not_runs_of_not_isJob {id : JobId} {task : Task} (h : task.isJob = false) :
    task.runs id = false :=
  Bool.eq_false_iff.mpr fun hruns => by simp [isJob_of_runs hruns] at h

/-- A todo queue in use, with the jobs that were taken out of it and whose runs have not ended. -/
structure Traffic where
  queue : TodoQueue := {}
  clock : Time := 0
  inHand : List ScheduledJob := []
  deriving DecidableEq, Repr

/-- What a scheduler does with its queue. -/
inductive TrafficStep
  /-- Time goes by. -/
  | wait (span : Time)
  /-- Housekeeping is queued. -/
  | housekeeping (task : Task) (due : Time)
  /-- A commit or a load pass offers a job. -/
  | offer (job : ScheduledJob) (due : Time)
  /-- The task that comes first is taken out, if it was due when the clock was read. -/
  | takeOut (now : Time)
  /-- The run of a job in hand ends. -/
  | runEnds (place : Nat)
  | cancel (id : JobId)
  | stop
  deriving DecidableEq, Repr

/-- What a queue in use has of one job. -/
structure Account where
  /-- The number of queued copies of the stored job. -/
  stored : Nat
  /-- The number of queued tasks that run a job of the identifier, stored or not. -/
  queued : Nat
  /-- The number of jobs in hand that have the identifier. -/
  running : Nat
  mark : Option Time
  deriving DecidableEq, Repr

namespace Traffic

/-- Makes a step, where marks are fresh until they reach the given age. One that is not possible
changes nothing. -/
def step (ttl : Time) (t : Traffic) : TrafficStep → Traffic
  | .wait span => { t with clock := t.clock + span }
  | .housekeeping task due => if task.isJob then t else { t with queue := t.queue.push task due }
  | .offer job due => { t with queue := (t.queue.enqueue job due t.clock ttl).2 }
  | .takeOut now =>
    match t.queue.pop? now with
    | some (task, queue) => { t with queue, inHand := task.job?.toList ++ t.inHand }
    | none => t
  | .runEnds place =>
    match t.inHand[place]? with
    | some job => { t with queue := t.queue.finish job.jobId, inHand := t.inHand.eraseIdx place }
    | none => t
  | .cancel id => { t with queue := (t.queue.remove id).2 }
  | .stop => { t with queue := t.queue.clearForStop.2 }

/-- Makes steps one after another. -/
def play (ttl : Time) (t : Traffic) (steps : List TrafficStep) : Traffic := steps.foldl (step ttl) t

/-- Whether something holds of every step and the moment at which it is made. -/
def Throughout (ttl : Time) (P : Traffic → TrafficStep → Prop) :
    Traffic → List TrafficStep → Prop
  | _, [] => True
  | t, a :: rest => P t a ∧ Throughout ttl P (t.step ttl a) rest

instance decidableThroughout (ttl : Time) (P : Traffic → TrafficStep → Prop)
    [∀ t a, Decidable (P t a)] (t : Traffic) (steps : List TrafficStep) :
    Decidable (Throughout ttl P t steps) :=
  match steps with
  | [] => inferInstanceAs (Decidable True)
  | a :: rest =>
    have := decidableThroughout ttl P (t.step ttl a) rest
    inferInstanceAs (Decidable (P t a ∧ Throughout ttl P (t.step ttl a) rest))

/-- Offers of stored jobs at their due times. -/
def offers (jobs : List JobRecord) : List TrafficStep :=
  jobs.map fun r => .offer (.persisted r) r.effectiveDue

/-- To offer jobs one after another is what a load pass does with its batch. -/
theorem play_offers (ttl : Time) (jobs : List JobRecord) (t : Traffic) :
    t.play ttl (offers jobs) =
      { t with queue := Housekeeping.enqueueAll t.clock ttl jobs t.queue } := by
  induction jobs generalizing t with
  | nil => rfl
  | cons r rest ih => exact ih (t.step ttl (.offer (.persisted r) r.effectiveDue))

/-- A load pass that takes place offers the jobs of its batch. -/
theorem play_loadImmediate {settings : Settings} {store : JobStore} {t : Traffic}
    (h : Housekeeping.Loads settings store t.queue) :
    t.play settings.outstanding.wordMillis (offers (Housekeeping.batch settings t.clock store)) =
      { t with queue := (Housekeeping.loadImmediate settings t.clock store t.queue).2 } := by
  rw [play_offers, Housekeeping.loadImmediate_of_loads h]

/-- What the queue has of a job. -/
def account (t : Traffic) (id : JobId) : Account where
  stored := t.queue.entries.countP fun e => e.task.isStored id
  queued := t.queue.entries.countP fun e => e.task.runs id
  running := t.inHand.countP fun job => decide (job.jobId = id)
  mark := t.queue.marks.get? id

variable {ttl : Time} {t : Traffic} {a : TrafficStep} {id : JobId} {y : Account}

/-- The copies of a stored job that are queued are among all copies that are. -/
theorem stored_le_queued (t : Traffic) (id : JobId) :
    (t.account id).stored ≤ (t.account id).queued :=
  List.countP_mono_left fun _ _ h => Task.runs_of_isStored h

/-! ## One job -/

/-- What a step makes of the account of a job. -/
inductive Turns (ttl : Time) (t : Traffic) (id : JobId) : TrafficStep → Account → Prop
  /-- The step has nothing to do with the job, or the job is passed over. -/
  | aside (a : TrafficStep) : Turns ttl t id a (t.account id)
  | letIn {r : JobRecord} {due : Time} (hid : r.id = id)
      (hfresh : t.queue.isFresh id t.clock ttl = false) :
      Turns ttl t id (.offer (.persisted r) due)
        { t.account id with
          stored := (t.account id).stored + 1
          queued := (t.account id).queued + 1
          mark := some t.clock }
  | letInVolatile {info : JobInfo} {due : Time} (hid : info.jobId = id) :
      Turns ttl t id (.offer (.volatile info) due)
        { t.account id with queued := (t.account id).queued + 1 }
  | takenOut {now : Time} {stored queued : Nat} (hstored : stored ≤ (t.account id).stored)
      (hone : (t.account id).stored ≤ stored + 1) (hqueued : queued + 1 = (t.account id).queued) :
      Turns ttl t id (.takeOut now)
        { t.account id with stored, queued, running := (t.account id).running + 1 }
  | ended {place running : Nat} {job : ScheduledJob} (hjob : t.inHand[place]? = some job)
      (hid : job.jobId = id) (hrunning : running + 1 = (t.account id).running) :
      Turns ttl t id (.runEnds place) { t.account id with running, mark := none }
  | cancelled :
      Turns ttl t id (.cancel id) { t.account id with stored := 0, queued := 0, mark := none }
  | stopped {queued : Nat} (hqueued : queued + (t.account id).stored = (t.account id).queued) :
      Turns ttl t id .stop { t.account id with stored := 0, queued, mark := none }

/-- A task that is pushed is one more copy of the job that it runs. -/
theorem account_push (q : TodoQueue) (task : Task) (due : Time) (id : JobId) :
    ({ t with queue := q.push task due } : Traffic).account id =
      { ({ t with queue := q } : Traffic).account id with
        stored := (q.entries.countP fun e => e.task.isStored id) + (task.isStored id).toNat
        queued := (q.entries.countP fun e => e.task.runs id) + (task.runs id).toNat } := by
  simp only [account, TodoQueue.push, countP_cons_toNat]

/-- A task that does not run the job leaves its account alone. -/
theorem account_push_of_not_runs (q : TodoQueue) {task : Task} (h : task.runs id = false)
    (due : Time) :
    ({ t with queue := q.push task due } : Traffic).account id =
      ({ t with queue := q } : Traffic).account id := by
  rw [account_push, h, Task.isStored_eq_false h]
  rfl

/-- An offer lets the job in or passes it over. -/
theorem turns_offer (t : Traffic) (job : ScheduledJob) (due : Time) (id : JobId) :
    Turns ttl t id (.offer job due) ((t.step ttl (.offer job due)).account id) := by
  cases job with
  | volatile info =>
      show Turns ttl t id _ (({ t with queue := t.queue.push _ due } : Traffic).account id)
      by_cases hid : info.jobId = id
      · rw [account_push, Task.runs_job]
        simp only [ScheduledJob.jobId, hid, decide_true]
        exact .letInVolatile hid
      · have hruns : (Task.job (.volatile info)).runs id = false := decide_eq_false hid
        rw [account_push_of_not_runs _ hruns]
        exact .aside _
  | persisted r =>
      unfold step
      simp only [TodoQueue.enqueue_persisted]
      cases hfresh : t.queue.isFresh r.id t.clock ttl with
      | true => exact .aside _
      | false =>
          simp only [Bool.false_eq_true, if_false]
          by_cases hid : r.id = id
          · subst hid
            have hmark : (t.queue.marks.insert r.id t.clock).get? r.id = some t.clock := by simp
            rw [account_push, Task.runs_job]
            simp only [account, Task.isStored, ScheduledJob.jobId, decide_true, hmark]
            exact .letIn rfl hfresh
          · have hmark : (t.queue.marks.insert r.id t.clock).get? id = t.queue.marks.get? id := by
              simp [hid]
            have hruns : (Task.job (.persisted r)).runs id = false := decide_eq_false hid
            rw [account_push_of_not_runs _ hruns]
            simp only [account, hmark]
            exact .aside _

/-- A task that is taken out runs the job, or has nothing to do with it. -/
theorem turns_takeOut (h : t.queue.Numbered) (now : Time) (id : JobId) :
    Turns ttl t id (.takeOut now) ((t.step ttl (.takeOut now)).account id) := by
  cases hpop : t.queue.pop? now with
  | none =>
      simp only [step, hpop]
      exact .aside _
  | some x =>
      obtain ⟨task, rest⟩ := x
      obtain ⟨e, -, -, -, hrest⟩ := TodoQueue.pop?_eq_some hpop
      have hmark : rest.marks.get? id = t.queue.marks.get? id := by rw [hrest]; rfl
      have hstored := h.countP_pop? hpop fun task => task.isStored id
      have hqueued := h.countP_pop? hpop fun task => task.runs id
      simp only [step, hpop, account, List.countP_append, Task.countP_job?, hmark]
      cases hruns : task.runs id with
      | false =>
          rw [hruns] at hqueued
          rw [Task.isStored_eq_false hruns] at hstored
          have haside : Turns ttl t id (.takeOut now) (t.account id) := .aside _
          rw [account, hstored, hqueued] at haside
          simpa using haside
      | true =>
          rw [hruns] at hqueued
          have hle : (rest.entries.countP fun e => e.task.isStored id) ≤ (t.account id).stored := by
            rw [account, hstored]
            exact Nat.le_add_right _ _
          have hone : (t.account id).stored ≤
              (rest.entries.countP fun e => e.task.isStored id) + 1 := by
            rw [account, hstored]
            exact Nat.add_le_add_left (Bool.toNat_le _) _
          have htaken : Turns ttl t id (.takeOut now) _ := .takenOut hle hone hqueued.symm
          simpa [account, Nat.add_comm] using htaken

/-- A run that ends is one of the job, or has nothing to do with it. -/
theorem turns_runEnds (t : Traffic) (place : Nat) (id : JobId) :
    Turns ttl t id (.runEnds place) ((t.step ttl (.runEnds place)).account id) := by
  cases hjob : t.inHand[place]? with
  | none =>
      simp only [step, hjob]
      exact .aside _
  | some job =>
      simp only [step, hjob]
      have hrunning := countP_eraseIdx_add (p := fun job => decide (job.jobId = id)) hjob
      by_cases hid : job.jobId = id
      · subst hid
        simp only [decide_true, Bool.toNat_true] at hrunning
        have hended : Turns ttl t job.jobId (.runEnds place) _ := .ended hjob rfl hrunning
        simpa [account, TodoQueue.finish] using hended
      · simp only [hid, decide_false, Bool.toNat_false, Nat.add_zero] at hrunning
        have haside : Turns ttl t id (.runEnds place) (t.account id) := .aside _
        simpa [account, hrunning, TodoQueue.finish, Ne.symm hid] using haside

/-- A cancellation takes out all that runs its job, and nothing else. -/
theorem turns_cancel (t : Traffic) (other id : JobId) :
    Turns ttl t id (.cancel other) ((t.step ttl (.cancel other)).account id) := by
  simp only [step, account, TodoQueue.remove]
  by_cases hid : other = id
  · subst hid
    have hcancelled : Turns ttl t other (.cancel other) _ := .cancelled
    rw [countP_filter_eq_zero fun e h => by simp [Task.runs_of_isStored h],
      countP_filter_eq_zero fun e h => by simp [h]]
    simpa [account] using hcancelled
  · have hother : ∀ {task : Task}, task.runs id = true → (!task.runs other) = true := by
      intro task hruns
      cases task with
      | job job =>
          have hjob : job.jobId = id := of_decide_eq_true hruns
          have hne : decide (job.jobId = other) = false :=
            decide_eq_false fun heq => hid (heq.symm.trans hjob)
          rw [Task.runs_job, hne]
          rfl
      | loadImmediate | upgradeJobs | checkStaleNodes => rfl
    have haside : Turns ttl t id (.cancel other) (t.account id) := .aside _
    rw [countP_filter_of_forall fun e h => hother (Task.runs_of_isStored h),
      countP_filter_of_forall fun e h => hother h]
    simpa [account, Ne.symm hid] using haside

/-- A stop takes out the copies of stored jobs, and leaves those that are kept in memory alone. -/
theorem turns_stop (t : Traffic) (id : JobId) :
    Turns ttl t id .stop ((t.step ttl .stop).account id) := by
  have hcases : ∀ task : Task, (task.runs id).toNat =
      (task.runs id && task.isVolatileJob).toNat + (task.isStored id).toNat := by
    rintro ((r | info) | _ | _ | _) <;>
      simp [Task.runs, Task.job?, ScheduledJob.jobId, Task.isVolatileJob, ScheduledJob.isVolatile,
        Task.isStored, Bool.beq_eq_decide_eq]
  have hqueued : (t.queue.entries.countP fun e => e.task.runs id && e.task.isVolatileJob) +
      (t.account id).stored = (t.account id).queued :=
    (countP_add fun e : TodoEntry => hcases e.task).symm
  have hstored : ((t.queue.entries.filter fun e => e.task.isVolatileJob).countP fun e =>
      e.task.isStored id) = 0 := by
    refine countP_filter_eq_zero (fun e hstored => ?_) _
    have hcase := hcases e.task
    rw [Task.runs_of_isStored hstored, hstored] at hcase
    cases hvolatile : e.task.isVolatileJob with
    | false => rfl
    | true => simp [hvolatile] at hcase
  have hstopped : Turns ttl t id .stop _ := .stopped hqueued
  simpa only [step, account, TodoQueue.clearForStop, hstored, List.countP_filter,
    Table.get?_empty] using hstopped

/-- What any step makes of the account of any job. -/
theorem turns_step (h : t.queue.Numbered) (a : TrafficStep) (id : JobId) :
    Turns ttl t id a ((t.step ttl a).account id) := by
  cases a with
  | wait span => exact .aside _
  | housekeeping task due =>
      cases hjob : task.isJob with
      | true =>
          simp only [step, hjob, if_true]
          exact .aside _
      | false =>
          have hruns : task.runs id = false := Task.not_runs_of_not_isJob hjob
          simp only [step, hjob, Bool.false_eq_true, if_false, account_push_of_not_runs _ hruns]
          exact .aside _
  | offer job due => exact turns_offer t job due id
  | takeOut now => exact turns_takeOut h now id
  | runEnds place => exact turns_runEnds t place id
  | cancel other => exact turns_cancel t other id
  | stop => exact turns_stop t id

/-- The entries of the queue stay numbered. -/
theorem numbered_step (h : t.queue.Numbered) (a : TrafficStep) :
    (t.step ttl a).queue.Numbered := by
  cases a with
  | wait span => exact h
  | housekeeping task due =>
      cases hjob : task.isJob with
      | true => simpa only [step, hjob, if_true] using h
      | false => simpa only [step, hjob, Bool.false_eq_true, if_false] using h.push task due
  | offer job due => exact h.enqueue _ _ _ _
  | takeOut now =>
      cases hpop : t.queue.pop? now with
      | none => simpa only [step, hpop] using h
      | some x => simpa only [step, hpop] using h.pop? hpop
  | runEnds place =>
      cases hjob : t.inHand[place]? with
      | none => simpa only [step, hjob] using h
      | some job =>
          simp only [step, hjob]
          exact h.of_sublist (List.Sublist.refl _) rfl
  | cancel id => exact h.remove id
  | stop => exact h.of_sublist List.filter_sublist rfl

/-! ## Copies without a mark -/

/-- Whether the job has no mark that has reached the given age. -/
def Young (ttl : Time) (t : Traffic) (id : JobId) : Prop :=
  ∀ markedAt ∈ (t.account id).mark, t.clock - markedAt < ttl

instance (ttl : Time) (t : Traffic) (id : JobId) : Decidable (t.Young ttl id) :=
  inferInstanceAs (Decidable (∀ markedAt ∈ (t.account id).mark, t.clock - markedAt < ttl))

/-- Whether a copy of the stored job is queued, and the job has no mark. -/
def Bare (t : Traffic) (id : JobId) : Prop :=
  0 < (t.account id).stored ∧ (t.account id).mark = none

/-- Whether a step ends a run of the job while a copy of it is queued. -/
def EndsBeside (t : Traffic) (id : JobId) (a : TrafficStep) : Prop :=
  0 < (t.account id).stored ∧
    ∃ place job, a = .runEnds place ∧ t.inHand[place]? = some job ∧ job.jobId = id

/-- Whether a step offers a stored job of which a copy is queued without a mark. -/
def Repeats (t : Traffic) (id : JobId) (a : TrafficStep) : Prop :=
  t.Bare id ∧ ∃ r due, a = .offer (.persisted r) due ∧ r.id = id

/-- A copy loses its mark exactly when a run of the job ends while it is queued. -/
theorem bare_step_iff (h : t.queue.Numbered) (hbare : ¬ t.Bare id) :
    (t.step ttl a).Bare id ↔ t.EndsBeside id a := by
  constructor
  · have hturns : Turns ttl t id a ((t.step ttl a).account id) := turns_step h a id
    intro ⟨hstored, hmark⟩
    generalize (t.step ttl a).account id = y at hturns hstored hmark
    cases hturns with
    | aside => exact absurd ⟨hstored, hmark⟩ hbare
    | letIn => cases hmark
    | letInVolatile => exact absurd ⟨hstored, hmark⟩ hbare
    | takenOut hle => exact absurd ⟨Nat.lt_of_lt_of_le hstored hle, hmark⟩ hbare
    | ended hjob hid => exact ⟨hstored, _, _, rfl, hjob, hid⟩
    | cancelled | stopped => exact absurd hstored (Nat.lt_irrefl 0)
  · rintro ⟨hstored, place, job, rfl, hjob, rfl⟩
    refine ⟨?_, ?_⟩
    · simpa only [step, hjob, account, TodoQueue.finish] using hstored
    · simp [step, hjob, account, TodoQueue.finish]

/-- Where the mark of a job is young, the job is let in only if it has none. -/
theorem mark_eq_none_of_not_fresh (hyoung : t.Young ttl id)
    (hfresh : t.queue.isFresh id t.clock ttl = false) : (t.account id).mark = none := by
  cases hmark : (t.account id).mark with
  | none => rfl
  | some markedAt =>
      have hold : ttl ≤ t.clock - markedAt :=
        TodoQueue.isFresh_eq_false_iff.mp hfresh markedAt hmark
      exact absurd (hyoung markedAt hmark) (Nat.not_lt.mpr hold)

/-! ## At most one copy -/

/-- A job that is offered while it is queued without a mark is queued once more. -/
theorem stored_step_of_repeats (h : t.Repeats id a) :
    ((t.step ttl a).account id).stored = (t.account id).stored + 1 := by
  obtain ⟨⟨-, hmark⟩, r, due, rfl, rfl⟩ := h
  have hfresh : t.queue.isFresh r.id t.clock ttl = false := by
    have hmark : t.queue.marks.get? r.id = none := hmark
    rw [TodoQueue.isFresh, hmark]
  simp only [step, TodoQueue.enqueue_persisted, hfresh, Bool.false_eq_true, if_false]
  rw [account_push]
  simp [account, Task.isStored]

/-- No other step brings a second copy in. -/
theorem stored_step_le (h : t.queue.Numbered) (hyoung : t.Young ttl id)
    (hone : (t.account id).stored ≤ 1) (hrepeats : ¬ t.Repeats id a) :
    ((t.step ttl a).account id).stored ≤ 1 := by
  have hturns : Turns ttl t id a ((t.step ttl a).account id) := turns_step h a id
  generalize (t.step ttl a).account id = y at hturns ⊢
  cases hturns with
  | aside | letInVolatile | ended => exact hone
  | takenOut hle => exact Nat.le_trans hle hone
  | cancelled | stopped => exact Nat.zero_le _
  | letIn hid hfresh =>
      have hmark := mark_eq_none_of_not_fresh hyoung hfresh
      have hzero : ¬ 0 < (t.account id).stored :=
        fun hstored => hrepeats ⟨⟨hstored, hmark⟩, _, _, rfl, hid⟩
      simp only
      omega

/-- At most one copy is queued at every moment exactly if the job is never offered while a copy
without a mark is queued. -/
theorem throughout_stored_iff {steps : List TrafficStep} (h : t.queue.Numbered)
    (hone : (t.account id).stored ≤ 1)
    (hyoung : Throughout ttl (fun t _ => t.Young ttl id) t steps) :
    Throughout ttl (fun t a => ((t.step ttl a).account id).stored ≤ 1) t steps ↔
      Throughout ttl (fun t a => ¬ t.Repeats id a) t steps := by
  induction steps generalizing t with
  | nil => exact Iff.rfl
  | cons a rest ih =>
      obtain ⟨hnow, hlater⟩ := hyoung
      constructor
      · rintro ⟨hstep, hrest⟩
        refine ⟨fun hrepeats => ?_, (ih (numbered_step h a) hstep hlater).mp hrest⟩
        have htwo : ((t.step ttl a).account id).stored = _ := stored_step_of_repeats hrepeats
        have hstored := hrepeats.1.1
        omega
      · rintro ⟨hstep, hrest⟩
        have hle := stored_step_le h hnow hone hstep
        exact ⟨hle, (ih (numbered_step h a) hle hlater).mpr hrest⟩

/-! ## Where nothing interferes -/

/-- Whether a step does not interfere with a job: it does not take its mark off while a copy of it is
in hand, and offers no job of its identifier that is kept in memory alone. -/
def Spares (t : Traffic) (id : JobId) : TrafficStep → Prop
  | .offer (.volatile info) _ => info.jobId ≠ id
  | .cancel other => other = id → (t.account id).running = 0
  | .stop => (t.account id).running = 0
  | .wait _ | .housekeeping _ _ | .offer (.persisted _) _ | .takeOut _ | .runEnds _ => True

instance (t : Traffic) (id : JobId) (a : TrafficStep) : Decidable (t.Spares id a) :=
  match a with
  | .offer (.volatile info) _ => inferInstanceAs (Decidable (info.jobId ≠ id))
  | .cancel other => inferInstanceAs (Decidable (other = id → (t.account id).running = 0))
  | .stop => inferInstanceAs (Decidable ((t.account id).running = 0))
  | .wait _ | .housekeeping _ _ | .offer (.persisted _) _ | .takeOut _ | .runEnds _ =>
    inferInstanceAs (Decidable True)

/-- Whether there is no more than one copy of a job, in the queue or in hand, and the copy has its
mark. -/
structure Sole (x : Account) : Prop where
  allStored : x.queued = x.stored
  one : x.queued + x.running ≤ 1
  marked : x.mark = none → x.queued + x.running = 0

/-- A copy keeps its mark where nothing interferes with it, and keeps all others out. -/
theorem Turns.sole (hturns : Turns ttl t id a y) (hle : y.stored ≤ y.queued)
    (h : Sole (t.account id)) (hyoung : t.Young ttl id) (hspares : t.Spares id a) : Sole y := by
  obtain ⟨hall, hone, hmarked⟩ := h
  cases hturns with
  | aside => exact ⟨hall, hone, hmarked⟩
  | letIn hid hfresh =>
      have hzero := hmarked (mark_eq_none_of_not_fresh hyoung hfresh)
      constructor
      · simp only [hall]
      · simp only
        omega
      · intro hmark
        cases hmark
  | letInVolatile hid => exact absurd hid hspares
  | takenOut hstored hdrop hqueued =>
      simp only at hle
      constructor
      · simp only
        omega
      · simp only
        omega
      · intro hmark
        have hzero := hmarked hmark
        omega
  | ended hjob hid hrunning =>
      -- The run that ends is that of the only copy.
      have hzero : (t.account id).queued = 0 := by omega
      constructor
      · exact hall
      · simp only
        omega
      · intro _
        simp only
        omega
  | cancelled =>
      have hnone : (t.account id).running = 0 := hspares rfl
      exact ⟨rfl, by simp [hnone], fun _ => by simp [hnone]⟩
  | stopped hqueued =>
      have hnone : (t.account id).running = 0 := hspares
      constructor
      · simp only
        omega
      · simp only
        omega
      · intro _
        simp only
        omega

/-- While marks are young and nothing interferes, there never is more than one copy of the job. -/
theorem Sole.throughout {steps : List TrafficStep} (h : Sole (t.account id))
    (hnumbered : t.queue.Numbered)
    (hyoung : Throughout ttl (fun t _ => t.Young ttl id) t steps)
    (hspares : Throughout ttl (fun t a => t.Spares id a) t steps) :
    Throughout ttl (fun t a => ((t.step ttl a).account id).queued +
      ((t.step ttl a).account id).running ≤ 1) t steps := by
  induction steps generalizing t with
  | nil => trivial
  | cons a rest ih =>
      have hstep : Sole ((t.step ttl a).account id) :=
        (turns_step hnumbered a id).sole (stored_le_queued _ id) h hyoung.1 hspares.1
      exact ⟨hstep.one, ih hstep (numbered_step hnumbered a) hyoung.2 hspares.2⟩

/-- Throughout a history, a copy of a job loses its mark as a run of the job ends, and not
otherwise. -/
theorem throughout_bare_step_iff {steps : List TrafficStep} (hnumbered : t.queue.Numbered) :
    Throughout ttl
      (fun t a => ¬ t.Bare id → ((t.step ttl a).Bare id ↔ t.EndsBeside id a)) t steps := by
  induction steps generalizing t with
  | nil => trivial
  | cons a rest ih => exact ⟨bare_step_iff hnumbered, ih (numbered_step hnumbered a)⟩

/-- In every history of a new queue in which the marks of a job stay young, at most one copy of the
stored job is queued at every moment exactly if the job is never offered while a copy is queued that
has no mark. A copy loses its mark exactly when a run of the job ends while it is queued, so it must
have been let in beside the copy in hand. Where no cancellation and no stop takes the mark of a copy
in hand off, and no other job has the identifier, there is never more than one copy in the queue and
in hand together. -/
theorem one_queued_iff (ttl start : Time) (id : JobId) (steps : List TrafficStep)
    (hyoung : Throughout ttl (fun t _ => t.Young ttl id) { clock := start } steps) :
    (Throughout ttl (fun t a => ((t.step ttl a).account id).stored ≤ 1) { clock := start } steps ↔
      Throughout ttl (fun t a => ¬ t.Repeats id a) { clock := start } steps) ∧
    Throughout ttl (fun t a => ¬ t.Bare id → ((t.step ttl a).Bare id ↔ t.EndsBeside id a))
      { clock := start } steps ∧
    (Throughout ttl (fun t a => t.Spares id a) { clock := start } steps →
      Throughout ttl (fun t a => ((t.step ttl a).account id).queued +
        ((t.step ttl a).account id).running ≤ 1) { clock := start } steps) := by
  have hsole : Sole (({ clock := start } : Traffic).account id) :=
    ⟨rfl, Nat.zero_le _, fun _ => rfl⟩
  exact ⟨throughout_stored_iff TodoQueue.numbered_empty (Nat.zero_le _) hyoung,
    throughout_bare_step_iff TodoQueue.numbered_empty,
    fun hspares => hsole.throughout TodoQueue.numbered_empty hyoung hspares⟩

/-- An offer of a job at once. -/
def offerJob : TrafficStep := .offer (.persisted (.appointed "J" 0 none)) 0

/-- A commit and a load pass offer a job, and it is offered again while it is run and after the run
has ended, before the scheduler is stopped. There is never more than one copy of it. -/
theorem one_queued_iff_untilStop :
    let steps := [offerJob, .wait 5, offerJob, .takeOut 5, offerJob, .runEnds 0, offerJob, .stop]
    Throughout 3600000 (fun t _ => t.Young 3600000 ⟨"J"⟩) { clock := 0 } steps ∧
    Throughout 3600000 (fun t a => ((t.step 3600000 a).account ⟨"J"⟩).queued +
      ((t.step 3600000 a).account ⟨"J"⟩).running ≤ 1) { clock := 0 } steps := by
  intro steps
  have hyoung : Throughout 3600000 (fun t _ => t.Young 3600000 ⟨"J"⟩) { clock := 0 } steps := by
    decide
  exact ⟨hyoung, (one_queued_iff 3600000 0 ⟨"J"⟩ steps hyoung).2.2 (by decide)⟩

/-- The scheduler is stopped while a job is run, and the job is offered again. When the run has
ended, it is offered once more, and then it is queued twice. No mark is older than it may be. -/
theorem two_queued_after_stop :
    let steps := [offerJob, .takeOut 0, .stop, offerJob, .runEnds 0, offerJob]
    Throughout 3600000 (fun t _ => t.Young 3600000 ⟨"J"⟩) {} steps ∧
      ¬ Throughout 3600000 (fun t a => ((t.step 3600000 a).account ⟨"J"⟩).stored ≤ 1) {} steps ∧
      ((Traffic.play 3600000 {} steps).account ⟨"J"⟩).stored = 2 := by
  decide

end Traffic

/-! ## On a node -/

namespace Cluster

/-- A node with a job that is due, and a resource manager that refuses to begin. -/
def unableToBegin : Cluster Unit Unit :=
  { ofProcessors with
    clock := 5
    jobs := JobStore.holding [.appointed "J" 0 (some ⟨"a"⟩)]
    resource.refusesBegin := true }

/-- A load pass on the node. -/
def load (c : Cluster Unit Unit) : Cluster Unit Unit := (c.housekeep "a" .loadImmediate).2

/-- The node, with the task that is due first taken out of its queue. -/
def taken (c : Cluster Unit Unit) : Option (Task × Cluster Unit Unit) :=
  ((c.node "a").scheduler.todo.pop? c.clock).map fun x => (x.1, c.modifyTodo "a" fun _ => x.2)

/-- The scheduler of a node is started, a load pass queues a job, and a loop takes it out. Before it
is run, the scheduler is stopped and started again, and another load pass queues the job again. The
run fails before it has claimed the job, and takes the mark off. So the next load pass queues the job
once more, while its other copy is still there. -/
theorem queued_twice :
    let job : ScheduledJob := .persisted (.published (.appointed "J" 0 (some ⟨"a"⟩)))
    let held := taken (load (unableToBegin.start "a" true).2)
    let failed := held.map fun x => (runJob .silent "a" job (load ((x.2.stop "a").start "a" true).2)).2
    held.map Prod.fst = some (.job job) ∧
      (failed.map fun c => (c.jobs.find? ⟨"J"⟩).map JobRecord.state) = some (some .pending) ∧
      (failed.map fun c => ((load c).node "a").scheduler.todo.entries.countP fun e =>
        e.task.isStored ⟨"J"⟩) = some 2 := by
  refine ⟨?_, ?_, ?_⟩
  · decide +kernel
  · decide +kernel
  · decide +kernel

end Cluster

end JobCluster
