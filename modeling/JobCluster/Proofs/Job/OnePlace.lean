import JobCluster.Proofs.Job.Dispatch
/-!
# The places of a volatile job

A job that is kept in memory alone is in the todo queue, in the hands of a dispatch loop, with a
worker, or done with. A stop that finds a loop waiting for a worker loses the job that the loop has
in hand, and a cancellation that fails loses the job that it has taken out of the queue. This file
follows the copies of every job through all histories of the dispatch, and shows that there is no
other way to lose one but by an aborted loop that finds no worker.

Main results:

- `Dispatch.Accounts.step`: every copy is in one of its places, cancelled, or lost;
- `Dispatch.hasLost_step`: the steps that lose a copy;
- `Dispatch.one_place_iff`: a committed job that nobody has cancelled is in exactly one place
  exactly if no step has lost it, and runs at most once;
- `Dispatch.lost_by_stop_and_cancel`: a job that is lost by a stop, and one that is lost by a
  cancellation that fails.
-/

namespace JobCluster

variable {η ω : Type}

/-- Whether the loop has a copy of a job in hand. -/
def DispatchLoop.holds (id : JobId) (l : DispatchLoop) : Bool :=
  l.stage.held?.any (Task.isCopyOf id)

namespace Dispatch

variable (n : NodeName) (s : Dispatch η ω)

/-! ## Where the copies are -/

/-- The number of copies of a job that the loops have in hand. -/
def held (id : JobId) : Nat := s.loops.countP (DispatchLoop.holds id)

/-- The number of copies of a job that workers are busy with. -/
def running (id : JobId) : Nat := s.runs.countP fun r => r.task.isCopyOf id && !r.finished

/-- The number of copies of a job that workers have done with. -/
def done (id : JobId) : Nat := s.runs.countP fun r => r.task.isCopyOf id && r.finished

/-- The number of copies of a job in the queue, in the hands of a loop, with a worker, or done
with. -/
def places (id : JobId) : Nat := (s.todo n).copies id + s.held id + s.running id + s.done id

variable {n s}

/-- What was handed to a worker is still running or done with. -/
theorem running_add_done (s : Dispatch η ω) (id : JobId) :
    s.running id + s.done id = s.runs.countP fun r => r.task.isCopyOf id := by
  refine (countP_add fun r => ?_).symm
  cases r.task.isCopyOf id <;> cases r.finished <;> rfl

/-- The copies with workers are the runs of the job, finished or not. -/
theorem places_eq (n : NodeName) (s : Dispatch η ω) (id : JobId) : s.places n id =
    (s.todo n).copies id + s.held id + s.runs.countP fun r => r.task.isCopyOf id := by
  rw [← running_add_done, places]
  exact Nat.add_assoc _ _ _

/-- A loop that moves on changes what the loops have in hand by what it has. -/
theorem countP_holds_set {loops : List DispatchLoop} {i : Nat} {l : DispatchLoop}
    (hl : loops[i]? = some l) {old new : Option Task} {stage : LoopStage}
    (hold : l.stage.held? = old) (hnew : stage.held? = new) (id : JobId) :
    (loops.set i (l.goTo stage)).countP (DispatchLoop.holds id) +
        (old.any (Task.isCopyOf id)).toNat =
      loops.countP (DispatchLoop.holds id) + (new.any (Task.isCopyOf id)).toNat := by
  subst hold hnew
  exact countP_set_add hl _

/-! ## Accounts -/

/-- How the places of all copies agree with the logs. -/
structure Accounts (n : NodeName) (s : Dispatch η ω) : Prop where
  numbered : (s.todo n).Numbered
  /-- Every copy that was committed is in one of its places, cancelled, or lost. -/
  balance : ∀ id, s.places n id + s.cancelled.countP (Task.isCopyOf id) +
    s.lost.countP (Task.isCopyOf id) = s.committed.countP (Task.isCopyOf id)
  /-- The processor was invoked once for every run that has invoked it. -/
  invoked : ∀ id, s.invocations.countP (Task.isCopyOf id) =
    s.runs.countP fun r => r.task.isCopyOf id && r.invoked

namespace Accounts

/-- A change of the cluster that leaves the volatile jobs in the queue as they are. -/
theorem of_cluster (h : Accounts n s) {c : Cluster η ω}
    (hsame : (s.todo n).SameCopies (c.node n).scheduler.todo) :
    Accounts n { s with cluster := c } where
  numbered := hsame.numbered h.numbered
  balance id := by
    have hbalance := h.balance id
    have hsame := hsame.copies id
    simp only [places, todo, held, running, done] at hbalance hsame ⊢
    omega
  invoked := h.invoked

/-- A loop that keeps what it has in hand keeps the accounts. -/
theorem moveLoop (h : Accounts n s) {i : Nat} {l : DispatchLoop} (hl : s.loops[i]? = some l)
    {stage : LoopStage} (hheld : stage.held? = l.stage.held?) :
    Accounts n (s.moveLoop i l stage) where
  numbered := h.numbered
  balance id := by
    have hbalance := h.balance id
    have hmoved := countP_holds_set hl rfl hheld id
    simp only [places, held, running, done, Dispatch.moveLoop] at hbalance ⊢
    rw [Nat.add_right_cancel hmoved]
    exact hbalance
  invoked := h.invoked

/-- A copy that is taken out of the queue is in the hand of the loop. -/
theorem take (h : Accounts n s) {i : Nat} {l : DispatchLoop} (hl : s.loops[i]? = some l)
    (hnone : l.stage.held? = none) {now : Time} {task : Task} {rest : TodoQueue}
    (hpop : (s.todo n).pop? now = some (task, rest)) : Accounts n (s.take n i l task rest) := by
  have htodo : (s.take n i l task rest).todo n = rest := s.cluster.todo_modifyTodo n fun _ => rest
  refine ⟨?_, fun id => ?_, h.invoked⟩
  · rw [htodo]
    exact h.numbered.pop? hpop
  · have hbalance := h.balance id
    have htaken := h.numbered.copies_pop? hpop id
    have hcarrying : (LoopStage.carrying task).held? = some task := rfl
    have hmoved := countP_holds_set hl hnone hcarrying id
    simp only [Option.any_none, Option.any_some, Bool.toNat_false] at hmoved
    simp only [places, held, running, done, htodo] at hbalance ⊢
    simp only [Dispatch.take]
    omega

/-- A copy that is handed over is invoked, and with a worker. -/
theorem handOver (h : Accounts n s) {i : Nat} {l : DispatchLoop} (hl : s.loops[i]? = some l)
    {task : Task} (htask : l.stage.held? = some task) : Accounts n (s.handOver i l task) := by
  refine ⟨h.numbered, fun id => ?_, fun id => ?_⟩
  · have hbalance := h.balance id
    have htop : LoopStage.top.held? = none := rfl
    have hmoved := countP_holds_set hl htask htop id
    simp only [Option.any_none, Option.any_some, Bool.toNat_false] at hmoved
    have hdone : (s.handOver i l task).done id = s.done id := by simp [done, Dispatch.handOver]
    have hrunning : (s.handOver i l task).running id =
        s.running id + (task.isCopyOf id).toNat := by
      cases hcopy : task.isCopyOf id <;> simp [running, Dispatch.handOver, hcopy]
    simp only [places, held, hdone, hrunning] at hbalance ⊢
    simp only [todo, Dispatch.handOver] at hbalance ⊢
    omega
  · have hinvoked := h.invoked id
    simpa [Dispatch.handOver] using hinvoked

/-- A copy with which a loop ends is lost. -/
theorem drop (h : Accounts n s) {i : Nat} {l : DispatchLoop} (hl : s.loops[i]? = some l)
    {task : Task} (htask : l.stage.held? = some task) : Accounts n (s.drop i l task) := by
  refine ⟨h.numbered, fun id => ?_, h.invoked⟩
  have hbalance := h.balance id
  have hended : LoopStage.ended.held? = none := rfl
  have hmoved := countP_holds_set hl htask hended id
  simp only [Option.any_none, Option.any_some, Bool.toNat_false] at hmoved
  simp only [places, todo, held, running, done, Dispatch.drop, List.countP_append,
    countP_cons_toNat, List.countP_nil] at hbalance ⊢
  omega

theorem goOn (h : Accounts n s) {i : Nat} {l : DispatchLoop} (hl : s.loops[i]? = some l)
    (ready : Bool) : Accounts n (s.goOn n i l ready) := by
  cases hstage : l.stage with
  | top =>
      simp only [Dispatch.goOn, hstage]
      refine h.moveLoop hl ?_
      rw [hstage]
      split <;> rfl
  | looking now =>
      have hnone : l.stage.held? = none := by rw [hstage]; rfl
      simp only [Dispatch.goOn, hstage]
      split
      · next task rest hpop => exact h.take hl hnone hpop
      · refine h.moveLoop hl ?_
        rw [hnone]
        split
        · rfl
        · split <;> rfl
  | carrying task =>
      have htask : l.stage.held? = some task := by rw [hstage]; rfl
      simp only [Dispatch.goOn, hstage]
      split
      · exact h.handOver hl htask
      · split
        · exact h.drop hl htask
        · exact h.moveLoop hl htask.symm
  | waiting task =>
      have htask : l.stage.held? = some task := by rw [hstage]; rfl
      simp only [Dispatch.goOn, hstage]
      split
      · exact h.handOver hl htask
      · exact h
  | asleep =>
      simp only [Dispatch.goOn, hstage]
      exact h.moveLoop hl (by rw [hstage]; rfl)
  | ended =>
      simp only [Dispatch.goOn, hstage]
      exact h

/-- A worker makes progress with its task. -/
theorem setRun (h : Accounts n s) {k : Nat} {r r' : PoolRun} (hr : s.runs[k]? = some r)
    (htask : r'.task = r.task) (hinvoked : r'.invoked = r.invoked) :
    Accounts n { s with runs := s.runs.set k r' } where
  numbered := h.numbered
  balance id := by
    have hbalance := h.balance id
    have hsame := countP_set_of_eq (p := fun r : PoolRun => r.task.isCopyOf id) hr
      (congrArg (Task.isCopyOf id) htask)
    simp only [places_eq, todo, held, hsame] at hbalance ⊢
    exact hbalance
  invoked id := by
    refine (h.invoked id).trans (countP_set_of_eq hr ?_).symm
    rw [htask, hinvoked]

/-- A copy that is committed is queued. -/
theorem commit (h : Accounts n s) (info : JobInfo) : Accounts n (s.step n (.commit info)) := by
  have htodo : (s.step n (.commit info)).todo n = _ := s.cluster.todo_modifyTodo n _
  refine ⟨?_, fun id => ?_, h.invoked⟩
  · rw [htodo]
    exact h.numbered.enqueue _ _ _ _
  · have hbalance := h.balance id
    simp only [places, held, running, done, htodo, TodoQueue.copies_enqueue] at hbalance ⊢
    simp only [Dispatch.step, List.countP_append, countP_cons_toNat, List.countP_nil, todo]
      at hbalance ⊢
    omega

/-- A copy that is taken out of the queue by a cancellation is cancelled or lost. -/
theorem cancel (h : Accounts n s) (id : JobId) : Accounts n (s.step n (.cancel id)) := by
  have htodo := s.cluster.todo_cancel n id
  have hcopies := (s.todo n).copies_remove_add id
  simp only [Dispatch.step]
  split
  all_goals
    next answer cluster hcancel =>
    rw [hcancel] at htodo
    refine ⟨?_, fun other => ?_, h.invoked⟩
    · show (cluster.node n).scheduler.todo.Numbered
      rw [htodo]
      exact h.numbered.remove id
    · have hbalance := h.balance other
      have hother := hcopies other
      simp only [places, held, running, done, todo, htodo, List.countP_append]
        at hbalance hother ⊢
      omega

/-- A new loop has nothing in hand. -/
theorem start (h : Accounts n s) (insideRuntime : Bool) :
    Accounts n (s.step n (.start insideRuntime)) := by
  have hsame := h.of_cluster (s.cluster.sameCopies_start n insideRuntime)
  simp only [Dispatch.step]
  split
  · refine ⟨hsame.numbered, fun id => ?_, hsame.invoked⟩
    have hbalance := hsame.balance id
    have hnew : DispatchLoop.holds id {} = false := rfl
    simp only [places, todo, held, running, done, List.countP_append, countP_cons_toNat,
      List.countP_nil, hnew, Bool.toNat_false] at hbalance ⊢
    exact hbalance
  · exact hsame

/-- What a loop has in hand stays with it when it is aborted, or is lost. -/
theorem countP_holds_abort (loops : List DispatchLoop) (id : JobId) :
    loops.countP (DispatchLoop.holds id) =
      (loops.map DispatchLoop.abort).countP (DispatchLoop.holds id) +
        (loops.filterMap fun l => l.stage.dropped?).countP (Task.isCopyOf id) := by
  rw [List.countP_map, List.countP_filterMap]
  refine countP_add fun l => ?_
  obtain ⟨stage, aborted⟩ := l
  cases stage with
  | waiting task =>
      exact (Nat.zero_add _).symm
  | _ => rfl

/-- A stop loses what the loops have in hand that wait for a worker. -/
theorem stop (h : Accounts n s) : Accounts n (s.step n .stop) := by
  have hsame := h.of_cluster (s.cluster.sameCopies_stop n)
  simp only [Dispatch.step]
  split
  · refine ⟨hsame.numbered, fun id => ?_, hsame.invoked⟩
    have hbalance := hsame.balance id
    have habort := countP_holds_abort s.loops id
    simp only [places, todo, held, running, done, List.countP_append] at hbalance ⊢
    omega
  · exact h

/-- A worker that invokes the processor has not done so before. -/
theorem invoke (h : Accounts n s) (k : Nat) : Accounts n (s.step n (.invoke k)) := by
  simp only [Dispatch.step]
  split
  · next r hr =>
    split
    · exact h
    · next hidle =>
      have hnot : r.invoked = false := by
        cases hinvoked : r.invoked with
        | false => rfl
        | true => simp [hinvoked] at hidle
      refine ⟨h.numbered, fun id => ?_, fun id => ?_⟩
      · have hbalance := h.balance id
        have hsame := countP_set_of_eq (p := fun r : PoolRun => r.task.isCopyOf id)
          (b := { r with invoked := true }) hr rfl
        simp only [places_eq, todo, held, hsame] at hbalance ⊢
        exact hbalance
      · have hinvoked := h.invoked id
        have hone := countP_set_add (p := fun r : PoolRun => r.task.isCopyOf id && r.invoked) hr
          { r with invoked := true }
        simp only [hnot, Bool.and_false, Bool.and_true, Bool.toNat_false] at hone
        simp only [List.countP_append, countP_cons_toNat, List.countP_nil]
        omega
  · exact h

/-- Every copy is in one of its places, cancelled, or lost, after every step. -/
theorem step (h : Accounts n s) (m : DispatchStep η ω n) : Accounts n (s.step n m) := by
  cases m with
  | commit info => exact h.commit info
  | cancel id => exact h.cancel id
  | start insideRuntime => exact h.start insideRuntime
  | stop => exact h.stop
  | proceed i ready =>
      simp only [Dispatch.step]
      split
      · next l hl => exact h.goOn hl ready
      · exact h
  | invoke k => exact h.invoke k
  | finish k =>
      simp only [Dispatch.step]
      split
      · next r hr => exact h.setRun hr rfl rfl
      · exact h
  | occupy guests => exact ⟨h.numbered, h.balance, h.invoked⟩
  | aside what => exact h.of_cluster (what.same s.cluster)

/-- Every copy is in one of its places, cancelled, or lost, after every history. -/
theorem play (h : Accounts n s) (steps : List (DispatchStep η ω n)) :
    Accounts n (s.play n steps) := by
  induction steps generalizing s with
  | nil => exact h
  | cons m rest ih => exact ih (h.step m)

end Accounts

/-! ## Losses -/

/-- Whether a step loses a copy of a job. -/
inductive Loses (n : NodeName) (s : Dispatch η ω) (id : JobId) : DispatchStep η ω n → Prop
  /-- A stop finds a loop waiting for a worker. -/
  | stop {l : DispatchLoop} {task : Task} (hrunning : s.isRunning n = true) (hl : l ∈ s.loops)
      (hstage : l.stage = .waiting task) (hcopy : task.isCopyOf id = true) : Loses n s id .stop
  /-- A loop that was aborted at work finds no worker. -/
  | proceed {i : Nat} {ready : Bool} {l : DispatchLoop} {task : Task} (hl : s.loops[i]? = some l)
      (hstage : l.stage = .carrying task) (haborted : l.aborted = true)
      (hnone : (ready && s.hasWorker n) = false) (hcopy : task.isCopyOf id = true) :
      Loses n s id (.proceed i ready)
  /-- A cancellation takes the job out of the queue and fails. -/
  | cancel {other : JobId} {e : SchedulerError} {task : Task}
      (hanswer : (s.cluster.cancel n other).1 = .error e) (htask : task ∈ (s.todo n).tasksOf other)
      (hcopy : task.isCopyOf id = true) : Loses n s id (.cancel other)

/-- Whether one of a list of steps loses a copy of a job. -/
def LosesIn (n : NodeName) (id : JobId) : Dispatch η ω → List (DispatchStep η ω n) → Prop
  | _, [] => False
  | s, m :: rest => s.Loses n id m ∨ (s.step n m).LosesIn n id rest

/-- Whether a copy of a job is lost. -/
def HasLost (s : Dispatch η ω) (id : JobId) : Prop := ∃ task ∈ s.lost, task.isCopyOf id = true

variable {id : JobId}

/-- A copy is lost afterwards if it was lost before, or is one of the tasks that are lost now. -/
theorem hasLost_append {t : Dispatch η ω} (tasks : List Task) (h : t.lost = s.lost ++ tasks) :
    t.HasLost id ↔ s.HasLost id ∨ ∃ task ∈ tasks, task.isCopyOf id = true := by
  simp [HasLost, h, or_and_right, exists_or]

/-- A stop loses the copies with which loops wait for a worker. -/
theorem loses_stop_iff :
    s.Loses n id .stop ↔ s.isRunning n = true ∧
      ∃ task ∈ s.loops.filterMap fun l => l.stage.dropped?, task.isCopyOf id = true := by
  constructor
  · intro hloses
    cases hloses with
    | stop hrunning hl hstage hcopy =>
        have hdropped := LoopStage.dropped?_eq_some.mpr hstage
        exact ⟨hrunning, _, List.mem_filterMap.mpr ⟨_, hl, hdropped⟩, hcopy⟩
  · rintro ⟨hrunning, task, htask, hcopy⟩
    obtain ⟨l, hl, hdropped⟩ := List.mem_filterMap.mp htask
    exact .stop hrunning hl (LoopStage.dropped?_eq_some.mp hdropped) hcopy

/-- A cancellation that fails loses the copies that it has taken out of the queue. -/
theorem loses_cancel_iff {other : JobId} :
    s.Loses n id (.cancel other) ↔ (∃ e, (s.cluster.cancel n other).1 = .error e) ∧
      ∃ task ∈ (s.todo n).tasksOf other, task.isCopyOf id = true := by
  constructor
  · intro hloses
    cases hloses with
    | cancel hanswer htask hcopy => exact ⟨⟨_, hanswer⟩, _, htask, hcopy⟩
  · rintro ⟨⟨e, hanswer⟩, task, htask, hcopy⟩
    exact .cancel hanswer htask hcopy

/-- A loop that goes on loses the copy with which it was aborted at work, if it finds no worker. -/
theorem loses_proceed_iff {i : Nat} {l : DispatchLoop} (hl : s.loops[i]? = some l)
    (ready : Bool) :
    s.Loses n id (.proceed i ready) ↔ ∃ task, l.stage = .carrying task ∧ l.aborted = true ∧
      (ready && s.hasWorker n) = false ∧ task.isCopyOf id = true := by
  constructor
  · intro hloses
    cases hloses with
    | proceed hl' hstage haborted hnone hcopy =>
        rw [hl] at hl'
        cases hl'
        exact ⟨_, hstage, haborted, hnone, hcopy⟩
  · rintro ⟨task, hstage, haborted, hnone, hcopy⟩
    exact .proceed hl hstage haborted hnone hcopy

/-- A loop that goes on loses its task only if it was aborted at work and finds no worker. -/
theorem hasLost_goOn {i : Nat} {l : DispatchLoop} (hl : s.loops[i]? = some l) (ready : Bool) :
    (s.goOn n i l ready).HasLost id ↔ s.HasLost id ∨ s.Loses n id (.proceed i ready) := by
  rw [loses_proceed_iff hl]
  cases hstage : l.stage with
  | carrying task =>
      simp only [goOn, hstage]
      split
      · next hready => simp [hready, HasLost, handOver]
      · next hready =>
        split
        · next haborted =>
          rw [hasLost_append (s := s) [task] rfl]
          simp [haborted, hready]
        · next haborted => simp [haborted, HasLost, moveLoop]
  | looking now =>
      simp only [goOn, hstage]
      split <;> simp [HasLost, take, moveLoop]
  | waiting task =>
      simp only [goOn, hstage]
      split <;> simp [HasLost, handOver]
  | top | asleep | ended => simp [goOn, hstage, HasLost, moveLoop]

/-- A job has lost a copy after a step if it had before, or the step loses one. -/
theorem hasLost_step (m : DispatchStep η ω n) :
    (s.step n m).HasLost id ↔ s.HasLost id ∨ s.Loses n id m := by
  have hkept (h : ¬ s.Loses n id m) : s.HasLost id ↔ s.HasLost id ∨ s.Loses n id m :=
    (or_iff_left h).symm
  cases m with
  | commit info => exact hkept fun hloses => by cases hloses
  | start insideRuntime =>
      refine Iff.trans ?_ (hkept fun hloses => by cases hloses)
      simp only [step]
      split <;> exact Iff.rfl
  | cancel other =>
      simp only [step]
      split
      · next hanswer =>
        refine hkept fun hloses => ?_
        obtain ⟨⟨e, herror⟩, _⟩ := loses_cancel_iff.mp hloses
        rw [hanswer] at herror
        cases herror
      · next hanswer =>
        rw [hasLost_append (s := s) ((s.todo n).tasksOf other) rfl, loses_cancel_iff,
          and_iff_right ⟨_, congrArg Prod.fst hanswer⟩]
  | stop =>
      simp only [step]
      split
      · next hrunning =>
        rw [hasLost_append (s := s) (s.loops.filterMap fun l => l.stage.dropped?) rfl,
          loses_stop_iff, and_iff_right hrunning]
      · next hrunning => exact hkept fun hloses => hrunning (loses_stop_iff.mp hloses).1
  | proceed i ready =>
      simp only [step]
      split
      · next l hl => exact hasLost_goOn hl ready
      · next hnone =>
        refine hkept fun hloses => ?_
        cases hloses with
        | proceed hl _ _ _ _ =>
            rw [hnone] at hl
            cases hl
  | invoke k =>
      refine Iff.trans ?_ (hkept fun hloses => by cases hloses)
      simp only [step]
      split
      · split <;> exact Iff.rfl
      · exact Iff.rfl
  | finish k =>
      refine Iff.trans ?_ (hkept fun hloses => by cases hloses)
      simp only [step]
      split <;> exact Iff.rfl
  | occupy guests => exact hkept fun hloses => by cases hloses
  | aside what => exact hkept fun hloses => by cases hloses

/-- A job has lost a copy after a history if it had before, or a step of the history loses one. -/
theorem hasLost_play (steps : List (DispatchStep η ω n)) :
    (s.play n steps).HasLost id ↔ s.HasLost id ∨ s.LosesIn n id steps := by
  induction steps generalizing s with
  | nil => exact (or_iff_left not_false).symm
  | cons m rest ih => exact ih.trans ((or_congr_left (hasLost_step m)).trans or_assoc)

/-! ## One place -/

/-- A loop that goes on writes into no log but that of lost jobs. -/
theorem goOn_frame (i : Nat) (l : DispatchLoop) (ready : Bool) : ∃ cluster loops runs lost,
    s.goOn n i l ready = { s with cluster, loops, runs, lost } := by
  obtain ⟨stage, aborted⟩ := l
  cases stage with
  | looking now =>
      simp only [goOn]
      split <;> exact ⟨_, _, _, _, rfl⟩
  | carrying task =>
      simp only [goOn]
      split
      · exact ⟨_, _, _, _, rfl⟩
      · split <;> exact ⟨_, _, _, _, rfl⟩
  | waiting task =>
      simp only [goOn]
      split <;> exact ⟨_, _, _, _, rfl⟩
  | top | asleep | ended => exact ⟨_, _, _, _, rfl⟩

/-- A loop that goes on commits nothing. -/
theorem committed_goOn (i : Nat) (l : DispatchLoop) (ready : Bool) :
    (s.goOn n i l ready).committed = s.committed := by
  obtain ⟨_, _, _, _, heq⟩ := s.goOn_frame (n := n) i l ready
  rw [heq]

/-- A step that commits no job leaves the log of committed ones as it is. -/
theorem countP_committed_step (m : DispatchStep η ω n) (id : JobId) :
    (s.step n m).committed.countP (Task.isCopyOf id) =
      s.committed.countP (Task.isCopyOf id) + m.committed?.toList.count id := by
  cases m with
  | commit info =>
      simp only [step, DispatchStep.committed?, List.countP_append, Option.toList, List.count]
      rfl
  | cancel other =>
      simp only [step]
      split <;> rfl
  | start insideRuntime =>
      simp only [step]
      split <;> rfl
  | stop =>
      simp only [step]
      split <;> rfl
  | proceed i ready =>
      simp only [step]
      split
      · rw [committed_goOn]
        rfl
      · rfl
  | invoke k =>
      simp only [step]
      split
      · split <;> rfl
      · rfl
  | finish k =>
      simp only [step]
      split <;> rfl
  | occupy guests => rfl
  | aside what => rfl

/-- The log grows by the copies of a job that the steps commit. -/
theorem countP_committed_play (steps : List (DispatchStep η ω n)) (id : JobId) :
    (s.play n steps).committed.countP (Task.isCopyOf id) =
      s.committed.countP (Task.isCopyOf id) +
        (steps.filterMap DispatchStep.committed?).count id := by
  induction steps generalizing s with
  | nil => rfl
  | cons m rest ih =>
      refine ih.trans ?_
      rw [countP_committed_step, List.filterMap_cons]
      cases m.committed? with
      | none => simp
      | some j =>
          simp only [Option.toList, List.count_cons, List.count_nil]
          omega

/-- Whether a cancellation has taken a copy of a job out of the queue. -/
def HasCancelled (s : Dispatch η ω) (id : JobId) : Prop :=
  ∃ task ∈ s.cancelled, task.isCopyOf id = true

/-- In every history that commits no job twice, a job that has been committed and that no
cancellation has taken out of the queue is in exactly one place, exactly if no step of the history
has lost it; and the processor is invoked at most once for every job. -/
theorem one_place_iff {c : Cluster η ω} (hnumbered : (c.node n).scheduler.todo.Numbered)
    (hempty : ∀ id, (c.node n).scheduler.todo.copies id = 0) {steps : List (DispatchStep η ω n)}
    (hdistinct : (steps.filterMap DispatchStep.committed?).Nodup) (id : JobId) :
    let s : Dispatch η ω := { cluster := c }
    (id ∈ steps.filterMap DispatchStep.committed? → ¬ (s.play n steps).HasCancelled id →
        ((s.play n steps).places n id = 1 ↔ ¬ s.LosesIn n id steps)) ∧
      (s.play n steps).invocations.countP (Task.isCopyOf id) ≤ 1 := by
  intro s
  have hstart : Accounts n s := by
    refine ⟨hnumbered, fun id => ?_, fun id => rfl⟩
    have hnone : (s.todo n).copies id = 0 := hempty id
    rw [places, hnone]
    rfl
  have haccounts := hstart.play steps
  have hbalance := haccounts.balance id
  rw [countP_committed_play, List.countP_nil, Nat.zero_add] at hbalance
  constructor
  · intro hid hcancelled
    rw [hdistinct.count, if_pos hid] at hbalance
    have hnone : (s.play n steps).cancelled.countP (Task.isCopyOf id) = 0 :=
      List.countP_eq_zero.mpr fun task htask hcopy => hcancelled ⟨task, htask, hcopy⟩
    have hlost : (s.play n steps).lost.countP (Task.isCopyOf id) = 0 ↔ ¬ s.LosesIn n id steps := by
      have hplay : (s.play n steps).HasLost id ↔ s.LosesIn n id steps :=
        (hasLost_play steps).trans (or_iff_right fun ⟨_, htask, _⟩ => List.not_mem_nil htask)
      rw [← hplay, List.countP_eq_zero]
      exact ⟨fun h ⟨task, htask, hcopy⟩ => h task htask hcopy,
        fun h task htask hcopy => h ⟨task, htask, hcopy⟩⟩
    rw [← hlost]
    omega
  · have hcount := List.nodup_iff_count.mp hdistinct id
    have hruns : (s.play n steps).runs.countP (fun r => r.task.isCopyOf id && r.invoked) ≤
        (s.play n steps).runs.countP fun r => r.task.isCopyOf id :=
      List.countP_mono_left fun r _ h => (Bool.and_eq_true_iff.mp h).1
    rw [places_eq] at hbalance
    rw [haccounts.invoked]
    omega

/-- A job that is to be kept in memory. -/
def errand : JobInfo := ⟨⟨"V"⟩, ⟨"", ∅⟩, none, false, true⟩

/-- A job is committed while all workers are busy, and the scheduler starts. The loop waits for a
worker with the job in hand until one has time; the worker runs the job, while another one looks for
jobs to upgrade. -/
def relay : List (DispatchStep Unit Unit "a") :=
  [.commit errand, .occupy 16, .start true, .proceed 0 true, .proceed 0 true, .proceed 0 true,
    .occupy 0, .proceed 0 true, .invoke 0, .aside (.wait 1),
    .aside (.housekeeping .silent .upgradeJobs rfl), .finish 0]

/-- The worker has done with the job, and nothing is lost. -/
theorem one_place_iff_relay :
    (relay.filterMap DispatchStep.committed?).Nodup ∧
      ¬ ({ cluster := .blank } : Dispatch Unit Unit).LosesIn "a" ⟨"V"⟩ relay ∧
      (({ cluster := .blank } : Dispatch Unit Unit).play "a" relay).done ⟨"V"⟩ = 1 := by
  have hdistinct : (relay.filterMap DispatchStep.committed?).Nodup := by decide
  have hplaces := one_place_iff (c := .blank) TodoQueue.numbered_empty (fun _ => rfl) hdistinct
  exact ⟨hdistinct, ((hplaces ⟨"V"⟩).1 (by decide) nofun).mp rfl, rfl⟩

/-- A job is committed while all workers are busy. The scheduler starts and is stopped again while
the loop waits for a worker with the job in hand. -/
def interception : List (DispatchStep Unit Unit "a") :=
  [.commit errand, .occupy 16, .start true, .proceed 0 true, .proceed 0 true, .proceed 0 true,
    .stop]

/-- A job is committed, and the store cannot be reached when the job is cancelled. -/
def vainCancellation : List (DispatchStep Unit Unit "a") :=
  [.commit errand, .aside .outage, .cancel ⟨"V"⟩]

/-- Both histories lose the job, which nobody has cancelled, and which never runs: it is in no place
afterwards. -/
theorem lost_by_stop_and_cancel :
    let s := ({ cluster := .blank } : Dispatch Unit Unit).play "a" interception
    let t := ({ cluster := .blank } : Dispatch Unit Unit).play "a" vainCancellation
    (s.committed = [.job (.volatile errand)] ∧ ¬ s.HasCancelled ⟨"V"⟩ ∧ s.invocations = [] ∧
        s.places "a" ⟨"V"⟩ = 0) ∧
      t.committed = [.job (.volatile errand)] ∧ ¬ t.HasCancelled ⟨"V"⟩ ∧ t.invocations = [] ∧
        t.places "a" ⟨"V"⟩ = 0 := by
  exact ⟨⟨rfl, nofun, rfl, rfl⟩, rfl, nofun, rfl, rfl⟩

end Dispatch

end JobCluster
