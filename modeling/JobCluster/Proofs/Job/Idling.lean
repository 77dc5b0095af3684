import JobCluster.Proofs.Coordination.Recovery
import JobCluster.Proofs.Job.DueJobs
import JobCluster.Proofs.Job.Upkeep
/-!
# Schedulers that come to rest

A dispatch loop takes out one task after another as long as one is due, and only then waits for the
clock. Housekeeping queues itself again, for a time that it reckons from the spans in the settings.
So a scheduler comes to rest only if that time is later than the present one, whichever way the task
goes. Spans are whole milliseconds, and divisions round down: nine tenths of the shortest span that
is accepted are nothing, and a load pass with that span is due again as soon as it is over.

Main results:

- `Housekeeping.lt_loadImmediate_iff`, `Housekeeping.lt_upgradeJobs_iff`,
  `Housekeeping.lt_checkStaleNodes_iff`: when a task asks for a later time;
- `Settings.asksLater_iff`: the settings with which all of them always do;
- `Cluster.Quiet.comes_to_rest`: then a scheduler without jobs that are due comes to rest;
- `Upkeep.worksOff_play`: and its loops and workers, in any order, take out no more
  housekeeping than was due in the beginning, whatever jobs are run;
- `Cluster.Spinning.never_rests`: otherwise it goes on for ever;
- `Settings.reaches_idle_iff`: the accepted settings with which schedulers come to rest.
-/

namespace JobCluster

/-! ## The times that housekeeping asks for -/

namespace Housekeeping

variable {settings : Settings} {now : Time} {store : JobStore}

/-- A load pass asks for a later time unless its span is shorter than two milliseconds; it does in
any case if the store fails it. -/
theorem lt_loadImmediate_iff {todo : TodoQueue} :
    now < (loadImmediate settings now store todo).1 ↔
      2 ≤ settings.immediate.wordMillis ∨
        todo.jobCount ≤ settings.todoLimit / 2 ∧ store.available = false := by
  simp only [loadImmediate, JobStore.dequeueImmediate, JobStore.guarded, retryDelay]
  by_cases hroom : settings.todoLimit / 2 < todo.jobCount
  · simp only [if_pos hroom, Nat.not_le.mpr hroom, false_and, or_false, Nat.lt_add_right_iff_pos]
    omega
  · cases havailable : store.available with
    | true =>
        simp only [if_neg hroom, if_true, Bool.true_eq_false, and_false, or_false,
          Nat.lt_add_right_iff_pos]
        omega
    | false => simp [hroom, Nat.not_lt.mp hroom]

/-- An upgrade asks for a later time if its span is at least two milliseconds or the store fails it,
and on a node that is not the coordinator if there is any time between two heartbeats. -/
theorem lt_upgradeJobs_iff {coordinates : Bool} {view : Heartbeats} :
    now < (upgradeJobs settings now coordinates view store).1 ↔
      if coordinates then 2 ≤ settings.nearFuture.wordMillis ∨ store.available = false
      else 0 < settings.heartbeat.wordMillis := by
  simp only [upgradeJobs, JobStore.upgradeJobs, JobStore.guarded, retryDelay]
  cases coordinates with
  | false => simp
  | true =>
      cases havailable : store.available with
      | false => simp
      | true =>
          simp only [Bool.not_true, Bool.false_eq_true, if_false, if_true, Bool.true_eq_false,
            or_false]
          by_cases hnodes : (candidates settings view).isEmpty = true
          · simp only [hnodes, if_true, Nat.lt_add_right_iff_pos]
            omega
          · simp only [hnodes, Bool.false_eq_true, if_false, Nat.lt_add_right_iff_pos]
            omega

/-- The check for stale nodes asks for a later time unless it waits for nothing. -/
theorem lt_checkStaleNodes_iff {coordinates : Bool} {view : Heartbeats} :
    now < (checkStaleNodes settings now coordinates view store).1 ↔
      0 < settings.stale.wordMillis := by
  cases coordinates <;> simp [checkStaleNodes]

end Housekeeping

namespace Settings

variable {s : Settings}

/-- Whether all housekeeping always asks for a time later than the present one. -/
structure AsksLater (s : Settings) : Prop where
  load : ∀ now store todo, now < (Housekeeping.loadImmediate s now store todo).1
  upgrade : ∀ now coordinates view store,
    now < (Housekeeping.upgradeJobs s now coordinates view store).1
  check : ∀ now coordinates view store,
    now < (Housekeeping.checkStaleNodes s now coordinates view store).1

/-- What all housekeeping asks for depends on four spans. -/
theorem asksLater_iff :
    s.AsksLater ↔ 2 ≤ s.immediate.wordMillis ∧ 2 ≤ s.nearFuture.wordMillis ∧
      0 < s.heartbeat.wordMillis ∧ 0 < s.stale.wordMillis := by
  constructor
  · intro h
    have hload := Housekeeping.lt_loadImmediate_iff.mp (h.load 0 {} {})
    have hupgrade := Housekeeping.lt_upgradeJobs_iff.mp (h.upgrade 0 true {} {})
    refine ⟨?_, ?_, Housekeeping.lt_upgradeJobs_iff.mp (h.upgrade 0 false {} {}),
      Housekeeping.lt_checkStaleNodes_iff.mp (h.check 0 true {} {})⟩
    · simpa using hload
    · simpa using hupgrade
  · rintro ⟨hload, hupgrade, hbeat, hstale⟩
    refine ⟨fun _ _ _ => Housekeeping.lt_loadImmediate_iff.mpr (.inl hload),
      fun _ coordinates _ _ => Housekeeping.lt_upgradeJobs_iff.mpr ?_,
      fun _ _ _ _ => Housekeeping.lt_checkStaleNodes_iff.mpr hstale⟩
    cases coordinates with
    | true => exact .inl hupgrade
    | false => exact hbeat

/-- Whether the spans that housekeeping reckons with fit into 64 bits, nine times the shortest of
them included. -/
structure Fits (s : Settings) : Prop where
  immediate : s.immediate.millis * 9 < Text.wordLimit
  nearFuture : s.nearFuture.millis < Text.wordLimit
  stale : s.stale.millis < Text.wordLimit

/-- What is known of the spans of accepted settings. -/
theorem spans_of_validate (h : s.validate = .ok ()) :
    0 < s.immediate.millis ∧ s.immediate.millis < s.nearFuture.millis ∧
      0 < s.heartbeat.millis ∧ s.heartbeat.millis < s.stale.millis := by
  have hfaults := (validate_eq_ok_iff s).mp h
  simp only [faults, List.forall_mem_cons, beq_eq_false_iff_ne, decide_eq_false_iff_not] at hfaults
  obtain ⟨_, _, _, himmediate, hnear, hheartbeat, hstale, _⟩ := hfaults
  exact ⟨Nat.pos_of_ne_zero himmediate, Nat.not_le.mp hnear, Nat.pos_of_ne_zero hheartbeat,
    Nat.not_le.mp hstale⟩

/-- Accepted settings make all housekeeping ask for a later time exactly if they let load passes
look ahead for more than a millisecond. -/
theorem asksLater_iff_of_validate (h : s.validate = .ok ()) (hfits : s.Fits) :
    s.AsksLater ↔ 2 ≤ s.immediate.millis := by
  obtain ⟨himmediate, hnear, hheartbeat, hstale⟩ := spans_of_validate h
  obtain ⟨hfits, hfitsNear, hfitsStale⟩ := hfits
  rw [asksLater_iff]
  simp only [Duration.wordMillis]
  rw [Nat.mod_eq_of_lt (by omega), Nat.mod_eq_of_lt hfitsNear, Nat.mod_eq_of_lt (by omega),
    Nat.mod_eq_of_lt hfitsStale]
  omega

end Settings

/-! ## Housekeeping that is due -/

namespace TodoQueue

variable {q rest : TodoQueue} {task : Task} {now : Time}

/-- How many housekeeping tasks are due at a time. -/
def dueUpkeep (q : TodoQueue) (now : Time) : Nat :=
  q.entries.countP fun e => !e.task.isJob && decide (e.due ≤ now)

/-- A task that is pushed counts if it is housekeeping and due. -/
theorem dueUpkeep_push (q : TodoQueue) (task : Task) (due now : Time) :
    (q.push task due).dueUpkeep now =
      q.dueUpkeep now + (!task.isJob && decide (due ≤ now)).toNat :=
  countP_cons_toNat _ _ _

/-- What is due later is not due. -/
theorem dueUpkeep_push_later {due : Time} (h : now < due) :
    (q.push task due).dueUpkeep now = q.dueUpkeep now := by
  rw [dueUpkeep_push, decide_eq_false (Nat.not_le.mpr h), Bool.and_false]
  rfl

/-- A job that is queued is not housekeeping. -/
theorem dueUpkeep_enqueue (q : TodoQueue) (job : ScheduledJob) (due time ttl : Time) :
    (q.enqueue job due time ttl).2.dueUpkeep now = q.dueUpkeep now := by
  rcases q.enqueue_cases job due time ttl with ⟨p, hentries, _, heq⟩ | ⟨heq, _⟩
  · rw [heq, dueUpkeep_push, dueUpkeep, hentries]
    rfl
  · rw [heq]

theorem dueUpkeep_loadImmediate (settings : Settings) (time : Time) (store : JobStore) :
    (Housekeeping.loadImmediate settings time store q).2.dueUpkeep now = q.dueUpkeep now := by
  have hall : ∀ (jobs : List JobRecord) ttl,
      (Housekeeping.enqueueAll time ttl jobs q).dueUpkeep now = q.dueUpkeep now :=
    fun jobs ttl => List.foldlRecOn jobs _
      (motive := fun r : TodoQueue => r.dueUpkeep now = q.dueUpkeep now) rfl
      fun r hr job _ => (dueUpkeep_enqueue r _ _ _ _).trans hr
  unfold Housekeeping.loadImmediate
  dsimp only
  split
  · rfl
  · split
    · exact hall _ _
    · rfl

/-- What is due before all others goes out next. -/
theorem earliest?_of_forall_lt {es : List TodoEntry} {e : TodoEntry} (he : e ∈ es)
    (h : ∀ x ∈ es, x = e ∨ e.due < x.due) : earliest? es = some e := by
  cases hfirst : earliest? es with
  | none =>
      rw [earliest?_eq_none_iff.mp hfirst] at he
      cases he
  | some first =>
      rcases h first (earliest?_mem hfirst) with rfl | hlater
      · rfl
      · have hleast := earliest?_least hfirst e he
        simp [TodoEntry.before, hlater] at hleast

/-- Whoever takes a task out that is due takes out housekeeping that is due, or a job. -/
theorem dueUpkeep_pop {time : Time} (h : q.pop? time = some (task, rest)) (hle : time ≤ now) :
    rest.dueUpkeep now + (!task.isJob).toNat ≤ q.dueUpkeep now := by
  obtain ⟨e, he, rfl, hdue, rfl⟩ := pop?_eq_some h
  have hcount : (!e.task.isJob && decide (e.due ≤ now)) = !e.task.isJob := by
    rw [decide_eq_true (Nat.le_trans hdue hle), Bool.and_true]
  rw [← hcount]
  exact countP_filter_add_le he (by simp)

end TodoQueue

/-! ## Jobs that are not due -/

/-- No call that leaves the record of a job changes when the job is due. -/
theorem StoreCall.Revises.same_effectiveDue {a : StoreCall} {x r : JobRecord} (h : a.Revises x r) :
    r.effectiveDue = x.effectiveDue := by
  cases h <;> rfl

namespace JobStore

variable {s : JobStore} {now : Time}

/-- Whether no stored job is due, whoever has it. -/
def NoneDue (s : JobStore) (now : Time) : Prop :=
  ∀ id r, s.find? id = some r → now < r.effectiveDue

/-- No call makes a job due but the one that stages it. -/
theorem NoneDue.apply (h : s.NoneDue now) {a : StoreCall} (ha : ∀ id, a.stages id = false) :
    (a.apply s).NoneDue now := by
  intro id r hr
  obtain ⟨x, hx, hrevises⟩ := StoreCall.revises_of_find?_apply (ha id) hr
  rw [hrevises.same_effectiveDue]
  exact h id x hx

end JobStore

namespace Housekeeping

variable {settings : Settings} {now time : Time} {store : JobStore}

/-- What is queued after a load pass was queued before, or is a job from the store at its due
time. -/
theorem mem_loadImmediate {q : TodoQueue} {e : TodoEntry}
    (h : e ∈ (loadImmediate settings now store q).2.entries) :
    e ∈ q.entries ∨ ∃ id r, store.find? id = some r ∧ e.due = r.effectiveDue := by
  have hall : ∀ (jobs : List JobRecord) ttl, e ∈ (enqueueAll now ttl jobs q).entries →
      e ∈ q.entries ∨ ∃ r ∈ jobs, e.due = r.effectiveDue :=
    fun jobs ttl => List.foldlRecOn jobs _ (motive := fun t : TodoQueue =>
      e ∈ t.entries → e ∈ q.entries ∨ ∃ r ∈ jobs, e.due = r.effectiveDue) .inl
      fun t ht r hr he => by
        rcases TodoQueue.mem_enqueue he with he | ⟨_, hdue⟩
        · exact ht he
        · exact .inr ⟨r, hr, hdue⟩
  unfold loadImmediate at h
  dsimp only at h
  split at h
  · exact .inl h
  · split at h
    · next jobs hjobs =>
      rcases hall _ _ h with he | ⟨r, hr, hdue⟩
      · exact .inl he
      · obtain rfl := Except.ok.inj ((JobStore.guarded_eq_ok_iff _ _ _).mp hjobs).2
        obtain ⟨_, id, hid⟩ := JobStore.mem_dueJobs_iff.mp (List.mem_of_mem_take hr)
        exact .inr ⟨id, r, hid, hdue⟩
    · exact .inl h

/-- A pass over an empty store changes nothing, and is due again at once if its span is too
short. -/
theorem loadImmediate_of_empty {q : TodoQueue} (hshort : settings.immediate.wordMillis ≤ 1) :
    loadImmediate settings now {} q = (now, q) := by
  have hnext : now + settings.immediate.wordMillis * 9 / 10 = now := by
    rw [show settings.immediate.wordMillis * 9 / 10 = 0 by omega, Nat.add_zero]
  have hnone : ({} : JobStore).dequeueImmediate settings.nodeId
      (now + settings.immediate.wordMillis) settings.batchSize = .ok [] := by
    refine (JobStore.guarded_eq_ok_iff _ _ _).mpr ⟨rfl, ?_⟩
    rw [JobStore.dueJobs, show ({} : JobStore).records.values = [] from rfl, List.filter_nil,
      List.mergeSort_nil, List.take_nil]
  simp only [loadImmediate, hnext, hnone]
  split <;> rfl

/-- A check makes no job due. -/
theorem noneDue_checkStaleNodes (h : store.NoneDue time) (coordinates : Bool) (view : Heartbeats) :
    (checkStaleNodes settings now coordinates view store).2.2.NoneDue time := by
  cases coordinates with
  | false => exact h
  | true =>
      rw [checkStaleNodes_snd]
      refine List.foldlRecOn _ _ (motive := fun state : Heartbeats × JobStore =>
        state.2.NoneDue time) h fun state hstate node _ => ?_
      rw [recover_snd]
      exact hstate.apply fun _ => rfl

end Housekeeping

/-! ## Coming to rest -/

namespace Cluster

variable {c d : Cluster η ω} {n : NodeName} {task : Task}

/-- A node at rest stays at rest. -/
theorem handOutAll_of_rest {app : Application η ω} (h : c.handOut? app n = none) (limit : Nat) :
    c.handOutAll app n limit = c := by
  cases limit with
  | zero => rfl
  | succ limit => rw [handOutAll, h]

/-- To hand out some tasks and then more is to hand them all out. -/
theorem handOutAll_add (app : Application η ω) (c : Cluster η ω) (first more : Nat) :
    c.handOutAll app n (first + more) = (c.handOutAll app n first).handOutAll app n more := by
  induction first generalizing c with
  | zero => rw [Nat.zero_add, handOutAll]
  | succ first ih =>
      rw [Nat.succ_add, handOutAll, handOutAll]
      cases hout : c.handOut? app n with
      | none => exact (handOutAll_of_rest hout more).symm
      | some d => exact ih d

/-- Whether one cluster has come out of another while the clock stood still, without a change of
the settings of a node, and with no more housekeeping due there. -/
structure StandsStill (n : NodeName) (c d : Cluster η ω) : Prop where
  clock : d.clock = c.clock
  settings : (d.node n).settings = (c.node n).settings
  due : (d.node n).scheduler.todo.dueUpkeep c.clock ≤
    (c.node n).scheduler.todo.dueUpkeep c.clock

/-- Whether no job is due on a node, neither in its queue nor in the store. -/
structure Quiet (n : NodeName) (c : Cluster η ω) : Prop where
  stored : c.jobs.NoneDue c.clock
  queued : ∀ e ∈ (c.node n).scheduler.todo.entries, e.task.isJob = true → c.clock < e.due

/-- The time that housekeeping asks for is the task's own, and later if that always is. -/
theorem lt_of_housekeep (hasks : (c.node n).settings.AsksLater) {next : Time}
    (h : c.housekeep n task = (some next, d)) : c.clock < next := by
  cases task with
  | job job => cases h
  | loadImmediate =>
      cases h
      exact hasks.load _ _ _
  | upgradeJobs =>
      cases h
      exact hasks.upgrade _ _ _ _
  | checkStaleNodes =>
      cases h
      exact hasks.check _ _ _ _

/-- Housekeeping takes no time, and leaves the settings of the node as they are. -/
theorem standsStill_housekeep (c : Cluster η ω) (n : NodeName) (task : Task) :
    c.StandsStill n (c.housekeep n task).2 := by
  have hlife := c.leavesLife_housekeep n n task
  refine ⟨hlife.clock, hlife.settings, Nat.le_of_eq ?_⟩
  cases task with
  | job _ | upgradeJobs | checkStaleNodes => rfl
  | loadImmediate =>
      rw [housekeep, todo_modifyTodo]
      exact TodoQueue.dueUpkeep_loadImmediate _ _ _

/-- Housekeeping does not make a job due. -/
theorem Quiet.housekeep (h : c.Quiet n) (task : Task) : (c.housekeep n task).2.Quiet n := by
  cases task with
  | job _ => exact h
  | loadImmediate =>
      refine ⟨h.stored, fun e he hjob => ?_⟩
      rw [Cluster.housekeep, todo_modifyTodo] at he
      rcases Housekeeping.mem_loadImmediate he with he | ⟨id, r, hr, hdue⟩
      · exact h.queued e he hjob
      · rw [hdue]
        exact h.stored id r hr
  | upgradeJobs =>
      refine ⟨?_, h.queued⟩
      rw [show (c.housekeep n .upgradeJobs).2.jobs = _ from Housekeeping.upgradeJobs_snd _ _ _ _ _]
      split
      · exact h.stored.apply fun _ => rfl
      · exact h.stored
  | checkStaleNodes => exact ⟨Housekeeping.noneDue_checkStaleNodes h.stored _ _, h.queued⟩

/-- What comes into the queue of a node, or leaves it, leaves the node quiet if no job is due that
was not queued before. -/
theorem Quiet.modifyTodo (h : c.Quiet n) {f : TodoQueue → TodoQueue}
    (hf : ∀ e ∈ (f (c.node n).scheduler.todo).entries, e.task.isJob = true →
      e ∈ (c.node n).scheduler.todo.entries) : (c.modifyTodo n f).Quiet n := by
  refine ⟨h.stored, fun e he hjob => ?_⟩
  rw [todo_modifyTodo] at he
  exact h.queued e (hf e he hjob) hjob

/-- Housekeeping that is done and queued again leaves a node quiet, with as much housekeeping due as
before. -/
theorem Quiet.runTask (h : c.Quiet n) (hasks : (c.node n).settings.AsksLater)
    (app : Application η ω) (htask : task.job? = none) :
    (Cluster.runTask app n task c).2.Quiet n ∧ c.StandsStill n (Cluster.runTask app n task c).2 := by
  obtain ⟨next, d, hhousekeep, hrun⟩ := c.exists_runTask_eq n app htask
  have hquiet := h.housekeep task
  have hstill := c.standsStill_housekeep n task
  have hlater := lt_of_housekeep hasks hhousekeep
  rw [hhousekeep] at hquiet hstill
  rw [hrun]
  split
  · refine ⟨hquiet.modifyTodo fun e he hjob => ?_, hstill.clock,
      (d.settings_modifyTodo n _).trans hstill.settings, ?_⟩
    · rcases List.mem_cons.mp he with rfl | he
      · simp [Task.isJob, htask] at hjob
      · exact he
    · rw [todo_modifyTodo, TodoQueue.dueUpkeep_push_later hlater]
      exact hstill.due
  · exact ⟨hquiet, hstill⟩

/-- A node without jobs that are due hands out housekeeping, and one task less is due than
before. -/
theorem Quiet.handOut (h : c.Quiet n) (hasks : (c.node n).settings.AsksLater)
    {app : Application η ω} (hout : c.handOut? app n = some d) :
    d.Quiet n ∧ c.StandsStill n d ∧
      (d.node n).scheduler.todo.dueUpkeep c.clock <
        (c.node n).scheduler.todo.dueUpkeep c.clock := by
  unfold handOut? at hout
  dsimp only at hout
  split at hout
  case isFalse => cases hout
  obtain ⟨⟨task, rest⟩, hpop, rfl⟩ := Option.map_eq_some_iff.mp hout
  obtain ⟨e, he, rfl, hdue, rfl⟩ := TodoQueue.pop?_eq_some hpop
  have hjob : e.task.isJob = false :=
    Bool.eq_false_iff.mpr fun hjob => Nat.not_lt.mpr hdue (h.queued e he hjob)
  have htask : e.task.job? = none :=
    Option.isNone_iff_eq_none.mp (Option.isSome_eq_false_iff.mp hjob)
  have hless := TodoQueue.dueUpkeep_pop hpop (Nat.le_refl _)
  have hquiet : (c.modifyTodo n fun q => q.dropEntry e).Quiet n :=
    h.modifyTodo fun x hx _ => (List.mem_filter.mp hx).1
  have hasks' : ((c.modifyTodo n fun q => q.dropEntry e).node n).settings.AsksLater := by
    rwa [settings_modifyTodo]
  obtain ⟨hafter, hclock, hsettings, hstill⟩ := hquiet.runTask hasks' app htask
  rw [todo_modifyTodo] at hstill
  rw [settings_modifyTodo] at hsettings
  rw [hjob] at hless
  have hlt := Nat.lt_of_le_of_lt hstill hless
  exact ⟨hafter, ⟨hclock, hsettings, Nat.le_of_lt hlt⟩, hlt⟩

/-- A node without jobs that are due comes to rest once it has handed out the housekeeping that is
due. -/
theorem Quiet.comes_to_rest (h : c.Quiet n) (hasks : (c.node n).settings.AsksLater)
    (app : Application η ω) :
    ∃ limit ≤ (c.node n).scheduler.todo.dueUpkeep c.clock,
      (c.handOutAll app n limit).handOut? app n = none := by
  generalize hdue : (c.node n).scheduler.todo.dueUpkeep c.clock = due
  induction due using Nat.strongRecOn generalizing c with
  | _ due ih =>
      cases hout : c.handOut? app n with
      | none => exact ⟨0, Nat.zero_le _, hout⟩
      | some d =>
          obtain ⟨hquiet, hstill, hlt⟩ := h.handOut hasks hout
          rw [hdue] at hlt
          obtain ⟨limit, hle, hrest⟩ := ih _ hlt hquiet (hstill.settings ▸ hasks)
            (by rw [hstill.clock])
          refine ⟨limit + 1, Nat.succ_le_of_lt (Nat.lt_of_le_of_lt hle hlt), ?_⟩
          rw [handOutAll, hout]
          exact hrest

/-! ## Going on for ever -/

/-- Whether a running node has a load pass to do and nothing to load, and nothing else is due. -/
structure Spinning (n : NodeName) (c : Cluster η ω) : Prop where
  running : (c.node n).scheduler.isRunning = true
  jobs : c.jobs = {}
  queued : ∃ serial, ⟨c.clock, serial, .loadImmediate⟩ ∈ (c.node n).scheduler.todo.entries ∧
    ∀ e ∈ (c.node n).scheduler.todo.entries, e = ⟨c.clock, serial, .loadImmediate⟩ ∨
      c.clock < e.due

/-- A load pass that asks for the present time again is the next task that is handed out. -/
theorem Spinning.handOut (h : c.Spinning n) (hshort : (c.node n).settings.immediate.wordMillis ≤ 1)
    (app : Application η ω) :
    ∃ d, c.handOut? app n = some d ∧ d.Spinning n ∧ (d.node n).settings = (c.node n).settings := by
  obtain ⟨serial, hmem, hothers⟩ := h.queued
  let rest := (c.node n).scheduler.todo.dropEntry ⟨c.clock, serial, .loadImmediate⟩
  have hpop : (c.node n).scheduler.todo.pop? c.clock = some (.loadImmediate, rest) := by
    rw [TodoQueue.pop?, TodoQueue.earliest?_of_forall_lt hmem hothers]
    exact if_pos (Nat.le_refl _)
  have hrest : ∀ e ∈ rest.entries, c.clock < e.due := by
    intro e he
    obtain ⟨hold, hserial⟩ := List.mem_filter.mp he
    refine (hothers e hold).resolve_left ?_
    rintro rfl
    simp at hserial
  let c' := c.modifyTodo n fun _ => rest
  have htodo : (c'.node n).scheduler.todo = rest := c.todo_modifyTodo n _
  have hsettings : (c'.node n).settings = (c.node n).settings := c.settings_modifyTodo n _
  have hrunning : (c'.node n).scheduler.isRunning = true :=
    (c.isRunning_modifyTodo n _).trans h.running
  have hload : c'.housekeep n .loadImmediate = (some c.clock, c'.modifyTodo n fun _ => rest) := by
    have hpass : Housekeeping.loadImmediate (c.node n).settings c.clock {} rest = (c.clock, rest) :=
      Housekeeping.loadImmediate_of_empty hshort
    have hjobs : c'.jobs = {} := h.jobs
    rw [housekeep, htodo, hsettings, hjobs]
    exact congrArg (fun x : Time × TodoQueue => (some x.1, c'.modifyTodo n fun _ => x.2)) hpass
  have hupkeep : Task.loadImmediate.job? = none := rfl
  obtain ⟨next, d, hhousekeep, hrun⟩ := c'.exists_runTask_eq n app hupkeep
  rw [hload] at hhousekeep
  cases hhousekeep
  rw [isRunning_modifyTodo, hrunning, if_pos rfl] at hrun
  refine ⟨(c'.modifyTodo n fun _ => rest).modifyTodo n fun q => q.push .loadImmediate c.clock, ?_,
    ⟨?_, h.jobs, ⟨rest.serial + 1, ?_⟩⟩, ?_⟩
  · simp only [handOut?, h.running, if_true, hpop, Option.map_some]
    exact congrArg some hrun
  · rw [isRunning_modifyTodo, isRunning_modifyTodo, hrunning]
  · rw [todo_modifyTodo, todo_modifyTodo]
    refine ⟨List.mem_cons_self, fun e he => ?_⟩
    exact (List.mem_cons.mp he).imp id (hrest e)
  · rw [settings_modifyTodo, settings_modifyTodo, hsettings]

/-- A node with a load pass to do, which looks ahead for a millisecond at most, never comes to
rest. -/
theorem Spinning.never_rests (h : c.Spinning n)
    (hshort : (c.node n).settings.immediate.wordMillis ≤ 1) (app : Application η ω) (limit : Nat) :
    (c.handOutAll app n limit).handOut? app n ≠ none := by
  induction limit generalizing c with
  | zero =>
      obtain ⟨d, hout, _⟩ := h.handOut hshort app
      rw [handOutAll, hout]
      exact Option.some_ne_none d
  | succ limit ih =>
      obtain ⟨d, hout, hspinning, hsettings⟩ := h.handOut hshort app
      rw [handOutAll, hout]
      exact ih hspinning (hsettings ▸ hshort)

end Cluster

/-! ## Loops and workers in any order -/

/-- Whether a worker is about to queue a housekeeping task that is due as soon as it is queued. -/
def Duty.isOverdue (now : Time) (d : Duty) : Bool :=
  match d.stage with
  | .done next | .cleared next => !d.task.isJob && decide (next ≤ now)
  | .ahead | .ended => false

/-- Whether the clock stands still over a step, which neither starts nor stops the scheduler, nor
makes more housekeeping due from elsewhere. -/
def UpkeepStep.Still {n : NodeName} : UpkeepStep η ω n → Prop
  | .start _ | .stop => False
  | .proceed _ _ | .perform _ | .look _ | .requeue _ => True
  | .aside what => ∀ c : Cluster η ω, c.StandsStill n (what.change c)

namespace Upkeep

variable {n : NodeName} {s t u : Upkeep η ω} {number more : Nat}

/-- How much housekeeping is due, or will be as soon as workers queue it. -/
def backlog (n : NodeName) (s : Upkeep η ω) : Nat :=
  (s.todo n).dueUpkeep s.cluster.clock + s.duties.countP (Duty.isOverdue s.cluster.clock)

/-- Whether a loop takes housekeeping out of the queue with a step. -/
def takes (s : Upkeep η ω) : UpkeepStep η ω n → Bool
  | .proceed i _ =>
    match s.loops[i]? with
    | some l =>
      match l.stage with
      | .looking now => ((s.todo n).pop? now).any fun x => !x.1.isJob
      | .top | .carrying _ | .waiting _ | .asleep | .ended => false
    | none => false
  | .start _ | .stop | .perform _ | .look _ | .requeue _ | .aside _ => false

/-- How much housekeeping the loops take out of the queue in some steps. -/
def taken (s : Upkeep η ω) : List (UpkeepStep η ω n) → Nat
  | [] => 0
  | a :: rest => (s.takes a).toNat + (s.step n a).taken rest

/-- Whether no loop looks for tasks that are due later than now. -/
def InTime (s : Upkeep η ω) : Prop :=
  ∀ l ∈ s.loops, ∀ now, l.stage = .looking now → now ≤ s.cluster.clock

/-- Whether some steps of which a number take housekeeping out of the queue have worked off as much
of the backlog, while the clock stood still. -/
structure WorksOff (n : NodeName) (number : Nat) (s t : Upkeep η ω) : Prop where
  clock : t.cluster.clock = s.cluster.clock
  settings : (t.cluster.node n).settings = (s.cluster.node n).settings
  inTime : t.InTime
  backlog : number + t.backlog n ≤ s.backlog n

/-- What is worked off in two stretches adds up. -/
theorem WorksOff.trans (h : WorksOff n number s t) (h' : WorksOff n more t u) :
    WorksOff n (number + more) s u where
  clock := h'.clock.trans h.clock
  settings := h'.settings.trans h.settings
  inTime := h'.inTime
  backlog := by
    have hfirst := h.backlog
    have hthen := h'.backlog
    omega

/-- Steps that leave the cluster alone have nothing to work off, if they make nothing overdue. -/
theorem worksOff_of_cluster_eq (hcluster : t.cluster = s.cluster) (h : s.InTime)
    (hloops : ∀ l ∈ t.loops, l ∈ s.loops ∨
      ∀ now, l.stage = .looking now → now ≤ s.cluster.clock)
    (hduties : t.duties.countP (Duty.isOverdue s.cluster.clock) ≤
      s.duties.countP (Duty.isOverdue s.cluster.clock)) : WorksOff n 0 s t where
  clock := by rw [hcluster]
  settings := by rw [hcluster]
  inTime l hl now hnow := by
    rw [hcluster]
    exact (hloops l hl).elim (fun hmem => h l hmem now hnow) fun hlooking => hlooking now hnow
  backlog := by
    simp only [Upkeep.backlog, todo, hcluster]
    omega

/-- A loop that has moved on is the only one that has changed. -/
theorem forall_mem_set {i : Nat} {l : UpkeepLoop}
    (h : ∀ now, l.stage = .looking now → now ≤ s.cluster.clock) :
    ∀ m ∈ s.loops.set i l, m ∈ s.loops ∨ ∀ now, m.stage = .looking now → now ≤ s.cluster.clock := by
  intro m hm
  rcases List.mem_or_eq_of_mem_set hm with hm | rfl
  · exact .inl hm
  · exact .inr h

/-- A loop goes on: it takes out a task that is due, or leaves the queue alone. -/
theorem worksOff_goOn (h : s.InTime) {i : Nat} {l : UpkeepLoop} (hl : s.loops[i]? = some l)
    (ready : Bool) :
    WorksOff n (s.takes (n := n) (.proceed i ready)).toNat s (s.goOn n i l ready) := by
  have hmove : ∀ stage, (∀ now, stage = .looking now → now ≤ s.cluster.clock) →
      WorksOff n 0 s (s.moveLoop i l stage) := fun stage hstage =>
    worksOff_of_cluster_eq rfl h (forall_mem_set hstage) (Nat.le_refl _)
  have hhandOver : ∀ task, WorksOff n 0 s (s.handOver i l task) := fun task =>
    worksOff_of_cluster_eq rfl h (forall_mem_set fun _ hnow => by cases hnow) (by
      rw [handOver, List.countP_append]
      exact Nat.le_refl _)
  unfold goOn takes
  simp only [hl]
  cases hstage : l.stage with
  | top =>
      refine hmove _ fun now hnow => ?_
      split at hnow <;> cases hnow
      exact Nat.le_refl _
  | looking now =>
      simp only
      have hnow : now ≤ s.cluster.clock := h l (List.mem_of_getElem? hl) now hstage
      cases hpop : (s.todo n).pop? now with
      | none =>
          refine hmove _ fun now hnow => ?_
          split at hnow
          · cases hnow
          · split at hnow <;> cases hnow
      | some x =>
          have hless := TodoQueue.dueUpkeep_pop hpop hnow
          refine ⟨rfl, s.cluster.settings_modifyTodo n _, fun m hm time htime => ?_, ?_⟩
          · rcases List.mem_or_eq_of_mem_set hm with hm | rfl
            · exact h m hm time htime
            · cases htime
          · have htodo : (s.take n i l x.1 x.2).todo n = x.2 := s.cluster.todo_modifyTodo n _
            have hclock : (s.take n i l x.1 x.2).cluster.clock = s.cluster.clock := rfl
            have hduties : (s.take n i l x.1 x.2).duties = s.duties := rfl
            simp only [Upkeep.backlog, htodo, hclock, hduties, Option.any_some]
            omega
  | carrying task =>
      simp only
      split
      · exact hhandOver task
      · split
        · exact worksOff_of_cluster_eq rfl h (forall_mem_set fun _ hnow => by cases hnow)
            (Nat.le_refl _)
        · exact hmove _ fun _ hnow => by cases hnow
  | waiting task =>
      simp only
      split
      · exact hhandOver task
      · exact worksOff_of_cluster_eq rfl h (fun _ => .inl) (Nat.le_refl _)
  | asleep => exact hmove _ fun _ hnow => by cases hnow
  | ended => exact worksOff_of_cluster_eq rfl h (fun _ => .inl) (Nat.le_refl _)

/-- A worker that has changed is the only one that counts for the backlog. -/
theorem countP_set_isOverdue_le {now : Time} {k : Nat} {d e : Duty} (hd : s.duties[k]? = some d)
    (h : e.isOverdue now = true → d.isOverdue now = true) :
    (s.duties.set k e).countP (Duty.isOverdue now) ≤ s.duties.countP (Duty.isOverdue now) := by
  have hset := countP_set_add (p := Duty.isOverdue now) hd e
  have hle : (e.isOverdue now).toNat ≤ (d.isOverdue now).toNat := by
    cases he : e.isOverdue now with
    | false => exact Nat.zero_le _
    | true => exact Nat.le_of_eq (congrArg Bool.toNat (h he).symm)
  omega

/-- A worker does housekeeping, which asks for a later time. -/
theorem worksOff_perform (h : s.InTime) (hasks : (s.cluster.node n).settings.AsksLater) {k : Nat}
    {d : Duty} (hd : s.duties[k]? = some d) : WorksOff n 0 s (s.perform n k d) := by
  have hstill := s.cluster.standsStill_housekeep n d.task
  have hover : ∀ (c : Cluster η ω) stage, s.cluster.StandsStill n c →
      (d.goTo stage).isOverdue s.cluster.clock = false →
      WorksOff n 0 s { s with cluster := c, duties := s.duties.set k (d.goTo stage) } := by
    intro c stage hc hstage
    have hle := countP_set_isOverdue_le hd fun hdue => absurd hdue (Bool.eq_false_iff.mp hstage)
    refine ⟨hc.clock, hc.settings, fun l hl now hnow => ?_, ?_⟩
    · exact hc.clock ▸ h l hl now hnow
    · have hdue := hc.due
      simp only [Upkeep.backlog, todo, hc.clock]
      omega
  unfold perform
  cases d.stage with
  | ahead =>
      simp only
      cases hhousekeep : s.cluster.housekeep n d.task with
      | mk next c =>
          rw [hhousekeep] at hstill
          cases next with
          | none => exact hover c _ hstill rfl
          | some next =>
              have hlater := Cluster.lt_of_housekeep hasks hhousekeep
              exact hover c _ hstill (by simp [Duty.isOverdue, Nat.not_le.mpr hlater])
  | done _ | cleared _ | ended => exact worksOff_of_cluster_eq rfl h (fun _ => .inl) (Nat.le_refl _)

/-- A worker looks whether the scheduler is running. -/
theorem worksOff_look (h : s.InTime) {k : Nat} {d : Duty} (hd : s.duties[k]? = some d) :
    WorksOff n 0 s (s.look n k d) := by
  unfold look
  cases hstage : d.stage with
  | done next =>
      simp only
      split
      · refine worksOff_of_cluster_eq rfl h (fun _ => .inl) (countP_set_isOverdue_le hd ?_)
        simp [Duty.isOverdue, hstage]
      · exact worksOff_of_cluster_eq rfl h (fun _ => .inl) (countP_set_isOverdue_le hd nofun)
  | ahead | cleared _ | ended => exact worksOff_of_cluster_eq rfl h (fun _ => .inl) (Nat.le_refl _)

/-- A worker queues its task: what is due in the queue was overdue in its hands. -/
theorem worksOff_requeue (h : s.InTime) {k : Nat} {d : Duty} (hd : s.duties[k]? = some d) :
    WorksOff n 0 s (s.requeue n k d) := by
  unfold requeue
  cases hstage : d.stage with
  | cleared next =>
      refine ⟨rfl, s.cluster.settings_modifyTodo n _, h, ?_⟩
      have hset := countP_set_add (p := Duty.isOverdue s.cluster.clock) hd (d.goTo .ended)
      have hended : (d.goTo .ended).isOverdue s.cluster.clock = false := rfl
      have hcleared : d.isOverdue s.cluster.clock =
          (!d.task.isJob && decide (next ≤ s.cluster.clock)) := by
        rw [Duty.isOverdue, hstage]
      rw [hended, hcleared, Bool.toNat_false] at hset
      have htodo : ((s.cluster.modifyTodo n fun q => q.push d.task next).node n).scheduler.todo =
          (s.todo n).push d.task next := s.cluster.todo_modifyTodo n _
      have hclock : (s.cluster.modifyTodo n fun q => q.push d.task next).clock =
          s.cluster.clock := rfl
      simp only [Upkeep.backlog, todo] at htodo ⊢
      rw [htodo, hclock, TodoQueue.dueUpkeep_push]
      omega
  | ahead | done _ | ended => exact worksOff_of_cluster_eq rfl h (fun _ => .inl) (Nat.le_refl _)

/-- A step works off as much of the backlog as it takes out. -/
theorem worksOff_step (h : s.InTime) (hasks : (s.cluster.node n).settings.AsksLater)
    {a : UpkeepStep η ω n} (ha : a.Still) : WorksOff n (s.takes a).toNat s (s.step n a) := by
  have hnothing : WorksOff n 0 s s := worksOff_of_cluster_eq rfl h (fun _ => .inl) (Nat.le_refl _)
  cases a with
  | start _ | stop => exact ha.elim
  | proceed i ready =>
      cases hl : s.loops[i]? with
      | none =>
          simp only [step, takes, hl]
          exact hnothing
      | some l =>
          have hgo := worksOff_goOn (n := n) h hl ready
          simpa only [step, hl] using hgo
  | perform k =>
      simp only [step, takes]
      split
      · next d hd => exact worksOff_perform h hasks hd
      · exact hnothing
  | look k =>
      simp only [step, takes]
      split
      · next d hd => exact worksOff_look h hd
      · exact hnothing
  | requeue k =>
      simp only [step, takes]
      split
      · next d hd => exact worksOff_requeue h hd
      · exact hnothing
  | aside what =>
      have hstill : s.cluster.StandsStill n (what.change s.cluster) := ha s.cluster
      refine ⟨hstill.clock, hstill.settings, fun l hl now hnow => ?_, ?_⟩
      · exact hstill.clock ▸ h l hl now hnow
      · have hdue := hstill.due
        simp only [Upkeep.backlog, todo, step, takes, hstill.clock, Bool.toNat_false]
        omega

/-- Loops and workers take out no more housekeeping than the backlog, in whatever order they make
their steps and whatever else happens, as long as the clock stands still. -/
theorem worksOff_play {steps : List (UpkeepStep η ω n)} (h : s.InTime)
    (hasks : (s.cluster.node n).settings.AsksLater) (hsteps : ∀ a ∈ steps, a.Still) :
    WorksOff n (s.taken steps) s (s.play n steps) := by
  induction steps generalizing s with
  | nil => exact worksOff_of_cluster_eq rfl h (fun _ => .inl) (Nat.le_refl _)
  | cons a rest ih =>
      obtain ⟨ha, hrest⟩ := List.forall_mem_cons.mp hsteps
      have hfirst := worksOff_step h hasks ha
      exact hfirst.trans (ih hfirst.inTime (hfirst.settings ▸ hasks) hrest)

end Upkeep

/-! ## The settings with which schedulers come to rest -/

namespace Settings

variable {s : Settings}

/-- An application that has nothing to do. -/
def inert : Application Unit Unit where
  callback _ _ _ := pure (.ok ())
  handler _ _ _ _ := pure (.ok ())
  listener _ _ := id

/-- A running node of its own with the settings, which has a load pass to do. -/
def loading (s : Settings) (n : NodeName) : Cluster Unit Unit where
  clock := 0
  nodes := (∅ : Table NodeName (Node Unit)).insert n
    { Node.ofSettings s with
      scheduler := { phase := .running, todo := ({} : TodoQueue).push .loadImmediate 0 } }
  outside := ()

/-- The node has nothing in its queue but the load pass. -/
theorem node_loading (s : Settings) (n : NodeName) : (s.loading n).node n =
    { Node.ofSettings s with
      scheduler := { phase := .running, todo := ({} : TodoQueue).push .loadImmediate 0 } } := by
  simp [loading, Cluster.node]

/-- The load pass of a node that has just begun to run is due. -/
theorem spinning_loading (s : Settings) (n : NodeName) : (s.loading n).Spinning n := by
  refine ⟨?_, rfl, 1, ?_, ?_⟩
  · rw [node_loading]
    rfl
  · rw [node_loading]
    exact List.mem_cons_self
  · rw [node_loading]
    exact fun e he => (List.mem_cons.mp he).imp id fun he => absurd he List.not_mem_nil

theorem quiet_loading (s : Settings) (n : NodeName) : (s.loading n).Quiet n := by
  refine ⟨nofun, ?_⟩
  rw [node_loading]
  intro e he hjob
  rcases List.mem_cons.mp he with rfl | he
  · cases hjob
  · cases he

/-- Whether a scheduler with the settings comes to rest, whatever node it is on, as soon as no job
is due there. -/
def ComesToRest (s : Settings) : Prop :=
  ∀ (η ω : Type) (app : Application η ω) (n : NodeName) (c : Cluster η ω),
    (c.node n).settings = s → c.Quiet n →
      ∃ limit, (c.handOutAll app n limit).handOut? app n = none

/-- Whether the loops and workers of a scheduler with the settings never take out more housekeeping
than is due in the beginning, in whatever order they make their steps while the clock stands still,
and whatever jobs are run meanwhile. -/
def WorksOff (s : Settings) : Prop :=
  ∀ (η ω : Type) (n : NodeName) (u : Upkeep η ω) (steps : List (UpkeepStep η ω n)),
    (u.cluster.node n).settings = s → u.InTime → (∀ a ∈ steps, a.Still) →
      u.taken steps ≤ u.backlog n

/-- With accepted settings all housekeeping asks for a later time, and schedulers come to rest,
exactly if load passes look ahead for more than a millisecond. -/
theorem reaches_idle_iff (hvalid : s.validate = .ok ()) (hfits : s.Fits) :
    (s.AsksLater ↔ 2 ≤ s.immediate.millis) ∧ (s.ComesToRest ↔ 2 ≤ s.immediate.millis) ∧
      (2 ≤ s.immediate.millis → s.WorksOff) := by
  have hasks := asksLater_iff_of_validate hvalid hfits
  refine ⟨hasks, ⟨fun hrest => Nat.not_lt.mp fun hshort => ?_, fun hlong => ?_⟩, fun hlong => ?_⟩
  · have hsettings : ((s.loading "a").node "a").settings = s := by
      rw [node_loading]
      rfl
    obtain ⟨limit, hnone⟩ :=
      hrest Unit Unit inert "a" (s.loading "a") hsettings (s.quiet_loading "a")
    refine (s.spinning_loading "a").never_rests ?_ inert limit hnone
    rw [hsettings]
    exact Nat.le_trans (Nat.mod_le _ _) (Nat.le_of_lt_succ hshort)
  · intro η ω app n c hc hquiet
    obtain ⟨limit, _, hnone⟩ := hquiet.comes_to_rest (hc ▸ hasks.mpr hlong) app
    exact ⟨limit, hnone⟩
  · intro η ω n u steps hu htime hsteps
    have hplay := Upkeep.worksOff_play htime (hu ▸ hasks.mpr hlong) hsteps
    have hbacklog := hplay.backlog
    omega

/-- Settings that let load passes look ahead for two milliseconds. -/
def brisk : Settings := { immediate := ⟨2⟩ }

/-- Two milliseconds are enough. -/
theorem reaches_idle_iff_brisk :
    brisk.validate = .ok () ∧ brisk.AsksLater ∧ brisk.ComesToRest ∧ brisk.WorksOff := by
  have hvalid : brisk.validate = .ok () := (validate_eq_ok_iff _).mpr (by decide +kernel)
  have h := reaches_idle_iff hvalid ⟨by decide, by decide, by decide⟩
  have hlong : 2 ≤ brisk.immediate.millis := by decide
  exact ⟨hvalid, h.1.mpr hlong, h.2.1.mpr hlong, h.2.2 hlong⟩

/-- Settings that let load passes look ahead for one millisecond, the least that is accepted. -/
def hasty : Settings := { immediate := ⟨1⟩ }

/-- A node of its own that has just been started. -/
def started (s : Settings) (n : NodeName) : Cluster Unit Unit :=
  (Cluster.start { clock := 0, nodes := (∅ : Table NodeName (Node Unit)).insert n (.ofSettings s),
                   outside := () } n true).2

/-- A load pass of such a node asks for the present time, and the scheduler hands out one after the
other from its start on. -/
theorem never_idle :
    hasty.validate = .ok () ∧ (∀ now, (Housekeeping.loadImmediate hasty now {} {}).1 = now) ∧
      (hasty.started "a").Quiet "a" ∧
      ∀ limit, ((hasty.started "a").handOutAll inert "a" limit).handOut? inert "a" ≠ none := by
  have hqueued : ((hasty.started "a").node "a").scheduler.todo.entries =
      [⟨10000, 3, .checkStaleNodes⟩, ⟨0, 2, .upgradeJobs⟩, ⟨0, 1, .loadImmediate⟩] := by decide
  refine ⟨(validate_eq_ok_iff _).mpr (by decide +kernel), fun now => ?_, ⟨nofun, ?_⟩,
    fun limit hnone => ?_⟩
  · rw [Housekeeping.loadImmediate_of_empty (by decide)]
  · rw [hqueued]
    decide
  · -- The first load pass and the upgrade of the start come before.
    have hspinning : ((hasty.started "a").handOutAll inert "a" 2).Spinning "a" := by
      exact ⟨by decide +kernel, by decide +kernel, 4, by decide +kernel, by decide +kernel⟩
    refine hspinning.never_rests (by decide +kernel) inert limit ?_
    rw [← Cluster.handOutAll_add, Nat.add_comm, Cluster.handOutAll_add,
      Cluster.handOutAll_of_rest hnone, hnone]

end Settings

end JobCluster
