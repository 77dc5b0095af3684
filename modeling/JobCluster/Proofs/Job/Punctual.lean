import JobCluster.Proofs.Job.Agenda
/-!
# Jobs that are never early

Each way into a todo queue reckons a due time of its own: the time of the call that scheduled the
job, the time of the commit, or zero where a load pass finds a job without a due time. None of them
comes before the time for which the job was scheduled, and no call on the job store changes that
time. A job without one is queued by a callback that a call has left behind, or from a record that a
call has staged, so it comes out after that call whatever its place in the queue.

Main results:

- `StoreCall.find?_apply_eq_some`: no call on the store changes the due time of a job;
- `WorkCall.Effect.timely`: a call that schedules a job leaves a callback that queues it in time;
- `Agenda.Punctual`, `Agenda.Punctual.step`, `Agenda.Punctual.play`: what keeps jobs from coming out
  early, after every step and every history;
- `Agenda.not_early`: no job is taken out of a queue before its time.
-/

namespace JobCluster

variable {η ω : Type}

/-! ## Records and due times -/

namespace StoreCall

/-- A call that revises a record changes neither its identifier nor its due time. -/
theorem Revises.same_due {a : StoreCall} {x r : JobRecord} (h : a.Revises x r) :
    x.id = r.id ∧ x.dueAt = r.dueAt := by
  cases h <;> exact ⟨rfl, rfl⟩

/-- A record that is there after a call was there before it, with the same identifier and the same
due time, or the call has staged it. -/
theorem find?_apply_eq_some {s : JobStore} {a : StoreCall} {id : JobId} {r : JobRecord}
    (h : (a.apply s).find? id = some r) :
    (∃ r', s.find? id = some r' ∧ r'.id = r.id ∧ r'.dueAt = r.dueAt) ∨
      ∃ x t, a = .stage x ∧ s.stage x = .ok t ∧ x.id = id ∧ r = { x with state := .staged } := by
  refine (revises_or_staged h).imp_left ?_
  rintro ⟨x, hx, hrevises⟩
  exact ⟨x, hx, hrevises.same_due⟩

end StoreCall

/-- A job that a load pass takes is stored. -/
theorem JobStore.find?_of_dequeueImmediate {s : JobStore} {node : NodeId} {maxDue : Time}
    {limit : Nat} {jobs : List JobRecord} (h : s.dequeueImmediate node maxDue limit = .ok jobs)
    {r : JobRecord} (hr : r ∈ jobs) : ∃ id, s.find? id = some r := by
  obtain ⟨_, hjobs⟩ := (guarded_eq_ok_iff _ _ _).mp h
  obtain rfl := Except.ok.inj hjobs
  have hvalue : r ∈ s.records.values := by
    have hdue : r ∈ s.dueJobs node maxDue := List.mem_of_mem_take hr
    rw [dueJobs, List.mem_mergeSort] at hdue
    exact (List.mem_filter.mp hdue).1
  obtain ⟨⟨id, _⟩, hentry, rfl⟩ := List.mem_map.mp hvalue
  exact ⟨id, (Table.mem_entries_iff _ _ _).mp hentry⟩

/-! ## Bookings -/

/-- Whether a job was scheduled for a time. -/
def Booked (bookings : List Booking) (id : JobId) (dueAt : Option Time) : Prop :=
  ∃ b ∈ bookings, b.id = id ∧ b.dueAt = dueAt

/-- A job that was scheduled stays so with more bookings. -/
theorem Booked.mono {bookings more : List Booking} {id : JobId} {dueAt : Option Time}
    (h : Booked bookings id dueAt) (hsub : bookings ⊆ more) : Booked more id dueAt := by
  obtain ⟨b, hb, hid, hdue⟩ := h
  exact ⟨b, hsub hb, hid, hdue⟩

/-- Whether a job may be queued to come out at a time: it was scheduled, and not for later. -/
def ScheduledJob.Timely (bookings : List Booking) (job : ScheduledJob) (due : Time) : Prop :=
  Booked bookings job.jobId job.info.dueAt ∧ ∀ d, job.info.dueAt = some d → d ≤ due

theorem ScheduledJob.Timely.mono {bookings more : List Booking} {job : ScheduledJob} {due : Time}
    (h : job.Timely bookings due) (hsub : bookings ⊆ more) : job.Timely more due :=
  ⟨h.1.mono hsub, h.2⟩

/-- Whether the job that a callback queues may be queued as the callback does. -/
def Callback.Timely (bookings : List Booking) : Callback η → Prop
  | .publish _ plan => (ScheduledJob.persisted plan.record).Timely bookings plan.due
  | .queue _ info => Booked bookings info.jobId info.dueAt
  | .drop _ _ _ | .applyWrites _ | .withdraw _ _ | .custom _ => True

theorem Callback.Timely.mono {bookings more : List Booking} {callback : Callback η}
    (h : callback.Timely bookings) (hsub : bookings ⊆ more) : callback.Timely more := by
  cases callback with
  | publish n plan => exact ScheduledJob.Timely.mono h hsub
  | queue n info => exact Booked.mono h hsub
  | drop n j armed | applyWrites tx | withdraw n j | custom script => trivial

/-- A job that was booked is on time as it is planned to be stored. -/
theorem PersistedPlan.timely_make (settings : Settings) (id : JobId) (details : JobDetails)
    (dueAt : Option Time) (now : Time) {bookings : List Booking} (h : Booked bookings id dueAt) :
    (ScheduledJob.persisted (make settings id details dueAt now).record).Timely bookings
      (make settings id details dueAt now).due := by
  refine ⟨h, fun d hd => ?_⟩
  have hdue : dueAt = some d := hd
  rw [make, hdue]
  exact Nat.le_refl d

/-- A call that schedules a job registers a callback that queues it in time. -/
theorem WorkCall.Effect.timely {tx : TxId} {c d : Cluster η ω} {a : WorkCall η}
    {answer : WorkAnswer} {registered : List (Synchronizer (Callback η))}
    (h : Effect tx c a answer registered d) {x : Synchronizer (Callback η)}
    (hx : x ∈ registered) : x.callback.Timely (a.booking? c.clock answer).toList := by
  cases h with
  | staged n details dueAt =>
      cases List.mem_singleton.mp hx
      exact PersistedPlan.timely_make _ _ _ _ _ ⟨_, List.mem_singleton_self _, rfl, rfl⟩
  | planned n transacted details dueAt =>
      cases List.mem_singleton.mp hx
      exact ⟨_, List.mem_singleton_self _, rfl, rfl⟩
  | written _ _ _ =>
      unfold applying at hx
      split at hx
      · cases hx
      · cases List.mem_singleton.mp hx
        trivial
  | created | claimed | registered =>
      cases List.mem_singleton.mp hx
      trivial
  | unstaged | released | marked | availability | refusal | failed => cases hx

/-- A booking is made at the time at which the job is scheduled. -/
theorem WorkCall.time_of_booking? {now : Time} {a : WorkCall η} {answer : WorkAnswer} {b : Booking}
    (h : a.booking? now answer = some b) : b.time = now := by
  unfold booking? at h
  split at h
  · cases h
    rfl
  · cases h
    rfl
  · cases h

namespace Interplay

/-- A transaction on its way out queues the jobs that its calls have scheduled, and in time. -/
theorem Orderly.timely {o : Interplay η ω} (ho : Orderly o) {d : Departure η}
    (hd : d ∈ o.departures) {phase : Phase} {callback : Callback η}
    (hmem : callback ∈ d.transaction.callbacks phase) : callback.Timely o.bookings := by
  obtain ⟨x, hx, _, rfl⟩ := Transaction.mem_callbacks_iff.mp hmem
  by_cases hlasts : x.lasts = true
  · obtain ⟨e, he, _, hregisters⟩ := exists_entry (ho.departed d hd) hx hlasts
    refine (e.effect.timely hregisters).mono fun b hb => ?_
    exact List.mem_filterMap.mpr ⟨e, he, Option.mem_toList.mp hb⟩
  · unfold Synchronizer.lasts at hlasts
    cases hcallback : x.callback with
    | drop n j armed => trivial
    | publish n plan | queue n info | applyWrites tx | withdraw n j | custom script =>
        simp [hcallback] at hlasts

end Interplay

/-- A callback queues no job but its own. -/
theorem Cluster.timely_carryOut {bookings : List Booking} {app : Application η ω} {thread : Thread}
    {phase : Phase} {c : Cluster η ω} {callback : Callback η} (h : callback.Timely bookings)
    {n : NodeName} {e : TodoEntry} {job : ScheduledJob}
    (he : e ∈ ((c.carryOut app thread phase callback).node n).scheduler.todo.entries)
    (hjob : e.task = .job job) :
    e ∈ (c.node n).scheduler.todo.entries ∨ job.Timely bookings e.due := by
  have henqueue : ∀ own {d : Cluster η ω} {m due now ttl}, own.Timely bookings due →
      e ∈ ((d.modifyTodo m fun q => (q.enqueue own due now ttl).2).node n).scheduler.todo.entries →
      e ∈ (d.node n).scheduler.todo.entries ∨ job.Timely bookings e.due := by
    intro own d m due now ttl hown hin
    refine (mem_todo_enqueue hin).imp_right fun ⟨htask, hdue⟩ => ?_
    cases hjob.symm.trans htask
    rwa [hdue]
  cases callback with
  | publish m plan =>
      have hown : (ScheduledJob.persisted { plan.record with state := .pending }).Timely bookings
        plan.due := h
      have hpublished : ∀ d : Cluster η ω,
          e ∈ ((d.enqueuePublished m plan).node n).scheduler.todo.entries →
          e ∈ (d.node n).scheduler.todo.entries ∨ job.Timely bookings e.due :=
        fun d hin => henqueue _ hown hin
      simp only [carryOut, runCallback, settleStaged] at he
      split at he
      · split at he
        · exact .inl he
        · next jobs _ =>
          dsimp only at he
          split at he
          · exact hpublished { c with jobs } he
          · exact .inl he
      · exact .inl he
  | queue m info =>
      refine henqueue (.volatile info) ⟨h, fun d hd => ?_⟩ he
      have hdue : info.dueAt = some d := hd
      rw [hdue]
      exact Nat.le_refl d
  | drop m j armed =>
      cases armed with
      | false => exact .inl he
      | true =>
          have hdropped : c.carryOut app thread phase (.drop m j true) = _ := c.dropClaimed_snd m j
          rw [hdropped] at he
          exact .inl he
  | applyWrites tx =>
      have hsame : ((c.carryOut app thread phase (.applyWrites tx)).node n).scheduler = _ :=
        scheduler_completeWrites app c tx _ n
      rw [hsame] at he
      exact .inl he
  | withdraw m j =>
      have hsame := scheduler_modifyNode (c := c) (n := m)
        (f := fun x => { x with registry := x.registry.rollBack j }) rfl n
      have hin : e ∈ ((c.modifyRegistry m fun r => r.rollBack j).node n).scheduler.todo.entries := he
      rw [Cluster.modifyRegistry, hsame] at hin
      exact .inl hin
  | custom script => exact .inl he

/-! ## What keeps jobs from coming out early -/

namespace Dispatch

variable {n : NodeName} {s t : Dispatch η ω}

/-- Whether the loops that look into the queue after a step have read the clock by then. -/
def Reads (s t : Dispatch η ω) : Prop :=
  ∀ l ∈ t.loops, ∀ now, l.stage = .looking now →
    now = s.cluster.clock ∨ ∃ l' ∈ s.loops, l'.stage = .looking now

/-- Loops that stay as they are have read the clock. -/
theorem Reads.of_loops (h : t.loops = s.loops) : s.Reads t :=
  fun l hl _ hnow => .inr ⟨l, h ▸ hl, hnow⟩

/-- A loop moves on, and does not look into the queue without having read the clock. -/
theorem Reads.goTo {i : Nat} {l : DispatchLoop} {stage : LoopStage}
    (hstage : ∀ now, stage = .looking now → now = s.cluster.clock)
    (ht : t.loops = s.loops.set i (l.goTo stage)) : s.Reads t := by
  intro m hm now hnow
  rw [ht] at hm
  rcases List.mem_or_eq_of_mem_set hm with hm | rfl
  · exact .inr ⟨m, hm, hnow⟩
  · exact .inl (hstage now hnow)

/-- A loop reads the clock before it looks into the queue. -/
theorem reads_proceed (s : Dispatch η ω) (i : Nat) (ready : Bool) :
    s.Reads (s.step n (.proceed i ready)) := by
  cases hl : s.loops[i]? with
  | none =>
    rw [step, hl]
    exact .of_loops rfl
  | some l =>
    rw [step_proceed hl, goOn]
    cases l.stage with
    | top =>
      refine .goTo (fun now hnow => ?_) rfl
      split at hnow
      · cases hnow
        rfl
      · cases hnow
    | looking now =>
      dsimp only
      split
      · exact .goTo (by simp) rfl
      · refine .goTo (fun _ h => ?_) rfl
        split at h
        · cases h
        · split at h <;> cases h
    | carrying task =>
      dsimp only
      split
      · exact .goTo (by simp) rfl
      · split
        · exact .goTo (by simp) rfl
        · exact .goTo (by simp) rfl
    | waiting task =>
      dsimp only
      split
      · exact .goTo (by simp) rfl
      · exact .of_loops rfl
    | asleep => exact .goTo (by simp) rfl
    | ended => exact .of_loops rfl

/-- The loop of a scheduler that starts has not looked into the queue yet. -/
theorem reads_start (s : Dispatch η ω) (insideRuntime : Bool) :
    s.Reads (s.step n (.start insideRuntime)) := by
  rw [step]
  split
  · intro l hl now hnow
    rcases List.mem_append.mp hl with hl | hl
    · exact .inr ⟨l, hl, hnow⟩
    · rw [List.mem_singleton.mp hl] at hnow
      cases hnow
  · exact .of_loops rfl

/-- A stop makes no loop look into the queue. -/
theorem reads_stop (s : Dispatch η ω) : s.Reads (s.step n .stop) := by
  rw [step]
  split
  · intro l hl now hnow
    obtain ⟨l', hl', rfl⟩ := List.mem_map.mp hl
    refine .inr ⟨l', hl', ?_⟩
    rw [DispatchLoop.abort] at hnow
    unfold LoopStage.abort at hnow
    split at hnow
    · cases hnow
    · cases hnow
    · exact hnow
  · exact .of_loops rfl

end Dispatch

namespace Agenda

/-- What keeps jobs from coming out early: wherever a job is on its way to a todo queue, it was
scheduled, and in the queue it is not due before its time. -/
structure Punctual (s : Agenda η ω) : Prop where
  orderly : s.world.Orderly
  past : ∀ b ∈ s.bookings, b.time ≤ s.clock
  stored : ∀ id r, s.world.cluster.jobs.find? id = some r →
    r.id = id ∧ Booked s.bookings id r.dueAt
  fetched : ∀ p ∈ s.passes, ∀ r ∈ p.rest, Booked s.bookings r.id r.dueAt
  queued : ∀ n, ∀ e ∈ (s.todo n).entries, ∀ job, e.task = .job job →
    job.Timely s.bookings e.due
  looking : ∀ n, ∀ l ∈ s.loops n, ∀ now, l.stage = .looking now → now ≤ s.clock

namespace Punctual

variable {s : Agenda η ω} {app : Application η ω}

/-- What happens without a job being queued leaves jobs in time. -/
theorem quietly (h : s.Punctual) {c : Cluster η ω} (hc : s.world.cluster.Quietly c) :
    (s.become c).Punctual where
  orderly := h.orderly.onward hc.unmoved.onward hc.transactions
  past b hb := Nat.le_trans (h.past b hb) hc.clock
  stored id r hr := by
    have hjobs : (s.become c).world.cluster.jobs = s.world.cluster.jobs := hc.unmoved.jobs
    rw [hjobs] at hr
    exact h.stored id r hr
  fetched := h.fetched
  queued n e he job hjob := by
    have hisJob : e.task.isJob = true := by
      rw [hjob]
      rfl
    exact h.queued n e (hc.todo n e he hisJob) job hjob
  looking n l hl now hnow := Nat.le_trans (h.looking n l hl now hnow) hc.clock

/-- The loops of a node may be others that have read the clock. -/
theorem withLoops (h : s.Punctual) (n : NodeName) {loops : List DispatchLoop}
    (hloops : ∀ l ∈ loops, ∀ now, l.stage = .looking now → now ≤ s.clock) :
    ({ s with loops := fun m => if m = n then loops else s.loops m } : Agenda η ω).Punctual :=
  { h with
    looking := by
      intro m l hl now hnow
      dsimp only at hl
      split at hl
      · exact hloops l hl now hnow
      · exact h.looking m l hl now hnow }

/-- A step of the dispatch on a node leaves jobs in time, if it queues none and its loops read the
clock. -/
theorem dispatched (h : s.Punctual) (n : NodeName) {x : DispatchStep η ω n}
    (hquiet : (s.dispatch n).cluster.Quietly ((s.dispatch n).step n x).cluster)
    (hreads : (s.dispatch n).Reads ((s.dispatch n).step n x)) : (s.dispatched n x).Punctual := by
  refine (h.quietly hquiet).withLoops n fun l hl now hnow => ?_
  refine Nat.le_trans ?_ hquiet.clock
  rcases hreads l hl now hnow with rfl | ⟨l', hl', hnow'⟩
  · exact Nat.le_refl _
  · exact h.looking n l' hl' now hnow'

/-- A move leaves jobs in time that schedules what it stores and queues. -/
theorem moved (h : s.Punctual) {w : Interplay η ω} {more : List Booking} (ho : w.Orderly)
    (hbookings : s.world.bookings ⊆ w.bookings) (hclock : s.clock ≤ w.cluster.clock)
    (hpast : ∀ b ∈ w.bookings ++ (s.placed ++ more), b ∈ s.bookings ∨ b.time = s.clock)
    (hstored : ∀ id r, w.cluster.jobs.find? id = some r →
      (∃ r', s.world.cluster.jobs.find? id = some r' ∧ r'.id = r.id ∧ r'.dueAt = r.dueAt) ∨
        r.id = id ∧ Booked (w.bookings ++ (s.placed ++ more)) id r.dueAt)
    (hqueued : ∀ n, ∀ e ∈ (w.cluster.node n).scheduler.todo.entries, ∀ job, e.task = .job job →
      e ∈ (s.todo n).entries ∨ job.Timely s.bookings e.due) :
    ({ s with world := w, placed := s.placed ++ more } : Agenda η ω).Punctual := by
  have hsub : s.bookings ⊆ w.bookings ++ (s.placed ++ more) := by
    intro b hb
    rw [← List.append_assoc]
    refine List.mem_append_left _ ?_
    rcases List.mem_append.mp hb with hb | hb
    · exact List.mem_append_left _ (hbookings hb)
    · exact List.mem_append_right _ hb
  refine ⟨ho, fun b hb => ?_, fun id r hr => ?_, fun p hp r hr => (h.fetched p hp r hr).mono hsub,
    fun n e he job hjob => ?_,
    fun n l hl now hnow => Nat.le_trans (h.looking n l hl now hnow) hclock⟩
  · refine Nat.le_trans ?_ hclock
    rcases hpast b hb with hold | htime
    · exact h.past b hold
    · exact Nat.le_of_eq htime
  · rcases hstored id r hr with ⟨r', hr', hid, hdue⟩ | hnew
    · obtain ⟨hid', hbooked⟩ := h.stored id r' hr'
      exact ⟨hid ▸ hid', hdue ▸ hbooked.mono hsub⟩
    · exact hnew
  · rcases hqueued n e he job hjob with hold | hnew
    · exact (h.queued n e hold job hjob).mono hsub
    · exact hnew.mono hsub

/-- A move that makes no call in a transaction. -/
theorem moved_of_log (h : s.Punctual) {w : Interplay η ω} {more : List Booking} (ho : w.Orderly)
    (hlog : w.log = s.world.log) (hclock : s.clock ≤ w.cluster.clock)
    (hmore : ∀ b ∈ more, b.time = s.clock)
    (hstored : ∀ id r, w.cluster.jobs.find? id = some r →
      (∃ r', s.world.cluster.jobs.find? id = some r' ∧ r'.id = r.id ∧ r'.dueAt = r.dueAt) ∨
        r.id = id ∧ Booked more id r.dueAt)
    (hqueued : ∀ n, ∀ e ∈ (w.cluster.node n).scheduler.todo.entries, ∀ job, e.task = .job job →
      e ∈ (s.todo n).entries ∨ job.Timely s.bookings e.due) :
    ({ s with world := w, placed := s.placed ++ more } : Agenda η ω).Punctual := by
  have hbookings : w.bookings = s.world.bookings := by
    rw [Interplay.bookings, hlog]
    rfl
  refine h.moved ho (hbookings ▸ List.Subset.refl _) hclock (fun b hb => ?_) (fun id r hr => ?_)
    hqueued
  · rw [hbookings, ← List.append_assoc] at hb
    exact (List.mem_append.mp hb).imp_right (hmore b)
  · refine (hstored id r hr).imp_right fun ⟨hid, hbooked⟩ => ⟨hid, hbooked.mono fun b hb => ?_⟩
    exact List.mem_append_right _ (List.mem_append_right _ hb)

/-- A move that leaves the job store and the todo queues alone. -/
theorem moved_of_same (h : s.Punctual) {w : Interplay η ω} {more : List Booking} (ho : w.Orderly)
    (hlog : w.log = s.world.log) (hclock : s.clock ≤ w.cluster.clock)
    (hmore : ∀ b ∈ more, b.time = s.clock) (hjobs : w.cluster.jobs = s.world.cluster.jobs)
    (hscheduler : ∀ n, (w.cluster.node n).scheduler = (s.world.cluster.node n).scheduler) :
    ({ s with world := w, placed := s.placed ++ more } : Agenda η ω).Punctual := by
  refine h.moved_of_log ho hlog hclock hmore (fun id r hr => ?_) (fun n e he _ _ => ?_)
  · rw [hjobs] at hr
    exact .inl ⟨r, hr, rfl, rfl⟩
  · rw [hscheduler n] at he
    exact .inl he

/-- A transaction on its way out runs a callback. -/
theorem carriedOut (h : s.Punctual) {departures : List (Departure η)} {more : List Booking}
    {d : Departure η} {phase : Phase} {callback : Callback η} (hd : d ∈ s.world.departures)
    (hmem : callback ∈ d.transaction.callbacks phase)
    (ho : ({ s.world with
      cluster := s.world.cluster.carryOut app d.thread phase callback
      departures } : Interplay η ω).Orderly) (hmore : ∀ b ∈ more, b.time = s.clock) :
    ({ s with
        world := { s.world with
          cluster := s.world.cluster.carryOut app d.thread phase callback
          departures }
        placed := s.placed ++ more } : Agenda η ω).Punctual := by
  have htimely : callback.Timely s.bookings :=
    (h.orderly.timely hd hmem).mono (List.subset_append_left _ _)
  have hclock := s.world.cluster.clock_carryOut app d.thread phase callback
  refine h.moved_of_log ho rfl (Nat.le_of_eq hclock.symm) hmore (fun id r hr => .inl ?_)
    fun n e he job hjob => Cluster.timely_carryOut htimely he hjob
  dsimp only at hr
  rw [Cluster.jobs_carryOut] at hr
  cases hcall : s.world.cluster.callbackCall phase callback with
  | none =>
    rw [hcall] at hr
    exact ⟨r, hr, rfl, rfl⟩
  | some a =>
    rw [hcall] at hr
    refine (StoreCall.find?_apply_eq_some hr).resolve_right ?_
    rintro ⟨x, _, rfl, _⟩
    cases callback with
    | publish n plan =>
      simp only [Cluster.callbackCall, Option.some.injEq] at hcall
      split at hcall <;> cases hcall
    | drop n j armed => cases armed <;> cases hcall
    | queue n info | applyWrites tx | withdraw n j | custom script => cases hcall

/-- An open transaction makes a call. -/
theorem worked (h : s.Punctual) {tx : TxId} (a : WorkCall η) {more : List Booking}
    (ho : ({ s.world with
      cluster := (a.perform tx s.world.cluster).2
      log := s.world.log ++ [⟨tx, a, s.world.cluster⟩] } : Interplay η ω).Orderly)
    (hmore : ∀ b ∈ more, b.time = s.clock) :
    ({ s with
        world := { s.world with
          cluster := (a.perform tx s.world.cluster).2
          log := s.world.log ++ [⟨tx, a, s.world.cluster⟩] }
        placed := s.placed ++ more } : Agenda η ω).Punctual := by
  have heffect := a.effect_perform tx s.world.cluster
  have hbookings : ({ s.world with
      cluster := (a.perform tx s.world.cluster).2
      log := s.world.log ++ [⟨tx, a, s.world.cluster⟩] } : Interplay η ω).bookings =
      s.world.bookings ++ (a.booking? s.clock (a.perform tx s.world.cluster).1).toList := by
    rw [Interplay.bookings, List.filterMap_append]
    rfl
  refine h.moved ho ?_ (Nat.le_of_eq heffect.clock.symm) (fun b hb => ?_) (fun id r hr => ?_)
    fun n e he _ _ => .inl ?_
  · rw [hbookings]
    exact List.subset_append_left _ _
  · rw [hbookings] at hb
    rcases List.mem_append.mp hb with hb | hb
    · rcases List.mem_append.mp hb with hb | hb
      · exact .inl (List.mem_append_left _ hb)
      · exact .inr (WorkCall.time_of_booking? (Option.mem_toList.mp hb))
    · rcases List.mem_append.mp hb with hb | hb
      · exact .inl (List.mem_append_right _ hb)
      · exact .inr (hmore b hb)
  · rcases heffect.jobs with ⟨plan, _, hjobs, n, hregistered⟩ | hjobs | ⟨call, hcall, _, hjobs⟩
    · rw [show _ = _ from hjobs, JobStore.find?_put] at hr
      split at hr
      · next hid =>
        cases hr
        have htimely := heffect.timely (x := ⟨.after, .publish n plan⟩)
          (hregistered ▸ List.mem_singleton_self _)
        refine .inr ⟨hid, ?_⟩
        rw [hbookings, ← hid]
        refine htimely.1.mono fun b hb => ?_
        exact List.mem_append_left _ (List.mem_append_right _ hb)
      · exact .inl ⟨r, hr, rfl, rfl⟩
    · rw [show _ = _ from hjobs] at hr
      exact .inl ⟨r, hr, rfl, rfl⟩
    · rw [show _ = _ from hjobs] at hr
      refine .inl ((StoreCall.find?_apply_eq_some hr).resolve_right ?_)
      rintro ⟨x, _, rfl, _⟩
      simpa [StoreCall.stages] using hcall x.id
  · rwa [show _ = _ from heffect.scheduler n] at he

/-- A booking bears the time on the clock. -/
theorem time_of_placing {m : Move η ω} {b : Booking} (hb : b ∈ s.placing m) : b.time = s.clock := by
  unfold placing at hb
  split at hb
  · split at hb
    · rw [List.mem_singleton.mp hb]
    · cases hb
  · cases hb

/-- Jobs stay on time with a move that queues nothing from outside. -/
theorem move (h : s.Punctual) {m : Move η ω} (hm : (AgendaStep.move m).Quiet) :
    (s.step app (.move m)).Punctual := by
  have ho : (s.world.step app m).Orderly := h.orderly.step m
  have hclock : s.clock ≤ (s.world.step app m).cluster.clock := s.world.clock_le_step app hm
  have hmore : ∀ b ∈ s.placing m, b.time = s.clock := fun b hb => time_of_placing hb
  have houtcome := Interplay.outcome_step app s.world m
  rw [step]
  generalize s.world.step app m = w at houtcome ho hclock
  cases houtcome with
  | idle | refused => exact h.moved_of_same ho rfl hclock hmore rfl fun _ => rfl
  | begun n thread hbegin =>
      refine h.moved_of_same ho rfl hclock hmore (Cluster.begin_eq_ok hbegin).jobs fun m => ?_
      have hscheduler := s.world.cluster.scheduler_begin n m thread
      rwa [hbegin] at hscheduler
  | worked a ht => exact h.worked a ho hmore
  | departed thread request ht hround hc htransactions hscheduler =>
      exact h.moved_of_same ho rfl hclock hmore hc.jobs hscheduler
  | before i hd hround =>
      have hin := List.mem_of_getElem? hd
      exact h.carriedOut hin (h.orderly.mem_before hin hround) ho hmore
  | decided i committed hd hround hc htransactions hscheduler =>
      exact h.moved_of_same ho rfl hclock hmore hc.jobs hscheduler
  | after i hd hround =>
      have hin := List.mem_of_getElem? hd
      exact h.carriedOut hin (h.orderly.mem_after hin hround) ho hmore
  | store a =>
      refine h.moved_of_log ho rfl hclock hmore (fun id r hr => ?_) fun n e he _ _ => .inl he
      refine (StoreCall.find?_apply_eq_some hr).imp_right ?_
      rintro ⟨x, t, rfl, hstage, rfl, rfl⟩
      refine ⟨rfl, ⟨x.id, x.dueAt, s.clock⟩, ?_, rfl, rfl⟩
      simp only [placing, hstage, List.mem_singleton]
  | registry n a =>
      refine h.moved_of_same ho rfl hclock hmore rfl fun m => ?_
      exact Cluster.scheduler_modifyNode (n := n)
        (f := fun x => { x with registry := a.apply x.registry }) rfl m
  | elsewhere what =>
      have hquiet := hm what rfl s.world.cluster
      refine h.moved_of_log ho rfl hclock hmore (fun id r hr => ?_) fun n e he job hjob => ?_
      · dsimp only at hr
        rw [hquiet.unmoved.jobs] at hr
        exact .inl ⟨r, hr, rfl, rfl⟩
      · refine .inl (hquiet.todo n e he ?_)
        rw [hjob]
        rfl

/-- Jobs that are read from the store are on time. -/
theorem fetch (h : s.Punctual) (n : NodeName) (maxDue : Time) (limit : Nat) :
    (s.step app (.fetch n maxDue limit)).Punctual := by
  rw [step]
  split
  · next jobs hjobs =>
    refine { h with fetched := fun p hp r hr => ?_ }
    rcases List.mem_append.mp hp with hp | hp
    · exact h.fetched p hp r hr
    · rw [List.mem_singleton.mp hp] at hr
      obtain ⟨id, hfind⟩ := JobStore.find?_of_dequeueImmediate hjobs hr
      obtain ⟨hid, hbooked⟩ := h.stored id r hfind
      exact hid ▸ hbooked
  · exact h

/-- A load pass queues a job that was scheduled, at its due time. -/
theorem queue (h : s.Punctual) {r : JobRecord} (hr : Booked s.bookings r.id r.dueAt) (n : NodeName)
    (now ttl : Time) : (s.queue n r now ttl).Punctual := by
  have hunmoved := s.world.cluster.unmoved_elsewhere (.inTodo n fun q =>
    (q.enqueue (.persisted r) r.effectiveDue now ttl).2)
  exact { h with
    orderly := h.orderly.onward hunmoved.onward rfl
    queued := by
      intro m e he job hjob
      rcases Cluster.mem_todo_enqueue he with he | ⟨htask, hdue⟩
      · exact h.queued m e he job hjob
      · cases hjob.symm.trans htask
        refine ⟨hr, fun d hd => ?_⟩
        have hdueAt : r.dueAt = some d := hd
        rw [hdue, JobRecord.effectiveDue, hdueAt]
        exact Nat.le_refl d }

theorem load (h : s.Punctual) (k : Nat) (now ttl : Time) :
    (s.step app (.load k now ttl)).Punctual := by
  rw [step]
  split
  · next n r rest hpass =>
    have hfetched := h.fetched _ (List.mem_of_getElem? hpass)
    have hr : Booked s.bookings r.id r.dueAt := hfetched r List.mem_cons_self
    refine { h.queue hr n now ttl with fetched := fun p hp r' hr' => ?_ }
    rcases List.mem_or_eq_of_mem_set hp with hp | rfl
    · exact h.fetched p hp r' hr'
    · exact hfetched r' (List.mem_cons_of_mem r hr')
  · exact h

/-- Every step leaves jobs in time. -/
theorem step (h : s.Punctual) {x : AgendaStep η ω} (hx : x.Quiet) : (s.step app x).Punctual := by
  cases x with
  | move m => exact h.move hx
  | start n insideRuntime =>
      exact h.dispatched n (Dispatch.quietly_start _ _) (Dispatch.reads_start _ _)
  | stop n => exact h.dispatched n (Dispatch.quietly_stop _) (Dispatch.reads_stop _)
  | proceed n i ready =>
      exact h.dispatched n (Dispatch.quietly_proceed _ _ _) (Dispatch.reads_proceed _ _ _)
  | fetch n maxDue limit => exact h.fetch n maxDue limit
  | load k now ttl => exact h.load k now ttl

/-- Every history leaves jobs in time. -/
theorem play (h : s.Punctual) {steps : List (AgendaStep η ω)} (hsteps : ∀ x ∈ steps, x.Quiet) :
    (s.play app steps).Punctual := by
  induction steps generalizing s with
  | nil => exact h
  | cons x rest ih =>
    exact ih (h.step (hsteps x List.mem_cons_self)) fun y hy => hsteps y (List.mem_cons_of_mem x hy)

end Punctual

/-! ## No job is early -/

/-- A history that begins in a cluster. -/
def beginIn (c : Cluster η ω) : Agenda η ω := { world := ⟨c, [], []⟩ }

/-- Where nothing is stored or queued, no job is early. -/
theorem punctual_beginIn {c : Cluster η ω} (hc : c.AtRest) (hstore : ∀ id, c.jobs.find? id = none)
    (hqueue : ∀ n, ∀ e ∈ (c.node n).scheduler.todo.entries, e.task.job? = none) :
    (beginIn c).Punctual where
  orderly := .start hc
  past _ hb := absurd hb List.not_mem_nil
  stored id r hr := by
    have hnone : c.jobs.find? id = some r := hr
    rw [hstore id] at hnone
    cases hnone
  fetched _ hp := absurd hp List.not_mem_nil
  queued n e he job hjob := by
    have hnone := hqueue n e he
    rw [hjob] at hnone
    cases hnone
  looking _ _ hl := absurd hl List.not_mem_nil

/-- Where no job is stored or queued at first, a dispatch loop never takes a job out of the queue
early, whatever transactions, calls on the store, load passes, stops and starts have come before:
the job was scheduled, not later than now, and if it was scheduled for a time, that time has
come. -/
theorem not_early (app : Application η ω) {c : Cluster η ω} (hc : c.AtRest)
    (hstore : ∀ id, c.jobs.find? id = none)
    (hqueue : ∀ n, ∀ e ∈ (c.node n).scheduler.todo.entries, e.task.job? = none)
    {steps : List (AgendaStep η ω)} (hsteps : ∀ x ∈ steps, x.Quiet) {x : AgendaStep η ω}
    {job : ScheduledJob} (hpop : ((beginIn c).play app steps).popped? x = some job) :
    ∃ b ∈ ((beginIn c).play app steps).bookings, b.id = job.jobId ∧ b.dueAt = job.info.dueAt ∧
      b.time ≤ ((beginIn c).play app steps).clock ∧
      ∀ d, job.info.dueAt = some d → d ≤ ((beginIn c).play app steps).clock := by
  have h : ((beginIn c).play app steps).Punctual :=
    (punctual_beginIn hc hstore hqueue).play hsteps
  obtain ⟨n, i, ready, l, now, rest, rfl, hl, hstage, hqueued⟩ := popped?_eq_some hpop
  obtain ⟨e, he, htask, hdue, _⟩ := TodoQueue.pop?_eq_some hqueued
  obtain ⟨⟨b, hb, hid, hdueAt⟩, htimely⟩ := h.queued n e he job htask
  have hnow : now ≤ ((beginIn c).play app steps).clock :=
    h.looking n l (List.mem_of_getElem? hl) now hstage
  refine ⟨b, hb, hid, hdueAt, h.past b hb, fun d hd => ?_⟩
  calc d ≤ e.due := htimely d hd
    _ ≤ now := hdue
    _ ≤ ((beginIn c).play app steps).clock := hnow

/-- A second node has an identifier of its own. -/
def twoNodes : Cluster Unit Unit :=
  Cluster.blank.setNode "b" (.ofSettings { nodeId := ⟨"node-2"⟩ })

/-- A job that is due in forty seconds is stored for one node. The node is given up, and another one
takes its jobs over. When the time has come, a load pass of the other node reads the job; it queues
the job only after the scheduler of the node was stopped, but a loop is still at work. -/
def takenOver : List (AgendaStep Unit Unit) :=
  [.start "b" true, .move (.begin "a" .main),
    .move (.work ⟨0⟩ (.schedulePersisted "a" ⟨"", ∅⟩ (some 40000))),
    .move (.depart ⟨0⟩ .main .commit), .move (.advance 0), .move (.advance 0),
    .move (.store (.reassign ⟨"node-1"⟩ ⟨"node-2"⟩)), .move (.elsewhere (.wait 40000)),
    .fetch "b" 70000 10, .proceed "b" 0 true, .stop "b", .load 0 40000 3600000]

/-- The job as the load pass has read it. -/
def handedOver : JobRecord where
  id := .drawn 0
  details := ⟨"", ∅⟩
  dueAt := some 40000
  owner := some ⟨"node-2"⟩
  state := .pending

/-- The job comes out on the second node, at the time for which it was scheduled on the first. -/
theorem not_early_takenOver :
    ((beginIn twoNodes).play .silent takenOver).clock = 40000 ∧
      ∃ job, ((beginIn twoNodes).play .silent takenOver).popped? (.proceed "b" 0 true) = some job ∧
        job.info.dueAt = some 40000 ∧
        ∃ b ∈ ((beginIn twoNodes).play .silent takenOver).bookings, b.id = job.jobId ∧
          b.dueAt = job.info.dueAt ∧
          b.time ≤ ((beginIn twoNodes).play .silent takenOver).clock ∧
          ∀ d, job.info.dueAt = some d →
            d ≤ ((beginIn twoNodes).play .silent takenOver).clock := by
  have hnode : ∀ n, (twoNodes.node n).registry.slots = ∅ ∧
      (twoNodes.node n).scheduler.todo.entries = [] := by
    intro n
    rw [twoNodes, Cluster.node_setNode]
    split <;> exact ⟨rfl, rfl⟩
  have hrest : twoNodes.AtRest :=
    { Cluster.atRest_blank with
      registries := by
        intro n id slot hslot
        rw [(hnode n).1] at hslot
        cases hslot }
  have hqueue : ∀ n, ∀ e ∈ (twoNodes.node n).scheduler.todo.entries, e.task.job? = none := by
    intro n e he
    rw [(hnode n).2] at he
    cases he
  have hquiet : ∀ x ∈ takenOver, x.Quiet := by
    simp [takenOver, AgendaStep.Quiet, Elsewhere.quiet_wait]
  have hpop : ((beginIn twoNodes).play .silent takenOver).popped? (.proceed "b" 0 true) =
      some (.persisted handedOver) := by
    decide +kernel
  have hclock : ((beginIn twoNodes).play .silent takenOver).clock = 40000 := by
    decide +kernel
  exact ⟨hclock, _, hpop, rfl, not_early .silent hrest (fun _ => rfl) hqueue hquiet hpop⟩

end Agenda

end JobCluster
