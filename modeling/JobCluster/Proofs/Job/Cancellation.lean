import JobCluster.Proofs.Job.Fleet
import JobCluster.Proofs.Job.Stray
/-!
# What a cancellation promises

A cancellation answers whether it has found the job, in the todo queue of its node or in the store.
If it has, then nobody is processing the job, and nobody ever will: so it is for a job that is kept
in memory. A stored job may be queued on a node while another one has claimed it, and then the
answer says nothing of the record, which stays with its holder and may be recovered; and the store
gives a job up whose claim was reset, although the handler that had claimed it is still at work.

A cancellation that is answered with an error, because the store is not available, has nevertheless
taken the job out of the queue, and nothing puts it back.

Main results:

- `Overlap.Steps.find?_eq_none`: a stored job that is gone is never claimed again;
- `Overlap.claimed_again`: one that is claimed may be claimed once more;
- `failed_cancel_changes_nothing_iff`: what a cancellation that fails has changed;
- `settled_cancel_iff`: when a cancellation keeps its promise;
- `unsettled_cancel`: a stale copy that is cancelled during a run, and a reset claim.
-/

namespace JobCluster

variable {η ω : Type}

/-! ## The answer -/

namespace Cluster

variable {c d : Cluster η ω} {n : NodeName} {id : JobId} {found : Bool}

/-- A cancellation that answers has asked the store, and changes the store and the queue of its
node. -/
theorem cancel_eq_ok (h : c.cancel n id = (.ok found, d)) : ∃ stored jobs,
    c.jobs.cancel id = .ok (stored, jobs) ∧
      found = (((c.node n).scheduler.todo.remove id).1 || stored) ∧
      d = ({ c with jobs } : Cluster η ω).modifyTodo n fun _ =>
        ((c.node n).scheduler.todo.remove id).2 := by
  unfold cancel cancelJob at h
  rcases hstored : c.jobs.cancel id with e | ⟨stored, jobs⟩
  · simp [hstored] at h
  · simp only [hstored, Prod.mk.injEq, Except.ok.injEq] at h
    obtain ⟨rfl, rfl⟩ := h
    exact ⟨stored, jobs, rfl, rfl, rfl⟩

/-- A cancellation that succeeds has made its call on the store, which was available. -/
theorem jobs_cancel (h : c.cancel n id = (.ok found, d)) :
    d.jobs = (StoreCall.cancel id).apply c.jobs ∧ c.jobs.available = true := by
  obtain ⟨stored, jobs, hstored, _, rfl⟩ := cancel_eq_ok h
  refine ⟨?_, ((JobStore.guarded_eq_ok_iff _ _ _).mp hstored).1⟩
  simp only [StoreCall.apply, hstored, JobStore.orSelf', JobStore.orSelf, Except.map]
  rfl

/-- A thread begins a transaction, if it has none and the resource manager agrees. -/
theorem begin_of_idle {thread : Thread} (hmanager : (c.node n).manager.active? thread = none)
    (hresource : c.resource.refusesBegin = false) : ∃ tx d, c.begin n thread = (.ok tx, d) := by
  have hnode : (({ c with nextTx := c.nextTx + 1 } : Cluster η ω)).node n = c.node n := rfl
  unfold begin
  simp only [hnode, TxManager.claim, hmanager, ResourceManager.begin, hresource]
  exact ⟨_, _, rfl⟩

end Cluster

/-! ## Stored jobs -/

namespace JobStore

variable {s t : JobStore} {id : JobId}

/-- A cancellation takes a job out that nobody has claimed. -/
theorem find?_cancel_eq_none (ha : s.available = true) (h : s.heldBy? id = none) :
    ((StoreCall.cancel id).apply s).find? id = none := by
  rw [StoreCall.find?_apply]
  simp only [StoreCall.concerns, StoreCall.job?, Option.all_some, decide_true, StoreCall.accepted,
    ha, Bool.and_self, if_true]
  cases hr : s.find? id with
  | none => rfl
  | some r =>
      cases hstate : r.state with
      | staged | pending =>
          simp [StoreCall.revise, Option.filter, hstate, JobRecord.isPending]
      | claimed node =>
          rw [heldBy?, hr] at h
          simp [hstate, JobState.holder?] at h

/-- A cancellation leaves a claimed job to its holder. -/
theorem heldBy?_cancel (s : JobStore) (id : JobId) :
    ((StoreCall.cancel id).apply s).heldBy? id = s.heldBy? id := by
  have hbystanding : (StoreCall.cancel id).Bystanding id := trivial
  rcases StoreCall.heldBy?_apply (s := s) hbystanding with hsame | ⟨_, _, heq, _⟩
  · exact hsame
  · cases heq

/-- A recovery frees the job of a node that has claimed it, for the node that takes over. -/
theorem claim_reassign {node target : NodeId} (ha : s.available = true)
    (howns : s.HolderOwns id) (hheld : s.heldBy? id = some node) :
    ∃ held t, ((StoreCall.reassign node target).apply s).claim id target = .ok (held, t) := by
  obtain ⟨r, hr, hstate⟩ := heldBy?_eq_some.mp hheld
  have howner := howns r node hr hstate
  have hfreed : ((StoreCall.reassign node target).apply s).find? id =
      some { r with owner := some target, state := .pending } := by
    rw [StoreCall.find?_apply, hr]
    simp [StoreCall.concerns, StoreCall.job?, StoreCall.accepted, ha, StoreCall.revise, reassigned,
      howner, hstate]
  have havailable : ((StoreCall.reassign node target).apply s).available = true := by
    rw [StoreCall.available_apply]
    exact ha
  exact ⟨_, _, (claim_eq_ok_iff _ _ _ _ _).mpr ⟨havailable, _, hfreed,
    by simp [claimableBy, JobRecord.isPending], rfl, rfl⟩⟩

end JobStore

namespace Overlap

variable {app : Application η ω} {id : JobId} {events : List JobEvent} {event : JobEvent}
  {o p : Overlap η ω}

/-- A job that is gone stays away, and is not claimed. -/
theorem Step.find?_eq_none (h : Step app id o event p) (ho : o.cluster.jobs.find? id = none) :
    p.cluster.jobs.find? id = none ∧ ∀ run, event ≠ .claimed run := by
  constructor
  · rcases h.jobs_cases with hjobs | ⟨a, ha, _, hjobs⟩
    · rwa [hjobs]
    · rw [hjobs]
      exact StoreCall.find?_apply_eq_none ha ho
  · intro run hevent
    obtain ⟨node, held, t, hclaim⟩ := h.claim_of_claimed hevent
    exact (JobStore.Taken.of_find?_eq_none ho).not_claim hclaim

/-- A stored job that is gone is never claimed again. -/
theorem Steps.find?_eq_none (h : Steps app id o events p) (ho : o.cluster.jobs.find? id = none) :
    p.cluster.jobs.find? id = none ∧ ∀ run, .claimed run ∉ events := by
  induction h with
  | refl => exact ⟨ho, fun _ => List.not_mem_nil⟩
  | tail _ last ih =>
      obtain ⟨hgone, hbefore⟩ := ih
      obtain ⟨hstill, hevent⟩ := last.find?_eq_none hgone
      refine ⟨hstill, fun run hmem => ?_⟩
      rcases List.mem_append.mp hmem with hmem | hmem
      · exact hbefore run hmem
      · exact hevent run (List.mem_singleton.mp hmem).symm

/-- The node that has claimed the job is its owner, in every history of runs of a job that nobody
held at the beginning. -/
theorem Steps.holderOwns {c : Cluster η ω} (hc : c.jobs.heldBy? id = none)
    (h : Steps app id ⟨c, []⟩ events o) : o.cluster.jobs.HolderOwns id := by
  induction h with
  | refl => exact .of_heldBy? hc
  | tail _ last ih =>
      rcases last.jobs_cases with hjobs | ⟨a, _, _, hjobs⟩
      · rwa [hjobs]
      · rw [hjobs]
        exact ih.apply a

/-- A job that is claimed may be claimed once more: the node that has claimed it is taken for dead,
and the one that takes over runs the job. -/
theorem claimed_again {d : Cluster η ω} {node : NodeId} (app : Application η ω)
    (runs : List (JobRun η)) (n : NodeName) (ha : d.jobs.available = true)
    (howns : d.jobs.HolderOwns id) (hheld : d.jobs.heldBy? id = some node) :
    ∃ events p run, Steps app id ⟨d, runs⟩ events p ∧ .claimed run ∈ events := by
  obtain ⟨a, ha'⟩ : ∃ a : StoreCall, a = .reassign node (d.nodeId n) := ⟨_, rfl⟩
  have hrecovery : Step app id ⟨d, runs⟩ (a.event id d.jobs)
      ⟨{ d with jobs := a.apply d.jobs }, runs⟩ := .call a (ha' ▸ trivial)
  -- The node that takes over has a thread to spare.
  obtain ⟨c, hc⟩ : ∃ c : Cluster η ω, c = ({ d with
    jobs := a.apply d.jobs, resource := {} }).modifyManager n fun _ => { defaultTimeout := 0 } :=
    ⟨_, rfl⟩
  have hspare : Step app id ⟨{ d with jobs := a.apply d.jobs }, runs⟩ .quiet ⟨c, runs⟩ := by
    refine .around ?_
    rw [hc]
    exact ⟨rfl, fun m => Cluster.nodeId_modifyManager _ n m _, Nat.le_refl _,
      fun _ t ht _ hx _ => ⟨t, ht, hx⟩⟩
  obtain ⟨tx, e, hbegin⟩ : ∃ tx e, c.begin n .main = (.ok tx, e) := by
    rw [hc]
    refine Cluster.begin_of_idle ?_ rfl
    simp [Cluster.modifyManager, TxManager.active?]
  have hbegun := Cluster.begin_eq_ok hbegin
  have hbegins : Step app id ⟨c, runs⟩ .quiet ⟨e, runs ++ [{ node := n, thread := .main, tx }]⟩ :=
    .begin hbegin
  obtain ⟨held, jobs, hclaim⟩ : ∃ held jobs, e.jobs.claim id (e.nodeId n) = .ok (held, jobs) := by
    have hnode : e.nodeId n = d.nodeId n := by
      rw [hbegun.nodeId, hc]
      exact Cluster.nodeId_modifyManager _ n n _
    have hjobs : e.jobs = a.apply d.jobs := by
      rw [hbegun.jobs, hc]
      rfl
    rw [hnode, hjobs, ha']
    exact JobStore.claim_reassign ha howns hheld
  have hevent : (Overlap.advance app id ⟨e, runs ++ [{ node := n, thread := .main, tx }]⟩
      runs.length .panicked).2 = .claimed runs.length := by
    rcases e.claimFor_cases n tx id with ⟨_, _, _, heq⟩ | ⟨_, herror, _⟩
    · simp [Overlap.advance, JobRun.advance, heq]
    · rw [hclaim] at herror
      cases herror
  have hclaims : Steps app id ⟨e, runs ++ [{ node := n, thread := .main, tx }]⟩ _ _ :=
    (Step.advance runs.length .panicked).steps
  exact ⟨_, _, runs.length, ((hrecovery.steps.trans hspare.steps).trans hbegins.steps).trans hclaims,
    List.mem_append_right _ (List.mem_singleton.mpr hevent.symm)⟩

/-- A cancellation is a call on the store, with a change of a queue after it. -/
theorem steps_cancel {d : Cluster η ω} {n : NodeName} {found : Bool} (app : Application η ω)
    (h : o.cluster.cancel n id = (.ok found, d)) : Steps app id o
      [(StoreCall.cancel id).event id o.cluster.jobs, .quiet] { o with cluster := d } := by
  have hcall : Step app id o ((StoreCall.cancel id).event id o.cluster.jobs)
      ⟨{ o.cluster with jobs := (StoreCall.cancel id).apply o.cluster.jobs }, o.runs⟩ :=
    .call _ trivial
  refine hcall.steps.trans (Step.around ?_).steps
  have hjobs := (Cluster.jobs_cancel h).1
  obtain ⟨_, jobs, _, _, rfl⟩ := Cluster.cancel_eq_ok h
  exact ⟨hjobs, fun m => Cluster.nodeId_modifyTodo _ n m _, Nat.le_refl _,
    fun _ t ht _ hx _ => ⟨t, ht, hx⟩⟩

/-- Whether nobody is processing the job, and nobody ever will. -/
def Settled (app : Application η ω) (id : JobId) (o : Overlap η ω) : Prop :=
  (∀ r ∈ o.runs, r.stage ≠ .handling) ∧
    ∀ later p run, Steps app id o later p → .claimed run ∉ later

/-- A cancellation that was answered keeps its promise for a stored job exactly if no claim is in
force and no call has outlived its claim. -/
theorem Steps.settled_iff {c d : Cluster η ω} {n : NodeName} {found : Bool}
    (hc : c.jobs.heldBy? id = none) (h : Steps app id ⟨c, []⟩ events o)
    (hcancel : o.cluster.cancel n id = (.ok found, d)) :
    Settled app id { o with cluster := d } ↔
      JobEvent.holder events = none ∧ ¬ o.HasStray events := by
  have hfenced := h.fenced hc
  obtain ⟨hjobs, havailable⟩ := Cluster.jobs_cancel hcancel
  constructor
  · rintro ⟨hidle, hnever⟩
    constructor
    · cases hholder : JobEvent.holder events with
      | none => rfl
      | some i =>
          -- The record stays with its holder, and a recovery hands it to somebody else.
          have hlt : i < o.nodeIds.length := by simpa [nodeIds] using hfenced.begun i hholder
          have hheld : o.cluster.jobs.heldBy? id = some o.nodeIds[i] := by
            rw [hfenced.held, hholder]
            exact List.getElem?_eq_getElem hlt
          have howns := (h.trans (steps_cancel app hcancel)).holderOwns hc
          obtain ⟨later, p, run, hsteps, hclaimed⟩ := claimed_again app o.runs n
            (by rw [hjobs, StoreCall.available_apply]; exact havailable) howns
            (by rw [hjobs, JobStore.heldBy?_cancel]; exact hheld)
          exact absurd hclaimed (hnever later p run hsteps)
    · rintro ⟨i, r, hr, hstage, _⟩
      exact hidle r (List.mem_of_getElem? hr) hstage
  · rintro ⟨hholder, hstray⟩
    constructor
    · intro r hr hstage
      obtain ⟨i, hi⟩ := List.getElem?_of_mem hr
      refine hstray ⟨i, r, hi, hstage, ?_⟩
      rw [hholder]
      exact (Option.some_ne_none i).symm
    · intro later p run hsteps
      have hfree : o.cluster.jobs.heldBy? id = none := by
        rw [hfenced.held, hholder]
        rfl
      have hgone : d.jobs.find? id = none :=
        hjobs ▸ JobStore.find?_cancel_eq_none havailable hfree
      exact (hsteps.find?_eq_none hgone).2 run

end Overlap

/-! ## Jobs that are kept in memory -/

/-- Whether a job is kept in memory alone, as far as a node can see: the store knows nothing of it,
and neither does what is queued to be claimed. -/
def Cluster.KeepsInMemory (c : Cluster η ω) (n : NodeName) (id : JobId) : Prop :=
  c.jobs.find? id = none ∧
    ∀ e ∈ (c.node n).scheduler.todo.entries, e.task.runs id = true → e.task.isCopyOf id = true

/-- What a cancellation finds of a job that is kept in memory is a copy in the queue. -/
theorem Cluster.exists_copy_of_cancel {c d : Cluster η ω} {n : NodeName} {id : JobId}
    (hkept : c.KeepsInMemory n id) (h : c.cancel n id = (.ok true, d)) :
    ∃ task ∈ (c.node n).scheduler.todo.tasksOf id, task.isCopyOf id = true := by
  obtain ⟨stored, jobs, hstored, hfound, _⟩ := cancel_eq_ok h
  have hnone : stored = false := by
    have hanswer := ((JobStore.guarded_eq_ok_iff _ _ _).mp hstored).2
    rw [hkept.1] at hanswer
    cases hanswer
    rfl
  rw [hnone, Bool.or_false] at hfound
  have hremoved : ((c.node n).scheduler.todo.entries.filter fun e => !e.task.runs id).length <
      (c.node n).scheduler.todo.entries.length :=
    Nat.lt_of_sub_pos (of_decide_eq_true hfound.symm)
  obtain ⟨e, he, hruns⟩ := List.length_filter_lt_length_iff_exists.mp hremoved
  simp only [Bool.not_eq_true', Bool.not_eq_false] at hruns
  exact ⟨e.task, List.mem_filter.mpr ⟨List.mem_map_of_mem he, hruns⟩, hkept.2 e he hruns⟩

namespace Fleet

variable {f : Fleet η ω} {id : JobId}

/-- Whether no worker is processing the job, and none ever will, unless it is committed again. -/
def Settled (id : JobId) (f : Fleet η ω) : Prop :=
  (∀ n, ∀ r ∈ (f n).runs, r.task.isCopyOf id = true → r.invoked = true → r.finished = true) ∧
    ∀ later, (∀ x ∈ later.filterMap FleetStep.committed?, x.2 ≠ id) → ∀ n,
      (f.play later n).invocations.countP (Task.isCopyOf id) =
        (f n).invocations.countP (Task.isCopyOf id)

/-- A job all of whose copies were cancelled is settled. -/
theorem Kept.settled (h : Kept f) (hcancelled : f.Cancelled id) : f.Settled id := by
  constructor
  · intro n r hr hcopy _
    have hnone := List.countP_eq_zero.mp (h.untouched hcancelled n).1 r hr
    exact absurd hcopy hnone
  · intro later hlater n
    rw [((h.play later).untouched (hcancelled.play hlater) n).2, (h.untouched hcancelled n).2]

/-- A cancellation that finds a job that is kept in memory takes away its only copy. -/
theorem cancelled_of_cancel {c d : Cluster η ω} {steps : List (FleetStep η ω)} {n : NodeName}
    (hc : c.Unladen) (hdistinct : ((steps.filterMap FleetStep.committed?).map Prod.snd).Nodup)
    (hkept : ((start c).play steps n).cluster.KeepsInMemory n id)
    (hcancel : ((start c).play steps n).cluster.cancel n id = (.ok true, d)) :
    (((start c).play steps).step (.on n (.cancel id) trivial)).Cancelled id := by
  have haccounts := ((Kept.start hc).play steps).accounts n
  obtain ⟨task, htask, hcopy⟩ := Cluster.exists_copy_of_cancel hkept hcancel
  have htaken : 0 < ((((start c).play steps n).todo n).tasksOf id).countP (Task.isCopyOf id) :=
    List.countP_pos_iff.mpr ⟨task, htask, hcopy⟩
  have hcommitted : 0 < ((start c).play steps n).committed.countP (Task.isCopyOf id) := by
    have hbalance := haccounts.balance id
    have hqueued := (((start c).play steps n).todo n).copies_remove_add id id
    rw [Dispatch.places_eq] at hbalance
    omega
  intro k
  have hcount := countP_committed_of_nodup hdistinct hcommitted k
  by_cases hk : k = n
  · subst hk
    rw [if_pos rfl] at hcount
    simp only [step, if_true, Dispatch.step, hcancel, List.countP_append, hcount]
    omega
  · rw [if_neg hk] at hcount
    simp only [step, if_neg hk, hcount]
    exact Nat.zero_le _

end Fleet

/-! ## A cancellation that fails -/

namespace TodoQueue

/-- Whether a queue knows of a job: the job is queued, or marked. -/
def knows (q : TodoQueue) (id : JobId) : Bool :=
  (q.entries.any fun e => e.task.runs id) || q.isOutstanding id

/-- A queue does not know a job that has no entry and no mark. -/
theorem knows_eq_false_iff {q : TodoQueue} {id : JobId} :
    q.knows id = false ↔
      (∀ e ∈ q.entries, e.task.runs id = false) ∧ q.marks.get? id = none := by
  simp [knows, isOutstanding, Table.contains]

theorem knows_remove (q : TodoQueue) (id : JobId) : (q.remove id).2.knows id = false := by
  refine knows_eq_false_iff.mpr ⟨fun e he => ?_, by simp [remove]⟩
  simpa using (List.mem_filter.mp he).2

/-- Nothing is taken out, and no mark off, exactly if the queue knows nothing of the job. -/
theorem remove_eq_self_iff {q : TodoQueue} {id : JobId} :
    (q.remove id).2 = q ↔ q.knows id = false := by
  constructor
  · intro h
    rw [← h]
    exact q.knows_remove id
  · intro h
    obtain ⟨hentries, hmark⟩ := knows_eq_false_iff.mp h
    have hkeep : (q.entries.filter fun e => !e.task.runs id) = q.entries :=
      List.filter_eq_self.mpr fun e he => by rw [hentries e he]; rfl
    simp [remove, hkeep, Table.erase_eq_self_iff.mpr hmark]

/-- A job that a queue does not know is not found. -/
theorem remove_of_knows_eq_false {q : TodoQueue} {id : JobId} (h : q.knows id = false) :
    q.remove id = (false, q) := by
  refine Prod.ext (decide_eq_false ?_) (remove_eq_self_iff.mpr h)
  have hentries : (q.entries.filter fun e => !e.task.runs id) = q.entries :=
    congrArg TodoQueue.entries (remove_eq_self_iff.mpr h)
  rw [hentries, Nat.sub_self]
  exact Nat.lt_irrefl 0

end TodoQueue

/-- A cancellation fails exactly if the store is not available. By then the job is out of the
queue. -/
theorem cancelJob_eq_error {store store' : JobStore} {q r : TodoQueue} {id : JobId}
    {e : SchedulerError} (h : cancelJob store q id = (.error e, store', r)) :
    store.available = false ∧ e = .cancelFailed id .unavailable ∧ store' = store ∧
      r = (q.remove id).2 := by
  unfold cancelJob at h
  cases havailable : store.available with
  | true =>
      have hcancel : ∃ found, store.cancel id = .ok found := by
        simp only [JobStore.cancel, JobStore.guarded, havailable, if_true]
        split
        · exact ⟨_, rfl⟩
        · split <;> exact ⟨_, rfl⟩
      obtain ⟨found, hcancel⟩ := hcancel
      simp [hcancel] at h
  | false =>
      have hcancel : store.cancel id = .error .unavailable := by
        simp [JobStore.cancel, JobStore.guarded, havailable]
      simp only [hcancel, Prod.mk.injEq, Except.error.injEq] at h
      obtain ⟨rfl, rfl, rfl⟩ := h
      exact ⟨rfl, rfl, rfl, rfl⟩

/-- When a cancellation that is answered with an error has changed nothing: exactly if the queue
does not know the job. The store is as it was in any case, and the queue has lost nothing but the
job. What it has lost is gone: when the store is back, the same cancellation answers for the store
alone. -/
theorem failed_cancel_changes_nothing_iff {store store' : JobStore} {q r : TodoQueue} {id : JobId}
    {e : SchedulerError} (h : cancelJob store q id = (.error e, store', r)) :
    ((r = q ∧ store' = store) ↔ q.knows id = false) ∧
      store' = store ∧
      r.entries = (q.entries.filter fun x => !x.task.runs id) ∧
      (∀ other, other ≠ id → r.marks.get? other = q.marks.get? other) ∧
      ∀ {later after : JobStore} {stored : Bool}, later.cancel id = .ok (stored, after) →
        cancelJob later r id = (.ok stored, after, r) := by
  obtain ⟨-, -, hstore, rfl⟩ := cancelJob_eq_error h
  refine ⟨?_, hstore, rfl, fun other hother => ?_, fun hlater => ?_⟩
  · rw [TodoQueue.remove_eq_self_iff]
    exact and_iff_left hstore
  · simp [TodoQueue.remove, hother]
  · simp [cancelJob, TodoQueue.remove_of_knows_eq_false (q.knows_remove id), hlater]

/-- A job that is kept in memory alone and a stored one, both queued. -/
def TodoQueue.errands : TodoQueue :=
  let record : JobRecord := { id := ⟨"J"⟩, details := ⟨"", ∅⟩, state := .pending }
  let q := (({} : TodoQueue).enqueue (.volatile Dispatch.errand) 0 0 1000).2
  (q.enqueue (.persisted record) 0 0 1000).2

/-- A job that the queue does not know cannot be cancelled either, and that changes nothing. -/
theorem failed_cancel_changes_nothing_iff_stranger :
    ∃ r, cancelJob { available := false } TodoQueue.errands ⟨"K"⟩ =
        (.error (.cancelFailed ⟨"K"⟩ .unavailable), { available := false }, r) ∧
      r = TodoQueue.errands := by
  have hfails : cancelJob { available := false } TodoQueue.errands ⟨"K"⟩ =
      (.error (.cancelFailed ⟨"K"⟩ .unavailable), { available := false },
        (TodoQueue.errands.remove ⟨"K"⟩).2) := rfl
  obtain ⟨hunchanged, -⟩ := failed_cancel_changes_nothing_iff hfails
  exact ⟨_, hfails, (hunchanged.mpr (by decide)).1⟩

/-- Two cancellations that fail. The one takes out a job that is kept in memory alone, so that
nobody will ever run it; the other one takes out a stored job and its mark. -/
theorem failed_cancel_loses_job :
    let cancel := cancelJob { available := false } TodoQueue.errands
    (∃ e r, cancel ⟨"V"⟩ = (.error e, { available := false }, r) ∧ r ≠ TodoQueue.errands ∧
        TodoQueue.errands.copies ⟨"V"⟩ = 1 ∧ r.copies ⟨"V"⟩ = 0 ∧ r.jobCount = 1) ∧
      ∃ e r, cancel ⟨"J"⟩ = (.error e, { available := false }, r) ∧ r ≠ TodoQueue.errands ∧
        TodoQueue.errands.isOutstanding ⟨"J"⟩ = true ∧ r.isOutstanding ⟨"J"⟩ = false ∧
        r.jobCount = 1 :=
  ⟨⟨_, _, rfl, by decide, by decide, by decide, rfl⟩,
    ⟨_, _, rfl, by decide, by decide, by decide, rfl⟩⟩

/-! ## The promise -/

/-- When a cancellation that has found a job keeps its promise, that nobody is processing the job
and nobody ever will, after any history.
- For a stored job it does so exactly if no claim is in force and no call has outlived its claim.
  The latter takes a recovery that has reset a claim.
- For a job that is kept in memory, and committed once, it always does. -/
theorem settled_cancel_iff (app : Application η ω) (id : JobId) (n : NodeName) :
    (∀ {c d : Cluster η ω} {events : List JobEvent} {o : Overlap η ω},
      c.jobs.heldBy? id = none → Overlap.Steps app id ⟨c, []⟩ events o →
      o.cluster.cancel n id = (.ok true, d) →
        (Overlap.Settled app id { o with cluster := d } ↔
          JobEvent.holder events = none ∧ ¬ o.HasStray events) ∧
        (.reset ∉ events → ¬ o.HasStray events)) ∧
    ∀ {c d : Cluster η ω} {steps : List (FleetStep η ω)}, c.Unladen →
      ((steps.filterMap FleetStep.committed?).map Prod.snd).Nodup →
      ((Fleet.start c).play steps n).cluster.KeepsInMemory n id →
      ((Fleet.start c).play steps n).cluster.cancel n id = (.ok true, d) →
        (((Fleet.start c).play steps).step (.on n (.cancel id) trivial)).Settled id := by
  refine ⟨fun hc h hcancel => ⟨h.settled_iff hc hcancel, ?_⟩, ?_⟩
  · exact fun hreset hstray => hreset (h.reset_mem_of_hasStray hc hstray)
  · intro c d steps hc hdistinct hkept hcancel
    exact (((Fleet.Kept.start hc).play steps).step _).settled
      (Fleet.cancelled_of_cancel hc hdistinct hkept hcancel)

namespace Overlap

/-- A job of two nodes that is queued on the first. -/
def queuedJob : Overlap Unit Unit :=
  let o := ofJob "a" "b" ⟨"J"⟩
  let record : JobRecord := { id := ⟨"J"⟩, details := ⟨"", ∅⟩, state := .pending }
  { o with
    cluster := o.cluster.modifyTodo "a" fun q => (q.enqueue (.persisted record) 0 0 1000).2 }

/-- Makes moves with the queued job. -/
def playQueued (moves : List JobMove) : Overlap Unit Unit × List JobEvent :=
  queuedJob.play .silent ⟨"J"⟩ moves

end Overlap

/-- A stored job is cancelled when a run is about to claim it, and another job as soon as it is
queued. Nobody will ever process them. -/
theorem settled_cancel_iff_early :
    Overlap.Settled .silent ⟨"J"⟩ { (Overlap.playQueued [.begin "b" .main]).1 with
      cluster := ((Overlap.playQueued [.begin "b" .main]).1.cluster.cancel "a" ⟨"J"⟩).2 } ∧
    (((Fleet.start .blank).play [.on "a" (.commit Dispatch.errand) trivial]).step
      (.on "a" (.cancel ⟨"V"⟩) trivial) : Fleet Unit Unit).Settled ⟨"V"⟩ := by
  constructor
  · have hsteps := Overlap.steps_play .silent ⟨"J"⟩ Overlap.queuedJob [.begin "b" .main]
    have hevents : (Overlap.queuedJob.play .silent ⟨"J"⟩ [.begin "b" .main]).2 = [.quiet] := rfl
    rw [hevents] at hsteps
    obtain ⟨hiff, hstray⟩ := (settled_cancel_iff .silent ⟨"J"⟩ "a").1 rfl hsteps rfl
    exact hiff.mpr ⟨rfl, hstray (by decide)⟩
  · refine (settled_cancel_iff .silent ⟨"V"⟩ "a").2 (c := .blank) ?_ (by decide) ?_ rfl
    · exact ⟨fun _ => TodoQueue.numbered_empty, fun _ _ => rfl⟩
    · refine ⟨rfl, fun e he _ => ?_⟩
      obtain rfl := List.mem_singleton.mp he
      rfl

namespace Overlap

/-- The second node has claimed the job, and its handler is at work. -/
def runElsewhere : List JobMove := [.begin "b" .main, .advance 0 .panicked]

/-- The first node has claimed the job, and is taken for dead while its handler is at work. -/
def recoveredRun : List JobMove :=
  [.begin "a" .main, .advance 0 .panicked, .call (.reassign ⟨"a"⟩ ⟨"b"⟩)]

/-- The second node is taken for dead as well, and the first one runs the job. -/
def runAgain : List JobMove :=
  [.call (.reassign ⟨"b"⟩ ⟨"a"⟩), .begin "a" (.named "other"), .advance 1 .panicked]

/-- A cancellation that breaks its promise. The first node cancels the copy in its queue while the
handler of the second one is at work: the answer is yes, the run goes on, and the job may even be
run once more. And a job whose claim was reset is given up although the handler that had claimed it
is still at work. -/
theorem unsettled_cancel :
    (let o := (playQueued runElsewhere).1
      let after : Overlap Unit Unit := { o with cluster := (o.cluster.cancel "a" ⟨"J"⟩).2 }
      (o.cluster.cancel "a" ⟨"J"⟩).1 = .ok true ∧ ¬ after.Settled .silent ⟨"J"⟩ ∧
        (∃ r ∈ after.runs, r.stage = .handling) ∧
        (after.play .silent ⟨"J"⟩ runAgain).2 = [.reset, .quiet, .claimed 1]) ∧
      let o := (playJob recoveredRun).1
      let after : Overlap Unit Unit := { o with cluster := (o.cluster.cancel "b" ⟨"J"⟩).2 }
      (o.cluster.cancel "b" ⟨"J"⟩).1 = .ok true ∧ ¬ after.Settled .silent ⟨"J"⟩ ∧
        ∃ r ∈ after.runs, r.stage = .handling := by
  have hbusy : ∀ o : Overlap Unit Unit, (∃ r ∈ o.runs, r.stage = .handling) →
      ¬ o.Settled .silent ⟨"J"⟩ := by
    rintro o ⟨r, hr, hstage⟩ ⟨hidle, _⟩
    exact hidle r hr hstage
  have helsewhere : ∃ r ∈ (playQueued runElsewhere).1.runs, r.stage = .handling :=
    ⟨⟨"b", .main, ⟨0⟩, .handling⟩, List.mem_singleton.mpr rfl, rfl⟩
  have hrecovered : ∃ r ∈ (playJob recoveredRun).1.runs, r.stage = .handling :=
    ⟨⟨"a", .main, ⟨0⟩, .handling⟩, List.mem_singleton.mpr rfl, rfl⟩
  exact ⟨⟨rfl, hbusy _ helsewhere, helsewhere, rfl⟩, rfl, hbusy _ hrecovered, hrecovered⟩

end Overlap

end JobCluster
