import JobCluster.Proofs.Instance.Committed
/-!
# Jobs and the writes that come with them

A transaction may schedule jobs and write process instances. Its commit runs the callbacks in the
order in which they were registered, and anything else may happen between two of them: other
transactions end, nodes claim jobs and hand them out. So whether a job comes out before the writes
of its transaction are there depends on what came first, the call that scheduled the job or the
first write.

Main results:

- `Interplay.exists_exposure`: a job comes out in no other way than by a callback after a commit;
- `Interplay.mem_committed_iff`: when it does, the writes of its transaction are there exactly if
  the transaction had written something before it scheduled the job;
- `Interplay.visible_iff`: what that means to histories;
- `Interplay.exposed_before_writes`: a stored job and a volatile one that come out too early.
-/

namespace JobCluster

variable {η ω : Type}

/-! ## Jobs that are out -/

/-- The job that a callback lets out in a round: one that it publishes after a commit, or one that
it queues. -/
def Callback.letsOut? (phase : Phase) : Callback η → Option JobId
  | .publish _ plan => if Cluster.followsCommit phase then some plan.record.id else none
  | .queue _ info => some info.jobId
  | .drop _ _ _ | .applyWrites _ | .withdraw _ _ | .custom _ => none

/-- A callback that lets a job out runs after the end, whatever becomes of the transaction. -/
theorem lasts_of_letsOut? {x : Synchronizer (Callback η)} {phase : Phase} {id : JobId}
    (h : x.callback.letsOut? phase = some id) : x.lasts = true := by
  unfold Synchronizer.lasts
  cases hx : x.callback with
  | drop n j armed => simp [hx, Callback.letsOut?] at h
  | publish n plan | queue n info | applyWrites tx | withdraw n j | custom script => rfl

/-- A callback that lets a job out applies no writes. -/
theorem applies_of_letsOut? {callback : Callback η} {phase : Phase} {id : JobId}
    (h : callback.letsOut? phase = some id) : callback.applies = false := by
  cases callback with
  | applyWrites tx => cases h
  | publish n plan | queue n info | drop n j armed | withdraw n j | custom script => rfl

/-- A publication hides no other job less than before. -/
theorem StoreCall.hides_publish {s : JobStore} {j id : JobId} (hne : j ≠ id) (h : s.Hides id) :
    ((publish j).apply s).Hides id := by
  intro r hr
  rw [find?_apply] at hr
  exact h r (by simpa [concerns, job?, hne] using hr)

namespace Cluster

variable {c d : Cluster η ω} {id : JobId}

/-- Whether a job is out: it is stored and no longer staged, or it waits in a todo queue. -/
def Exposed (c : Cluster η ω) (id : JobId) : Prop := ¬ c.jobs.Hides id ∨ c.Queued id

/-- A job that is out after a change was out before it, if the change neither reveals nor queues
it. -/
theorem Exposed.of_change (h : d.Exposed id) (hjobs : c.jobs.Hides id → d.jobs.Hides id)
    (hqueued : d.Queued id → c.Queued id) : c.Exposed id :=
  h.imp (mt hjobs) hqueued

/-- No job is out whose identifier was not drawn yet. -/
theorem not_exposed_of_fresh (h : c.Fresh) {k : Nat} (hk : c.nextJob ≤ k) :
    ¬ c.Exposed (.drawn k) := by
  rintro (hstored | hqueued)
  · exact hstored (JobStore.hides_of_find?_eq_none (h.stored k hk))
  · exact h.queued k hk hqueued

/-- A job waits in a todo queue as long as the schedulers are the same. -/
theorem queued_of_scheduler (h : ∀ n, (d.node n).scheduler = (c.node n).scheduler)
    (hd : d.Queued id) : c.Queued id := by
  obtain ⟨n, e, he, hruns⟩ := hd
  rw [h n] at he
  exact ⟨n, e, he, hruns⟩

/-- What waits in a todo queue once a job is queued on a node: what waited there before, and the
job. -/
theorem mem_todo_enqueue {n m : NodeName} {job : ScheduledJob} {due now ttl : Time} {e : TodoEntry}
    (h : e ∈ ((c.modifyTodo n fun q =>
      (q.enqueue job due now ttl).2).node m).scheduler.todo.entries) :
    e ∈ (c.node m).scheduler.todo.entries ∨ e.task = .job job ∧ e.due = due := by
  rw [modifyTodo, modifyScheduler, node_modifyNode] at h
  split at h
  · next hnm =>
    subst hnm
    exact TodoQueue.mem_enqueue h
  · exact .inl h

/-- A job that is queued makes no other job a queued one. -/
theorem queued_of_enqueue {n : NodeName} {job : ScheduledJob} {due now ttl : Time}
    (h : (c.modifyTodo n fun q => (q.enqueue job due now ttl).2).Queued id) :
    c.Queued id ∨ job.jobId = id := by
  obtain ⟨m, e, he, hruns⟩ := h
  rcases mem_todo_enqueue he with he | ⟨htask, _⟩
  · exact .inl ⟨m, e, he, hruns⟩
  · right
    rw [htask] at hruns
    exact eq_of_beq hruns

/-- A callback that ends the writes of a transaction queues nothing. -/
theorem scheduler_completeWrites (app : Application η ω) (c : Cluster η ω) (tx : TxId)
    (committed : Bool) (n : NodeName) :
    ((c.completeWrites app tx committed).node n).scheduler = (c.node n).scheduler :=
  announce_keeps (P := fun d => (d.node n).scheduler = (c.node n).scheduler) app _
    (fun event _ d m hd => (scheduler_modifyNode (c := d) (n := m)
      (f := fun x => { x with registry := x.registry.cleanUp event.id }) rfl n).trans hd)
    (fun _ _ hd => hd) _ rfl

/-- A publication queues no other job, and nothing is queued after a rollback. -/
theorem queued_settleStaged {n : NodeName} {plan : PersistedPlan} {committed : Bool}
    (h : (c.settleStaged n plan committed).2.Queued id) :
    c.Queued id ∨ committed = true ∧ plan.record.id = id := by
  unfold settleStaged at h
  split at h
  · next hcommitted =>
    split at h
    · exact .inl h
    · next jobs _ =>
      dsimp only at h
      split at h
      · exact (queued_of_enqueue (c := { c with jobs }) h).imp_right fun hid => ⟨hcommitted, hid⟩
      · exact .inl h
  · exact .inl h

/-- A callback lets no job out but its own. -/
theorem exposed_carryOut {app : Application η ω} {thread : Thread} {phase : Phase}
    {callback : Callback η} (h : (c.carryOut app thread phase callback).Exposed id) :
    c.Exposed id ∨ callback.letsOut? phase = some id := by
  have hjobs := jobs_carryOut app thread phase c callback
  cases callback with
  | publish n plan =>
      by_cases hown : followsCommit phase = true ∧ plan.record.id = id
      · exact .inr (by rw [Callback.letsOut?, if_pos hown.1, hown.2])
      · refine .inl (h.of_change (fun hhides => ?_) fun hqueued =>
          (queued_settleStaged hqueued).resolve_right hown)
        rw [hjobs, callbackCall]
        by_cases hcommit : followsCommit phase = true
        · rw [if_pos hcommit]
          exact StoreCall.hides_publish (fun hid => hown ⟨hcommit, hid⟩) hhides
        · rw [if_neg hcommit]
          exact StoreCall.hides_apply (by simp) hhides
  | queue n info =>
      rcases h with hhides | hqueued
      · exact .inl (.inl hhides)
      · exact (queued_of_enqueue hqueued).imp .inr fun hid => congrArg some hid
  | drop n j armed =>
      cases armed with
      | false => exact .inl h
      | true =>
          refine .inl (h.of_change (fun hhides => ?_) (queued_of_scheduler fun m => ?_))
          · rw [hjobs]
            exact StoreCall.hides_apply (by simp) hhides
          · exact congrArg (fun d => (d.node m).scheduler) (c.dropClaimed_snd n j)
  | applyWrites own =>
      refine .inl (h.of_change (fun hhides => ?_) (queued_of_scheduler fun n => ?_))
      · rwa [hjobs]
      · exact scheduler_completeWrites app c own _ n
  | withdraw n j =>
      have hsame := fun m => scheduler_modifyNode (c := c) (n := n)
        (f := fun x => { x with registry := x.registry.rollBack j }) rfl m
      exact .inl (h.of_change (fun hhides => hhides) (queued_of_scheduler hsame))
  | custom script => exact .inl h

/-- To begin a transaction changes no scheduler. -/
theorem scheduler_begin (c : Cluster η ω) (n m : NodeName) (thread : Thread) :
    ((c.begin n thread).2.node m).scheduler = (c.node m).scheduler := by
  unfold begin
  simp only
  split
  · rfl
  · split
    · rfl
    · next manager _ _ _ _ =>
      exact scheduler_modifyNode (f := fun x => { x with manager }) rfl m

end Cluster

namespace WorkCall.Effect

variable {tx : TxId} {c d : Cluster η ω} {a : WorkCall η} {answer : WorkAnswer}
  {registered : List (Synchronizer (Callback η))}

/-- A call queues nothing. -/
theorem scheduler (h : Effect tx c a answer registered d) (n : NodeName) :
    (d.node n).scheduler = (c.node n).scheduler := by
  cases h with
  | @created m id direction slot registry _ =>
      exact Cluster.scheduler_modifyNode (f := fun x => { x with registry }) rfl n
  | written _ _ _ =>
      unfold Cluster.stageWrite
      split <;> rfl
  | staged | unstaged | planned | claimed | released | registered | marked | availability | refusal
  | failed => rfl

/-- A call lets no job out. -/
theorem exposed (h : Effect tx c a answer registered d) {id : JobId} (hd : d.Exposed id) :
    c.Exposed id := by
  refine hd.of_change (fun hhides => ?_) (Cluster.queued_of_scheduler h.scheduler)
  rcases h.jobs with ⟨plan, _, hjobs, _⟩ | hjobs | ⟨call, _, hpublish, hjobs⟩
  · rw [hjobs]
    intro r hr
    rw [JobStore.find?_put] at hr
    split at hr
    · cases hr
      rfl
    · exact hhides r hr
  · rwa [hjobs]
  · rw [hjobs]
    exact StoreCall.hides_apply hpublish hhides

end WorkCall.Effect

/-! ## What came first -/

namespace WorkEntry

variable {e : WorkEntry η ω} {x : Synchronizer (Callback η)}

/-- A callback that lets a job out was registered by the call that scheduled the job. -/
theorem job_of_letsOut? (hx : x ∈ e.registered) {phase : Phase} {id : JobId}
    (hid : x.callback.letsOut? phase = some id) : .job id ∈ e.deeds := by
  have hdeed := e.effect.of_registered (mem_registered.mp hx).1
  cases hcallback : x.callback with
  | publish n plan =>
      rw [hcallback] at hid hdeed
      rw [Callback.letsOut?] at hid
      split at hid
      · cases hid
        exact hdeed.2
      · cases hid
  | queue n info =>
      rw [hcallback] at hid hdeed
      cases hid
      exact hdeed.2
  | drop n j armed | applyWrites tx | withdraw n j | custom script =>
      rw [hcallback] at hid
      cases hid

/-- A callback that applies writes was registered by a call that wrote something. -/
theorem wrote_of_applies (hx : x ∈ e.registered) (happlies : x.callback.applies = true) :
    e.wrote = true := by
  have hany : (e.registered.any fun x => x.callback.applies) = true :=
    List.any_eq_true.mpr ⟨x, hx, happlies⟩
  rw [e.any_applies_registered, Bool.and_eq_true] at hany
  exact hany.1

end WorkEntry

namespace Interplay

variable {app : Application η ω} {o : Interplay η ω} {m : Move η ω} {tx : TxId} {id : JobId}

/-- Whether a call scheduled a job. -/
def schedules (id : JobId) (e : WorkEntry η ω) : Bool := decide (.job id ∈ e.deeds)

/-- Whether a transaction has written an instance before the call that scheduled a job. -/
def wroteBefore (o : Interplay η ω) (tx : TxId) (id : JobId) : Bool :=
  ((o.entries tx).takeWhile fun e => !schedules id e).any WorkEntry.wrote

/-- A transaction that wrote before it scheduled a job has written. -/
theorem writes_ne_nil (h : o.wroteBefore tx id = true) : o.writes tx ≠ [] := by
  obtain ⟨e, he, hwrote⟩ := List.any_eq_true.mp h
  rw [Ne, writes_eq_nil_iff, Bool.not_eq_false]
  exact List.any_eq_true.mpr ⟨e, (List.takeWhile_prefix _).mem he, hwrote⟩

section Kinds

variable {α : Type} {P Q : α → Prop} {l r : List α}

/-- Elements none of which has the first property never have it before the second. -/
theorem pairwise_of_not_left (h : ∀ x ∈ l, ¬ P x) : l.Pairwise fun x y => P x → ¬ Q y :=
  (List.pairwise_of_forall (R := fun _ _ => True) fun _ _ => trivial).imp_of_mem
    fun hx _ _ hP => absurd hP (h _ hx)

theorem pairwise_of_not_right (h : ∀ y ∈ l, ¬ Q y) : l.Pairwise fun x y => P x → ¬ Q y :=
  (List.pairwise_of_forall (R := fun _ _ => True) fun _ _ => trivial).imp_of_mem
    fun _ hy _ _ => h _ hy

end Kinds

section Cut

/-- The calls of a transaction, cut at the one that scheduled a job. -/
theorem registered_cut (o : Interplay η ω) (tx : TxId) (id : JobId) :
    o.registered tx =
      ((o.entries tx).takeWhile fun e => !schedules id e).flatMap WorkEntry.registered ++
        ((o.entries tx).dropWhile fun e => !schedules id e).flatMap WorkEntry.registered := by
  rw [← List.flatMap_append, List.takeWhile_append_dropWhile]
  rfl

/-- Nothing lets the job out that was registered before the job was scheduled. -/
theorem letsOut?_ne_of_takeWhile {x : Synchronizer (Callback η)}
    (hx : x ∈ ((o.entries tx).takeWhile fun e => !schedules id e).flatMap WorkEntry.registered)
    (phase : Phase) : x.callback.letsOut? phase ≠ some id := by
  obtain ⟨e, he, hx⟩ := List.mem_flatMap.mp hx
  have hnot := List.all_eq_true.mp List.all_takeWhile e he
  intro hid
  simp [schedules, WorkEntry.job_of_letsOut? hx hid] at hnot

/-- If a transaction had written something before it scheduled a job, the writes are not applied
after the job is let out. -/
theorem Pledged.letsOut?_pairwise (h : Pledged o) (hwrote : o.wroteBefore tx id = true)
    (phase : Phase) : (o.registered tx).Pairwise fun x y =>
      x.callback.letsOut? phase = some id → ¬ y.callback.applies = true := by
  obtain ⟨e, he, hewrote⟩ := List.any_eq_true.mp hwrote
  have honce := h.once tx
  rw [← List.takeWhile_append_dropWhile (p := fun e => !schedules id e) (l := o.entries tx)]
    at honce
  have hlast : ∀ y ∈ ((o.entries tx).dropWhile fun e => !schedules id e).flatMap
      WorkEntry.registered, ¬ y.callback.applies = true := by
    intro y hy
    obtain ⟨f, hf, hy⟩ := List.mem_flatMap.mp hy
    exact Bool.eq_false_iff.mp ((List.pairwise_append.mp honce).2.2 e he f hf hewrote y hy)
  rw [registered_cut o tx id]
  have hfirst : ∀ x ∈ ((o.entries tx).takeWhile fun e => !schedules id e).flatMap
      WorkEntry.registered, ¬ x.callback.letsOut? phase = some id :=
    fun x hx => letsOut?_ne_of_takeWhile hx phase
  exact List.pairwise_append.mpr ⟨pairwise_of_not_left hfirst, pairwise_of_not_right hlast,
    fun x hx _ _ hid => absurd hid (hfirst x hx)⟩

/-- If a transaction had written nothing before it scheduled a job, the writes are not applied
before the job is let out. -/
theorem Orderly.applies_pairwise (ho : Orderly o) (hwrote : o.wroteBefore tx id = false)
    (phase : Phase) : (o.registered tx).Pairwise fun x y =>
      x.callback.applies = true → ¬ y.callback.letsOut? phase = some id := by
  have hapart : (o.entries tx).Pairwise _ := ho.apart.filter fun e => decide (e.tx = tx)
  have hfirst : ∀ x ∈ ((o.entries tx).takeWhile fun e => !schedules id e).flatMap
      WorkEntry.registered, ¬ x.callback.applies = true := by
    intro x hx happlies
    obtain ⟨e, he, hx⟩ := List.mem_flatMap.mp hx
    rw [wroteBefore, List.any_eq_false] at hwrote
    exact hwrote e he (WorkEntry.wrote_of_applies hx happlies)
  rw [registered_cut o tx id]
  refine List.pairwise_append.mpr ⟨pairwise_of_not_left hfirst, ?_,
    fun x hx _ _ happlies => absurd happlies (hfirst x hx)⟩
  rw [← List.takeWhile_append_dropWhile (p := fun e => !schedules id e) (l := o.entries tx)]
    at hapart
  cases hdrop : (o.entries tx).dropWhile fun e => !schedules id e with
  | nil => exact .nil
  | cons e rest =>
      have hscheduled : .job id ∈ e.deeds := by
        have hne : (o.entries tx).dropWhile (fun e => !schedules id e) ≠ [] := by simp [hdrop]
        have hhead := List.head_dropWhile_not (fun e => !schedules id e) hne
        simp only [hdrop, List.head_cons] at hhead
        simpa [schedules] using hhead
      rw [hdrop] at hapart
      have hlast : ∀ y ∈ rest.flatMap WorkEntry.registered,
          ¬ y.callback.letsOut? phase = some id := by
        intro y hy hid
        obtain ⟨f, hf, hy⟩ := List.mem_flatMap.mp hy
        have hef := List.rel_of_pairwise_cons (List.pairwise_append.mp hapart).2.1 hf
        exact hef _ hscheduled _ (WorkEntry.job_of_letsOut? hy hid) rfl
      rw [List.flatMap_cons]
      exact List.pairwise_append.mpr ⟨e.pairwise_registered _, pairwise_of_not_right hlast,
        fun _ _ y hy _ => hlast y hy⟩

end Cut

/-! ## How jobs come out -/

/-- Whether a move lets no job out apart from the callbacks: calls on the store publish none, and
what happens elsewhere queues none that is not out. -/
def Withholds (o : Interplay η ω) : Move η ω → Prop
  | .store a => ∀ j, a ≠ .publish j
  | .elsewhere what => ∀ id, (what.change o.cluster).Queued id → o.cluster.Exposed id
  | .begin _ _ | .work _ _ | .depart _ _ _ | .advance _ | .registry _ _ => True

namespace Orderly

variable {d : Departure η}

/-- A callback of a transaction lets out a job that the transaction has scheduled, after a
commit. -/
theorem of_letsOut? (ho : Orderly o) (hd : d ∈ o.departures) {phase : Phase}
    {callback : Callback η} (hmem : callback ∈ d.transaction.callbacks phase)
    (hid : callback.letsOut? phase = some id) : phase = .after true ∧ .job id ∈ o.deeds d.tx := by
  obtain ⟨x, hx, htakes, rfl⟩ := Transaction.mem_callbacks_iff.mp hmem
  obtain ⟨e, he, htx, hregisters⟩ :=
    exists_entry (ho.departed d hd) hx (lasts_of_letsOut? hid)
  have hregistered : x ∈ e.registered :=
    WorkEntry.mem_registered.mpr ⟨hregisters, lasts_of_letsOut? hid⟩
  have hdeed : .job id ∈ o.deeds d.tx :=
    mem_deeds.mpr ⟨e, he, htx, WorkEntry.job_of_letsOut? hregistered hid⟩
  refine ⟨?_, hdeed⟩
  have hmoment := e.effect.of_registered hregisters
  cases hcallback : x.callback with
  | publish n plan =>
      rw [hcallback, Callback.letsOut?] at hid
      split at hid
      · next hcommit =>
        rcases phase with _ | _ | _
        · cases hcommit
        · cases hcommit
        · rfl
      · cases hid
  | queue n info =>
      rw [hcallback] at hmoment
      rw [hmoment.1] at htakes
      rcases phase with _ | _ | _
      · cases htakes
      · cases htakes
      · rfl
  | drop n j armed | applyWrites own | withdraw n j | custom script =>
      rw [hcallback] at hid
      cases hid

end Orderly

/-- A job comes out in no other way than by a callback after a commit. -/
theorem exists_exposure (ho : Orderly o) (hm : o.Withholds m) (hold : ¬ o.cluster.Exposed id)
    (hnew : (o.step app m).cluster.Exposed id) :
    ∃ i d callback rest, m = .advance i ∧ o.departures[i]? = some d ∧
      d.round = .concluding true (callback :: rest) ∧
      callback.letsOut? (.after true) = some id := by
  have houtcome := outcome_step app o m
  generalize o.step app m = p at houtcome hnew
  cases houtcome with
  | idle | refused => exact absurd hnew hold
  | @begun n thread tx c hbegin =>
      have hjobs := (Cluster.begin_eq_ok hbegin).jobs
      have hsame := fun m => o.cluster.scheduler_begin n m thread
      rw [hbegin] at hsame
      refine absurd (hnew.of_change (fun hhides => ?_) (Cluster.queued_of_scheduler hsame)) hold
      rwa [hjobs]
  | worked a ht => exact absurd ((a.effect_perform _ o.cluster).exposed hnew) hold
  | departed thread request ht hround hc htransactions hscheduler =>
      have hkept : o.cluster.Exposed id :=
        hnew.of_change (fun hhides => by rwa [hc.jobs]) (Cluster.queued_of_scheduler hscheduler)
      exact absurd hkept hold
  | decided i committed hd hround hc htransactions hscheduler =>
      have hkept : o.cluster.Exposed id :=
        hnew.of_change (fun hhides => by rwa [hc.jobs]) (Cluster.queued_of_scheduler hscheduler)
      exact absurd hkept hold
  | @before i d callback rest hd hround =>
      have hin := List.mem_of_getElem? hd
      have hmem := ho.mem_before hin hround
      have hid := (Cluster.exposed_carryOut hnew).resolve_left hold
      cases (ho.of_letsOut? hin hmem hid).1
  | @after i committed d callback rest hd hround =>
      have hin := List.mem_of_getElem? hd
      have hmem := ho.mem_after hin hround
      have hid := (Cluster.exposed_carryOut hnew).resolve_left hold
      cases (ho.of_letsOut? hin hmem hid).1
      exact ⟨i, d, callback, rest, rfl, hd, hround, hid⟩
  | store a =>
      exact absurd (hnew.of_change (StoreCall.hides_apply hm) fun hqueued => hqueued) hold
  | registry n a =>
      have hsame := fun m => Cluster.scheduler_modifyNode (c := o.cluster) (n := n)
        (f := fun x => { x with registry := a.apply x.registry }) rfl m
      have hkept : o.cluster.Exposed id :=
        hnew.of_change (fun hhides => hhides) (Cluster.queued_of_scheduler hsame)
      exact absurd hkept hold
  | elsewhere what =>
      rcases hnew with hstored | hqueued
      · rw [show _ = _ from what.jobs o.cluster] at hstored
        exact absurd (.inl hstored) hold
      · exact absurd (hm id hqueued) hold

/-- When a job comes out, the writes of its transaction are there exactly if the transaction had
written something before it scheduled the job. -/
theorem mem_committed_iff {start : InstanceStore} {txs : List TxId} (h : Chronicle start txs o)
    (ho : Orderly o) (hpledged : Pledged o) (hm : o.Withholds m) (hjob : .job id ∈ o.deeds tx)
    (hwrites : o.writes tx ≠ []) (hold : ¬ o.cluster.Exposed id)
    (hnew : (o.step app m).cluster.Exposed id) :
    tx ∈ txs ++ (o.commits? m).toList ↔ o.wroteBefore tx id = true := by
  have happlied : tx ∈ txs ++ (o.commits? m).toList ↔
      ∃ d ∈ (o.step app m).departures, d.tx = tx ∧ d.hasApplied = true :=
    h.applied_step ho hpledged m tx
  rw [happlied]
  obtain ⟨i, d, callback, rest, rfl, hd, hround, hid⟩ := exists_exposure ho hm hold hnew
  have hin := List.mem_of_getElem? hd
  have hsuffix := ho.suffix_after hin hround
  have hown := (ho.of_letsOut? hin (ho.mem_after hin hround) hid).2
  obtain rfl := ho.job_unique hjob hown
  have hany := (hpledged.any_applies (ho.departed d hin) true).mpr hwrites
  rw [step_concluding hd hround, ho.exists_departure_set_iff hd, if_pos rfl,
    Departure.hasApplied_moveTo, hany, Bool.true_and, Bool.not_eq_true']
  cases hwrote : o.wroteBefore d.tx id with
  | true =>
      -- The job was scheduled after the first write, so nothing is left to be applied.
      have hpair : (d.transaction.callbacks (.after true)).Pairwise fun f g =>
          f.letsOut? (.after true) = some id → ¬ g.applies = true := by
        refine Transaction.pairwise_callbacks (fun _ => lasts_of_letsOut?)
          (fun _ => lasts_of_applies) ?_ (.after true)
        rw [ho.departed d hin]
        exact hpledged.letsOut?_pairwise hwrote (.after true)
      have hlate := (List.pairwise_cons.mp (hpair.sublist hsuffix.sublist)).1
      exact iff_of_true (List.any_eq_false.mpr fun f hf => hlate f hf hid) rfl
  | false =>
      -- The job was scheduled before the first write, so nothing has been applied yet.
      have hpair : (d.transaction.callbacks (.after true)).Pairwise fun f g =>
          f.applies = true → ¬ g.letsOut? (.after true) = some id := by
        refine Transaction.pairwise_callbacks (fun _ => lasts_of_applies)
          (fun _ => lasts_of_letsOut?) ?_ (.after true)
        rw [ho.departed d hin]
        exact ho.applies_pairwise hwrote (.after true)
      obtain ⟨done, hdone⟩ := hsuffix
      rw [← hdone] at hany hpair
      have hearly : done.any Callback.applies = false := List.any_eq_false.mpr fun f hf happlies =>
        (List.pairwise_append.mp hpair).2.2 f hf callback List.mem_cons_self happlies hid
      rw [List.any_append, hearly, List.any_cons, applies_of_letsOut? hid] at hany
      rw [Bool.false_or, Bool.false_or] at hany
      simp [hany]

/-! ## Histories -/

/-- Numbers for jobs are drawn in order. -/
theorem nextJob_step (o : Interplay η ω) (m : Move η ω) :
    o.cluster.nextJob ≤ (o.step app m).cluster.nextJob := by
  have houtcome := outcome_step app o m
  generalize o.step app m = p at houtcome
  cases houtcome with
  | idle | refused | store | registry => exact Nat.le_refl _
  | begun n thread hbegin =>
      have honward := o.cluster.onward_begin n thread
      rw [hbegin] at honward
      exact honward.nextJob
  | worked a ht => exact (a.effect_perform _ o.cluster).numbers.2
  | departed thread request ht hround hc | decided i committed hd hround hc =>
      exact Nat.le_of_eq hc.nextJob.symm
  | before | after => exact Nat.le_of_eq (Cluster.nextJob_carryOut ..).symm
  | elsewhere what => exact Nat.le_of_eq (what.nextJob o.cluster).symm

/-- A job that a move schedules has an identifier that was still to be drawn. -/
theorem Orderly.job_step (ho : Orderly o) (h : .job id ∈ (o.step app m).deeds tx) :
    .job id ∈ o.deeds tx ∨ ∃ k, o.cluster.nextJob ≤ k ∧ id = .drawn k := by
  have houtcome := outcome_step app o m
  generalize o.step app m = p at houtcome h
  cases houtcome with
  | @worked own a t ht =>
      obtain ⟨e, he, htx, hdeed⟩ := mem_deeds.mp h
      rcases List.mem_append.mp he with he | he
      · exact .inl (mem_deeds.mpr ⟨e, he, htx, hdeed⟩)
      · right
        rw [List.mem_singleton.mp he] at hdeed
        obtain ⟨⟨k, _, hk⟩, hnew⟩ := (a.effect_perform own o.cluster).deeds_new ho.tidy hdeed
        refine ⟨k, Nat.le_of_not_lt fun hlt => ?_, hk⟩
        exact hnew (.job (.drawn k)) ⟨k, hlt, rfl⟩ hk.symm
  | idle | refused | begun | departed | before | decided | after | store | registry | elsewhere =>
      exact .inl h

/-- What came first does not change once the job is scheduled. -/
theorem wroteBefore_step (hjob : .job id ∈ o.deeds tx) :
    (o.step app m).wroteBefore tx id = o.wroteBefore tx id := by
  have houtcome := outcome_step app o m
  generalize o.step app m = p at houtcome
  cases houtcome with
  | @worked own a t ht =>
      obtain ⟨e, he, hdeed⟩ := List.mem_flatMap.mp hjob
      unfold wroteBefore
      rw [entries_append]
      split
      · have hcut : ((o.entries tx).takeWhile fun e => !schedules id e).length ≠
            (o.entries tx).length := by
          intro hlength
          have hall := List.all_takeWhile (p := fun e => !schedules id e) (l := o.entries tx)
          rw [(List.takeWhile_prefix _).eq_of_length hlength] at hall
          have hnot := List.all_eq_true.mp hall e he
          simp [schedules, hdeed] at hnot
        rw [List.takeWhile_append, if_neg hcut]
      · rfl
  | idle | refused | begun | departed | before | decided | after | store | registry | elsewhere =>
      rfl

/-- How the jobs that are out agree with the transactions whose writes have been applied. -/
structure Visible (txs : List TxId) (o : Interplay η ω) : Prop where
  undrawn : ∀ k, o.cluster.nextJob ≤ k → ¬ o.cluster.Exposed (.drawn k)
  applied : ∀ tx id, .job id ∈ o.deeds tx → o.wroteBefore tx id = true →
    o.cluster.Exposed id → tx ∈ txs

namespace Visible

variable {start : InstanceStore} {txs : List TxId}

/-- A move that withholds lets out only jobs whose transactions have their writes applied. -/
theorem step (h : Visible txs o) (hchronicle : Chronicle start txs o) (ho : Orderly o)
    (hpledged : Pledged o) (hm : o.Withholds m) :
    Visible (txs ++ (o.commits? m).toList) (o.step app m) := by
  refine ⟨fun k hk hexposed => ?_, fun tx id hjob hwrote hexposed => ?_⟩
  · have hle : o.cluster.nextJob ≤ k := Nat.le_trans (o.nextJob_step m) hk
    obtain ⟨i, d, callback, rest, _, hd, hround, hid⟩ :=
      exists_exposure ho hm (h.undrawn k hle) hexposed
    have hin := List.mem_of_getElem? hd
    have hmem := ho.mem_after hin hround
    obtain ⟨e, he, _, hdeed⟩ := mem_deeds.mp (ho.of_letsOut? hin hmem hid).2
    obtain ⟨j, hj, heq⟩ := ho.done e he _ hdeed
    rw [JobId.drawn_injective heq] at hle
    exact absurd hj (Nat.not_lt_of_le hle)
  · by_cases hold : o.cluster.Exposed id
    · rcases ho.job_step hjob with hjob | ⟨k, hk, rfl⟩
      · rw [wroteBefore_step hjob] at hwrote
        exact List.mem_append_left _ (h.applied tx id hjob hwrote hold)
      · exact absurd hold (h.undrawn k hk)
    · obtain ⟨i, d, callback, rest, rfl, hd, hround, _⟩ := exists_exposure ho hm hold hexposed
      have hsame : o.step app (.advance i) = _ := step_concluding hd hround
      have hjob' : .job id ∈ o.deeds tx := by rwa [hsame] at hjob
      have hwrote' : o.wroteBefore tx id = true := by rwa [hsame] at hwrote
      exact (mem_committed_iff hchronicle ho hpledged hm hjob' (writes_ne_nil hwrote') hold
        hexposed).mpr hwrote'

/-- The jobs that are out agree with the writes that have been applied, after every history. -/
theorem play (h : Visible txs o) (hchronicle : Chronicle start txs o) (ho : Orderly o)
    (hdrafted : Drafted o) (hpledged : Pledged o) {moves : List (Move η ω)}
    (hmoves : Throughout app Withholds o moves) :
    Visible (txs ++ o.committed app moves) (o.play app moves) := by
  induction moves generalizing o txs with
  | nil =>
      rw [committed, List.append_nil]
      exact h
  | cons m rest ih =>
      rw [committed, ← List.append_assoc]
      exact ih (h.step hchronicle ho hpledged hmoves.1) (hchronicle.step ho hpledged m)
        (ho.step m) (hdrafted.step ho m) (hpledged.step ho hdrafted m) hmoves.2

end Visible

/-- In a history of any number of overlapping transactions, the committed instances are at every
moment what the writes of the transactions that have applied theirs have made of those at first. A
transaction that writes an instance and then schedules a job is one of them whenever the job is
out; one that schedules the job first is none of them at the moment at which the job comes out. -/
theorem visible_iff (app : Application η ω) {c : Cluster η ω} (hc : c.AtRest) (hfresh : c.Fresh)
    (hstaged : ∀ tx, c.instances.isOpen tx = false) {moves : List (Move η ω)}
    (hmoves : Throughout app Withholds ⟨c, [], []⟩ moves) :
    let o := (⟨c, [], []⟩ : Interplay η ω).play app moves
    let txs := (⟨c, [], []⟩ : Interplay η ω).committed app moves
    (∀ p, o.instance? p = InstanceStore.seen p (c.instances.get? p) (txs.flatMap o.writes)) ∧
      ∀ tx id, .job id ∈ o.deeds tx → o.writes tx ≠ [] →
        (o.wroteBefore tx id = true → o.cluster.Exposed id → tx ∈ txs) ∧
        ∀ m, o.Withholds m → ¬ o.cluster.Exposed id → (o.step app m).cluster.Exposed id →
          (tx ∈ txs ++ (o.commits? m).toList ↔ o.wroteBefore tx id = true) := by
  have ho : Orderly (⟨c, [], []⟩ : Interplay η ω) := .start hc
  have hdrafted : Drafted (⟨c, [], []⟩ : Interplay η ω) := .start hc
  have hpledged : Pledged (⟨c, [], []⟩ : Interplay η ω) := .start hstaged
  have hvisible : Visible [] (⟨c, [], []⟩ : Interplay η ω) :=
    ⟨fun k hk => Cluster.not_exposed_of_fresh hfresh hk, fun _ _ hjob => nomatch hjob⟩
  have hchronicle : Chronicle c.instances _ ((⟨c, [], []⟩ : Interplay η ω).play app moves) :=
    (Chronicle.initial c).play ho hdrafted hpledged moves
  intro o txs
  refine ⟨hchronicle.instances, fun tx id hjob hwrites => ⟨?_, ?_⟩⟩
  · exact (hvisible.play (.initial c) ho hdrafted hpledged hmoves).applied tx id hjob
  · exact fun m hm hold hnew => mem_committed_iff hchronicle (.play hc moves)
      (hpledged.play ho hdrafted moves) hm hjob hwrites hold hnew

/-- A transaction creates an instance and schedules two jobs, one to be stored and one to be kept in
memory; it commits, and its callbacks run. -/
def announcement : List (Move Unit Unit) :=
  [.begin "a" .main, .work ⟨0⟩ (.createInstance sample),
    .work ⟨0⟩ (.schedulePersisted "a" ⟨"", ∅⟩ none),
    .work ⟨0⟩ (.scheduleVolatile "a" true ⟨"", ∅⟩ none), .depart ⟨0⟩ .main .commit, .advance 0,
    .advance 0, .advance 0, .advance 0]

/-- Both jobs are out, and the instance is there. -/
theorem visible_iff_announcement :
    (playBlank announcement).cluster.Exposed (.drawn 0) ∧
      (playBlank announcement).cluster.Exposed (.drawn 1) ∧
      ⟨0⟩ ∈ (⟨.blank, [], []⟩ : Interplay Unit Unit).committed .silent announcement ∧
      (playBlank announcement).instance? ⟨"p"⟩ = some sample := by
  have hmoves : Throughout .silent Withholds ⟨.blank, [], []⟩ announcement := by
    simp [Throughout, Withholds, announcement]
  have hvisible := visible_iff .silent Cluster.atRest_blank Cluster.fresh_blank (fun _ => rfl)
    hmoves
  have hstored : (playBlank announcement).cluster.Exposed (.drawn 0) :=
    .inl fun hhides => JobState.noConfusion (hhides _ rfl)
  have hqueued : (playBlank announcement).cluster.Exposed (.drawn 1) :=
    .inr ⟨"a", _, List.mem_cons_self, rfl⟩
  exact ⟨hstored, hqueued, (hvisible.2 ⟨0⟩ (.drawn 0) (by decide) (by decide)).1 rfl hstored,
    (hvisible.1 ⟨"p"⟩).trans rfl⟩

/-- A transaction schedules two jobs, one to be stored and one to be kept in memory, and then
creates an instance; it commits, and the callbacks of the two jobs run. -/
def haste : List (Move Unit Unit) :=
  [.begin "a" .main, .work ⟨0⟩ (.schedulePersisted "a" ⟨"", ∅⟩ none),
    .work ⟨0⟩ (.scheduleVolatile "a" true ⟨"", ∅⟩ none), .work ⟨0⟩ (.createInstance sample),
    .depart ⟨0⟩ .main .commit, .advance 0, .advance 0, .advance 0]

/-- One job is pending in the store and the other waits in the todo queue, while the instance is not
there; the next callback of the transaction brings it. -/
theorem exposed_before_writes :
    let o := playBlank haste
    ((o.cluster.jobs.find? (.drawn 0)).map JobRecord.state = some .pending ∧
        o.cluster.Queued (.drawn 1) ∧ o.writes ⟨0⟩ = [.put sample] ∧
        o.instance? ⟨"p"⟩ = none) ∧
      (o.step .silent (.advance 0)).instance? ⟨"p"⟩ = some sample := by
  refine ⟨⟨?_, ?_, ?_, ?_⟩, ?_⟩
  · rfl
  · exact ⟨"a", _, List.mem_cons_self, rfl⟩
  · rfl
  · rfl
  · rfl

end Interplay

end JobCluster
