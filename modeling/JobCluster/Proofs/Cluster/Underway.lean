import JobCluster.Proofs.Cluster.Work
/-!
# Units of work under way

While a unit of work is under way, its open transaction has a callback for everything that the unit
has brought into the world, which takes it back if the transaction does not commit.

Main results:

- `Cluster.underway_perform`: every call keeps the deeds of a unit covered;
- `Cluster.underway_act`: so they are covered when the work comes to its end, whichever that is.
-/

namespace JobCluster

variable {η ω ν α : Type}

/-! ## Covered deeds -/

/-- Whether a callback takes a deed back when the transaction has been rolled back. -/
def Callback.Undoes : Callback η → Deed → Prop
  | .publish _ plan, .job id => plan.record.id = id
  | .withdraw n id, .exchange m x _ => n = m ∧ id = x
  | _, _ => False

namespace Transaction

/-- Whether a transaction has a callback with a property that learns of a rollback. -/
def Provides (t : Transaction (Callback η)) (P : Callback η → Prop) : Prop :=
  ∃ s ∈ t.synchronizers, s.moment.takesPart (.after false) = true ∧ P s.callback

/-- Whether a transaction is going to take a deed back. -/
def CoversDeed (t : Transaction (Callback η)) (c : Cluster η ω) (x : Deed) : Prop :=
  x.Known c ∧ x.Reversible c ∧ (x.Undone c ∨ t.Provides fun callback => callback.Undoes x)

/-- Whether a transaction is going to take the deeds of its unit back, and to forget its writes. -/
structure Covers (t : Transaction (Callback η)) (tx : TxId) (deeds : List Deed)
    (c : Cluster η ω) : Prop where
  deeds : ∀ x ∈ deeds, t.CoversDeed c x
  writes : c.instances.staged.get? tx = none ∨ t.Provides fun callback => callback = .applyWrites tx
  /-- Jobs in memory are queued by a commit alone. -/
  queues : ∀ s ∈ t.synchronizers, ∀ n info, s.callback = .queue n info → s.moment = .onCommit

/-- Whether a transaction has all callbacks of another one but those that drop jobs. -/
def Keeps (t t' : Transaction (Callback η)) : Prop :=
  ∀ s ∈ t.synchronizers, (∀ n id armed, s.callback ≠ .drop n id armed) → s ∈ t'.synchronizers

/-- A callback that learns of a rollback stays registered, unless it is a drop, which may be
disarmed. -/
theorem Provides.mono {t t' : Transaction (Callback η)} {P : Callback η → Prop}
    (h : t.Provides P) (hkeeps : t.Keeps t') (hdrop : ∀ n id armed, ¬ P (.drop n id armed)) :
    t'.Provides P := by
  obtain ⟨s, hs, hmoment, hP⟩ := h
  refine ⟨s, hkeeps s hs fun n id armed heq => ?_, hmoment, hP⟩
  rw [heq] at hP
  exact hdrop n id armed hP

/-- What a transaction covers it covers with more callbacks as well. -/
theorem CoversDeed.mono {t t' : Transaction (Callback η)} {c : Cluster η ω} {x : Deed}
    (h : t.CoversDeed c x) (hkeeps : t.Keeps t') : t'.CoversDeed c x := by
  obtain ⟨hknown, hreversible, hundo⟩ := h
  refine ⟨hknown, hreversible, hundo.imp_right fun hp => hp.mono hkeeps fun _ _ _ hdrop => ?_⟩
  cases x <;> exact hdrop

/-- What a transaction covers stays covered, whatever happens apart from it. -/
theorem CoversDeed.apart {heard : ω → (NodeName → Routes) → ν} {t : Transaction (Callback η)}
    {c d : Cluster η ω} {x : Deed} (hx : t.CoversDeed c x) (h : c.Apart heard d) :
    t.CoversDeed d x := by
  obtain ⟨hknown, hreversible, hundo⟩ := hx
  exact ⟨hknown.apart h, hreversible.apart hknown h, hundo.imp_left fun hu => hu.apart hknown h⟩

/-- A registration keeps the callbacks that are there. -/
theorem keeps_register (t : Transaction (Callback η)) (moment : Moment) (callback : Callback η) :
    t.Keeps (t.register moment callback) :=
  fun _ hs _ => List.mem_append_left _ hs

/-- A callback that is registered for a rollback is provided for. -/
theorem provides_register (t : Transaction (Callback η)) {moment : Moment} {callback : Callback η}
    {P : Callback η → Prop} (hmoment : moment.takesPart (.after false) = true) (h : P callback) :
    (t.register moment callback).Provides P :=
  ⟨⟨moment, callback⟩, by simp [register], hmoment, h⟩

end Transaction

namespace Cluster

variable {heard : ω → (NodeName → Routes) → ν} {start c d : Cluster η ω} {tx : TxId}
  {deeds : List Deed}

/-- A unit of work under way, which began in a given cluster: nothing else has come of that but what
may happen apart from units of work, and the open transaction covers the deeds of the unit. -/
structure Underway (heard : ω → (NodeName → Routes) → ν) (start : Cluster η ω) (tx : TxId)
    (deeds : List Deed) (c : Cluster η ω) : Prop where
  since : start.Apart heard c
  fresh : c.Fresh
  number : tx.serial < c.nextTx
  covered : ∃ t, c.transaction? tx = some t ∧ t.Covers tx deeds c

namespace Underway

/-- A change that leaves the transaction alone, and writes for it only if that is covered. -/
theorem apart (h : Underway heard start tx deeds c) (hd : c.Apart heard d)
    (htx : d.transaction? tx = c.transaction? tx)
    (hwrites : c.instances.staged.get? tx = none → d.instances.staged.get? tx = none ∨
      ∀ t, c.transaction? tx = some t → t.Provides fun callback => callback = .applyWrites tx) :
    Underway heard start tx deeds d := by
  obtain ⟨t, ht, hcovers⟩ := h.covered
  refine ⟨h.since.trans hd, hd.fresh h.fresh, Nat.lt_of_lt_of_le h.number hd.nextTx, t,
    htx.trans ht, fun x hx => (hcovers.deeds x hx).apart hd, ?_, hcovers.queues⟩
  rcases hcovers.writes with hnone | hprovides
  · exact (hwrites hnone).imp_right fun hall => hall t ht
  · exact .inr hprovides

/-- A change of the transaction that takes no callback away. -/
theorem modifyTransaction (h : Underway heard start tx deeds c)
    (f : Transaction (Callback η) → Transaction (Callback η))
    (hkeeps : ∀ t : Transaction (Callback η), t.Keeps (f t))
    (hqueues : ∀ t, ∀ s ∈ (f t).synchronizers, ∀ n info, s.callback = .queue n info →
      s ∈ t.synchronizers ∨ s.moment = .onCommit) :
    Underway heard start tx deeds (c.modifyTransaction tx f) := by
  obtain ⟨t, ht, hcovers⟩ := h.covered
  have hd : c.Apart heard (c.modifyTransaction tx f) := c.apart_modifyTransaction tx f
  refine ⟨h.since.trans hd, hd.fresh h.fresh, h.number, f t, ?_, ?_, ?_, ?_⟩
  · rw [transaction?_modifyTransaction, if_pos rfl, ht]
    rfl
  · exact fun x hx => ((hcovers.deeds x hx).apart hd).mono (hkeeps t)
  · exact hcovers.writes.imp_right fun hp => hp.mono (hkeeps t) fun _ _ _ => nofun
  · intro s hs n info hq
    rcases hqueues t s hs n info hq with hold | hmoment
    · exact hcovers.queues s hold n info hq
    · exact hmoment

/-- A registration leaves a transaction on its way, if a queueing comes with a commit only. -/
theorem register (h : Underway heard start tx deeds c) (moment : Moment) (callback : Callback η)
    (hqueue : (∀ n info, callback ≠ .queue n info) ∨ moment = .onCommit) :
    Underway heard start tx deeds (c.register tx moment callback) := by
  refine h.modifyTransaction _ (fun t => t.keeps_register moment callback)
    fun t s hs n info hq => ?_
  rcases List.mem_append.mp hs with hold | hnew
  · exact .inl hold
  · cases List.mem_singleton.mp hnew
    exact .inr (hqueue.resolve_left fun hnot => hnot n info hq)

/-- Another deed is covered as well. -/
theorem record (h : Underway heard start tx deeds c) {x : Deed}
    (hx : ∀ t, c.transaction? tx = some t → t.CoversDeed c x) :
    Underway heard start tx (deeds ++ [x]) c := by
  obtain ⟨t, ht, hcovers⟩ := h.covered
  refine ⟨h.since, h.fresh, h.number, t, ht, fun y hy => ?_, hcovers.writes, hcovers.queues⟩
  rcases List.mem_append.mp hy with hold | hnew
  · exact hcovers.deeds y hold
  · rw [List.mem_singleton.mp hnew]
    exact hx t ht

/-- A call that has done nothing leaves a transaction on its way. -/
theorem unchanged (h : Underway heard start tx deeds c) {new : List Deed} (hnew : new = []) :
    Underway heard start tx (deeds ++ new) c := by
  rw [hnew, List.append_nil]
  exact h

/-- The transaction of a unit under way is open. -/
theorem isOpen (h : Underway heard start tx deeds c) : c.transaction? tx ≠ none := by
  obtain ⟨t, ht, _⟩ := h.covered
  simp [ht]

end Underway

/-! ## Calls of a unit -/

/-- What a registered callback is to its transaction. -/
theorem provides_of_register {c : Cluster η ω} {tx : TxId} {moment : Moment}
    {callback : Callback η} {t : Transaction (Callback η)} {P : Callback η → Prop}
    (ht : (c.register tx moment callback).transaction? tx = some t)
    (hmoment : moment.takesPart (.after false) = true) (h : P callback) : t.Provides P := by
  rw [transaction?_register, if_pos rfl] at ht
  obtain ⟨t', _, rfl⟩ := Option.map_eq_some_iff.mp ht
  exact t'.provides_register hmoment h

/-- A job that is scheduled to be stored is staged under a new identifier, and its transaction
publishes or discards it; or the store refuses it. -/
theorem schedulePersisted_cases (c : Cluster η ω) (n : NodeName) (tx : TxId) (details : JobDetails)
    (dueAt : Option Time) :
    (∃ plan : PersistedPlan, plan.record.id = .drawn c.nextJob ∧
        c.schedulePersisted n tx details dueAt = (.ok (.drawn c.nextJob),
          ({ c with nextJob := c.nextJob + 1
                    jobs := c.jobs.put { plan.record with state := .staged } }).register tx .after
              (.publish n plan))) ∨
      ∃ e, c.schedulePersisted n tx details dueAt =
        (.error e, { c with nextJob := c.nextJob + 1 }) := by
  simp only [schedulePersisted, drawJob]
  split
  · exact .inr ⟨_, rfl⟩
  · next jobs hstage =>
    obtain ⟨_, _, rfl⟩ := (JobStore.stage_eq_ok_iff _ _ _).mp hstage
    exact .inl ⟨_, rfl, rfl⟩

/-- A transaction is on its way after it has scheduled a job, which it is to publish or to
withdraw. -/
theorem underway_schedulePersisted (h : Underway heard start tx deeds c) (n : NodeName)
    (details : JobDetails) (dueAt : Option Time) :
    Underway heard start tx
      (deeds ++ (.schedulePersisted n details dueAt : WorkCall η).deeds
        (.job (c.schedulePersisted n tx details dueAt).1))
      (c.schedulePersisted n tx details dueAt).2 := by
  rcases c.schedulePersisted_cases n tx details dueAt with ⟨plan, hid, heq⟩ | ⟨e, heq⟩
  · rw [heq]
    have hstaged := h.apart (c.apart_stage { plan.record with state := .staged } hid) rfl .inl
    have hregistered := hstaged.register .after (.publish n plan) (.inl (by simp))
    refine hregistered.record fun t ht => ⟨⟨c.nextJob, Nat.lt_succ_self _, rfl⟩, ⟨?_, ?_⟩, .inr ?_⟩
    · intro r hr
      have hput : (c.jobs.put { plan.record with state := .staged }).find? (.drawn c.nextJob) =
          some r := hr
      rw [JobStore.find?_put, if_pos hid] at hput
      rw [← Option.some.inj hput]
    · exact h.fresh.queued c.nextJob (Nat.le_refl _)
    · exact provides_of_register ht rfl hid
  · rw [heq]
    simpa [WorkCall.deeds] using h.apart c.apart_nextJob rfl .inl

/-- A job that is kept in memory is nowhere until the commit. -/
theorem underway_scheduleVolatile (h : Underway heard start tx deeds c) (n : NodeName)
    (transacted : Bool) (details : JobDetails) (dueAt : Option Time) :
    Underway heard start tx (deeds ++ [.job (c.scheduleVolatile n tx transacted details dueAt).1])
      (c.scheduleVolatile n tx transacted details dueAt).2 := by
  have hstored := h.fresh.stored c.nextJob (Nat.le_refl _)
  have hqueued := h.fresh.queued c.nextJob (Nat.le_refl _)
  have hdrawn := h.apart c.apart_nextJob rfl .inl
  have hregistered := hdrawn.register .onCommit (.queue n
    { jobId := .drawn c.nextJob, details, dueAt, persisted := false, transacted }) (.inr rfl)
  exact hregistered.record fun t ht => ⟨⟨c.nextJob, Nat.lt_succ_self _, rfl⟩,
    ⟨JobStore.hides_of_find?_eq_none hstored, hqueued⟩, .inl ⟨hstored, hqueued⟩⟩

theorem underway_createExchange (h : Underway heard start tx deeds c) (n : NodeName)
    (id : ExchangeId) (direction : Direction) :
    Underway heard start tx
      (deeds ++ (.createExchange n id direction : WorkCall η).deeds
        (.exchange (c.createExchange n tx id direction).1))
      (c.createExchange n tx id direction).2 := by
  unfold createExchange
  cases hcreate : (c.node n).registry.create id direction c.clock with
  | error e => simpa [updateRegistry, WorkCall.deeds] using h
  | ok x =>
      obtain ⟨slot, registry⟩ := x
      have hcreated := h.apart (c.apart_modifyRegistry n (fun _ => registry)
        (Registry.follows_create hcreate) (Registry.routes_create hcreate)) rfl .inl
      have hregistered := hcreated.register .onRollback (.withdraw n id) (.inl (by simp))
      refine hregistered.record fun t ht => ⟨trivial, ?_, .inr ?_⟩
      · have hplaces := Registry.places_create (h.fresh.slots n) hcreate
        have hnode : ((c.modifyRegistry n fun _ => registry).node n).registry = registry := by
          simp [modifyRegistry]
        show ((c.modifyRegistry n fun _ => registry).node n).registry.Places id slot
        rw [hnode]
        exact hplaces
      · exact provides_of_register ht rfl ⟨rfl, rfl⟩

/-- The first write of a transaction has the writes applied or forgotten at the end. -/
theorem underway_stageWrite (h : Underway heard start tx deeds c) (w : InstanceWrite) :
    Underway heard start tx deeds (c.stageWrite tx w) := by
  have hstage : ∀ d : Cluster η ω, d.transaction? tx ≠ none → tx.serial < d.nextTx →
      d.Apart heard { d with instances := d.instances.stage tx w } := by
    intro d hopen hnumber
    refine d.apart_instances _ rfl fun other hover hnone => ?_
    have hne : tx ≠ other := fun heq => hopen (heq ▸ hover (heq ▸ hnumber))
    simp only [InstanceStore.stage, Table.get?_insert, if_neg hne]
    exact hnone
  unfold stageWrite
  split
  · next hopen =>
    refine h.apart (hstage c h.isOpen h.number) rfl fun hnone => ?_
    simp [InstanceStore.isOpen, Table.contains, hnone] at hopen
  · have hregistered := h.register .after (.applyWrites tx) (.inl (by simp))
    exact hregistered.apart (hstage _ hregistered.isOpen hregistered.number) rfl
      fun _ => .inr fun t ht => provides_of_register ht rfl rfl

theorem underway_stageIfOk (h : Underway heard start tx deeds c)
    (w : Except InstanceError InstanceWrite) :
    Underway heard start tx deeds (c.stageIfOk tx w).2 := by
  cases w with
  | ok w => exact underway_stageWrite h w
  | error e => exact h

/-- A transaction is on its way after it has moved an instance. -/
theorem underway_setInstanceState (h : Underway heard start tx deeds c) (id : InstanceId)
    (state : InstanceState) (now : Time) :
    Underway heard start tx deeds (c.setInstanceState tx id state now).2 := by
  unfold setInstanceState
  split
  · exact underway_stageWrite h _
  · exact h

theorem underway_claimFor (h : Underway heard start tx deeds c) (n : NodeName) (id : JobId) :
    Underway heard start tx deeds (c.claimFor n tx id).2 := by
  unfold claimFor claim
  cases hclaim : c.jobs.claim id (c.node n).id with
  | error e => exact h
  | ok x =>
      have hjobs : (StoreCall.claim id (c.node n).id).apply c.jobs = x.2 := by
        simp [StoreCall.apply, JobStore.orSelf', JobStore.orSelf, Except.map, hclaim]
      have hclaimed := h.apart (c.apart_call (.claim id (c.node n).id)
        (fun _ => StoreCall.noConfusion) fun _ => rfl) rfl .inl
      rw [hjobs] at hclaimed
      exact hclaimed.register .onRollback (.drop n id true) (.inl (by simp))

/-- Only drops are disarmed. -/
theorem disarm_of_not_drop {callback : Callback η} (id : JobId)
    (h : ∀ n j armed, callback ≠ .drop n j armed) : disarm id callback = callback := by
  cases callback with
  | drop n j armed => exact absurd rfl (h n j armed)
  | publish n plan | queue n info | applyWrites tx | withdraw n j | custom script => rfl

/-- Disarming keeps all callbacks but the drops of one job. -/
theorem keeps_disarm (t : Transaction (Callback η)) (id : JobId) :
    t.Keeps (t.mapCallbacks (disarm id)) := by
  intro s hs hdrop
  refine List.mem_map.mpr ⟨s, hs, ?_⟩
  rw [disarm_of_not_drop id hdrop]

theorem underway_releaseClaim (h : Underway heard start tx deeds c) (n : NodeName) (id : JobId) :
    Underway heard start tx deeds (c.releaseClaim n tx id).2 := by
  unfold releaseClaim finishClaim
  cases hfinish : c.jobs.finish id (c.node n).id .done with
  | error e => exact h
  | ok jobs =>
      have hjobs : (StoreCall.finish id (c.node n).id .done).apply c.jobs = jobs := by
        simp [StoreCall.apply, JobStore.orSelf, hfinish]
      have hfinished := h.apart (c.apart_call (.finish id (c.node n).id .done)
        (fun _ => StoreCall.noConfusion) fun _ => rfl) rfl .inl
      rw [hjobs] at hfinished
      refine hfinished.modifyTransaction _ (fun t => keeps_disarm t id) fun t s hs m info hq => ?_
      obtain ⟨s', hs', rfl⟩ := List.mem_map.mp hs
      have hdrop : ∀ m' j armed, s'.callback ≠ .drop m' j armed := by
        intro m' j armed hdrop
        simp [hdrop, disarm] at hq
      rw [disarm_of_not_drop id hdrop]
      exact .inl hs'

/-- Every call keeps the deeds of a unit covered. -/
theorem underway_perform (h : Underway heard start tx deeds c) (a : WorkCall η) :
    Underway heard start tx (deeds ++ a.deeds (a.perform tx c).1) (a.perform tx c).2 := by
  cases a with
  | schedulePersisted n details dueAt => exact underway_schedulePersisted h n details dueAt
  | scheduleVolatile n transacted details dueAt =>
      exact underway_scheduleVolatile h n transacted details dueAt
  | createExchange n id direction => exact underway_createExchange h n id direction
  | createInstance p => exact (underway_stageIfOk h (c.instances.creation tx p)).unchanged rfl
  | setInstanceState id state now => exact (underway_setInstanceState h id state now).unchanged rfl
  | setInstanceKey id set value =>
      exact (underway_stageIfOk h (c.instances.keyChange tx id set value)).unchanged rfl
  | deleteInstance id => exact (underway_stageIfOk h (c.instances.deletion tx id)).unchanged rfl
  | claim n id => exact (underway_claimFor h n id).unchanged rfl
  | release n id => exact (underway_releaseClaim h n id).unchanged rfl
  | register moment script =>
      exact (h.register moment (.custom script) (.inl (by simp))).unchanged rfl
  | mark =>
      have hmarked := h.modifyTransaction Transaction.mark (fun _ _ hs _ => hs)
        fun _ _ hs _ _ _ => .inl hs
      exact hmarked.unchanged rfl
  | setStoreAvailable available =>
      have hset := h.apart (c.apart_call (.setAvailable available)
        (fun _ => StoreCall.noConfusion) fun _ => rfl) rfl .inl
      exact hset.unchanged rfl
  | refuseNext what =>
      have hrefused := h.apart (c.apart_resource (c.resource.refuseNext what)) rfl .inl
      exact hrefused.unchanged rfl

/-- The deeds of a unit are covered when its work comes to its end, in a panic or not. -/
theorem underway_act (w : Work η α) (h : Underway heard start tx deeds c) :
    Underway heard start tx (deeds ++ w.deeds tx c) (w.act tx c).2 := by
  induction w generalizing deeds c with
  | done a | crash message => exact h.unchanged rfl
  | call a next ih =>
      have hrest := ih (a.perform tx c).1 (underway_perform h a)
      rw [List.append_assoc] at hrest
      exact hrest

end Cluster

end JobCluster
