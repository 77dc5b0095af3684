import JobCluster.Proofs.Cluster.Underway
import JobCluster.Proofs.Job.RunStep
/-!
# What the calls of a unit of work come to

A unit of work makes one call after another in its transaction. This file says once what each call
can come to, and reads off what it leaves alone: other transactions, the committed instances, the
exchanges that were created before.

Main results:

- `WorkCall.effect_perform`: what a call comes to;
- `WorkCall.Effect.own`: the callbacks that a call registers with its transaction;
- `WorkCall.Effect.instances`: a call stages one write, or none.
-/

namespace JobCluster

variable {η ω : Type}

/-- The plan of a job that is scheduled on a node to be stored. -/
def Cluster.planOf (c : Cluster η ω) (n : NodeName) (details : JobDetails) (dueAt : Option Time) :
    PersistedPlan :=
  .make (c.node n).settings (.drawn c.nextJob) details dueAt c.clock

/-! ## Lasting callbacks -/

/-- Whether a callback stays as it is once it is registered: all do but those that drop jobs, which
are disarmed when their job is taken out. -/
def Synchronizer.lasts (x : Synchronizer (Callback η)) : Bool :=
  match x.callback with
  | .drop _ _ _ => false
  | .publish _ _ | .queue _ _ | .applyWrites _ | .withdraw _ _ | .custom _ => true

/-- The callbacks of a transaction that stay as they are, in the order of registration. -/
def Transaction.lasting (t : Transaction (Callback η)) : List (Synchronizer (Callback η)) :=
  t.synchronizers.filter Synchronizer.lasts

/-- The callbacks that last are those among the registered ones that no call takes back. -/
theorem Transaction.mem_lasting {t : Transaction (Callback η)} {x : Synchronizer (Callback η)} :
    x ∈ t.lasting ↔ x ∈ t.synchronizers ∧ x.lasts = true :=
  List.mem_filter

/-- Disarming a callback changes none that stays as it is. -/
theorem Transaction.lasting_disarm (t : Transaction (Callback η)) (id : JobId) :
    (t.mapCallbacks (Cluster.disarm id)).lasting = t.lasting := by
  unfold lasting mapCallbacks
  simp only
  induction t.synchronizers with
  | nil => rfl
  | cons x rest ih =>
      obtain ⟨moment, callback⟩ := x
      cases callback with
      | drop n j armed => exact ih
      | publish n plan | queue n info | applyWrites tx | withdraw n j | custom script =>
          exact congrArg (List.cons _) ih

namespace WorkCall

/-! ## Effects -/

/-- The write to a process instance that a call stages in its transaction, if it stages any. -/
def write? (tx : TxId) (s : InstanceStore) : WorkCall η → Option InstanceWrite
  | .createInstance p => (s.creation tx p).toOption
  | .setInstanceState id state now => ((s.stateChange tx id state now).map Prod.snd).toOption
  | .setInstanceKey id set value => (s.keyChange tx id set value).toOption
  | .deleteInstance id => (s.deletion tx id).toOption
  | .schedulePersisted _ _ _ | .scheduleVolatile _ _ _ _ | .createExchange _ _ _ | .claim _ _
  | .release _ _ | .register _ _ | .mark | .setStoreAvailable _ | .refuseNext _ => none

/-- The callback that has the writes of a transaction applied; it comes with the first write. -/
def applying (tx : TxId) (s : InstanceStore) : List (Synchronizer (Callback η)) :=
  if s.isOpen tx then [] else [⟨.after, .applyWrites tx⟩]

/-- What a call can come to: its answer, the callbacks that it registers, and the cluster. -/
inductive Effect (tx : TxId) (c : Cluster η ω) :
    WorkCall η → WorkAnswer → List (Synchronizer (Callback η)) → Cluster η ω → Prop
  | staged (n : NodeName) (details : JobDetails) (dueAt : Option Time) :
      Effect tx c (.schedulePersisted n details dueAt) (.job (.ok (.drawn c.nextJob)))
        [⟨.after, .publish n (c.planOf n details dueAt)⟩]
        (({ c with
              nextJob := c.nextJob + 1
              jobs := c.jobs.put { (c.planOf n details dueAt).record with state := .staged }
            }).register tx .after (.publish n (c.planOf n details dueAt)))
  /-- The job store refuses the job, whose identifier is used up all the same. -/
  | unstaged (n : NodeName) (details : JobDetails) (dueAt : Option Time) (e : SchedulerError) :
      Effect tx c (.schedulePersisted n details dueAt) (.job (.error e)) []
        { c with nextJob := c.nextJob + 1 }
  | planned (n : NodeName) (transacted : Bool) (details : JobDetails) (dueAt : Option Time) :
      Effect tx c (.scheduleVolatile n transacted details dueAt) (.job (.ok (.drawn c.nextJob)))
        [⟨.onCommit, .queue n
          { jobId := .drawn c.nextJob, details, dueAt, persisted := false, transacted }⟩]
        (({ c with nextJob := c.nextJob + 1 }).register tx .onCommit (.queue n
          { jobId := .drawn c.nextJob, details, dueAt, persisted := false, transacted }))
  | created (n : NodeName) (id : ExchangeId) (direction : Direction) {slot : Nat}
      {registry : Registry}
      (h : (c.node n).registry.create id direction c.clock = .ok (slot, registry)) :
      Effect tx c (.createExchange n id direction) (.exchange (.ok slot))
        [⟨.onRollback, .withdraw n id⟩]
        ((c.modifyRegistry n fun _ => registry).register tx .onRollback (.withdraw n id))
  | written {a : WorkCall η} (answer : WorkAnswer) {w : InstanceWrite}
      (h : a.write? tx c.instances = some w) (hdeeds : a.deeds answer = []) :
      Effect tx c a answer (applying tx c.instances) (c.stageWrite tx w)
  | claimed (n : NodeName) (id : JobId) {held : JobRecord} {jobs : JobStore}
      (h : c.jobs.claim id (c.nodeId n) = .ok (held, jobs)) :
      Effect tx c (.claim n id) (.claimed (.ok ())) [⟨.onRollback, .drop n id true⟩]
        (({ c with jobs }).register tx .onRollback (.drop n id true))
  | released (n : NodeName) (id : JobId) {jobs : JobStore}
      (h : c.jobs.finish id (c.nodeId n) .done = .ok jobs) :
      Effect tx c (.release n id) (.claimed (.ok ())) []
        (({ c with jobs }).modifyTransaction tx fun t => t.mapCallbacks (Cluster.disarm id))
  | registered (moment : Moment) (script : η) :
      Effect tx c (.register moment script) .done [⟨moment, .custom script⟩]
        (c.register tx moment (.custom script))
  | marked : Effect tx c .mark .done [] (c.modifyTransaction tx Transaction.mark)
  | availability (available : Bool) :
      Effect tx c (.setStoreAvailable available) .done []
        { c with jobs := (StoreCall.setAvailable available).apply c.jobs }
  | refusal (what : ResourceCall) :
      Effect tx c (.refuseNext what) .done [] { c with resource := c.resource.refuseNext what }
  /-- The call fails and changes nothing. -/
  | failed {a : WorkCall η} (answer : WorkAnswer) (h : a.write? tx c.instances = none)
      (hdeeds : a.deeds answer = []) : Effect tx c a answer [] c

/-- The callbacks that a call registers with its transaction, if it is answered so. -/
def registers (tx : TxId) (c : Cluster η ω) :
    WorkCall η → WorkAnswer → List (Synchronizer (Callback η))
  | .schedulePersisted n details dueAt, .job (.ok _) =>
    [⟨.after, .publish n (c.planOf n details dueAt)⟩]
  | .scheduleVolatile n transacted details dueAt, .job (.ok id) =>
    [⟨.onCommit, .queue n { jobId := id, details, dueAt, persisted := false, transacted }⟩]
  | .createExchange n id _, .exchange (.ok _) => [⟨.onRollback, .withdraw n id⟩]
  | .createInstance _, .written (.ok _) => applying tx c.instances
  | .setInstanceState _ _ _, .moved (.ok _) => applying tx c.instances
  | .setInstanceKey _ _ _, .written (.ok _) => applying tx c.instances
  | .deleteInstance _, .written (.ok _) => applying tx c.instances
  | .claim n id, .claimed (.ok _) => [⟨.onRollback, .drop n id true⟩]
  | .register moment script, _ => [⟨moment, .custom script⟩]
  | _, _ => []

/-- A persisted job is staged first; if that succeeds, its publication and its withdrawal are
registered with the transaction. -/
theorem schedulePersisted_eq (c : Cluster η ω) (n : NodeName) (tx : TxId) (details : JobDetails)
    (dueAt : Option Time) :
    c.schedulePersisted n tx details dueAt =
      match c.jobs.stage (c.planOf n details dueAt).record with
      | .error e =>
        (.error (.persistFailed (.drawn c.nextJob) e), { c with nextJob := c.nextJob + 1 })
      | .ok jobs =>
        (.ok (.drawn c.nextJob), ({ c with nextJob := c.nextJob + 1, jobs }).register tx .after
          (.publish n (c.planOf n details dueAt))) :=
  rfl

/-- Every call comes to one of the effects. -/
theorem effect_perform (tx : TxId) (c : Cluster η ω) (a : WorkCall η) :
    Effect tx c a (a.perform tx c).1 (a.registers tx c (a.perform tx c).1) (a.perform tx c).2 := by
  cases a with
  | schedulePersisted n details dueAt =>
      simp only [perform, schedulePersisted_eq]
      cases hstage : c.jobs.stage (c.planOf n details dueAt).record with
      | error e => exact .unstaged n details dueAt _
      | ok jobs =>
          obtain ⟨_, _, rfl⟩ := (JobStore.stage_eq_ok_iff _ _ _).mp hstage
          exact .staged n details dueAt
  | scheduleVolatile n transacted details dueAt => exact .planned n transacted details dueAt
  | createExchange n id direction =>
      simp only [perform, Cluster.createExchange]
      cases hcreate : (c.node n).registry.create id direction c.clock with
      | error e => exact .failed _ rfl rfl
      | ok x => exact .created n id direction hcreate
  | createInstance p =>
      simp only [perform, Cluster.createInstance]
      cases hwrite : c.instances.creation tx p with
      | error e => exact .failed _ (by simp [write?, hwrite, Except.toOption]) rfl
      | ok w => exact .written _ (by simp [write?, hwrite, Except.toOption]) rfl
  | setInstanceState id state now =>
      simp only [perform, Cluster.setInstanceState]
      cases hwrite : c.instances.stateChange tx id state now with
      | error e => exact .failed _ (by simp [write?, hwrite, Except.toOption, Except.map]) rfl
      | ok x => exact .written _ (by simp [write?, hwrite, Except.toOption, Except.map]) rfl
  | setInstanceKey id set value =>
      simp only [perform, Cluster.setInstanceKey]
      cases hwrite : c.instances.keyChange tx id set value with
      | error e => exact .failed _ (by simp [write?, hwrite, Except.toOption]) rfl
      | ok w => exact .written _ (by simp [write?, hwrite, Except.toOption]) rfl
  | deleteInstance id =>
      simp only [perform, Cluster.deleteInstance]
      cases hwrite : c.instances.deletion tx id with
      | error e => exact .failed _ (by simp [write?, hwrite, Except.toOption]) rfl
      | ok w => exact .written _ (by simp [write?, hwrite, Except.toOption]) rfl
  | claim n id =>
      simp only [perform]
      rcases c.claimFor_cases n tx id with ⟨held, jobs, hclaim, heq⟩ | ⟨e, _, heq⟩
      · rw [heq]
        exact .claimed n id hclaim
      · rw [heq]
        exact .failed _ rfl rfl
  | release n id =>
      simp only [perform]
      rcases c.releaseClaim_cases n tx id with ⟨jobs, hfinish, heq⟩ | ⟨e, _, heq⟩
      · rw [heq]
        exact .released n id hfinish
      · rw [heq]
        exact .failed _ rfl rfl
  | register moment script => exact .registered moment script
  | mark => exact .marked
  | setStoreAvailable available => exact .availability available
  | refuseNext what => exact .refusal what

/-! ## What a call leaves alone -/

namespace Effect

variable {tx : TxId} {c d : Cluster η ω} {a : WorkCall η} {answer : WorkAnswer}
  {registered : List (Synchronizer (Callback η))}

/-- A call reaches its own transaction alone. -/
theorem others (h : Effect tx c a answer registered d) {other : TxId} (hother : other ≠ tx) :
    d.transaction? other = c.transaction? other := by
  have hregister : ∀ (e : Cluster η ω) moment callback, e.transactions = c.transactions →
      (e.register tx moment callback).transaction? other = c.transaction? other := by
    intro e moment callback he
    rw [Cluster.transaction?_register, if_neg hother]
    unfold Cluster.transaction?
    rw [he]
  cases h with
  | staged | planned | created | claimed | registered => exact hregister _ _ _ rfl
  | written _ _ _ =>
      unfold Cluster.stageWrite
      split
      · rfl
      · exact hregister _ _ _ rfl
  | released | marked => exact (Cluster.transaction?_modifyTransaction ..).trans (if_neg hother)
  | unstaged | availability | refusal | failed => rfl

/-- A call appends what it registers to the callbacks of its transaction, and leaves those that were
registered before. -/
theorem own (h : Effect tx c a answer registered d) {t : Transaction (Callback η)}
    (ht : c.transaction? tx = some t) :
    ∃ t', d.transaction? tx = some t' ∧
      t'.lasting = t.lasting ++ registered.filter Synchronizer.lasts := by
  have hregister : ∀ (e : Cluster η ω) moment callback, e.transactions = c.transactions →
      ∃ t', (e.register tx moment callback).transaction? tx = some t' ∧
        t'.lasting = t.lasting ++ [⟨moment, callback⟩].filter Synchronizer.lasts := by
    intro e moment callback he
    refine ⟨t.register moment callback, ?_, ?_⟩
    · rw [Cluster.transaction?_register, if_pos rfl, Cluster.transaction?, he]
      exact congrArg _ ht
    · exact List.filter_append ..
  cases h with
  | staged | planned | created | claimed | registered => exact hregister _ _ _ rfl
  | written _ _ _ =>
      unfold Cluster.stageWrite applying
      split
      · exact ⟨t, ht, by simp⟩
      · exact hregister _ _ _ rfl
  | released n id _ =>
      refine ⟨t.mapCallbacks (Cluster.disarm id), ?_, ?_⟩
      · rw [Cluster.transaction?_modifyTransaction, if_pos rfl]
        exact congrArg _ ht
      · rw [t.lasting_disarm id]
        simp
  | marked =>
      refine ⟨t.mark, ?_, by simp [Transaction.mark, Transaction.lasting]⟩
      rw [Cluster.transaction?_modifyTransaction, if_pos rfl, ht]
      rfl
  | unstaged | availability | refusal | failed => exact ⟨t, ht, by simp⟩

/-- A call stages one write to a process instance, or none. -/
theorem instances (h : Effect tx c a answer registered d) :
    d.instances = match a.write? tx c.instances with
      | some w => c.instances.stage tx w
      | none => c.instances := by
  cases h with
  | written _ hwrite _ =>
      rw [hwrite]
      unfold Cluster.stageWrite
      split <;> rfl
  | failed _ hwrite _ => rw [hwrite]
  | staged | unstaged | planned | created | claimed | released | registered | marked | availability
  | refusal => rfl

/-- A call stages a new job, or it is a call on the job store that stages and publishes none, or
nothing to that store. -/
theorem jobs (h : Effect tx c a answer registered d) :
    (∃ plan : PersistedPlan, plan.record.id = .drawn c.nextJob ∧
        d.jobs = c.jobs.put { plan.record with state := .staged } ∧
        ∃ n, registered = [⟨.after, .publish n plan⟩]) ∨
      d.jobs = c.jobs ∨
      ∃ call : StoreCall, (∀ id, call.stages id = false) ∧ (∀ id, call ≠ .publish id) ∧
        d.jobs = call.apply c.jobs := by
  cases h with
  | staged n details dueAt => exact .inl ⟨c.planOf n details dueAt, rfl, rfl, n, rfl⟩
  | claimed n id h =>
      refine .inr (.inr ⟨.claim id (c.nodeId n), fun _ => rfl, by simp, ?_⟩)
      simp [StoreCall.apply, JobStore.orSelf', JobStore.orSelf, Except.map, h, Cluster.register]
  | released n id h =>
      refine .inr (.inr ⟨.finish id (c.nodeId n) .done, fun _ => rfl, by simp, ?_⟩)
      simp [StoreCall.apply, JobStore.orSelf, h]
  | availability available =>
      exact .inr (.inr ⟨.setAvailable available, fun _ => rfl, by simp, rfl⟩)
  | written _ _ _ =>
      right
      left
      unfold Cluster.stageWrite
      split <;> rfl
  | unstaged | planned | created | registered | marked | refusal | failed => exact .inr (.inl rfl)

/-- A call creates an exchange on a node, or it leaves the registry of the node alone. -/
theorem registry (h : Effect tx c a answer registered d) (n : NodeName) :
    (d.node n).registry = (c.node n).registry ∨
      ∃ id direction slot, a = .createExchange n id direction ∧ answer = .exchange (.ok slot) ∧
        (c.node n).registry.create id direction c.clock = .ok (slot, (d.node n).registry) := by
  cases h with
  | @created m id direction slot registry hcreate =>
      have hnode : ((c.modifyRegistry m fun _ => registry).register tx .onRollback
          (.withdraw m id)).node n = if m = n then { c.node m with registry } else c.node n :=
        c.node_modifyNode m n fun x => { x with registry }
      rw [hnode]
      by_cases hmn : m = n
      · subst hmn
        rw [if_pos rfl]
        exact .inr ⟨id, direction, slot, rfl, rfl, hcreate⟩
      · rw [if_neg hmn]
        exact .inl rfl
  | written _ _ _ =>
      left
      unfold Cluster.stageWrite
      split <;> rfl
  | staged | unstaged | planned | claimed | released | registered | marked | availability | refusal
  | failed => exact .inl rfl

/-- The identifiers of jobs are drawn one after another, and transactions begin elsewhere. -/
theorem numbers (h : Effect tx c a answer registered d) :
    d.nextTx = c.nextTx ∧ c.nextJob ≤ d.nextJob := by
  cases h with
  | staged | unstaged | planned => exact ⟨rfl, Nat.le_succ _⟩
  | written _ _ _ =>
      unfold Cluster.stageWrite
      split <;> exact ⟨rfl, Nat.le_refl _⟩
  | created | claimed | released | registered | marked | availability | refusal | failed =>
      exact ⟨rfl, Nat.le_refl _⟩

end Effect

end WorkCall

end JobCluster
