import JobCluster.Cluster.Running
import JobCluster.Proofs.Job.StoreCall
/-!
# What the operations of a cluster leave alone

The operations of a cluster each change a few of its parts. This file says which parts they leave
alone: the job store, the open transactions, and the identifiers of the nodes.

Main results:

- `Cluster.jobs_announce`, `Cluster.transactions_announce`, `Cluster.nodeId_announce`: listeners
  reach none of these parts;
- `Cluster.transaction?_register`: a registration reaches one transaction.
-/

namespace JobCluster.Cluster

variable {η ω : Type}

/-! ## Nodes -/

/-- The identifier of a node in the store. -/
def nodeId (c : Cluster η ω) (n : NodeName) : NodeId := (c.node n).id

@[simp]
theorem jobs_modifyNode (c : Cluster η ω) (n : NodeName) (f : Node η → Node η) :
    (c.modifyNode n f).jobs = c.jobs :=
  rfl

@[simp]
theorem transactions_modifyNode (c : Cluster η ω) (n : NodeName) (f : Node η → Node η) :
    (c.modifyNode n f).transactions = c.transactions :=
  rfl

@[simp]
theorem nextTx_modifyNode (c : Cluster η ω) (n : NodeName) (f : Node η → Node η) :
    (c.modifyNode n f).nextTx = c.nextTx :=
  rfl

/-- A change that keeps the identifier of a node keeps those of all. -/
theorem nodeId_modifyNode (c : Cluster η ω) (n m : NodeName) (f : Node η → Node η)
    (h : (f (c.node n)).id = (c.node n).id) : (c.modifyNode n f).nodeId m = c.nodeId m := by
  unfold nodeId
  rw [node_modifyNode]
  by_cases hnm : n = m
  · rw [if_pos hnm, h, hnm]
  · rw [if_neg hnm]

@[simp]
theorem nodeId_modifyManager (c : Cluster η ω) (n m : NodeName) (f : TxManager → TxManager) :
    (c.modifyManager n f).nodeId m = c.nodeId m :=
  c.nodeId_modifyNode n m _ rfl

@[simp]
theorem nodeId_modifyRegistry (c : Cluster η ω) (n m : NodeName) (f : Registry → Registry) :
    (c.modifyRegistry n f).nodeId m = c.nodeId m :=
  c.nodeId_modifyNode n m _ rfl

@[simp]
theorem nodeId_modifyScheduler (c : Cluster η ω) (n m : NodeName) (f : Scheduler → Scheduler) :
    (c.modifyScheduler n f).nodeId m = c.nodeId m :=
  c.nodeId_modifyNode n m _ rfl

@[simp]
theorem nodeId_modifyTodo (c : Cluster η ω) (n m : NodeName) (f : TodoQueue → TodoQueue) :
    (c.modifyTodo n f).nodeId m = c.nodeId m :=
  c.nodeId_modifyScheduler n m _

@[simp]
theorem handlers_modifyManager (c : Cluster η ω) (n m : NodeName) (f : TxManager → TxManager) :
    ((c.modifyManager n f).node m).handlers = (c.node m).handlers := by
  rw [modifyManager, node_modifyNode]
  by_cases hnm : n = m
  · rw [if_pos hnm, hnm]
  · rw [if_neg hnm]

/-! ## Transactions -/

@[simp]
theorem jobs_modifyTransaction (c : Cluster η ω) (id : TxId)
    (f : Transaction (Callback η) → Transaction (Callback η)) :
    (c.modifyTransaction id f).jobs = c.jobs :=
  rfl

@[simp]
theorem nodeId_modifyTransaction (c : Cluster η ω) (id : TxId)
    (f : Transaction (Callback η) → Transaction (Callback η)) (n : NodeName) :
    (c.modifyTransaction id f).nodeId n = c.nodeId n :=
  rfl

/-- A change of one transaction leaves the others as they are. -/
theorem transaction?_modifyTransaction (c : Cluster η ω) (id tx : TxId)
    (f : Transaction (Callback η) → Transaction (Callback η)) :
    (c.modifyTransaction id f).transaction? tx =
      if tx = id then (c.transaction? tx).map f else c.transaction? tx := by
  unfold transaction? modifyTransaction
  rw [Table.get?_modify]

/-- A callback is registered with its own transaction only. -/
theorem transaction?_register (c : Cluster η ω) (id tx : TxId) (moment : Moment)
    (callback : Callback η) :
    (c.register id moment callback).transaction? tx =
      if tx = id then (c.transaction? tx).map fun t => t.register moment callback
      else c.transaction? tx :=
  c.transaction?_modifyTransaction id tx _

/-- What a transaction that begins changes: it is open from then on, without callbacks, and its
number is used up. -/
structure Begun (c : Cluster η ω) (tx : TxId) (d : Cluster η ω) : Prop where
  number : tx = ⟨c.nextTx⟩
  jobs : d.jobs = c.jobs
  instances : d.instances = c.instances
  nextTx : d.nextTx = c.nextTx + 1
  nodeId : ∀ n, d.nodeId n = c.nodeId n
  handlers : ∀ n, (d.node n).handlers = (c.node n).handlers
  transaction : ∃ t, t.synchronizers = [] ∧
    ∀ other, d.transaction? other = if other = tx then some t else c.transaction? other

/-- A transaction that begins is open, under a new number. -/
theorem begin_eq_ok {c d : Cluster η ω} {n : NodeName} {thread : Thread} {tx : TxId}
    (h : c.begin n thread = (.ok tx, d)) : c.Begun tx d := by
  simp only [begin] at h
  split at h
  · simp at h
  · next manager hclaim =>
    split at h
    · simp at h
    · obtain ⟨htx, rfl⟩ := Prod.mk.inj h
      obtain rfl := Except.ok.inj htx
      let t : Transaction (Callback η) :=
        { id := ⟨c.nextTx⟩, node := n, owner := thread, timeout := manager.timeout thread }
      refine ⟨rfl, rfl, rfl, rfl, fun m => ?_, fun m => ?_, t, rfl, fun other => ?_⟩
      · rw [nodeId_modifyManager]
        rfl
      · rw [handlers_modifyManager]
        rfl
      · simp only [transaction?, transactions_modifyNode, modifyManager, Table.get?_insert, t]
        by_cases hother : other = ⟨c.nextTx⟩
        · rw [if_pos hother, if_pos hother.symm]
        · rw [if_neg hother, if_neg (Ne.symm hother)]

/-- A transaction that cannot begin uses its number up all the same. -/
theorem begin_eq_error {c d : Cluster η ω} {n : NodeName} {thread : Thread} {e : TxError}
    (h : c.begin n thread = (.error e, d)) :
    ∃ resource, d = { c with nextTx := c.nextTx + 1, resource } := by
  simp only [begin] at h
  split at h
  · obtain ⟨_, rfl⟩ := Prod.mk.inj h
    exact ⟨c.resource, rfl⟩
  · split at h
    · obtain ⟨_, rfl⟩ := Prod.mk.inj h
      exact ⟨_, rfl⟩
    · simp at h

/-! ## Jobs -/

/-- Dropping a job is a call on the job store, whatever it answers. -/
theorem dropClaimed_snd (c : Cluster η ω) (n : NodeName) (id : JobId) :
    (c.dropClaimed n id).2 =
      { c with jobs := (StoreCall.finish id (c.nodeId n) .failedDropped).apply c.jobs } := by
  unfold dropClaimed nodeId
  simp only [StoreCall.apply]
  cases c.jobs.finish id (c.node n).id .failedDropped with
  | ok jobs => rfl
  | error e => cases e <;> rfl

/-! ## Listeners -/

/-- What no listener spoils that hears of a change is kept when all of them are told: registries
clean up, and the application changes the world outside. -/
theorem tell_keeps {P : Cluster η ω → Prop} (app : Application η ω) (event : InstanceEvent)
    (hcleanUp : ∀ c n, P c → P (c.modifyRegistry n fun r => r.cleanUp event.id))
    (houtside : ∀ c f, P c → P (c.modifyOutside f)) (listeners : List Listener)
    (c : Cluster η ω) (h : P c) : P (listeners.foldl (tell app event) c) := by
  refine List.foldlRecOn listeners _ h fun d hd listener _ => ?_
  cases listener with
  | cleanUp n => exact hcleanUp d n hd
  | report name => exact houtside d (app.listener name event) hd

/-- What no listener spoils that hears of one of some changes is kept by their announcement. -/
theorem announce_keeps {P : Cluster η ω → Prop} (app : Application η ω)
    (events : List InstanceEvent)
    (hcleanUp : ∀ event ∈ events, ∀ c n, P c →
      P (c.modifyRegistry n fun r => r.cleanUp event.id))
    (houtside : ∀ c f, P c → P (c.modifyOutside f)) (c : Cluster η ω) (h : P c) :
    P (announce app events c) :=
  List.foldlRecOn events _ h fun d hd event hevent =>
    tell_keeps app event (hcleanUp event hevent) houtside d.listeners d hd

/-- A property that no listener touches is kept by an announcement. -/
theorem announce_induction {P : Cluster η ω → Prop} (app : Application η ω)
    (hregistry : ∀ c n f, P c → P (c.modifyRegistry n f))
    (houtside : ∀ c f, P c → P (c.modifyOutside f)) (events : List InstanceEvent)
    (c : Cluster η ω) (h : P c) : P (announce app events c) :=
  announce_keeps app events
    (fun event _ c n hc => hregistry c n (fun r => r.cleanUp event.id) hc) houtside c h

@[simp]
theorem jobs_announce (app : Application η ω) (events : List InstanceEvent) (c : Cluster η ω) :
    (announce app events c).jobs = c.jobs :=
  announce_induction (P := fun d => d.jobs = c.jobs) app (fun _ _ _ h => h) (fun _ _ h => h)
    events c rfl

@[simp]
theorem transactions_announce (app : Application η ω) (events : List InstanceEvent)
    (c : Cluster η ω) : (announce app events c).transactions = c.transactions :=
  announce_induction (P := fun d => d.transactions = c.transactions) app (fun _ _ _ h => h)
    (fun _ _ h => h) events c rfl

@[simp]
theorem nextTx_announce (app : Application η ω) (events : List InstanceEvent)
    (c : Cluster η ω) : (announce app events c).nextTx = c.nextTx :=
  announce_induction (P := fun d => d.nextTx = c.nextTx) app (fun _ _ _ h => h)
    (fun _ _ h => h) events c rfl

@[simp]
theorem nextJob_announce (app : Application η ω) (events : List InstanceEvent)
    (c : Cluster η ω) : (announce app events c).nextJob = c.nextJob :=
  announce_induction (P := fun d => d.nextJob = c.nextJob) app (fun _ _ _ h => h)
    (fun _ _ h => h) events c rfl

@[simp]
theorem instances_announce (app : Application η ω) (events : List InstanceEvent)
    (c : Cluster η ω) : (announce app events c).instances = c.instances :=
  announce_induction (P := fun d => d.instances = c.instances) app (fun _ _ _ h => h)
    (fun _ _ h => h) events c rfl

@[simp]
theorem listeners_announce (app : Application η ω) (events : List InstanceEvent)
    (c : Cluster η ω) : (announce app events c).listeners = c.listeners :=
  announce_induction (P := fun d => d.listeners = c.listeners) app (fun _ _ _ h => h)
    (fun _ _ h => h) events c rfl

@[simp]
theorem nodeId_announce (app : Application η ω) (events : List InstanceEvent) (c : Cluster η ω)
    (n : NodeName) : (announce app events c).nodeId n = c.nodeId n :=
  announce_induction (P := fun d => d.nodeId n = c.nodeId n) app
    (fun d m f h => by rw [nodeId_modifyRegistry, h]) (fun _ _ h => h) events c rfl

/-! ## Runs -/

/-- A run in a transaction of its own ends as the work in that transaction does. -/
theorem attempt_of_transacted (app : Application η ω) (n : NodeName) (thread : Thread)
    {info : JobInfo} (c : Cluster η ω) (h : info.transacted = true) :
    attempt app n thread info c =
      ((runInTransaction app n thread none (transactedBody app n thread info) c).1.map endOf,
        (runInTransaction app n thread none (transactedBody app n thread info) c).2) := by
  unfold attempt
  simp only [h, if_true, Act.bind_apply]
  rcases runInTransaction app n thread none (transactedBody app n thread info) c with
    ⟨p | x, d⟩ <;> rfl

/-- A run outside any transaction ends as its work does. -/
theorem attempt_of_plain (app : Application η ω) (n : NodeName) (thread : Thread)
    {info : JobInfo} (c : Cluster η ω) (h : info.transacted = false) :
    attempt app n thread info c =
      ((plainRun app n thread info c).1.map fun result => endOf (result.mapError .body),
        (plainRun app n thread info c).2) := by
  unfold attempt
  simp only [h, Bool.false_eq_true, if_false, Act.bind_apply]
  rcases plainRun app n thread info c with ⟨p | (e | _), d⟩ <;> rfl

/-- What is left of a run that has ended: its job is unmarked, and the run is counted. A run that
has panicked leaves nothing to be done. -/
def record (c : Cluster η ω) (n : NodeName) (id : JobId) : Option JobEnd → Cluster η ω
  | some ending => (c.modifyTodo n fun q => q.finish id).modifyScheduler n fun s => s.count ending
  | none => c

/-- A run is recorded as it ends. -/
theorem runJob_snd (app : Application η ω) (job : ScheduledJob) {c : Cluster η ω} {n : NodeName}
    (hprocessor : (c.node n).scheduler.hasProcessor = true) :
    (runJob app n job c).2 = (attempt app n (.worker n) job.info c).2.record n job.info.jobId
      (attempt app n (.worker n) job.info c).1.toOption := by
  unfold runJob
  simp only [Act.bind_apply, Act.gets, hprocessor, if_true]
  rcases attempt app n (.worker n) job.info c with ⟨p | ending, e⟩ <;> rfl

/-- The handler of a timeout reaches no transaction. -/
theorem transactions_timeOutExchange (c : Cluster η ω) (n : NodeName) (details : JobDetails) :
    (c.timeOutExchange n details).2.transactions = c.transactions := by
  unfold timeOutExchange
  split
  · rfl
  · simp only
    split
    · rfl
    · unfold updateRegistry
      cases (c.node n).registry.fail _ .noResponse (some "partner did not respond in time") <;> rfl

end JobCluster.Cluster
