import JobCluster.Cluster.Basic
/-!
# Transactions of a cluster

How transactions begin and end on the nodes of a cluster, and what the callbacks of its parts do.

A transaction that comes to its end is taken out of the cluster first, so that nothing that runs
meanwhile can reach it.

Main results:

- `Cluster.begin_eq_error_of_active`: a thread has one transaction at a time.
-/

namespace JobCluster

/-- What the application supplies: what its scripts do as callbacks and as handlers, and what
becomes of the world outside when it hears of a change to a process instance. -/
structure Application (η ω : Type) where
  callback : Thread → η → Phase → Act η ω (Except String Unit)
  handler : Thread → η → JobInfo → Option TxId → Act η ω (Except ProcessingError Unit)
  listener : String → InstanceEvent → ω → ω

namespace Cluster

variable {η ω : Type}

/-! ## Open transactions -/

/-- The open transaction with the identifier. -/
def transaction? (c : Cluster η ω) (id : TxId) : Option (Transaction (Callback η)) :=
  c.transactions.get? id

/-- Changes an open transaction. -/
def modifyTransaction (c : Cluster η ω) (id : TxId)
    (f : Transaction (Callback η) → Transaction (Callback η)) : Cluster η ω :=
  { c with transactions := c.transactions.modify id f }

/-- Registers a callback with an open transaction. -/
def register (c : Cluster η ω) (id : TxId) (moment : Moment) (callback : Callback η) :
    Cluster η ω :=
  c.modifyTransaction id fun t => t.register moment callback

/-- Begins a transaction on a thread. -/
def begin (c : Cluster η ω) (n : NodeName) (thread : Thread) : Except TxError TxId × Cluster η ω :=
  let id : TxId := ⟨c.nextTx⟩
  let c := { c with nextTx := c.nextTx + 1 }
  match (c.node n).manager.claim thread id with
  | .error e => (.error e, c)
  | .ok manager =>
    match c.resource.begin id with
    | (.error e, resource) => (.error (.refused e), { c with resource })
    | (.ok (), resource) =>
      let t : Transaction (Callback η) :=
        { id, node := n, owner := thread, timeout := manager.timeout thread }
      (.ok id, { c with resource, transactions := c.transactions.insert id t }.modifyManager n
        fun _ => manager)

/-- A thread that has a transaction open on the node cannot begin another one; its number is used
up. -/
theorem begin_eq_error_of_active (c : Cluster η ω) (n : NodeName) (thread : Thread) (id : TxId)
    (h : (c.node n).manager.active? thread = some id) :
    c.begin n thread = (.error (.alreadyActive id), { c with nextTx := c.nextTx + 1 }) := by
  have hc : ({ c with nextTx := c.nextTx + 1 } : Cluster η ω).node n = c.node n := rfl
  simp [begin, hc, TxManager.claim, h]

/-! ## Callbacks -/

/-- Whether the round follows a commit. -/
def followsCommit : Phase → Bool
  | .after committed => committed
  | .before => false

/-- Queues a stored job that has just been published. -/
def enqueuePublished (c : Cluster η ω) (n : NodeName) (plan : PersistedPlan) : Cluster η ω :=
  let ttl := (c.node n).settings.outstanding.wordMillis
  c.modifyTodo n fun q =>
    (q.enqueue (.persisted { plan.record with state := .pending }) plan.due c.clock ttl).2

/-- Queues a job that is kept in memory alone. -/
def enqueueVolatile (c : Cluster η ω) (n : NodeName) (info : JobInfo) : Cluster η ω :=
  c.modifyTodo n fun q => (q.enqueue (.volatile info) (info.dueAt.getD c.clock) c.clock 0).2

/-- Publishes a staged job after a commit, and discards it after a rollback. -/
def settleStaged (c : Cluster η ω) (n : NodeName) (plan : PersistedPlan) (committed : Bool) :
    Except CallbackFailure Unit × Cluster η ω :=
  if committed then
    match c.jobs.publish plan.record.id with
    | .error e => (.error (.failed e.message), c)
    | .ok jobs =>
      let c := { c with jobs }
      (.ok (), if plan.immediate then c.enqueuePublished n plan else c)
  else (.ok (), { c with jobs := c.jobs.discard plan.record.id })

/-- Drops a job whose run failed; it may have been taken over meanwhile. -/
def dropClaimed (c : Cluster η ω) (n : NodeName) (id : JobId) :
    Except CallbackFailure Unit × Cluster η ω :=
  match c.jobs.finish id (c.node n).id .failedDropped with
  | .ok jobs => (.ok (), { c with jobs })
  | .error (.noLongerStored _) => (.ok (), c)
  | .error e => (.error (.failed e.message), c)

/-- Tells a listener of a change to a process instance. -/
def tell (app : Application η ω) (event : InstanceEvent) (c : Cluster η ω) :
    Listener → Cluster η ω
  | .cleanUp n => c.modifyRegistry n fun r => r.cleanUp event.id
  | .report name => c.modifyOutside (app.listener name event)

/-- Tells all listeners of changes to process instances. -/
def announce (app : Application η ω) (events : List InstanceEvent) (c : Cluster η ω) :
    Cluster η ω :=
  events.foldl (fun c event => c.listeners.foldl (tell app event) c) c

/-- Applies or forgets the writes of a transaction, and tells the listeners. -/
def completeWrites (app : Application η ω) (c : Cluster η ω) (tx : TxId) (committed : Bool) :
    Cluster η ω :=
  let (events, instances) := c.instances.complete tx committed
  announce app events { c with instances }

/-- Runs a callback. -/
def runCallback (app : Application η ω) (thread : Thread) (callback : Callback η) (phase : Phase)
    (c : Cluster η ω) : Except CallbackFailure Unit × Cluster η ω :=
  match callback with
  | .publish n plan => c.settleStaged n plan (followsCommit phase)
  | .queue n info => (.ok (), c.enqueueVolatile n info)
  | .drop n id armed => if armed then c.dropClaimed n id else (.ok (), c)
  | .applyWrites tx => (.ok (), c.completeWrites app tx (followsCommit phase))
  | .withdraw n id => (.ok (), c.modifyRegistry n fun r => r.rollBack id)
  | .custom script =>
    match app.callback thread script phase c with
    | (.ok (.ok ()), c) => (.ok (), c)
    | (.ok (.error cause), c) => (.error (.failed cause), c)
    | (.error p, c) => (.error (.panicked p.message), c)

/-! ## The end of a transaction -/

/-- The cluster as the surroundings of a transaction that comes to its end on a thread. -/
def surroundings (app : Application η ω) (thread : Thread) :
    Surroundings (Cluster η ω) (Callback η) where
  run := runCallback app thread
  commitResource id c :=
    let (answer, resource) := c.resource.commit id
    (answer, { c with resource })
  rollbackResource _ c :=
    let (answer, resource) := c.resource.rollback
    (answer, { c with resource })
  leave t c := c.modifyManager t.node fun m => m.release t.owner t.id

/-- Takes an open transaction out and brings it to its end. -/
def conclude (c : Cluster η ω) (id : TxId)
    (finish : Transaction (Callback η) → Cluster η ω → Ending × Cluster η ω) :
    Except TxError Unit × Cluster η ω :=
  match c.transaction? id with
  | none => (.error (.alreadyCompleted id), c)
  | some t =>
    let (ending, c) := finish t { c with transactions := c.transactions.erase id }
    (ending.result, c)

/-- Commits an open transaction. -/
def commit (app : Application η ω) (thread : Thread) (id : TxId) (c : Cluster η ω) :
    Except TxError Unit × Cluster η ω :=
  c.conclude id (Transaction.commit (surroundings app thread))

/-- Rolls an open transaction back. -/
def rollback (app : Application η ω) (thread : Thread) (id : TxId) (c : Cluster η ω) :
    Except TxError Unit × Cluster η ω :=
  c.conclude id (Transaction.rollback (surroundings app thread))

/-- Rolls back a transaction that nobody is going to complete. -/
def abandon (app : Application η ω) (thread : Thread) (id : TxId) (c : Cluster η ω) :
    Cluster η ω :=
  (c.rollback app thread id).2

end Cluster

/-! ## Work in a transaction -/

/-- Why work in a transaction came to nothing. -/
inductive WorkFailure (ε : Type)
  /-- The work failed, and the transaction was rolled back. -/
  | body (error : ε)
  /-- The transaction could not begin, or did not commit. -/
  | transaction (error : TxError)

namespace Cluster

variable {η ω ε α : Type}

/-- Does work in a transaction of its own, which commits if the work succeeds. The timeout of the
thread is changed for the time of the work alone, however it ends. -/
def runInTransaction (app : Application η ω) (n : NodeName) (thread : Thread)
    (timeout : Option Time) (body : TxId → Act η ω (Except ε α)) :
    Act η ω (Except (WorkFailure ε) α) := fun c =>
  let before := (c.node n).manager.override? thread
  let restore := fun c : Cluster η ω => c.modifyManager n fun m => m.setTimeout thread before
  match (c.modifyManager n fun m => m.overrideTimeout thread timeout).begin n thread with
  | (.error e, c) => (.ok (.error (.transaction e)), restore c)
  | (.ok id, c) =>
    match body id c with
    | (.error p, c) => (.error p, restore (c.abandon app thread id))
    | (.ok (.error e), c) => (.ok (.error (.body e)), restore (c.abandon app thread id))
    | (.ok (.ok a), c) =>
      match c.commit app thread id with
      | (.ok (), c) => (.ok (.ok a), restore c)
      | (.error e, c) => (.ok (.error (.transaction e)), restore c)

/-- Does work in a transaction of its own, for a caller who takes a scheduler's errors. -/
def execTransaction (app : Application η ω) (n : NodeName) (thread : Thread)
    (timeout : Option Time) (body : TxId → Act η ω (Except String α)) :
    Act η ω (Except SchedulerError α) := do
  match ← runInTransaction app n thread timeout body with
  | .ok a => return .ok a
  | .error (.body cause) => return .error (.bodyFailed cause)
  | .error (.transaction e) => return .error (.transactionFailed e)

end Cluster

end JobCluster
