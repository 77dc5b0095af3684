import JobCluster.Cluster.Transactions
/-!
# Taking part in transactions

What the parts of a cluster do as part of an open transaction: schedule jobs, create exchanges and
write process instances. Each leaves a callback with the transaction, which makes the work good or
undoes it.
-/

namespace JobCluster.Cluster

variable {η ω : Type}

/-! ## Jobs -/

/-- Draws the identifier of a job. -/
def drawJob (c : Cluster η ω) : JobId × Cluster η ω :=
  (.drawn c.nextJob, { c with nextJob := c.nextJob + 1 })

/-- Schedules a job to be kept in the store. It is staged at once, and published by the commit. -/
def schedulePersisted (c : Cluster η ω) (n : NodeName) (tx : TxId) (details : JobDetails)
    (dueAt : Option Time) : Except SchedulerError JobId × Cluster η ω :=
  let (id, c) := c.drawJob
  let plan := PersistedPlan.make (c.node n).settings id details dueAt c.clock
  match c.jobs.stage plan.record with
  | .error e => (.error (.persistFailed id e), c)
  | .ok jobs => (.ok id, { c with jobs }.register tx .after (.publish n plan))

/-- Schedules a job to be kept in memory alone. It is queued by the commit. -/
def scheduleVolatile (c : Cluster η ω) (n : NodeName) (tx : TxId) (transacted : Bool)
    (details : JobDetails) (dueAt : Option Time) : JobId × Cluster η ω :=
  let (id, c) := c.drawJob
  let info : JobInfo := { jobId := id, details, dueAt, persisted := false, transacted }
  (id, c.register tx .onCommit (.queue n info))

/-- Cancels a job that no node has claimed, and tells whether there was one. -/
def cancel (c : Cluster η ω) (n : NodeName) (id : JobId) :
    Except SchedulerError Bool × Cluster η ω :=
  let (answer, jobs, todo) := cancelJob c.jobs (c.node n).scheduler.todo id
  (answer, { c with jobs }.modifyTodo n fun _ => todo)

/-! ## Exchanges -/

/-- Creates an exchange, which is withdrawn if the transaction is rolled back. -/
def createExchange (c : Cluster η ω) (n : NodeName) (tx : TxId) (id : ExchangeId)
    (direction : Direction) : Except RegistryError Nat × Cluster η ω :=
  match c.updateRegistry n ((c.node n).registry.create id direction c.clock) with
  | (.ok slot, c) => (.ok slot, c.register tx .onRollback (.withdraw n id))
  | (.error e, c) => (.error e, c)

/-! ## Process instances -/

/-- Adds a write to those of a transaction. The first write has the writes applied at the end. -/
def stageWrite (c : Cluster η ω) (tx : TxId) (w : InstanceWrite) : Cluster η ω :=
  let staged := { c with instances := c.instances.stage tx w }
  if c.instances.isOpen tx then staged else staged.register tx .after (.applyWrites tx)

/-- Adds a write that succeeds. -/
def stageIfOk (c : Cluster η ω) (tx : TxId) :
    Except InstanceError InstanceWrite → Except InstanceError Unit × Cluster η ω
  | .ok w => (.ok (), c.stageWrite tx w)
  | .error e => (.error e, c)

/-- Creates a process instance. -/
def createInstance (c : Cluster η ω) (tx : TxId) (p : ProcessInstance) :
    Except InstanceError Unit × Cluster η ω :=
  c.stageIfOk tx (c.instances.creation tx p)

/-- Moves a process instance to a state, and tells the state that it was in. -/
def setInstanceState (c : Cluster η ω) (tx : TxId) (id : InstanceId) (state : InstanceState)
    (now : Time) : Except InstanceError InstanceState × Cluster η ω :=
  match c.instances.stateChange tx id state now with
  | .ok (previous, w) => (.ok previous, c.stageWrite tx w)
  | .error e => (.error e, c)

/-- Sets the key of a correlation set of a process instance. -/
def setInstanceKey (c : Cluster η ω) (tx : TxId) (id : InstanceId) (set value : String) :
    Except InstanceError Unit × Cluster η ω :=
  c.stageIfOk tx (c.instances.keyChange tx id set value)

/-- Deletes a process instance. -/
def deleteInstance (c : Cluster η ω) (tx : TxId) (id : InstanceId) :
    Except InstanceError Unit × Cluster η ω :=
  c.stageIfOk tx (c.instances.deletion tx id)

end JobCluster.Cluster
