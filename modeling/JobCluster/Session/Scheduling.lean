import JobCluster.Session.Scene
/-!
# Calls on schedulers

The steps that schedule and cancel jobs, and those that look at a scheduler or steer it.
-/

namespace JobCluster.Session

variable {η : Type}

/-! ## Jobs -/

/-- What a step schedules. -/
inductive Scheduling
  /-- A job that is kept in the store. -/
  | persisted (details : JobDetails)
  /-- A job that is kept in memory alone. -/
  | volatile (details : JobDetails) (transacted : Bool)
  /-- The stored job that carries out the command of the given text. -/
  | command (text : String) (id : InstanceId)
  /-- The job in memory that fails an exchange. -/
  | exchangeTimeout (id : ExchangeId) (transacted : Bool)
  deriving DecidableEq, Repr

namespace Scheduling

/-- Schedules a stored job. -/
def persist (n : NodeName) (tx : TxId) (details : JobDetails) (dueAt : Option Time) (c : World η) :
    Except Fault JobId × World η :=
  let (result, c) := c.schedulePersisted n tx details dueAt
  (result.mapError .scheduler, c)

/-- Schedules a job as part of a transaction. -/
def perform (n : NodeName) (tx : TxId) (what : Scheduling) (dueAt : Option Time) (c : World η) :
    Except Fault JobId × World η :=
  match what with
  | .persisted details => persist n tx details dueAt c
  | .volatile details transacted =>
    let (id, c) := c.scheduleVolatile n tx transacted details dueAt
    (.ok id, c)
  | .command text id =>
    match InstanceCommand.parse text with
    | .ok order => persist n tx (order.job id) dueAt c
    | .error e => (.error (.processing e), c)
  | .exchangeTimeout id transacted =>
    let (job, c) := c.scheduleVolatile n tx transacted (exchangeTimeoutJob id) dueAt
    (.ok job, c)

end Scheduling

/-- A call about jobs. -/
inductive JobCall
  /-- Schedules a job and may give it a name. -/
  | schedule (what : Scheduling) (dueAt : Option Time) (name : Option String)
  | cancel (job : String)
  /-- What is stored under every name. -/
  | all
  deriving DecidableEq, Repr

namespace JobCall

/-- Gives a scheduled job its name. -/
def name (label : Option String) (id : JobId) (c : World η) : World η :=
  match label with
  | some label => c.modifyOutside fun s => s.nameJob label id
  | none => c

/-- Carries out a call. -/
def run (place : Place) (call : JobCall) (c : World η) : Answer × World η :=
  match call with
  | .schedule what dueAt label =>
    match place.tx with
    | none => (.refused .noTransaction, c)
    | some tx =>
      match what.perform place.node tx dueAt c with
      | (.ok id, c) => (.done (.text id.text), name label id c)
      | (.error fault, c) => (.failed fault, c)
  | .cancel job => replied .scheduler .flag (c.cancel place.node (c.outside.jobId job))
  | .all =>
    (.value (.records (c.outside.jobs.entries.map fun x => (x.1, c.jobs.get x.2))), c)

end JobCall

/-! ## Schedulers -/

/-- What is shown of the scheduler of a node to a thread. -/
def schedulerView (c : World η) (n : NodeName) (thread : Thread) : SchedulerView :=
  let x := c.node n
  { phase := x.scheduler.phase
    queued := x.scheduler.todo.jobCount
    coordinates := c.coordinates n
    transacted := (x.manager.active? thread).isSome
    node := x.id
    completed := x.scheduler.completed
    failed := x.scheduler.failed
    lostClaims := x.scheduler.lostClaims
    batchSize := x.settings.batchSize }

/-- A call on the scheduler of a node. -/
inductive SchedulerCall
  | info
  /-- Tells the scheduler that a node was heard from. -/
  | heartbeat (node : NodeId)
  | setProcessor
  | stop
  deriving DecidableEq, Repr

/-- Carries out a call. -/
def SchedulerCall.run (place : Place) (call : SchedulerCall) (c : World η) : Answer × World η :=
  match call with
  | .info => (.value (.scheduler (schedulerView c place.node place.thread)), c)
  | .heartbeat node =>
    (.value .nothing, { c with heartbeats := c.heartbeats.heartbeat node c.clock })
  | .setProcessor =>
    (.value .nothing, c.modifyScheduler place.node fun s => { s with hasProcessor := true })
  | .stop => (.value .nothing, c.stop place.node)

/-- What becomes of the scheduler of a node as a whole. -/
inductive LifeCall
  /-- Renews the coordinator's lease and starts the scheduler; or starts it where there is nothing
  to run it on, and renews no lease. -/
  | start (insideRuntime : Bool)
  /-- Lets the scheduler work until it would wait for the clock. -/
  | settle
  | shutDown
  deriving DecidableEq, Repr

/-- Carries out a call. -/
def LifeCall.run (app : Application η Scene) (place : Place) (call : LifeCall) (c : World η) :
    Answer × World η :=
  let n := place.node
  let shown := fun c : World η => (Answer.value (.scheduler (schedulerView c n place.thread)), c)
  match call with
  | .start true =>
    let (renewal, c) := c.refreshCoordinator n
    let (result, c) := c.start n true
    (.started result (some renewal), c)
  | .start false =>
    let (result, c) := c.start n false
    (.started result none, c)
  | .settle => shown (c.settle app n)
  | .shutDown => shown (c.shutDown n)

end JobCluster.Session
