import JobCluster.Cluster.Running
import JobCluster.Scheduler.Housekeeping
/-!
# The life of a scheduler

Starting, stopping and shutting down, and what a running scheduler does with its todo queue: it
hands out the tasks that are due, one after another, until none is.
-/

namespace JobCluster.Cluster

variable {η ω : Type}

/-! ## Tasks -/

/-- Does a housekeeping task, and tells when it wants to run again; jobs are none. -/
def housekeep (c : Cluster η ω) (n : NodeName) : Task → Option Time × Cluster η ω
  | .job _ => (none, c)
  | .loadImmediate =>
    let x := c.node n
    let (next, todo) := Housekeeping.loadImmediate x.settings c.clock c.jobs x.scheduler.todo
    (some next, c.modifyTodo n fun _ => todo)
  | .upgradeJobs =>
    let (next, jobs) := Housekeeping.upgradeJobs (c.node n).settings c.clock (c.coordinates n)
      c.heartbeats c.jobs
    (some next, { c with jobs })
  | .checkStaleNodes =>
    let (next, heartbeats, jobs) := Housekeeping.checkStaleNodes (c.node n).settings c.clock
      (c.coordinates n) c.heartbeats c.jobs
    (some next, { c with heartbeats, jobs })

/-- Does a task. Housekeeping is queued again, unless the scheduler was stopped meanwhile. -/
def runTask (app : Application η ω) (n : NodeName) (task : Task) : Act η ω Unit :=
  match task with
  | .job job => runJob app n job
  | _ => Act.modify fun c =>
    match c.housekeep n task with
    | (some next, c) =>
      if (c.node n).scheduler.isRunning then c.modifyTodo n fun q => q.push task next else c
    | (none, c) => c

/-- Hands out the next task that is due, if the scheduler is running and there is one. A panic ends
the task alone. -/
def handOut? (app : Application η ω) (n : NodeName) (c : Cluster η ω) : Option (Cluster η ω) :=
  let s := (c.node n).scheduler
  if s.isRunning then
    (s.todo.pop? c.clock).map fun x => (runTask app n x.1 (c.modifyTodo n fun _ => x.2)).2
  else none

/-- Hands out tasks until none is due, but no more than the given number. -/
def handOutAll (app : Application η ω) (n : NodeName) : Nat → Cluster η ω → Cluster η ω
  | 0, c => c
  | limit + 1, c =>
    match c.handOut? app n with
    | some c => handOutAll app n limit c
    | none => c

/-- Gives the heartbeat that follows a start, and renews the coordinator's lease. -/
def firstHeartbeat (c : Cluster η ω) (n : NodeName) : Cluster η ω :=
  let x := c.node n
  if x.scheduler.heartbeatDue then
    let c := c.modifyScheduler n fun s => { s with heartbeatDue := false }
    ({ c with heartbeats := c.heartbeats.heartbeat x.id c.clock }.refreshCoordinator n).2
  else c

/-- The most tasks that are handed out while the clock stands still. -/
def settleLimit : Nat := 1000000

/-- Lets a scheduler work until it would wait for the clock. -/
def settle (app : Application η ω) (n : NodeName) (c : Cluster η ω) : Cluster η ω :=
  (c.handOutAll app n settleLimit).firstHeartbeat n

/-! ## Starting and stopping -/

/-- Starts a scheduler, unless it is running. -/
def start (c : Cluster η ω) (n : NodeName) (insideRuntime : Bool) :
    Except SchedulerError Unit × Cluster η ω :=
  let x := c.node n
  if !x.scheduler.hasProcessor then (.error .noProcessor, c)
  else if !insideRuntime then (.error .outsideRuntime, c)
  else
    match x.scheduler.phase with
    | .running => (.ok (), c)
    | .shutDown => (.error .notRunning, c)
    | .created | .stopped =>
      let c := { c with heartbeats := c.heartbeats.heartbeat x.id c.clock }
      (.ok (), c.modifyScheduler n fun s => s.start c.clock x.settings.stale.wordMillis)

/-- Stops a scheduler, if it is running. -/
def stop (c : Cluster η ω) (n : NodeName) : Cluster η ω := c.modifyScheduler n Scheduler.stop

/-- Stops a scheduler for good, and gives the coordinator's office up. -/
def shutDown (c : Cluster η ω) (n : NodeName) : Cluster η ω :=
  ((c.modifyScheduler n Scheduler.shutDown).resignCoordinator n).2

/-! ## Isolated work -/

/-- Does work on the worker of a node, in a transaction that has nothing to do with any of the
caller. Whatever is due is done before and after. -/
def execIsolated {α : Type} (app : Application η ω) (n : NodeName)
    (body : TxId → Act η ω (Except String α)) (c : Cluster η ω) :
    Except SchedulerError α × Cluster η ω :=
  let c := c.settle app n
  if (c.node n).scheduler.hasWorkers then
    match execTransaction app n (.worker n) none body c with
    | (.ok answer, c) => (answer, c.settle app n)
    | (.error _, c) => (.error .isolatedPanicked, c.settle app n)
  else (.error .notRunning, c)

end JobCluster.Cluster
