import JobCluster.Job.Store
import JobCluster.Job.Todo
import JobCluster.Job.Processing
import JobCluster.Settings
import JobCluster.Transaction.Error
/-!
# Schedulers

What the scheduler of a node keeps, and what it decides about the jobs it is given.

Main results:

- `PersistedPlan.immediate_iff`: which jobs are queued as soon as they are published.
-/

namespace JobCluster

/-- Why a scheduler refuses a call, or why work in a transaction came to nothing. -/
inductive SchedulerError
  | persistFailed (id : JobId) (cause : JobStoreError)
  | cancelFailed (id : JobId) (cause : JobStoreError)
  | bodyFailed (cause : String)
  | transactionFailed (cause : TxError)
  | isolatedPanicked
  /-- There is nothing to run the scheduler on. -/
  | outsideRuntime
  | noProcessor
  | notRunning
  deriving DecidableEq, Repr

namespace SchedulerError

/-- The wording of an error, without its cause. -/
def message : SchedulerError → String
  | .persistFailed id _ => s!"failed to persist job {id}"
  | .cancelFailed id _ => s!"failed to cancel job {id}"
  | .bodyFailed _ => "transaction body failed"
  | .transactionFailed _ => "transaction could not complete"
  | .isolatedPanicked => "isolated transaction panicked"
  | .outsideRuntime => "scheduler must be started inside a tokio runtime"
  | .noProcessor => "No job processor registered"
  | .notRunning => "Scheduler is not running"

/-- The wording of the cause of an error. -/
def cause? : SchedulerError → Option String
  | .persistFailed _ cause => some cause.message
  | .cancelFailed _ cause => some cause.message
  | .bodyFailed cause => some cause
  | .transactionFailed cause => some cause.message
  | .isolatedPanicked | .outsideRuntime | .noProcessor | .notRunning => none

end SchedulerError

/-- Where a scheduler is in its life. -/
inductive SchedulerPhase
  | created
  | running
  | stopped
  | shutDown
  deriving DecidableEq, Repr, Inhabited

/-- How a run of a job ended. -/
inductive JobEnd
  | completed
  | failed
  /-- The job was no longer there to be claimed, or its claim was lost during the run. -/
  | lostClaim
  deriving DecidableEq, Repr

/-- The scheduler of a node. -/
structure Scheduler where
  phase : SchedulerPhase := .created
  todo : TodoQueue := {}
  /-- Whether there is anything to process jobs with. -/
  hasProcessor : Bool := true
  /-- Whether there are workers to be given work: from the first start to the shutdown. -/
  hasWorkers : Bool := false
  /-- Whether the heartbeat that follows a start is still to come. -/
  heartbeatDue : Bool := false
  completed : Nat := 0
  failed : Nat := 0
  lostClaims : Nat := 0
  deriving DecidableEq, Repr, Inhabited

namespace Scheduler

/-- Whether the scheduler hands out tasks. -/
def isRunning (s : Scheduler) : Bool := s.phase == .running

/-- Counts a run. -/
def count (s : Scheduler) : JobEnd → Scheduler
  | .completed => { s with completed := s.completed + 1 }
  | .failed => { s with failed := s.failed + 1 }
  | .lostClaim => { s with lostClaims := s.lostClaims + 1 }

/-- Begins to hand out tasks, housekeeping first: to load jobs and to upgrade jobs at once, and to
look for stale nodes after the time in which a node becomes stale. -/
def start (s : Scheduler) (now staleAfter : Time) : Scheduler :=
  { s with
    phase := .running
    hasWorkers := true
    heartbeatDue := true
    todo := ((s.todo.push .loadImmediate now).push .upgradeJobs now).push .checkStaleNodes
      (now + staleAfter) }

/-- Ceases to hand out tasks. Jobs that are kept in memory alone stay queued. -/
def stop (s : Scheduler) : Scheduler :=
  if s.isRunning then
    { s with phase := .stopped, heartbeatDue := false, todo := s.todo.clearForStop.2 }
  else s

/-- Ceases to hand out tasks for good. -/
def shutDown (s : Scheduler) : Scheduler :=
  { s.stop with phase := .shutDown, hasWorkers := false }

end Scheduler

/-! ## Persisted jobs -/

/-- What becomes of a job that is scheduled to be stored. -/
structure PersistedPlan where
  record : JobRecord
  due : Time
  /-- Whether the job is queued as soon as it is published. -/
  immediate : Bool
  deriving DecidableEq, Repr

/-- Plans a job: one that is due soon is owned by the scheduling node, and one that is due very
soon is queued there as well. -/
def PersistedPlan.make (settings : Settings) (id : JobId) (details : JobDetails)
    (dueAt : Option Time) (now : Time) : PersistedPlan :=
  let due := dueAt.getD now
  let immediate := decide (due < now + settings.immediate.wordMillis)
  let near := decide (due < now + settings.nearFuture.wordMillis)
  { record := { id, details, dueAt, owner := if immediate || near then some settings.nodeId else none }
    due
    immediate }

/-- A job is queued at once if it is due before a load pass would look for it. -/
theorem PersistedPlan.immediate_iff (settings : Settings) (id : JobId) (details : JobDetails)
    (dueAt : Option Time) (now : Time) :
    (make settings id details dueAt now).immediate = true ↔
      dueAt.getD now < now + settings.immediate.wordMillis := by
  simp [make]

/-! ## Cancelling -/

/-- Takes a job out of the todo queue and then out of the store, and tells whether it was in either.
The queue is changed even if the store then fails. -/
def cancelJob (store : JobStore) (todo : TodoQueue) (id : JobId) :
    Except SchedulerError Bool × JobStore × TodoQueue :=
  let (queued, todo) := todo.remove id
  match store.cancel id with
  | .ok (stored, store) => (.ok (queued || stored), store, todo)
  | .error e => (.error (.cancelFailed id e), store, todo)

end JobCluster
