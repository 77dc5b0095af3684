import JobCluster.Session.Scene
/-!
# Calls on todo queues

The steps that use todo queues of their own, apart from those of the nodes. A queue comes into
being when its name is first used.
-/

namespace JobCluster.Session

/-- A call on a todo queue; jobs are given by their names, apart from stored ones that come in with
their records. -/
inductive TodoCall
  | push (task : Task) (due : Time)
  | enqueue (job : ScheduledJob) (due time ttl : Time)
  | pop (time : Time)
  | finish (job : String)
  | remove (job : String)
  | clearForStop
  | isOutstanding (job : String)
  deriving DecidableEq, Repr

namespace TodoCall

variable {η : Type}

/-- The job that is meant by one whose identifier may be a name. -/
def named (jobId : String → JobId) : ScheduledJob → ScheduledJob
  | .persisted record => .persisted record
  | .volatile info => .volatile { info with jobId := jobId info.jobId.text }

/-- Carries out a call, and tells what has become of the queue. -/
def runOn (jobId : String → JobId) (call : TodoCall) (q : TodoQueue) : Value × TodoQueue :=
  match call with
  | .push task due => (.nothing, q.push task due)
  | .enqueue job due time ttl =>
    let (queued, q) := q.enqueue (named jobId job) due time ttl
    (.flag queued, q)
  | .pop time =>
    match q.pop? time with
    | some (task, q) => (.task task, q)
    | none => (.nothing, q)
  | .finish job => (.nothing, q.finish (jobId job))
  | .remove job =>
    let (removed, q) := q.remove (jobId job)
    (.flag removed, q)
  | .clearForStop =>
    let (count, q) := q.clearForStop
    (.number count, q)
  | .isOutstanding job => (.flag (q.isOutstanding (jobId job)), q)

/-- Carries out a call on the queue of the given name. -/
def run (name : String) (call : TodoCall) (c : World η) : Answer × World η :=
  let (result, q) := call.runOn c.outside.jobId ((c.outside.queues.get? name).getD {})
  (.queue result q, c.modifyOutside fun s => { s with queues := s.queues.insert name q })

end TodoCall

end JobCluster.Session
