import JobCluster.Session.Scene
/-!
# Calls on the job store

The steps that call the job store directly.
-/

namespace JobCluster.Session

/-- A call on the job store; jobs are given by their names. -/
inductive StoreCall
  | stage (r : JobRecord)
  /-- Stages a job and publishes it. -/
  | put (r : JobRecord)
  | publish (job : String)
  | discard (job : String)
  | claim (job : String) (node : NodeId)
  | finish (job : String) (node : NodeId) (outcome : JobOutcome)
  | cancel (job : String)
  | get (job : String)
  | dequeue (node : NodeId) (maxDue : Time) (limit : Nat)
  | upgrade (maxDue : Time) (nodes : List NodeId)
  | reassign (source target : NodeId)
  | nodeIds
  | stats
  | setAvailable (available : Bool)
  deriving DecidableEq, Repr

namespace StoreCall

variable {η : Type}

/-- The answer to a call that changes the store and tells something. -/
def change {α : Type} (c : World η) (value : α → Value)
    (result : Except JobStoreError (α × JobStore)) : Answer × World η :=
  replied .jobStore value (c.updateJobs result)

/-- The answer to a call that changes the store and tells nothing. -/
def changeOnly (c : World η) (result : Except JobStoreError JobStore) : Answer × World η :=
  change c (fun _ => .nothing) (result.map fun jobs => ((), jobs))

/-- The answer to a call that leaves the store as it is. -/
def look {α : Type} (c : World η) (value : α → Value) (result : Except JobStoreError α) :
    Answer × World η :=
  (.ofExcept .jobStore value result, c)

/-- Carries out a call. -/
def run (call : StoreCall) (c : World η) : Answer × World η :=
  let s := c.jobs
  let named := c.outside.jobId
  match call with
  | .stage r => changeOnly c (s.stage r)
  | .put r => changeOnly c (s.stage r >>= fun s => s.publish r.id)
  | .publish job => changeOnly c (s.publish (named job))
  | .discard job => (.done .nothing, { c with jobs := s.discard (named job) })
  | .claim job node => change c .record (s.claim (named job) node)
  | .finish job node outcome => changeOnly c (s.finish (named job) node outcome)
  | .cancel job => change c .flag (s.cancel (named job))
  | .get job => look c (.ofOption .record) (s.get (named job))
  | .dequeue node maxDue limit =>
    look c (fun jobs => .texts (jobs.map fun r => r.id.text)) (s.dequeueImmediate node maxDue limit)
  | .upgrade maxDue nodes => change c .number (s.upgradeJobs maxDue nodes)
  | .reassign source target => change c .number (s.reassignJobs source target)
  | .nodeIds => look c (fun nodes => .texts (nodes.map NodeId.text)) s.nodeIds
  | .stats => (.done (.jobStore s.stats s.size), c)
  | .setAvailable available => (.value .nothing, { c with jobs := { s with available } })

end StoreCall

end JobCluster.Session
