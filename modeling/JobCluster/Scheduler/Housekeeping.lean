import JobCluster.Coordination.Heartbeats
import JobCluster.Scheduler.Basic
/-!
# Housekeeping

The recurring tasks of a scheduler. Each one tells when it wants to run again.

- A load pass queues the jobs of the node that are due soon.
- An upgrade gives owners to jobs that are due before long; only the coordinator does it.
- A check for stale nodes takes over the jobs of nodes that have fallen silent; again, only the
  coordinator does it.
-/

namespace JobCluster

namespace Housekeeping

/-- How long a task waits after the store failed. -/
def retryDelay : Time := 1000

/-! ## Load passes -/

/-- Queues stored jobs at their due times, as far as they are not outstanding. -/
def enqueueAll (now ttl : Time) (jobs : List JobRecord) (todo : TodoQueue) : TodoQueue :=
  jobs.foldl (fun q r => (q.enqueue (.persisted r) r.effectiveDue now ttl).2) todo

/-- Queues the jobs of the node that are due soon, unless the queue is more than half full. -/
def loadImmediate (settings : Settings) (now : Time) (store : JobStore) (todo : TodoQueue) :
    Time × TodoQueue :=
  let span := settings.immediate.wordMillis
  let next := now + span * 9 / 10
  if settings.todoLimit / 2 < todo.jobCount then (next, todo)
  else
    match store.dequeueImmediate settings.nodeId (now + span) settings.batchSize with
    | .ok jobs => (next, enqueueAll now settings.outstanding.wordMillis jobs todo)
    | .error _ => (now + retryDelay, todo)

/-! ## Upgrades -/

/-- The nodes among which an upgrade deals jobs out: the known ones, or the node itself. -/
def candidates (settings : Settings) (view : Heartbeats) : List NodeId :=
  if view.nodes.isEmpty then [settings.nodeId] else view.nodes

/-- Gives owners to jobs that are due before long. -/
def upgradeJobs (settings : Settings) (now : Time) (coordinates : Bool) (view : Heartbeats)
    (store : JobStore) : Time × JobStore :=
  if !coordinates then (now + settings.heartbeat.wordMillis, store)
  else
    let span := settings.nearFuture.wordMillis
    match store.upgradeJobs (now + span) (candidates settings view) with
    | .ok (_, store) => (now + span / 2, store)
    | .error _ => (now + retryDelay, store)

/-! ## Stale nodes -/

/-- Takes over the jobs of a stale node, and ceases to watch it, unless the store fails. -/
def recover (me : NodeId) (state : Heartbeats × JobStore) (node : NodeId) : Heartbeats × JobStore :=
  match state.2.reassignJobs node me with
  | .ok (_, store) => (state.1.forget node, store)
  | .error _ => state

/-- Takes over the jobs of all stale nodes, having begun to watch the owners of jobs. -/
def checkStaleNodes (settings : Settings) (now : Time) (coordinates : Bool) (view : Heartbeats)
    (store : JobStore) : Time × Heartbeats × JobStore :=
  let span := settings.stale.wordMillis
  if !coordinates then (now + span, view, store)
  else
    let view := match store.nodeIds with
      | .ok owners => view.observeAll owners now
      | .error _ => view
    let (view, store) :=
      (view.staleNodes now span settings.nodeId).foldl (recover settings.nodeId) (view, store)
    (now + span, view, store)

end Housekeeping

end JobCluster
