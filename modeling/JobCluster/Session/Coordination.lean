import JobCluster.Session.Scene
/-!
# Calls on heartbeats and leases

The steps that call the view of the nodes that are alive, the lease table and the coordinator's
office of a node.
-/

namespace JobCluster.Session

variable {η : Type}

/-- A call on the heartbeats. -/
inductive HeartbeatCall
  | heartbeat (node : NodeId) (time : Time)
  | observe (nodes : List NodeId) (time : Time)
  | forget (node : NodeId)
  | stale (time span : Time) (me : NodeId)
  | last (node : NodeId)
  | all
  deriving DecidableEq, Repr

/-- Carries out a call. -/
def HeartbeatCall.run (call : HeartbeatCall) (c : World η) : Answer × World η :=
  let view := c.heartbeats
  let become := fun view : Heartbeats =>
    (Answer.value (.number view.size), { c with heartbeats := view })
  match call with
  | .heartbeat node time => become (view.heartbeat node time)
  | .observe nodes time => become (view.observeAll nodes time)
  | .forget node => become (view.forget node)
  | .stale time span me =>
    (.value (.texts ((view.staleNodes time span me).map NodeId.text)), c)
  | .last node => (.value (.ofOption .number (view.last? node)), c)
  | .all => (.value (.heartbeats view), c)

/-- A call on the lease table. -/
inductive LeaseCall
  | acquire (key : String) (node : NodeId) (span time : Time)
  | release (key : String) (node : NodeId)
  | holder (key : String) (time : Time)
  /-- Whether the table can be reached from now on. -/
  | setUp (up : Bool)
  deriving DecidableEq, Repr

/-- Carries out a call. -/
def LeaseCall.run (call : LeaseCall) (c : World η) : Answer × World η :=
  match call with
  | .acquire key node span time =>
    match c.leases.acquire key node span time with
    | .ok (granted, leases) => (.done (.flag granted), { c with leases })
    | .error e => (.failed (.lease e), c)
  | .release key node =>
    match c.leases.release key node with
    | .ok leases => (.done .nothing, { c with leases })
    | .error e => (.failed (.lease e), c)
  | .holder key time =>
    (.ofExcept .lease (.ofOption fun n => .text n.text) (c.leases.holder key time), c)
  | .setUp up => (.value .nothing, { c with leases := { c.leases with up } })

/-- A call on the coordinator's office of a node. -/
inductive CoordinatorCall
  | holds
  | refresh
  | resign
  deriving DecidableEq, Repr

/-- Carries out a call. -/
def CoordinatorCall.run (n : NodeName) (call : CoordinatorCall) (c : World η) :
    Answer × World η :=
  match call with
  | .holds => (.value (.flag (c.coordinates n)), c)
  | .refresh => replied .lease .flag (c.refreshCoordinator n)
  | .resign => replied .lease (fun _ => .nothing) (c.resignCoordinator n)

end JobCluster.Session
