import JobCluster.Coordination.Heartbeats
import JobCluster.Instance.Store
import JobCluster.Node
import JobCluster.Transaction.Basic
import JobCluster.Transaction.Resource
/-!
# Clusters

A cluster of nodes with what they share: the clock, the resource manager, the job store, the
instance store, the leases and the heartbeats. The cluster is defined over two types that it knows
nothing about: the scripts that the application registers as callbacks and handlers, and the state
of the world outside, which only those scripts touch.

Main results:

- `Act.bind_apply`: what steps do one after another;
- `Cluster.node_setNode`: each node changes alone.
-/

namespace JobCluster

/-- A panic: the present call and its callers are abandoned. -/
structure Panic where
  message : String
  deriving DecidableEq, Repr

/-- What the parts of the cluster leave to be done when a transaction comes to its end. -/
inductive Callback (η : Type)
  /-- Publishes a staged job, and queues it if it is due very soon; or discards it. -/
  | publish (node : NodeName) (plan : PersistedPlan)
  /-- Queues a job that is kept in memory alone. -/
  | queue (node : NodeName) (info : JobInfo)
  /-- Drops a job whose run failed, unless its record is gone already. -/
  | drop (node : NodeName) (id : JobId) (armed : Bool)
  /-- Applies or forgets the writes to process instances. -/
  | applyWrites (tx : TxId)
  /-- Withdraws an exchange whose creation is rolled back. -/
  | withdraw (node : NodeName) (id : ExchangeId)
  /-- Whatever the application has registered. -/
  | custom (script : η)

/-- Who hears of changes to process instances. -/
inductive Listener
  /-- The registry of a node, which lets go of everything that belongs to the instance. -/
  | cleanUp (node : NodeName)
  /-- The application, under a name. -/
  | report (name : String)
  deriving DecidableEq, Repr

/-- A cluster of nodes, with the world outside. -/
structure Cluster (η ω : Type) where
  clock : Time
  resource : ResourceManager := {}
  jobs : JobStore := {}
  instances : InstanceStore := {}
  listeners : List Listener := []
  leases : LeaseTable := {}
  heartbeats : Heartbeats := {}
  nodes : Table NodeName (Node η) := ∅
  /-- The open transactions. -/
  transactions : Table TxId (Transaction (Callback η)) := ∅
  /-- The number of the next transaction. -/
  nextTx : Nat := 0
  /-- The number of the next job whose identifier is drawn. -/
  nextJob : Nat := 0
  outside : ω

/-- A step that may change the cluster, return a value or end in a panic. -/
def Act (η ω α : Type) : Type := Cluster η ω → Except Panic α × Cluster η ω

namespace Act

variable {η ω α β : Type}

/-- Changes the cluster and returns a value. -/
def lift (f : Cluster η ω → α × Cluster η ω) : Act η ω α := fun c =>
  let (a, c) := f c
  (.ok a, c)

/-- Returns a value of the cluster. -/
def gets (f : Cluster η ω → α) : Act η ω α := fun c => (.ok (f c), c)

/-- Changes the cluster. -/
def modify (f : Cluster η ω → Cluster η ω) : Act η ω Unit := fun c => (.ok (), f c)

/-- Ends in a panic. -/
def panic (message : String) : Act η ω α := fun c => (.error ⟨message⟩, c)

instance : Monad (Act η ω) where
  pure a := fun c => (.ok a, c)
  bind x f := fun c =>
    match x c with
    | (.ok a, c) => f a c
    | (.error p, c) => (.error p, c)

/-! ### Laws -/

theorem pure_apply (a : α) (c : Cluster η ω) : (pure a : Act η ω α) c = (.ok a, c) := rfl

/-- A panic ends a sequence of actions; otherwise the second one goes on where the first one
ended. -/
theorem bind_apply (x : Act η ω α) (f : α → Act η ω β) (c : Cluster η ω) :
    (x >>= f) c = match x c with
      | (.ok a, d) => f a d
      | (.error p, d) => (.error p, d) := rfl

/-- Steps that end in a panic skip all that follows, and the others pass their values on. -/
instance : LawfulMonad (Act η ω) := LawfulMonad.mk' (Act η ω)
  (fun x => funext fun c => by
    show (match x c with
      | (.ok a, d) => (.ok a, d)
      | (.error p, d) => (.error p, d)) = x c
    split <;> next h => rw [h])
  (fun _ _ => rfl)
  (fun x f g => funext fun c => by
    simp only [bind_apply]
    rcases x c with ⟨_ | a, d⟩ <;> rfl)

end Act

namespace Cluster

variable {η ω : Type}

/-! ## Nodes -/

/-- The node with the name; one that was never set up is as built from the default settings. -/
def node (c : Cluster η ω) (n : NodeName) : Node η := (c.nodes.get? n).getD default

/-- Sets a node. -/
def setNode (c : Cluster η ω) (n : NodeName) (x : Node η) : Cluster η ω :=
  { c with nodes := c.nodes.insert n x }

/-- Changes a node. -/
def modifyNode (c : Cluster η ω) (n : NodeName) (f : Node η → Node η) : Cluster η ω :=
  c.setNode n (f (c.node n))

/-- Changes the transaction manager of a node. -/
def modifyManager (c : Cluster η ω) (n : NodeName) (f : TxManager → TxManager) : Cluster η ω :=
  c.modifyNode n fun x => { x with manager := f x.manager }

/-- Changes the registry of a node. -/
def modifyRegistry (c : Cluster η ω) (n : NodeName) (f : Registry → Registry) : Cluster η ω :=
  c.modifyNode n fun x => { x with registry := f x.registry }

/-- Changes the scheduler of a node. -/
def modifyScheduler (c : Cluster η ω) (n : NodeName) (f : Scheduler → Scheduler) : Cluster η ω :=
  c.modifyNode n fun x => { x with scheduler := f x.scheduler }

/-- Changes the todo queue of a node. -/
def modifyTodo (c : Cluster η ω) (n : NodeName) (f : TodoQueue → TodoQueue) : Cluster η ω :=
  c.modifyScheduler n fun s => { s with todo := f s.todo }

/-- Setting a node changes no other node. -/
@[simp] theorem node_setNode (c : Cluster η ω) (n m : NodeName) (x : Node η) :
    (c.setNode n x).node m = if n = m then x else c.node m := by
  by_cases h : n = m <;> simp [node, setNode, h]

@[simp] theorem node_modifyNode (c : Cluster η ω) (n m : NodeName) (f : Node η → Node η) :
    (c.modifyNode n f).node m = if n = m then f (c.node n) else c.node m := by
  simp [modifyNode]

/-! ## Changing what the nodes share -/

/-- Changes the world outside. -/
def modifyOutside (c : Cluster η ω) (f : ω → ω) : Cluster η ω := { c with outside := f c.outside }

/-- Takes a new job store over from a call that succeeded. -/
def updateJobs {α : Type} (c : Cluster η ω) :
    Except JobStoreError (α × JobStore) → Except JobStoreError α × Cluster η ω
  | .ok (a, jobs) => (.ok a, { c with jobs })
  | .error e => (.error e, c)

/-- Takes a new registry over from a call that succeeded. -/
def updateRegistry {α : Type} (c : Cluster η ω) (n : NodeName) :
    Except RegistryError (α × Registry) → Except RegistryError α × Cluster η ω
  | .ok (a, registry) => (.ok a, c.modifyRegistry n fun _ => registry)
  | .error e => (.error e, c)

/-! ## Coordination -/

/-- Whether a node takes itself for the coordinator. -/
def coordinates (c : Cluster η ω) (n : NodeName) : Bool := (c.node n).coordinator.holds c.clock

/-- Renews the coordinator's lease of a node, or tries to take it. -/
def refreshCoordinator (c : Cluster η ω) (n : NodeName) :
    Except LeaseError Bool × Cluster η ω :=
  let x := c.node n
  let (answer, coordinator, leases) :=
    x.coordinator.refresh x.id x.settings.lease.wordMillis c.clock c.leases
  (answer, { c with leases }.setNode n { x with coordinator })

/-- Gives the coordinator's office of a node up. -/
def resignCoordinator (c : Cluster η ω) (n : NodeName) : Except LeaseError Unit × Cluster η ω :=
  let x := c.node n
  let (answer, coordinator, leases) := x.coordinator.resign x.id c.leases
  (answer, { c with leases }.setNode n { x with coordinator })

end Cluster

end JobCluster
