import JobCluster.Ident
/-!
# Process instances

A process instance as the instance store keeps it.
-/

namespace JobCluster

/-- The place of a process instance in its life. -/
inductive InstanceState
  | new
  | ready
  | active
  | suspended
  | completedOk
  | completedWithFault
  | terminated
  /-- Taken out of service by an administrator. -/
  | retired
  deriving DecidableEq, Repr, Inhabited

namespace InstanceState

/-- Whether the instance has come to its end. -/
def isFinished : InstanceState → Bool
  | .completedOk | .completedWithFault | .terminated | .retired => true
  | .new | .ready | .active | .suspended => false

/-- The wording of a state. -/
def text : InstanceState → String
  | .new => "NEW"
  | .ready => "READY"
  | .active => "ACTIVE"
  | .suspended => "SUSPENDED"
  | .completedOk => "COMPLETED_OK"
  | .completedWithFault => "COMPLETED_WITH_FAULT"
  | .terminated => "TERMINATED"
  | .retired => "RETIRED"

instance : ToString InstanceState := ⟨text⟩

end InstanceState

/-- A process instance. -/
structure ProcessInstance where
  id : InstanceId
  /-- The name of the process that it runs. -/
  process : String
  state : InstanceState := .new
  previousState : Option InstanceState := none
  lastActive : Time
  /-- The key of every correlation set that has one. -/
  correlationKeys : Table String String := ∅
  deriving DecidableEq, Repr, Inhabited

namespace ProcessInstance

/-- Whether the instance has come to its end. -/
def isFinished (p : ProcessInstance) : Bool := p.state.isFinished

/-- Moves to a state and remembers where it came from. -/
def transition (p : ProcessInstance) (state : InstanceState) (now : Time) : ProcessInstance :=
  { p with previousState := some p.state, state, lastActive := now }

/-- Sets the key of a correlation set. -/
def setKey (p : ProcessInstance) (set value : String) : ProcessInstance :=
  { p with correlationKeys := p.correlationKeys.insert set value }

end ProcessInstance

end JobCluster
