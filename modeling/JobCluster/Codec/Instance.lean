import JobCluster.Codec.Shape
import JobCluster.Instance.Basic
/-!
# Encoded process instances

The JSON forms of instance states and process instances.
-/

namespace JobCluster

open Codec

namespace InstanceState

/-- Every state. -/
def all : List InstanceState :=
  [.new, .ready, .active, .suspended, .completedOk, .completedWithFault, .terminated, .retired]

/-- The name of a state in JSON. -/
def name : InstanceState → String
  | .new => "New"
  | .ready => "Ready"
  | .active => "Active"
  | .suspended => "Suspended"
  | .completedOk => "CompletedOk"
  | .completedWithFault => "CompletedWithFault"
  | .terminated => "Terminated"
  | .retired => "Retired"

/-- The JSON form of a state. -/
def toJson (s : InstanceState) : Json := .text s.name

/-- A state from its JSON form. -/
def ofJson? : Json → Option InstanceState := plain? all name

end InstanceState

namespace ProcessInstance

/-- The fields of a process instance. -/
def layout : Layout :=
  [("id", .required), ("process", .required), ("state", .required), ("previous_state", .optional),
   ("last_active", .required), ("correlation_keys", .defaulted)]

/-- The JSON form of a process instance. -/
def toJson (p : ProcessInstance) : Json :=
  .fields
    [("id", .text p.id.text), ("process", .text p.process), ("state", p.state.toJson),
     ("previous_state", .optional InstanceState.toJson p.previousState),
     ("last_active", .nat p.lastActive), ("correlation_keys", ofTextTable p.correlationKeys)]

/-- A process instance from its JSON form. -/
def ofJson? (j : Json) : Option ProcessInstance :=
  match layout.read? j with
  | some [id, process, state, previousState, lastActive, correlationKeys] => do
    return { id := ⟨← required text? id⟩
             process := ← required text? process
             state := ← required InstanceState.ofJson? state
             previousState := ← optional? InstanceState.ofJson? previousState
             lastActive := ← required word? lastActive
             correlationKeys := ← orElse ∅ textTable? correlationKeys }
  | _ => none

end ProcessInstance

end JobCluster
