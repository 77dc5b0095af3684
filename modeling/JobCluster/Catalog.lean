import JobCluster.Table
/-!
# Operation catalogs

A catalog tells the interaction pattern of every operation that has been registered.

Main results:

- `Catalog.pattern?_register`: what a registration leaves behind;
- `Catalog.register_eq_error_iff`: a registration fails exactly when the operation is registered
  with another pattern.
-/

namespace JobCluster

/-- How the two sides of an operation talk to each other. -/
inductive InteractionPattern
  | oneWay
  | requestResponse
  | unknown
  deriving DecidableEq, Repr, Inhabited

/-- The wording of a pattern. -/
def InteractionPattern.text : InteractionPattern → String
  | .oneWay => "ONE_WAY"
  | .requestResponse => "REQUEST_RESPONSE"
  | .unknown => "UNKNOWN"

instance : ToString InteractionPattern := ⟨InteractionPattern.text⟩

/-- An operation of a service. -/
structure OperationKey where
  service : String
  operation : String
  deriving DecidableEq, Repr, Inhabited

instance : KeyOrder OperationKey :=
  .comap (fun k => (k.service, k.operation)) fun ⟨_, _⟩ ⟨_, _⟩ h => by simpa using h

/-- A registration that contradicts an earlier one. -/
structure CatalogError where
  key : OperationKey
  existing : InteractionPattern
  deriving DecidableEq, Repr

/-- The wording of an error. -/
def CatalogError.message (e : CatalogError) : String :=
  "Operation " ++ e.key.service ++ "#" ++ e.key.operation ++ " already registered as " ++
    e.existing.text

/-- The patterns of the registered operations. -/
structure Catalog where
  operations : Table OperationKey InteractionPattern := ∅
  deriving DecidableEq, Repr, Inhabited

namespace Catalog

/-- The pattern of an operation. -/
def pattern? (c : Catalog) (key : OperationKey) : Option InteractionPattern := c.operations.get? key

/-- Registers an operation; the same pattern may be registered again. -/
def register (c : Catalog) (key : OperationKey) (pattern : InteractionPattern) :
    Except CatalogError Catalog :=
  match c.pattern? key with
  | some existing => if existing = pattern then .ok c else .error ⟨key, existing⟩
  | none => .ok { operations := c.operations.insert key pattern }

/-- Takes out every operation of a service, and tells how many there were. -/
def unregister (c : Catalog) (service : String) : Nat × Catalog :=
  let rest := c.operations.filter fun key _ => key.service != service
  (c.operations.size - rest.size, { operations := rest })

/-- The number of operations. -/
def size (c : Catalog) : Nat := c.operations.size

/-- A registration is refused exactly if the operation is registered with another pattern. -/
theorem register_eq_error_iff (c : Catalog) (key : OperationKey) (pattern : InteractionPattern)
    (e : CatalogError) :
    c.register key pattern = .error e ↔
      e.key = key ∧ e.existing ≠ pattern ∧ c.pattern? key = some e.existing := by
  obtain ⟨k, x⟩ := e
  rw [register]
  split
  · next existing h =>
    split <;> grind
  · next h => simp [h]

/-- A registration sets the pattern of its operation and of no other one. -/
theorem pattern?_register {c d : Catalog} {key : OperationKey} {pattern : InteractionPattern}
    (h : c.register key pattern = .ok d) (k : OperationKey) :
    d.pattern? k = if key = k then some pattern else c.pattern? k := by
  rw [register] at h
  split at h
  · next existing he =>
    split at h
    · next hp =>
      obtain rfl : c = d := by simpa using h
      by_cases hk : key = k
      · simp [hk ▸ he, hp, hk]
      · simp [hk]
    · simp at h
  · obtain rfl := Except.ok.inj h
    simp [pattern?]

end Catalog

end JobCluster
