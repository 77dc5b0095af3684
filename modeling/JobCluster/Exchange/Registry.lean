import JobCluster.Exchange.Route
/-!
# The exchange registry

A node's registry of message exchanges. Every exchange that was ever created has a slot, under
which it can be reached for good; the registered ones can be found by their identifiers. An
exchange that leaves the registry is detached, whichever way it leaves: released, swept out because
it is too old, or withdrawn because the transaction that created it was rolled back.

Main results:

- `Registry.slots_withdraw`: an identifier that was withdrawn, and no other, is registered no
  longer.
-/

namespace JobCluster

/-- An exchange in the order of creation: when it was created, and its slot. -/
structure CreationEntry where
  createdAt : Time
  slot : Nat
  deriving DecidableEq, Repr

/-- What a sweep did. -/
structure SweepReport where
  /-- How many unfinished exchanges were swept out. -/
  evicted : Nat := 0
  /-- How many finished exchanges were swept out. -/
  released : Nat := 0
  /-- Whether the sweep was put off because the last one is too recent. -/
  throttled : Bool := false
  deriving DecidableEq, Repr, Inhabited

/-- The counts of a registry. -/
structure RegistryStats where
  live : Nat
  created : Nat
  evicted : Nat
  released : Nat
  rolledBack : Nat
  deriving DecidableEq, Repr

/-- The exchanges and the routes of a node. -/
structure Registry where
  /-- The age beyond which exchanges are swept out. -/
  ttl : Time
  /-- The least time between two sweeps. -/
  sweepInterval : Time
  /-- Every exchange that was created, by slot. -/
  exchanges : List Exchange := []
  /-- The slots of the registered exchanges. -/
  slots : Table ExchangeId Nat := ∅
  /-- The exchanges in the order of creation, as far as no sweep has passed them. -/
  order : List CreationEntry := []
  created : Nat := 0
  evicted : Nat := 0
  released : Nat := 0
  rolledBack : Nat := 0
  /-- When the last sweep took place; zero if none did. -/
  lastSweep : Time := 0
  routes : Routes := {}
  deriving DecidableEq, Repr, Inhabited

namespace Registry

/-! ## Finding and changing exchanges -/

/-- The exchange in a slot. -/
def exchange? (r : Registry) (slot : Nat) : Option Exchange := r.exchanges[slot]?

/-- Sets the exchange in a slot. -/
def setExchange (r : Registry) (slot : Nat) (e : Exchange) : Registry :=
  { r with exchanges := r.exchanges.set slot e }

/-- Changes the exchange in a slot. -/
def modifyExchange (r : Registry) (slot : Nat) (f : Exchange → Exchange) : Registry :=
  { r with exchanges := r.exchanges.modify slot f }

/-- The slot of a registered exchange, with the exchange. -/
def find? (r : Registry) (id : ExchangeId) : Option (Nat × Exchange) := do
  let slot ← r.slots.get? id
  let e ← r.exchange? slot
  return (slot, e)

/-- The registered exchange with the identifier. -/
def get? (r : Registry) (id : ExchangeId) : Option Exchange := (r.find? id).map Prod.snd

/-- The slot of a registered exchange, with the exchange, or the error that there is none. -/
def lookup (r : Registry) (id : ExchangeId) : Except RegistryError (Nat × Exchange) :=
  match r.find? id with
  | some found => .ok found
  | none => .error (.notFound id)

/-- The number of registered exchanges. -/
def size (r : Registry) : Nat := r.slots.size

/-- The counts of the registry. -/
def stats (r : Registry) : RegistryStats where
  live := r.size
  created := r.created
  evicted := r.evicted
  released := r.released
  rolledBack := r.rolledBack

/-! ## Leaving the registry -/

/-- Takes the identifier out and detaches the exchange that it stood for. -/
def withdraw (r : Registry) (id : ExchangeId) : Registry :=
  match r.slots.get? id with
  | some slot => { r with slots := r.slots.erase id }.modifyExchange slot Exchange.detach
  | none => r

/-- An exchange that is withdrawn has no slot in the registry any more. -/
theorem slots_withdraw (r : Registry) (id other : ExchangeId) :
    (r.withdraw id).slots.get? other = if other = id then none else r.slots.get? other := by
  rw [withdraw]
  split
  · simp [modifyExchange]
  · next h =>
    split
    · next ho => rw [ho, h]
    · rfl

/-- Takes a registered exchange out, and tells whether there was one. -/
def release (r : Registry) (id : ExchangeId) : Bool × Registry :=
  if r.slots.contains id then
    (true, { r.withdraw id with released := r.released + 1 })
  else (false, r)

/-- Takes out what is registered under an identifier whose creation was rolled back. -/
def rollBack (r : Registry) (id : ExchangeId) : Registry :=
  if r.slots.contains id then { r.withdraw id with rolledBack := r.rolledBack + 1 } else r

/-- The identifiers of the registered exchanges that belong to an instance. -/
def boundTo (r : Registry) (id : InstanceId) : List ExchangeId :=
  r.slots.keys.filter fun x =>
    match r.get? x with
    | some e => e.boundTo == some id
    | none => false

/-- Takes out every registered exchange that belongs to an instance, and tells how many. -/
def releaseInstance (r : Registry) (id : InstanceId) : Nat × Registry :=
  let ids := r.boundTo id
  (ids.length, ids.foldl (fun r x => (r.release x).2) r)

/-- Takes out every route and every exchange of an instance that has come to its end. -/
def cleanUp (r : Registry) (id : InstanceId) : Registry :=
  let r := { r with routes := r.routes.release id }
  (r.releaseInstance id).2

/-! ## Sweeping -/

/-- Whether an exchange of the given creation time is too old. -/
def isExpired (ttl now createdAt : Time) : Bool := decide (ttl < now - createdAt)

/-- Sweeps one exchange out, unless it has left the registry before. -/
def sweepEntry (r : Registry) (entry : CreationEntry) : SweepReport × Registry :=
  match r.exchange? entry.slot with
  | none => ({}, r)
  | some e =>
    if r.slots.get? e.id ≠ some entry.slot then ({}, r)
    else if e.isTerminal || e.detached then
      ({ released := 1 }, { r.withdraw e.id with released := r.released + 1 })
    else ({ evicted := 1 }, { r.withdraw e.id with evicted := r.evicted + 1 })

/-- Sweeps exchanges out in the order of creation, up to the first one that is not too old. -/
def sweepOrder (now : Time) : List CreationEntry → Registry → SweepReport × Registry
  | [], r => ({}, { r with order := [] })
  | entry :: rest, r =>
    if isExpired r.ttl now entry.createdAt then
      let (first, r) := r.sweepEntry entry
      let (others, r) := sweepOrder now rest r
      ({ evicted := first.evicted + others.evicted
         released := first.released + others.released }, r)
    else ({}, { r with order := entry :: rest })

/-- Sweeps out all exchanges that are too old. -/
def sweepExpired (r : Registry) (now : Time) : SweepReport × Registry := sweepOrder now r.order r

/-- Sweeps, whenever the last sweep was. -/
def forceSweep (r : Registry) (now : Time) : SweepReport × Registry :=
  { r with lastSweep := now }.sweepExpired now

/-- Whether the last sweep is long enough ago for the next one. -/
def sweepDue (r : Registry) (now : Time) : Bool :=
  r.lastSweep == 0 || decide (r.sweepInterval ≤ now - r.lastSweep)

/-- Sweeps, unless the last sweep is too recent. -/
def sweep (r : Registry) (now : Time) : SweepReport × Registry :=
  if r.sweepDue now then r.forceSweep now else ({ throttled := true }, r)

/-! ## Creation -/

/-- The latest creation time that no sweep has passed. -/
def lastCreated (r : Registry) : Time :=
  match r.order.getLast? with
  | some entry => entry.createdAt
  | none => 0

/-- Registers a new exchange. Its creation time is not before that of the exchange created last,
even if the clock was set back in between. -/
def register (r : Registry) (id : ExchangeId) (direction : Direction) (now : Time) :
    Except RegistryError (Nat × Registry) :=
  if r.slots.contains id then .error (.duplicateExchange id)
  else
    let createdAt := max now r.lastCreated
    let slot := r.exchanges.length
    .ok (slot, { r with
      exchanges := r.exchanges ++ [{ id, direction, createdAt }]
      slots := r.slots.insert id slot
      order := r.order ++ [⟨createdAt, slot⟩]
      created := r.created + 1 })

/-- Registers a new exchange and then sweeps, if it is time to. -/
def create (r : Registry) (id : ExchangeId) (direction : Direction) (now : Time) :
    Except RegistryError (Nat × Registry) :=
  match r.register id direction now with
  | .ok (slot, r) => .ok (slot, (r.sweep now).2)
  | .error e => .error e

/-! ## Status -/

/-- Moves a registered exchange on. -/
def advance (r : Registry) (id : ExchangeId) (target : ExchangeStatus) :
    Except RegistryError Registry := do
  let (slot, e) ← r.lookup id
  return r.setExchange slot (← e.advance target)

/-- How many exchanges one completion can be handed on to. -/
def maxForwards : Nat := 16

/-- Hands the outcome of a completed exchange on along its pipe. The chain ends where an exchange is
not piped, or its target is not registered or is over already, or after so many steps. -/
def forward (status : ExchangeStatus) : Nat → Nat → Registry → Registry
  | 0, _, r => r
  | steps + 1, slot, r =>
    match r.exchange? slot with
    | none => r
    | some source =>
      match source.style with
      | .blocking | .async => r
      | .piped id =>
        match r.find? id with
        | none => r
        | some (targetSlot, target) =>
          if target.isTerminal then r
          else
            let informed := target.takeOutcome source
            match informed.complete status with
            | .ok (.completed, finished) =>
              forward status steps targetSlot (r.setExchange targetSlot finished)
            | _ => r.setExchange targetSlot informed

/-- Ends a registered exchange, and hands its outcome on. -/
def complete (r : Registry) (id : ExchangeId) (status : ExchangeStatus) :
    Except RegistryError (Completion × Registry) := do
  let (slot, e) ← r.lookup id
  match ← e.complete status with
  | (.completed, finished) =>
    return (.completed, forward status maxForwards slot (r.setExchange slot finished))
  | (.alreadyCompleted status, _) => return (.alreadyCompleted status, r)

/-- Records a failure of a registered exchange and ends it as failed, unless it is over. -/
def fail (r : Registry) (id : ExchangeId) (failure : FailureType) (explanation : Option String) :
    Except RegistryError (Completion × Registry) := do
  let (slot, e) ← r.lookup id
  if e.isTerminal then return (.alreadyCompleted e.status, r)
  (r.setExchange slot (e.setFailure failure explanation)).complete id .failed

/-- Binds a registered exchange to an operation and to the pattern that the catalog knows for it. -/
def bind (r : Registry) (catalog : Option Catalog) (id : ExchangeId) (key : OperationKey) :
    Except RegistryError (InteractionPattern × Registry) := do
  let (slot, e) ← r.lookup id
  let pattern := (catalog.bind fun c => c.pattern? key).getD .unknown
  return (pattern,
    r.setExchange slot { e with operation := some key.operation, pattern := some pattern })

end Registry

end JobCluster
