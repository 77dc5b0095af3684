import JobCluster.Duration
/-!
# Leases and the coordinator's office

One node at a time coordinates the cluster: the one that holds the coordinator's lease. A holder
gives the office up a margin before its lease runs out, so that a late renewal never overlaps the
term of its successor.

The end of a lease and the end of a term are told in 64 bits, each by a sum of its own. A lease so
long that its end passes their limit has run out before it begins.

Main results:

- `LeaseTable.holder?_acquire`: who holds a key after an attempt to acquire it;
- `Coordinator.holds_iff`: when a node takes itself for the coordinator.
-/

namespace JobCluster

/-- The holder of a key, and when the lease runs out. -/
structure Lease where
  holder : NodeId
  expiresAt : Time
  deriving DecidableEq, Repr

/-- The lease table cannot be reached. -/
inductive LeaseError
  | unavailable
  deriving DecidableEq, Repr

/-- The wording of an error. -/
def LeaseError.message : LeaseError → String
  | .unavailable => "Lease table unavailable: lease table down"

/-- The leases, shared by all nodes. -/
structure LeaseTable where
  leases : Table String Lease := ∅
  /-- Whether the table can be reached. -/
  up : Bool := true
  deriving DecidableEq, Repr, Inhabited

namespace LeaseTable

/-- Gives the key to a node for the given span, unless another node holds it at the time; tells
whether it did. The lease is given whether or not 64 bits can tell when it runs out. -/
def acquire (t : LeaseTable) (key : String) (node : NodeId) (span now : Time) :
    Except LeaseError (Bool × LeaseTable) :=
  let granted := (true, { t with leases := t.leases.insert key ⟨node, now.plus span⟩ })
  if !t.up then .error .unavailable
  else
    match t.leases.get? key with
    | some lease =>
      if lease.holder ≠ node ∧ now < lease.expiresAt then .ok (false, t) else .ok granted
    | none => .ok granted

/-- Gives the key back, if the node has it. -/
def release (t : LeaseTable) (key : String) (node : NodeId) : Except LeaseError LeaseTable :=
  if !t.up then .error .unavailable
  else
    match t.leases.get? key with
    | some lease =>
      if lease.holder = node then .ok { t with leases := t.leases.erase key } else .ok t
    | none => .ok t

/-- The node that holds the key at the time, whether or not the table can be reached. -/
def holder? (t : LeaseTable) (key : String) (now : Time) : Option NodeId :=
  match t.leases.get? key with
  | some lease => if now < lease.expiresAt then some lease.holder else none
  | none => none

/-- The node that holds the key at the time. -/
def holder (t : LeaseTable) (key : String) (now : Time) : Except LeaseError (Option NodeId) :=
  if t.up then .ok (t.holder? key now) else .error .unavailable

/-- An attempt to acquire a key leaves it to a node that holds it, and else gives it away, if the
lease runs out later than it begins. -/
theorem holder?_acquire {t u : LeaseTable} {key : String} {node : NodeId} {span now : Time}
    {granted : Bool} (h : t.acquire key node span now = .ok (granted, u))
    (hs : now < now.plus span) :
    if granted then u.holder? key now = some node
    else u = t ∧ ∃ other, other ≠ node ∧ t.holder? key now = some other := by
  rw [acquire] at h
  split at h
  · simp at h
  · split at h
    · next lease hl =>
      split at h
      · next hc =>
        simp only [Except.ok.injEq, Prod.mk.injEq] at h
        obtain ⟨rfl, rfl⟩ := h
        exact ⟨rfl, lease.holder, hc.1, by simp [holder?, hl, hc.2]⟩
      · simp only [Except.ok.injEq, Prod.mk.injEq] at h
        obtain ⟨rfl, rfl⟩ := h
        simp [holder?, hs]
    · simp only [Except.ok.injEq, Prod.mk.injEq] at h
      obtain ⟨rfl, rfl⟩ := h
      simp [holder?, hs]

end LeaseTable

/-- The key of the coordinator's lease. -/
def coordinatorKey : String := "scheduler-coordinator"

/-- What a node knows about its own office. -/
inductive Coordinator
  /-- The office is fixed. -/
  | fixed (leads : Bool)
  /-- The office follows the coordinator's lease: whether the last renewal succeeded, and when the
  term that it began ends. -/
  | elected (leads : Bool) (termEnds : Time)
  deriving DecidableEq, Repr, Inhabited

namespace Coordinator

/-- Whether the node takes itself for the coordinator. -/
def holds (c : Coordinator) (now : Time) : Bool :=
  match c with
  | .fixed leads => leads
  | .elected leads termEnds => leads && decide (now < termEnds)

/-- How long before the end of its lease a node gives the office up. -/
def safetyMargin (lease : Time) : Time := max 1 (lease / 10)

/-- The office after the answer to a renewal that was asked for at the given time. -/
def afterAcquire (lease requestedAt : Time) : Except LeaseError Bool → Coordinator
  | .ok true => .elected true (requestedAt.plus (lease - safetyMargin lease))
  | .ok false => .elected false 0
  | .error _ => .elected false 0

/-- Renews the lease, or tries to take it. -/
def refresh (c : Coordinator) (node : NodeId) (lease now : Time) (t : LeaseTable) :
    Except LeaseError Bool × Coordinator × LeaseTable :=
  match c with
  | .fixed leads => (.ok leads, c, t)
  | .elected _ _ =>
    match t.acquire coordinatorKey node lease now with
    | .ok (granted, t) => (.ok granted, afterAcquire lease now (.ok granted), t)
    | .error e => (.error e, afterAcquire lease now (.error e), t)

/-- Gives the office up, and then the lease. -/
def resign (c : Coordinator) (node : NodeId) (t : LeaseTable) :
    Except LeaseError Unit × Coordinator × LeaseTable :=
  match c with
  | .fixed _ => (.ok (), c, t)
  | .elected _ _ =>
    match t.release coordinatorKey node with
    | .ok t => (.ok (), .elected false 0, t)
    | .error e => (.error e, .elected false 0, t)

/-- A node that follows the lease takes itself for the coordinator while its term lasts. -/
theorem holds_iff (leads : Bool) (termEnds now : Time) :
    (Coordinator.elected leads termEnds).holds now = true ↔ leads = true ∧ now < termEnds := by
  simp [holds]

end Coordinator

end JobCluster
