import JobCluster.Thread
import JobCluster.Transaction.Error
/-!
# Transaction managers

The manager of a node knows which thread owns which of its open transactions, at most one each, and
the timeouts that threads have set for the transactions that they begin.

Main results:

- `TxManager.active?_claim`, `TxManager.active?_release`: each operation through the look-up;
- `TxManager.timeout_restore`: restoring the timeout found before undoes every change since.
-/

namespace JobCluster

/-- The owners of open transactions, and the timeouts of threads. -/
structure TxManager where
  /-- The timeout of transactions on threads that have set none. -/
  defaultTimeout : Time
  active : Table Thread TxId := ∅
  timeouts : Table Thread Time := ∅
  deriving DecidableEq, Repr, Inhabited

namespace TxManager

/-! ## Owners -/

/-- The open transaction of a thread. -/
def active? (m : TxManager) (thread : Thread) : Option TxId := m.active.get? thread

/-- Makes a thread the owner of a transaction, unless it owns another. -/
def claim (m : TxManager) (thread : Thread) (id : TxId) : Except TxError TxManager :=
  match m.active? thread with
  | some existing => .error (.alreadyActive existing)
  | none => .ok { m with active := m.active.insert thread id }

/-- Ends the ownership of a thread, if the transaction is the one that it owns. -/
def release (m : TxManager) (thread : Thread) (id : TxId) : TxManager :=
  if m.active? thread = some id then { m with active := m.active.erase thread } else m

/-- The number of threads that own a transaction. -/
def activeCount (m : TxManager) : Nat := m.active.size

/-! ## Timeouts -/

/-- The timeout that a thread has set. -/
def override? (m : TxManager) (thread : Thread) : Option Time := m.timeouts.get? thread

/-- The timeout of the next transaction that a thread begins. -/
def timeout (m : TxManager) (thread : Thread) : Time :=
  (m.override? thread).getD m.defaultTimeout

/-- Sets the timeout of a thread, or goes back to the default. -/
def setTimeout (m : TxManager) (thread : Thread) (timeout : Option Time) : TxManager :=
  { m with timeouts := m.timeouts.set thread timeout }

/-- Sets the timeout of a thread, if there is one to be set. -/
def overrideTimeout (m : TxManager) (thread : Thread) (timeout : Option Time) : TxManager :=
  match timeout with
  | some _ => m.setTimeout thread timeout
  | none => m

/-! ## Operations through the look-ups -/

/-- A thread that claims has its transaction active, and the other threads have what they had. -/
theorem active?_claim {m n : TxManager} {thread : Thread} {id : TxId}
    (h : m.claim thread id = .ok n) (other : Thread) :
    n.active? other = if thread = other then some id else m.active? other := by
  rw [claim] at h
  split at h
  · simp at h
  · obtain rfl := Except.ok.inj h
    simp [active?]

/-- A thread that releases its transaction has none, and nothing else changes. -/
theorem active?_release (m : TxManager) (thread other : Thread) (id : TxId) :
    (m.release thread id).active? other =
      if other = thread ∧ m.active? thread = some id then none else m.active? other := by
  by_cases h : m.active? thread = some id
  · simp only [release, if_pos h]
    simp only [active?] at h ⊢
    simp [h]
  · simp [release, h]

@[simp] theorem override?_setTimeout (m : TxManager) (thread other : Thread)
    (timeout : Option Time) :
    (m.setTimeout thread timeout).override? other =
      if thread = other then timeout else m.override? other := by
  simp [setTimeout, override?]

/-- A timeout that is put back is the one that was in force. -/
theorem timeout_restore (m n : TxManager) (thread : Thread)
    (h : n.defaultTimeout = m.defaultTimeout) :
    (n.setTimeout thread (m.override? thread)).timeout thread = m.timeout thread := by
  simp only [timeout, override?_setTimeout, if_true]
  rw [← h]
  rfl

end TxManager

end JobCluster
