import JobCluster.Transaction.Error
/-!
# The resource manager

The resource manager counts the transactions that begin, commit and roll back, and can be told to
refuse the next call of each kind. A refused rollback is counted all the same.

Main results:

- `ResourceManager.begin_eq_ok_iff`: when a transaction begins, and what is counted then.
-/

namespace JobCluster

/-- The kinds of calls on a resource manager. -/
inductive ResourceCall
  | begin
  | commit
  | rollback
  deriving DecidableEq, Repr

/-- The counts of calls, and which kinds of calls are refused next time. -/
structure ResourceManager where
  begun : Nat := 0
  committed : Nat := 0
  rolledBack : Nat := 0
  refusesBegin : Bool := false
  refusesCommit : Bool := false
  refusesRollback : Bool := false
  deriving DecidableEq, Repr, Inhabited

namespace ResourceManager

/-- Has the next call of a kind refused. -/
def refuseNext (m : ResourceManager) : ResourceCall → ResourceManager
  | .begin => { m with refusesBegin := true }
  | .commit => { m with refusesCommit := true }
  | .rollback => { m with refusesRollback := true }

/-- Lets a transaction begin. -/
def begin (m : ResourceManager) (id : TxId) : Except ResourceError Unit × ResourceManager :=
  if m.refusesBegin then (.error (.beginRefused id), { m with refusesBegin := false })
  else (.ok (), { m with begun := m.begun + 1 })

/-- Commits what a transaction did. -/
def commit (m : ResourceManager) (id : TxId) : Except ResourceError Unit × ResourceManager :=
  if m.refusesCommit then (.error (.commitRefused id), { m with refusesCommit := false })
  else (.ok (), { m with committed := m.committed + 1 })

/-- Rolls back what a transaction did. -/
def rollback (m : ResourceManager) : Except ResourceError Unit × ResourceManager :=
  let counted := { m with rolledBack := m.rolledBack + 1, refusesRollback := false }
  if m.refusesRollback then (.error .rollbackRefused, counted) else (.ok (), counted)

/-- The resource manager begins unless it refuses, and counts that. -/
theorem begin_eq_ok_iff (m n : ResourceManager) (id : TxId) :
    m.begin id = (.ok (), n) ↔ m.refusesBegin = false ∧ n = { m with begun := m.begun + 1 } := by
  by_cases h : m.refusesBegin = true
  · simp [begin, h]
  · simpa [begin, h] using eq_comm

end ResourceManager

end JobCluster
