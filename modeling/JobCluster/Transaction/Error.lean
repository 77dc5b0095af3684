import JobCluster.Ident
/-!
# Transaction errors

Why a transaction cannot begin, or did not commit.
-/

namespace JobCluster

/-- A call that the resource manager refuses. -/
inductive ResourceError
  | beginRefused (id : TxId)
  | commitRefused (id : TxId)
  | rollbackRefused
  deriving DecidableEq, Repr

/-- The wording of an error. -/
def ResourceError.message : ResourceError → String
  | .beginRefused id => s!"Resource manager unavailable: injected begin failure for {id}"
  | .commitRefused id => s!"Transaction {id} commit failed: injected commit failure"
  | .rollbackRefused => "Illegal transaction state: injected rollback failure"

/-- Why a transaction that was to commit is rolled back. -/
inductive RollbackCause
  | marked
  | timedOut
  deriving DecidableEq, Repr

/-- The wording of a cause. -/
def RollbackCause.text : RollbackCause → String
  | .marked => "marked rollback-only"
  | .timedOut => "transaction timed out"

/-- Why a transaction cannot begin, or did not commit. -/
inductive TxError
  /-- The thread owns another transaction. -/
  | alreadyActive (existing : TxId)
  /-- The transaction has come to its end before. -/
  | alreadyCompleted (id : TxId)
  | rolledBack (id : TxId) (cause : RollbackCause)
  | commitFailed (id : TxId) (cause : ResourceError)
  | rollbackFailed (id : TxId) (cause : ResourceError)
  /-- The resource manager did not let the transaction begin. -/
  | refused (cause : ResourceError)
  deriving DecidableEq, Repr

namespace TxError

/-- The wording of an error. -/
def message : TxError → String
  | .alreadyActive existing =>
    s!"Illegal transaction state: transaction {existing} already active on this thread"
  | .alreadyCompleted id => s!"Illegal transaction state: transaction {id} already completed"
  | .rolledBack id cause => s!"Transaction {id} rolled back: {cause.text}"
  | .commitFailed id cause => s!"Transaction {id} commit failed: {cause.message}"
  | .rollbackFailed id cause => s!"Transaction {id} rollback failed: {cause.message}"
  | .refused cause => cause.message

/-- Whether the error tells that the transaction was rolled back instead of committed. -/
def isRollback : TxError → Bool
  | .rolledBack _ _ | .commitFailed _ _ => true
  | .alreadyActive _ | .alreadyCompleted _ | .rollbackFailed _ _ | .refused _ => false

end TxError

end JobCluster
