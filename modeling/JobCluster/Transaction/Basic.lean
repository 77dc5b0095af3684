import JobCluster.Thread
import JobCluster.Transaction.Error
/-!
# Transactions and their completion

A transaction collects callbacks while it is open. When it is to commit, the callbacks that wait
for the moment before the commit run first; then the resource manager commits, and the callbacks
that wait for the end learn whether it did. A transaction that is marked, has run out of time, is
rolled back or is dropped skips the first round. Callbacks run in the order in which they were
registered, and no failure of one of them keeps another from running.

What a callback does is left open here: completion is defined over any surroundings that can run
callbacks and reach the resource manager.

Main results:

- `Transaction.commit_of_marked`, `Transaction.commit_of_expired`: transactions that cannot commit
  are rolled back.
-/

namespace JobCluster

/-- When a registered callback runs. -/
inductive Moment
  /-- Before the commit. -/
  | before
  /-- After the end, however it came. -/
  | after
  /-- After a commit. -/
  | onCommit
  /-- After a rollback. -/
  | onRollback
  /-- Before the commit, and after the end. -/
  | both
  deriving DecidableEq, Repr

/-- The rounds in which callbacks run. -/
inductive Phase
  | before
  | after (committed : Bool)
  deriving DecidableEq, Repr

/-- Whether a callback takes part in a round. -/
def Moment.takesPart : Moment → Phase → Bool
  | .before, .before => true
  | .both, .before => true
  | .after, .after _ => true
  | .both, .after _ => true
  | .onCommit, .after committed => committed
  | .onRollback, .after committed => !committed
  | _, _ => false

/-- A registered callback. -/
structure Synchronizer (κ : Type) where
  moment : Moment
  callback : κ
  deriving DecidableEq, Repr

/-- The place of a transaction in its life. -/
inductive TxStatus
  | active
  | markedRollback
  | preparing
  | committing
  | committed
  | rolledBack
  deriving DecidableEq, Repr

/-- The wording of a status. -/
def TxStatus.text : TxStatus → String
  | .active => "ACTIVE"
  | .markedRollback => "MARKED_ROLLBACK"
  | .preparing => "PREPARING"
  | .committing => "COMMITTING"
  | .committed => "COMMITTED"
  | .rolledBack => "ROLLED_BACK"

/-- Whether the transaction has come to its end. -/
def TxStatus.isCompleted : TxStatus → Bool
  | .committed | .rolledBack => true
  | .active | .markedRollback | .preparing | .committing => false

/-- An open transaction. -/
structure Transaction (κ : Type) where
  id : TxId
  /-- The node whose manager began it. -/
  node : NodeName
  /-- The thread that began it, and owns it to its end. -/
  owner : Thread
  timeout : Time
  /-- Whether it can only be rolled back. -/
  rollbackOnly : Bool := false
  synchronizers : List (Synchronizer κ) := []
  deriving DecidableEq, Repr

/-- How a callback ended, apart from returning. -/
inductive CallbackFailure
  | failed (cause : String)
  | panicked (message : String)
  deriving DecidableEq, Repr

/-- What completion needs of the world: to run callbacks, to commit and roll back with the resource
manager, and to end the ownership of the thread. -/
structure Surroundings (σ κ : Type) where
  run : κ → Phase → σ → Except CallbackFailure Unit × σ
  commitResource : TxId → σ → Except ResourceError Unit × σ
  rollbackResource : TxId → σ → Except ResourceError Unit × σ
  leave : Transaction κ → σ → σ

/-! ## Slots -/

/-- The synchronizers of a transaction that comes to its end, in the order in which they were
registered. A slot whose callback is used up is empty. -/
abbrev Slots (κ : Type) : Type := List (Option (Synchronizer κ))

namespace Slots

variable {σ κ : Type}

/-- Runs the callback in a slot, if it waits for the moment before the commit. A callback that waits
for this moment alone is used up, and one that waits for the end as well stays in its slot. -/
def fire (w : Surroundings σ κ) : Option (Synchronizer κ) → σ → Option (Synchronizer κ) × σ
  | none, s => (none, s)
  | some x, s =>
    match x.moment with
    | .before => (none, (w.run x.callback .before s).2)
    | .both => (some x, (w.run x.callback .before s).2)
    | .after | .onCommit | .onRollback => (some x, s)

/-- Walks the slots before the commit. However a callback ends, the walk goes on. -/
def runBefore (w : Surroundings σ κ) : Slots κ → σ → Slots κ × σ
  | [], s => ([], s)
  | slot :: rest, s =>
    let (left, s) := fire w slot s
    let (others, s) := runBefore w rest s
    (left :: others, s)

/-- Tells the callback in a slot how the transaction ended, if it waits to be told. -/
def inform (w : Surroundings σ κ) (committed : Bool) : Option (Synchronizer κ) → σ → σ
  | none, s => s
  | some x, s =>
    if x.moment.takesPart (.after committed) then (w.run x.callback (.after committed) s).2 else s

/-- Walks the slots after the end. However a callback ends, the walk goes on. -/
def runAfter (w : Surroundings σ κ) (committed : Bool) : Slots κ → σ → σ
  | [], s => s
  | slot :: rest, s => runAfter w committed rest (inform w committed slot s)

end Slots

/-- How a transaction came to its end: what its owner is told, and the status that it ended in. -/
structure Ending where
  result : Except TxError Unit
  status : TxStatus

namespace Transaction

variable {σ κ : Type}

/-- The status of an open transaction. -/
def status (t : Transaction κ) : TxStatus :=
  if t.rollbackOnly then .markedRollback else .active

/-- Has the transaction rolled back in the end. -/
def mark (t : Transaction κ) : Transaction κ := { t with rollbackOnly := true }

/-- Registers a callback behind those registered before. -/
def register (t : Transaction κ) (moment : Moment) (callback : κ) : Transaction κ :=
  { t with synchronizers := t.synchronizers ++ [⟨moment, callback⟩] }

/-- Changes the callbacks, and leaves their number, order and moments. -/
def mapCallbacks (t : Transaction κ) (f : κ → κ) : Transaction κ :=
  { t with synchronizers := t.synchronizers.map fun s => { s with callback := f s.callback } }

/-- Whether the time of the transaction has run out. Any time that passes at all is longer than
none, and transactions are shorter than every other timeout. -/
def isExpired (t : Transaction κ) : Bool := t.timeout == 0

/-- The synchronizers as the end of the transaction finds them: every slot is taken. -/
def slots (t : Transaction κ) : Slots κ := t.synchronizers.map some

/-- Ends the transaction in the world: the thread no longer owns it, and the callbacks that are left
learn of the end. -/
def conclude (w : Surroundings σ κ) (t : Transaction κ) (slots : Slots κ) (committed : Bool)
    (s : σ) : σ :=
  slots.runAfter w committed (w.leave t s)

/-- Rolls the transaction back. -/
def rollback (w : Surroundings σ κ) (t : Transaction κ) (s : σ) : Ending × σ :=
  let (answer, s) := w.rollbackResource t.id s
  let s := t.conclude w t.slots false s
  match answer with
  | .ok () => (⟨.ok (), .rolledBack⟩, s)
  | .error e => (⟨.error (.rollbackFailed t.id e), .rolledBack⟩, s)

/-- Rolls the transaction back although it was to commit. -/
def degrade (w : Surroundings σ κ) (t : Transaction κ) (cause : RollbackCause) (s : σ) :
    Ending × σ :=
  match t.rollback w s with
  | (⟨.ok (), status⟩, s) => (⟨.error (.rolledBack t.id cause), status⟩, s)
  | (⟨.error e, status⟩, s) => (⟨.error e, status⟩, s)

/-- Commits with the resource manager, and rolls back where it refuses to. -/
def commitPrepared (w : Surroundings σ κ) (t : Transaction κ) (slots : Slots κ) (s : σ) :
    Ending × σ :=
  match w.commitResource t.id s with
  | (.ok (), s) => (⟨.ok (), .committed⟩, t.conclude w slots true s)
  | (.error e, s) =>
    let (_, s) := w.rollbackResource t.id s
    (⟨.error (.commitFailed t.id e), .rolledBack⟩, t.conclude w slots false s)

/-- Commits the transaction, if it can. -/
def commit (w : Surroundings σ κ) (t : Transaction κ) (s : σ) : Ending × σ :=
  if t.rollbackOnly then t.degrade w .marked s
  else if t.isExpired then t.degrade w .timedOut s
  else
    let (slots, s) := t.slots.runBefore w s
    t.commitPrepared w slots s

/-- A transaction that is marked for rollback degrades as it commits. -/
theorem commit_of_marked (w : Surroundings σ κ) (t : Transaction κ) (s : σ)
    (h : t.rollbackOnly = true) : t.commit w s = t.degrade w .marked s := by
  simp [commit, h]

theorem commit_of_expired (w : Surroundings σ κ) (t : Transaction κ) (s : σ)
    (h : t.rollbackOnly = false) (he : t.isExpired = true) :
    t.commit w s = t.degrade w .timedOut s := by
  simp [commit, h, he]

end Transaction

end JobCluster
