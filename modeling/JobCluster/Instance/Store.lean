import JobCluster.Instance.Basic
/-!
# The instance store

The store of process instances that all nodes share. What a transaction writes is staged, seen by
that transaction alone, and applied in one go when it commits; then the listeners hear which
instances have come to their end or are gone.

Main results:

- `InstanceStore.view_eq_seen`: what a transaction sees are its own writes, one after another, over
  the committed instances;
- `InstanceStore.view_stage`: what a transaction sees after a write of its own, and that others see
  nothing of it;
- `InstanceStore.get?_stage`: staging changes no committed instance.
-/

namespace JobCluster

/-- Why the instance store refuses a call. -/
inductive InstanceError
  | notFound (id : InstanceId)
  | duplicate (id : InstanceId)
  /-- An instance that has come to its end does not change its state. -/
  | invalidTransition (id : InstanceId) (source target : InstanceState)
  deriving DecidableEq, Repr

/-- The wording of an error. -/
def InstanceError.message : InstanceError → String
  | .notFound id => s!"Process instance {id} not found"
  | .duplicate id => s!"Process instance {id} already exists"
  | .invalidTransition id source target =>
    s!"Process instance {id} cannot move from {source} to {target}"

/-- A write of a transaction. -/
inductive InstanceWrite
  | put (p : ProcessInstance)
  | delete (id : InstanceId)
  deriving DecidableEq, Repr

/-- The instance that a write is about. -/
def InstanceWrite.id : InstanceWrite → InstanceId
  | .put p => p.id
  | .delete id => id

/-- What the write leaves of its instance. -/
def InstanceWrite.result : InstanceWrite → Option ProcessInstance
  | .put p => some p
  | .delete _ => none

/-- What listeners hear of a committed write. -/
inductive InstanceEvent
  | finished (id : InstanceId) (state : InstanceState)
  | removed (id : InstanceId)
  deriving DecidableEq, Repr

/-- The instance that an event is about. -/
def InstanceEvent.id : InstanceEvent → InstanceId
  | .finished id _ => id
  | .removed id => id

/-- The committed instances, and the writes of every open transaction, oldest first. -/
structure InstanceStore where
  committed : Table InstanceId ProcessInstance := ∅
  staged : Table TxId (List InstanceWrite) := ∅
  deriving DecidableEq, Repr, Inhabited

namespace InstanceStore

/-- The committed instance. -/
def get? (s : InstanceStore) (id : InstanceId) : Option ProcessInstance := s.committed.get? id

/-- The writes of a transaction, oldest first. -/
def writes (s : InstanceStore) (tx : TxId) : List InstanceWrite := (s.staged.get? tx).getD []

/-- The instance after some writes. -/
def seen (id : InstanceId) (base : Option ProcessInstance) (ws : List InstanceWrite) :
    Option ProcessInstance :=
  ws.foldl (fun p w => if w.id = id then w.result else p) base

/-- The instance as a transaction sees it: what its latest own write about the instance leaves, or
else the committed instance. -/
def view (s : InstanceStore) (tx : TxId) (id : InstanceId) : Option ProcessInstance :=
  match (s.writes tx).reverse.find? fun w => decide (w.id = id) with
  | some w => w.result
  | none => s.get? id

/-- Whether the transaction has written anything. -/
def isOpen (s : InstanceStore) (tx : TxId) : Bool := s.staged.contains tx

/-- Adds a write to those of a transaction. -/
def stage (s : InstanceStore) (tx : TxId) (w : InstanceWrite) : InstanceStore :=
  { s with staged := s.staged.insert tx (s.writes tx ++ [w]) }

/-! ## The writes of a transaction -/

/-- The instance as a transaction sees it, or the error that there is none. -/
def current (s : InstanceStore) (tx : TxId) (id : InstanceId) :
    Except InstanceError ProcessInstance :=
  match s.view tx id with
  | some p => .ok p
  | none => .error (.notFound id)

/-- The write that creates an instance. -/
def creation (s : InstanceStore) (tx : TxId) (p : ProcessInstance) :
    Except InstanceError InstanceWrite :=
  match s.view tx p.id with
  | some _ => .error (.duplicate p.id)
  | none => .ok (.put p)

/-- The write that moves an instance to a state, with the state that it was in. -/
def stateChange (s : InstanceStore) (tx : TxId) (id : InstanceId) (state : InstanceState)
    (now : Time) : Except InstanceError (InstanceState × InstanceWrite) :=
  match s.current tx id with
  | .error e => .error e
  | .ok p =>
    if p.isFinished ∧ p.state ≠ state then .error (.invalidTransition id p.state state)
    else .ok (p.state, .put (p.transition state now))

/-- The write that sets the key of a correlation set. -/
def keyChange (s : InstanceStore) (tx : TxId) (id : InstanceId) (set value : String) :
    Except InstanceError InstanceWrite :=
  match s.current tx id with
  | .error e => .error e
  | .ok p => .ok (.put (p.setKey set value))

/-- The write that deletes an instance. -/
def deletion (s : InstanceStore) (tx : TxId) (id : InstanceId) :
    Except InstanceError InstanceWrite :=
  match s.current tx id with
  | .error e => .error e
  | .ok _ => .ok (.delete id)

/-! ## Completion -/

/-- Applies a write, and tells what listeners hear of it: that an instance has come to its end, if
it had not before, or that one is gone, if there was one. -/
def apply (instances : Table InstanceId ProcessInstance) :
    InstanceWrite → Option InstanceEvent × Table InstanceId ProcessInstance
  | .put p =>
    let finishedBefore := ((instances.get? p.id).map ProcessInstance.isFinished).getD false
    (if p.isFinished && !finishedBefore then some (.finished p.id p.state) else none,
      instances.insert p.id p)
  | .delete id =>
    (if instances.contains id then some (.removed id) else none, instances.erase id)

/-- Applies writes in turn, and tells what listeners hear of them. -/
def applyAll : List InstanceWrite → Table InstanceId ProcessInstance →
    List InstanceEvent × Table InstanceId ProcessInstance
  | [], instances => ([], instances)
  | w :: rest, instances =>
    let (event, instances) := apply instances w
    let (events, instances) := applyAll rest instances
    (event.toList ++ events, instances)

/-- Ends a transaction: its writes are applied if it was committed, and forgotten in any case. -/
def complete (s : InstanceStore) (tx : TxId) (committed : Bool) :
    List InstanceEvent × InstanceStore :=
  let rest := s.staged.erase tx
  if committed then
    let (events, instances) := applyAll (s.writes tx) s.committed
    (events, { committed := instances, staged := rest })
  else ([], { s with staged := rest })

/-! ## Queries -/

/-- The committed instances with the key in the correlation set, in order. -/
def findByCorrelation (s : InstanceStore) (set value : String) : List InstanceId :=
  (s.committed.filter fun _ p => p.correlationKeys.get? set == some value).keys

/-- The committed instances in the state, in order. -/
def listByState (s : InstanceStore) (state : InstanceState) : List ProcessInstance :=
  (s.committed.filter fun _ p => p.state == state).values

/-- The number of committed instances. -/
def size (s : InstanceStore) : Nat := s.committed.size

/-- The number of transactions that have written something and are not complete. -/
def openTransactions (s : InstanceStore) : Nat := s.staged.size

/-! ## Views -/

@[simp] theorem get?_stage (s : InstanceStore) (tx : TxId) (w : InstanceWrite) (id : InstanceId) :
    (s.stage tx w).get? id = s.get? id := rfl

/-- A write is staged behind the earlier ones of its transaction. -/
@[simp] theorem writes_stage (s : InstanceStore) (tx other : TxId) (w : InstanceWrite) :
    (s.stage tx w).writes other =
      if tx = other then s.writes tx ++ [w] else s.writes other := by
  by_cases h : tx = other <;> simp [stage, writes, h]

/-- Whether writes are applied from the first one on or searched from the last one back, the last
one about the instance decides. -/
theorem seen_eq_find? (id : InstanceId) (base : Option ProcessInstance) (ws : List InstanceWrite) :
    seen id base ws =
      match ws.reverse.find? fun w => decide (w.id = id) with
      | some w => w.result
      | none => base := by
  induction ws generalizing base with
  | nil => rfl
  | cons w rest ih =>
    have hcons : seen id base (w :: rest) = seen id (if w.id = id then w.result else base) rest :=
      rfl
    rw [hcons, ih, List.reverse_cons, List.find?_append]
    cases rest.reverse.find? fun w => decide (w.id = id) with
    | some v => rfl
    | none => by_cases hw : w.id = id <;> simp [hw]

/-- A transaction sees the committed instance with its own writes applied in order. -/
theorem view_eq_seen (s : InstanceStore) (tx : TxId) (id : InstanceId) :
    s.view tx id = seen id (s.get? id) (s.writes tx) :=
  (seen_eq_find? id (s.get? id) (s.writes tx)).symm

/-- A transaction sees what it has written last; nobody else does. -/
theorem view_stage (s : InstanceStore) (tx other : TxId) (w : InstanceWrite) (id : InstanceId) :
    (s.stage tx w).view other id =
      if tx = other ∧ w.id = id then w.result else s.view other id := by
  by_cases h : tx = other
  · subst h
    by_cases hw : w.id = id <;> simp [view_eq_seen, seen, hw]
  · simp [view_eq_seen, h]

end InstanceStore

end JobCluster
