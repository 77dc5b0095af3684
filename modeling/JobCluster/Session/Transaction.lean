import JobCluster.Session.Scene
/-!
# Calls on transactions

The steps that begin and end transactions, look at them and register callbacks, and those that set
the clock, the timeouts of threads and the refusals of the resource manager.
-/

namespace JobCluster.Session

variable {η : Type}

/-! ## The clock -/

/-- A call on the clock. -/
inductive ClockCall
  | set (time : Time)
  /-- Sets the clock on; beyond the last time of 64 bits it begins anew. -/
  | advance (span : Time)
  deriving DecidableEq, Repr

/-- Carries out a call. -/
def ClockCall.run (call : ClockCall) (c : World η) : Answer × World η :=
  let clock := match call with
    | .set time => time
    | .advance span => c.clock.plus span
  (.value (.number clock), { c with clock })

/-! ## The resource manager -/

/-- A call on the resource manager. -/
inductive ResourceManagerCall
  | refuseNext (what : ResourceCall)
  | counts
  deriving DecidableEq, Repr

/-- Carries out a call. -/
def ResourceManagerCall.run (call : ResourceManagerCall) (c : World η) : Answer × World η :=
  match call with
  | .refuseNext what => (.value .nothing, { c with resource := c.resource.refuseNext what })
  | .counts => (.value (.resource c.resource), c)

/-! ## Timeouts -/

/-- A call on the transaction manager of a node. -/
inductive ManagerCall
  | info
  | setTimeout (timeout : Option Time)
  /-- Sets the timeout, if one is given, for as long as the guard stands. -/
  | guard (name : String) (timeout : Option Time)
  | unguard (name : String)
  deriving DecidableEq, Repr

namespace ManagerCall

/-- Ends a guard: what was there before it goes back. -/
def dropGuard (g : TimeoutGuard) (c : World η) : World η :=
  c.modifyManager g.node fun m => m.setTimeout g.thread g.before

/-- Ends the guard of the given name, if there is one. -/
def dropNamed (name : String) (scene : Scene) (c : World η) : World η :=
  match scene.guards.get? name with
  | some g => dropGuard g c
  | none => c

/-- Sets up a guard. An older guard of the name ends as soon as the new one stands. -/
def guardAs (place : Place) (name : String) (timeout : Option Time) (c : World η) : World η :=
  let g : TimeoutGuard :=
    { node := place.node, thread := place.thread
      before := (c.node place.node).manager.override? place.thread }
  let guarded := c.modifyManager place.node fun m => m.overrideTimeout place.thread timeout
  (dropNamed name c.outside guarded).modifyOutside fun s =>
    { s with guards := s.guards.insert name g }

/-- Ends a guard and takes its name back. -/
def unguardAs (name : String) (c : World η) : World η :=
  (dropNamed name c.outside c).modifyOutside fun s => { s with guards := s.guards.erase name }

/-- Carries out a call. -/
def run (place : Place) (call : ManagerCall) (c : World η) : Answer × World η :=
  let shown := fun c : World η =>
    (Answer.value (.number ((c.node place.node).manager.timeout place.thread)), c)
  match call with
  | .info =>
    let m := (c.node place.node).manager
    (.value (.manager
      { active := m.active? place.thread, activeCount := m.activeCount
        timeout := m.timeout place.thread, defaultTimeout := m.defaultTimeout }), c)
  | .setTimeout timeout =>
    shown (c.modifyManager place.node fun m => m.setTimeout place.thread timeout)
  | .guard name timeout => shown (guardAs place name timeout c)
  | .unguard name => shown (unguardAs name c)

end ManagerCall

/-! ## Transactions -/

/-- How a transaction is brought to its end. -/
inductive Conclusion
  | commit
  | rollback
  /-- Nobody completes the transaction, so it is rolled back. -/
  | drop
  deriving DecidableEq, Repr

/-- A call on a transaction. -/
inductive TransactionCall (η : Type)
  /-- Begins a transaction and gives it a name. -/
  | begin (name : String)
  /-- Begins a transaction and drops it at once. -/
  | probe
  /-- Brings a named transaction to its end. -/
  | complete (name : String) (how : Conclusion)
  | mark
  | info
  /-- Registers a callback. -/
  | register (moment : Moment) (script : η)

namespace TransactionCall

/-- The answer to a call that begins or ends a transaction. -/
def ended {α : Type} (x : Except TxError α × World η) : Answer × World η :=
  replied .transaction (fun _ => .nothing) x

/-- Begins a transaction and gives it a name. If the name stands for another open transaction, that
one is dropped afterwards. -/
def beginAs (app : Application η Scene) (place : Place) (name : String) (c : World η) :
    Answer × World η :=
  let older := c.outside.transactions.get? name
  match c.begin place.node place.thread with
  | (.error e, c) => (.failed (.transaction e), c)
  | (.ok id, c) =>
    let c := c.modifyOutside fun s => s.nameTransaction name id
    match older with
    | some id => (.done .nothing, c.abandon app place.thread id)
    | none => (.done .nothing, c)

/-- Begins a transaction and drops it at once. -/
def probeOnce (app : Application η Scene) (place : Place) (c : World η) : Answer × World η :=
  match c.begin place.node place.thread with
  | (.error e, c) => (.failed (.transaction e), c)
  | (.ok id, c) => (.done .nothing, c.abandon app place.thread id)

/-- Brings a named transaction to its end. Its name is taken back first. -/
def completeAs (app : Application η Scene) (thread : Thread) (name : String) (how : Conclusion)
    (c : World η) : Answer × World η :=
  match c.outside.transactions.get? name with
  | none => (.refused .noTransaction, c)
  | some id =>
    let c := c.modifyOutside fun s => s.forgetTransaction name
    match how with
    | .commit => ended (c.commit app thread id)
    | .rollback => ended (c.rollback app thread id)
    | .drop => (.done .nothing, c.abandon app thread id)

/-- What is shown of an open transaction. -/
def view (t : Transaction (Callback η)) : TransactionView where
  id := t.id
  status := t.status
  timeout := t.timeout
  callbacks := t.synchronizers.length

/-- Carries out a call on an open transaction. -/
def onTransaction (place : Place) (c : World η)
    (act : TxId → Transaction (Callback η) → Answer × World η) : Answer × World η :=
  match place.tx with
  | none => (.refused .noTransaction, c)
  | some id =>
    match c.transaction? id with
    | none => (.refused .noTransaction, c)
    | some t => act id t

/-- Carries out a call. -/
def run (app : Application η Scene) (place : Place) (call : TransactionCall η) (c : World η) :
    Answer × World η :=
  match call with
  | .begin name => beginAs app place name c
  | .probe => probeOnce app place c
  | .complete name how => completeAs app place.thread name how c
  | .mark => onTransaction place c fun id t =>
    (.value (.text t.mark.status.text), c.modifyTransaction id Transaction.mark)
  | .info => onTransaction place c fun _ t => (.value (.transaction (view t)), c)
  | .register moment script => onTransaction place c fun id _ =>
    (.done .nothing, c.register id moment (.custom script))

end TransactionCall

end JobCluster.Session
