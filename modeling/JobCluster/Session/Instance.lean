import JobCluster.Session.Scene
/-!
# Calls on the instance store

The steps that call the instance store, on their own or as part of a transaction.
-/

namespace JobCluster.Session

/-- A call on the instance store. Where a time is missing, the clock tells it. -/
inductive InstanceCall
  | create (id : InstanceId) (process : String) (state : InstanceState) (time : Option Time)
  | setState (id : InstanceId) (state : InstanceState) (time : Option Time)
  | setKey (id : InstanceId) (set value : String)
  | delete (id : InstanceId)
  /-- The instance as the transaction sees it. -/
  | getIn (id : InstanceId)
  | get (id : InstanceId)
  | find (set value : String)
  | list (state : InstanceState)
  | stats
  /-- Has every change logged from now on. -/
  | listen (name : String)
  /-- Adds a listener that does nothing. -/
  | listenSilently
  deriving DecidableEq, Repr

namespace InstanceCall

variable {η : Type}

/-- Carries out a call as part of a transaction, if the place has one. -/
def withTransaction (place : Place) (c : World η) (act : TxId → Answer × World η) :
    Answer × World η :=
  match place.tx with
  | some tx => act tx
  | none => (.refused .noTransaction, c)

/-- Carries out a call. -/
def run (place : Place) (call : InstanceCall) (c : World η) : Answer × World η :=
  let written := replied (η := η) (α := Unit) .instances fun _ => .nothing
  match call with
  | .create id process state time => withTransaction place c fun tx =>
    written (c.createInstance tx { id, process, state, lastActive := time.getD c.clock })
  | .setState id state time => withTransaction place c fun tx =>
    replied .instances (fun s : InstanceState => .text s.text)
      (c.setInstanceState tx id state (time.getD c.clock))
  | .setKey id set value => withTransaction place c fun tx =>
    written (c.setInstanceKey tx id set value)
  | .delete id => withTransaction place c fun tx => written (c.deleteInstance tx id)
  | .getIn id => withTransaction place c fun tx =>
    (.value (.ofOption .processInstance (c.instances.view tx id)), c)
  | .get id => (.value (.ofOption .processInstance (c.instances.get? id)), c)
  | .find set value =>
    (.value (.texts ((c.instances.findByCorrelation set value).map InstanceId.text)), c)
  | .list state => (.value (.processInstances (c.instances.listByState state)), c)
  | .stats => (.value (.instanceStore c.instances.size c.instances.openTransactions), c)
  | .listen name => (.value .nothing, { c with listeners := c.listeners ++ [.report name] })
  | .listenSilently => (.value .nothing, c)

end InstanceCall

end JobCluster.Session
