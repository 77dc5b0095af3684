import JobCluster.Session.Coordination
import JobCluster.Session.Exchange
import JobCluster.Session.Instance
import JobCluster.Session.Scheduling
import JobCluster.Session.Store
import JobCluster.Session.Todo
import JobCluster.Session.Transaction
/-!
# Steps

The steps of a session. Most of them call one part of the cluster. The others do work of their own,
which again consists of steps: as the body of a transaction, as a callback of one, or as the
handler of a type of jobs.
-/

namespace JobCluster.Session

/-- How work ends when its steps are done. -/
inductive Finish
  | returns
  | fails (error : ProcessingError)
  | panics (message : String)
  deriving DecidableEq, Repr

/-- Work that consists of steps. -/
structure Work (σ : Type) where
  steps : List σ := []
  finish : Finish := .returns

/-- Work that is registered under a name, as a callback or as a handler. -/
structure Script (σ : Type) where
  name : String
  work : Work σ

/-- A call on the handlers of a node. -/
inductive HandlerCall (σ : Type)
  | register (script : Script σ)
  | unregister (jobType : String)
  | handles (jobType : String)
  /-- Hands a job to the handler of its type; the job is given by its name. -/
  | process (info : JobInfo)

/-- What a step does. -/
inductive Action (σ : Type)
  /-- Nothing, because it makes no sense. -/
  | malformed
  | clock (call : ClockCall)
  | resource (call : ResourceManagerCall)
  | manager (call : ManagerCall)
  | transaction (call : TransactionCall (Script σ))
  | jobs (call : JobCall)
  | scheduler (call : SchedulerCall)
  | life (call : LifeCall)
  | handlers (call : HandlerCall σ)
  | store (call : StoreCall)
  | heartbeats (call : HeartbeatCall)
  | leases (call : LeaseCall)
  | coordinator (call : CoordinatorCall)
  | catalog (call : CatalogCall)
  | registry (call : RegistryCall)
  | routes (call : RouteCall)
  | exchange (handle : String) (call : HandleCall)
  | instances (call : InstanceCall)
  | todo (queue : String) (call : TodoCall)
  /-- Does work in a transaction of its own, which may be given a label. -/
  | exec (work : Work σ) (timeout : Option Time) (label : Option String)
  /-- Does work in a transaction of its own, on the worker of the node. -/
  | isolated (work : Work σ) (label : Option String)

/-- A step: what it does, and where, as far as it is not where its surroundings are. -/
inductive Step
  | mk (node : Option NodeName) (thread : Option String) (tx : Option String)
    (action : Action Step)

namespace Step

instance : Inhabited Step := ⟨mk none none none .malformed⟩

/-- The name of the node whose parts the step calls. -/
def node : Step → Option NodeName
  | mk node _ _ _ => node

/-- The name of the thread that carries the step out. -/
def thread : Step → Option String
  | mk _ thread _ _ => thread

/-- The name of the transaction that the step takes part in. -/
def tx : Step → Option String
  | mk _ _ tx _ => tx

/-- What the step does. -/
def action : Step → Action Step
  | mk _ _ _ action => action

end Step

end JobCluster.Session
