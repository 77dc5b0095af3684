import JobCluster.Cluster.Lifecycle
/-!
# Answers

What a step of a session is answered with: a value, an error of the part of the cluster that the
step called, the answers of the steps that it carried out on its part, or a refusal to carry it out
at all. Next to the answers stands the log, which tells what callbacks, handlers and listeners did.
-/

namespace JobCluster.Session

/-- Why a step is not carried out. -/
inductive Refusal
  /-- The step makes no sense, or not in this place. -/
  | malformed
  | unknownNode
  /-- There is no open transaction to carry the step out in. -/
  | noTransaction
  /-- No exchange has the handle. -/
  | unknownExchange
  deriving DecidableEq, Repr

/-- An error of some part of the cluster. -/
inductive Fault
  | transaction (error : TxError)
  | jobStore (error : JobStoreError)
  | scheduler (error : SchedulerError)
  | processing (error : ProcessingError)
  | lease (error : LeaseError)
  | registry (error : RegistryError)
  | instances (error : InstanceError)
  | catalog (error : CatalogError)
  deriving DecidableEq, Repr

/-- The wording of an error, without its cause. -/
def Fault.message : Fault → String
  | .transaction e => e.message
  | .jobStore e => e.message
  | .scheduler e => e.message
  | .processing e => e.message
  | .lease e => e.message
  | .registry e => e.message
  | .instances e => e.message
  | .catalog e => e.message

/-- What is shown of an open transaction. -/
structure TransactionView where
  id : TxId
  status : TxStatus
  timeout : Time
  /-- The number of callbacks that wait for the end. -/
  callbacks : Nat
  deriving DecidableEq, Repr

/-- What is shown of a transaction manager to a thread. -/
structure ManagerView where
  active : Option TxId
  activeCount : Nat
  timeout : Time
  defaultTimeout : Time
  deriving DecidableEq, Repr

/-- What is shown of a scheduler to a thread. -/
structure SchedulerView where
  phase : SchedulerPhase
  queued : Nat
  coordinates : Bool
  /-- Whether the thread has an open transaction on the node. -/
  transacted : Bool
  node : NodeId
  completed : Nat
  failed : Nat
  lostClaims : Nat
  batchSize : Nat
  deriving DecidableEq, Repr

/-- What is shown of a registry. -/
structure RegistryView where
  stats : RegistryStats
  size : Nat
  routes : Nat
  ttl : Time
  sweepInterval : Time
  deriving DecidableEq, Repr

/-- The value in an answer. -/
inductive Value
  | nothing
  | flag (b : Bool)
  | number (n : Nat)
  | text (s : String)
  | texts (items : List String)
  /-- The number of things that a collection holds. -/
  | size (n : Nat)
  | transaction (view : TransactionView)
  | manager (view : ManagerView)
  | resource (m : ResourceManager)
  | scheduler (view : SchedulerView)
  | record (r : JobRecord)
  /-- What is stored under every label of the session. -/
  | records (found : List (String × Except JobStoreError (Option JobRecord)))
  | jobStore (stats : JobStoreStats) (size : Nat)
  | heartbeats (h : Heartbeats)
  /-- Whether a handler was there, and how many are left. -/
  | removal (removed : Bool) (left : Nat)
  | pattern (p : InteractionPattern)
  | catalogPattern (p : Option InteractionPattern)
  | createdAt (time : Time)
  | snapshot (s : ExchangeSnapshot)
  /-- An exchange with some of its properties. -/
  | exchange (e : Exchange) (properties : List (String × Option String))
  | completion (c : Completion)
  | sweep (report : SweepReport)
  | registry (view : RegistryView)
  | route (r : ResourceRoute)
  | processInstance (p : ProcessInstance)
  | processInstances (items : List ProcessInstance)
  | instanceStore (size openTransactions : Nat)
  | task (t : Task)

/-- The answer to a step. -/
inductive Answer
  /-- The answer to a call that cannot fail. -/
  | value (v : Value)
  /-- The answer to a call that can fail, but did not. -/
  | done (v : Value)
  | failed (fault : Fault)
  /-- The result of a call on a todo queue, and the queue that it left. -/
  | queue (result : Value) (q : TodoQueue)
  /-- How work in a transaction ended, and the answers of its steps. -/
  | work (result : Except SchedulerError Unit) (steps : List Answer)
  /-- The answers of the steps of isolated work. -/
  | isolated (steps : List Answer)
  /-- How a start ended, and the renewal of the coordinator's lease before it. -/
  | started (result : Except SchedulerError Unit) (renewal : Option (Except LeaseError Bool))
  | refused (cause : Refusal)
  | panicked (message : String)

namespace Answer

/-- The answer to a call that can fail. -/
def ofExcept {ε α : Type} (fault : ε → Fault) (value : α → Value) : Except ε α → Answer
  | .ok a => .done (value a)
  | .error e => .failed (fault e)

/-- The answer to a call that succeeds with nothing to tell. -/
def ofUnit {ε : Type} (fault : ε → Fault) (result : Except ε Unit) : Answer :=
  ofExcept fault (fun _ => .nothing) result

end Answer

/-- A value that may be missing. -/
def Value.ofOption {α : Type} (value : α → Value) : Option α → Value
  | some a => value a
  | none => .nothing

/-- What was logged while a step was carried out. -/
inductive LogEntry
  /-- A callback of the application ran. -/
  | hook (name : String) (phase : Phase) (steps : List Answer)
  /-- A handler of the application ran a job. -/
  | run (info : JobInfo) (inTransaction : Bool) (steps : List Answer)
  /-- A listener of the application heard of a change to a process instance. -/
  | heard (listener : String) (event : InstanceEvent)

end JobCluster.Session
