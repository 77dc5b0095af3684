import JobCluster.Session.Answer
/-!
# The world of a session

What a session keeps next to the cluster that it drives: the names that its steps have given to
jobs, transactions, timeout guards, todo queues and exchanges, and the log of the present step.
-/

namespace JobCluster.Session

/-- A timeout of a thread that is set for a while, and what goes back when it ends. -/
structure TimeoutGuard where
  node : NodeName
  thread : Thread
  before : Option Time
  deriving DecidableEq, Repr

/-- Where the exchange of a handle is kept. -/
inductive ExchangeHandle
  /-- In a slot of the registry of a node, whether or not it is still registered. -/
  | registered (node : NodeName) (slot : Nat)
  /-- In a slot outside all registries. -/
  | loose (slot : Nat)
  deriving DecidableEq, Repr

/-- The names given in a session, and the log. -/
structure Scene where
  /-- The names under which drawn identifiers are shown. -/
  labels : Table String String := ∅
  jobs : Table String JobId := ∅
  transactions : Table String TxId := ∅
  guards : Table String TimeoutGuard := ∅
  queues : Table String TodoQueue := ∅
  handles : Table String ExchangeHandle := ∅
  /-- The exchanges outside all registries, by slot. -/
  loose : List Exchange := []
  /-- The answers of the steps of work that is done in transactions of its own. -/
  work : Table TxId (List Answer) := ∅
  /-- The log of the present step, oldest entry first. -/
  log : List LogEntry := []

namespace Scene

/-- The job that a name was given to, or else the one whose identifier is the name. -/
def jobId (s : Scene) (name : String) : JobId := (s.jobs.get? name).getD ⟨name⟩

/-- Gives a name to a job whose identifier was drawn. -/
def nameJob (s : Scene) (name : String) (id : JobId) : Scene :=
  { s with jobs := s.jobs.insert name id, labels := s.labels.insert id.text name }

/-- Gives a name to a transaction, for the answers alone. -/
def labelTransaction (s : Scene) (name : String) (id : TxId) : Scene :=
  { s with labels := s.labels.insert id.text name }

/-- Gives a name to an open transaction. -/
def nameTransaction (s : Scene) (name : String) (id : TxId) : Scene :=
  { s.labelTransaction name id with transactions := s.transactions.insert name id }

/-- Takes the name of a transaction back. -/
def forgetTransaction (s : Scene) (name : String) : Scene :=
  { s with transactions := s.transactions.erase name }

/-- Logs what happened. -/
def record (s : Scene) (entry : LogEntry) : Scene := { s with log := s.log ++ [entry] }

end Scene

/-- A cluster that is driven by a session, with callbacks and handlers of any kind. -/
abbrev World (η : Type) := Cluster η Scene

/-- Where a step is carried out. -/
structure Place where
  node : NodeName
  thread : Thread
  /-- The transaction that the step takes part in. -/
  tx : Option TxId := none

/-- Turns the outcome of a call that can fail into an answer. -/
def replied {η ε α : Type} (fault : ε → Fault) (value : α → Value) (x : Except ε α × World η) :
    Answer × World η :=
  (Answer.ofExcept fault value x.1, x.2)

end JobCluster.Session
