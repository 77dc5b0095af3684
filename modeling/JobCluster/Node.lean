import JobCluster.Coordination.Lease
import JobCluster.Exchange.Registry
import JobCluster.Instance.Command
import JobCluster.Scheduler.Basic
import JobCluster.Transaction.Manager
/-!
# Nodes

A node of the cluster: its transaction manager, its exchange registry with the operation catalog,
its coordinator's office, its scheduler, and the handlers of the job types that it can process.
-/

namespace JobCluster

/-- What processes the jobs of a type. -/
inductive Handler (η : Type)
  /-- Carries out commands to process instances. -/
  | instanceCommand
  /-- Fails exchanges whose partners have not answered. -/
  | exchangeTimeout
  /-- Whatever the application has registered. -/
  | custom (script : η)

/-- The type of the jobs that fail exchanges. -/
def exchangeTimeoutType : String := "mex-timeout"

/-- The details of the job that fails an exchange. -/
def exchangeTimeoutJob (id : ExchangeId) : JobDetails :=
  (JobDetails.mk exchangeTimeoutType ∅).insert "mex" id.text

/-- A node. -/
structure Node (η : Type) where
  settings : Settings
  manager : TxManager
  registry : Registry
  catalog : Catalog := {}
  /-- Whether the registry consults the catalog. -/
  usesCatalog : Bool := true
  coordinator : Coordinator := .elected false 0
  handlers : Table String (Handler η)
  scheduler : Scheduler := {}

namespace Node

variable {η : Type}

/-- The handlers that every node has. -/
def standardHandlers : Table String (Handler η) :=
  Table.ofList
    [(InstanceCommand.jobType, .instanceCommand), (exchangeTimeoutType, .exchangeTimeout)]

/-- A node as it is built from its settings. -/
def ofSettings (settings : Settings) : Node η where
  settings
  manager := { defaultTimeout := settings.transactionTimeout.wordMillis }
  registry := { ttl := settings.ttlMillis, sweepInterval := settings.sweepMillis }
  handlers := standardHandlers

instance : Inhabited (Node η) := ⟨ofSettings {}⟩

/-- The identifier of the node in the store. -/
def id (n : Node η) : NodeId := n.settings.nodeId

/-- The catalog that the registry consults. -/
def bindingCatalog (n : Node η) : Option Catalog := if n.usesCatalog then some n.catalog else none

end Node

end JobCluster
