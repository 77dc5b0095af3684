import JobCluster.Duration
import JobCluster.Ident
/-!
# Node settings

The settings of a node, their overrides by named variables, and the checks that a node can run with
them.

Main results:

- `Settings.validate_eq_ok_iff`: settings are accepted exactly when no check is violated.
-/

namespace JobCluster

/-- Everything a node can be told about how to run. -/
structure Settings where
  nodeId : NodeId := ⟨"node-1"⟩
  /-- How many jobs may run at once. -/
  workerThreads : Nat := 16
  /-- Jobs due within this span are queued in memory. -/
  immediate : Duration := .ofSeconds 30
  /-- Jobs due within this span are owned by a node and stay in the store. -/
  nearFuture : Duration := .ofSeconds 600
  /-- The throughput for which load batches are sized. -/
  transactionsPerSecond : Nat := 100
  /-- How many jobs the todo queue is meant to hold. -/
  todoLimit : Nat := 10000
  /-- A job that was queued longer ago than this may be queued again. -/
  outstanding : Duration := .ofSeconds 3600
  /-- A node that was silent for longer than this is taken for dead. -/
  stale : Duration := .ofSeconds 10
  /-- How often a node reports that it lives, and renews its lease. -/
  heartbeat : Duration := .ofSeconds 5
  /-- How long a coordinator's lease lasts. -/
  lease : Duration := .ofSeconds 15
  /-- The timeout of transactions for which the thread has none. -/
  transactionTimeout : Duration := .ofSeconds 60
  /-- Unfinished exchanges older than this are evicted. -/
  exchangeTtl : Duration := .ofSeconds 120
  /-- The least time between two sweeps; by default a quarter of the time exchanges live. -/
  minSweep : Option Duration := none
  deriving DecidableEq, Repr, Inhabited

/-- What can be wrong with settings. -/
inductive SettingsError
  | invalidVariable (name value : String)
  | emptyNodeId
  | zero (setting : String)
  | inconsistent (reason : String)
  deriving DecidableEq, Repr

/-- The wording of an error. -/
def SettingsError.message : SettingsError → String
  | .invalidVariable name value => "Environment variable " ++ name ++ " has invalid value '" ++ value ++ "'"
  | .emptyNodeId => "Node id must not be empty; set TD_NODE_ID"
  | .zero setting => setting ++ " must be greater than zero"
  | .inconsistent reason => "Inconsistent configuration: " ++ reason

namespace Settings

/-- The number of jobs that one load pass takes, at least one. -/
def batchSize (s : Settings) : Nat :=
  max 1 (s.immediate.wordMillis * s.transactionsPerSecond / 1000)

/-- The age at which unfinished exchanges are evicted. -/
def ttlMillis (s : Settings) : Nat := s.exchangeTtl.wordMillis

/-- The least time between two sweeps. -/
def sweepMillis (s : Settings) : Nat :=
  match s.minSweep with
  | some d => d.wordMillis
  | none => s.ttlMillis / 4

/-! ## Overrides -/

/-- A variable and the change that its value makes; values it cannot read make none. -/
structure Override where
  variableName : String
  apply : String → Settings → Option Settings

/-- Reads a span given in seconds. -/
def readSeconds (value : String) : Option Duration := (Text.readWord value).map Duration.ofSeconds

/-- The variables that override settings, in the order in which they are applied. -/
def overrides : List Override :=
  [⟨"TD_NODE_ID", fun value s => some { s with nodeId := ⟨value⟩ }⟩,
   ⟨"TD_WORKER_THREADS", fun value s =>
      (Text.readWord value).map fun n => { s with workerThreads := n }⟩,
   ⟨"TD_TX_TIMEOUT_SECS", fun value s =>
      (readSeconds value).map fun d => { s with transactionTimeout := d }⟩,
   ⟨"TD_MEX_TTL_SECS", fun value s => (readSeconds value).map fun d => { s with exchangeTtl := d }⟩,
   ⟨"TD_SWEEP_INTERVAL_SECS", fun value s =>
      (readSeconds value).map fun d => { s with minSweep := some d }⟩]

/-- Applies overrides in turn, up to the first one whose value cannot be read. -/
def applyAll (lookup : String → Option String) :
    List Override → Settings → Except SettingsError Unit × Settings
  | [], s => (.ok (), s)
  | o :: rest, s =>
    match lookup o.variableName with
    | none => applyAll lookup rest s
    | some value =>
      match o.apply value s with
      | some s => applyAll lookup rest s
      | none => (.error (.invalidVariable o.variableName value), s)

/-- The settings after the overrides found by the look-up, and whether all of them were read. -/
def applyOverrides (lookup : String → Option String) (s : Settings) :
    Except SettingsError Unit × Settings :=
  applyAll lookup overrides s

/-! ## Validation -/

/-- Every way in which settings can be unfit, in the order in which they are reported, with
whether these settings are. -/
def faults (s : Settings) : List (Bool × SettingsError) :=
  [(Text.trim s.nodeId.text == "", .emptyNodeId),
   (s.workerThreads == 0, .zero "worker_threads"),
   (s.transactionsPerSecond == 0, .zero "transactions_per_second"),
   (s.immediate.millis == 0, .zero "immediate_interval"),
   (decide (s.nearFuture ≤ s.immediate),
     .inconsistent "near_future_interval must exceed immediate_interval"),
   (s.heartbeat.millis == 0, .zero "heartbeat_interval"),
   (decide (s.stale ≤ s.heartbeat),
     .inconsistent "heartbeat_interval must be shorter than stale_interval"),
   (decide (s.lease ≤ s.heartbeat),
     .inconsistent "lease_duration must exceed heartbeat_interval"),
   (s.transactionTimeout.millis == 0, .zero "transaction timeout"),
   (s.exchangeTtl.millis == 0, .zero "exchange ttl")]

/-- Accepts settings that a node can run with, or names their first fault. -/
def validate (s : Settings) : Except SettingsError Unit :=
  match s.faults.find? Prod.fst with
  | some (_, error) => .error error
  | none => .ok ()

/-- Settings are accepted exactly when no check is violated. -/
theorem validate_eq_ok_iff (s : Settings) :
    s.validate = .ok () ↔ ∀ fault ∈ s.faults, fault.1 = false := by
  rw [validate]
  constructor
  · intro h
    split at h
    · simp at h
    · next hn => simpa using List.find?_eq_none.mp hn
  · intro h
    rw [List.find?_eq_none.mpr (by simpa using h)]

end Settings

end JobCluster
