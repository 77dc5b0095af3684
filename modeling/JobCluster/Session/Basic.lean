import JobCluster.Session.Label
import JobCluster.Session.Run
/-!
# Sessions

A session sets a cluster up and carries out steps on it, one after another. The result of each step
is its answer, with the log of what happened meanwhile.
-/

namespace JobCluster

/-- How a node of a session is set up. -/
structure NodeSetup where
  settings : Settings
  /-- Whether the coordinator's office is fixed, and how. -/
  leads : Option Bool := none
  hasProcessor : Bool := true
  usesCatalog : Bool := true

/-- The node that is set up. -/
def NodeSetup.node {η : Type} (setup : NodeSetup) : Node η :=
  let x : Node η := .ofSettings setup.settings
  { x with
    usesCatalog := setup.usesCatalog
    coordinator := match setup.leads with
      | some leads => .fixed leads
      | none => x.coordinator
    scheduler := { x.scheduler with hasProcessor := setup.hasProcessor } }

/-- A session: the time at which it begins, the nodes and the steps. A session that names no node
has one all the same. -/
structure Session where
  now : Time
  nodes : Table NodeName NodeSetup
  steps : List Session.Step

namespace Session

/-- The settings of a node of a session, as far as nothing else is said. -/
def defaultSettings (name : NodeName) : Settings :=
  { nodeId := ⟨name⟩, workerThreads := 1, heartbeat := .ofSeconds 3600 }

/-- The result of a step. -/
structure Result where
  answer : Answer
  log : List LogEntry

/-- The results of a session, and the labels that it has given to drawn identifiers. -/
structure Report where
  results : List Result
  labels : Table String String

/-- The node of a session that names none. -/
def loneNode : NodeName := "n"

/-- How the nodes of a session are set up. -/
def setups (s : Session) : Table NodeName NodeSetup :=
  if s.nodes.isEmpty then Table.insert ∅ loneNode { settings := defaultSettings loneNode }
  else s.nodes

/-- The cluster as it is set up. Every node hears of changes to process instances. -/
def stage (s : Session) : Stage where
  clock := s.now
  nodes := s.setups.map fun _ setup => setup.node
  listeners := s.setups.keys.map .cleanUp
  outside := {}

/-- Carries out one step. A panic is the answer to the step that it escapes from. -/
def runOne (c : Stage) (step : Step) : Result × Stage :=
  let (outcome, c) := runStep step (c.modifyOutside fun s => { s with log := [] })
  let answer := match outcome with
    | .ok answer => answer
    | .error p => .panicked p.message
  ({ answer, log := c.outside.log }, c)

/-- Carries out steps one after another. -/
def runAll : List Step → Stage → List Result × Stage
  | [], c => ([], c)
  | step :: rest, c =>
    let (first, c) := runOne c step
    let (others, c) := runAll rest c
    (first :: others, c)

/-- Carries out a session. -/
def run (s : Session) : Report :=
  let (results, c) := runAll s.steps s.stage
  { results, labels := c.outside.labels }

end Session

end JobCluster
