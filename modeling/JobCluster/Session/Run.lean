import JobCluster.Session.Step
/-!
# Carrying steps out

What a step does to the cluster and its world, and what it is answered with. Work consists of
steps, and steps do work: how deeply they may be nested in each other is limited, so that carrying
a step out comes to an end even if a handler calls itself.
-/

namespace JobCluster.Session

/-- A cluster whose callbacks and handlers are scripts. -/
abbrev Stage := World (Script Step)

/-- Something that is done on a stage, and may end in a panic. -/
abbrev Play (α : Type) := Act (Script Step) Scene α

/-- How the steps of some work are carried out: on a thread, and in a transaction or in none. -/
abbrev Runner := Thread → Option TxId → Step → Play Answer

/-! ## Places -/

/-- The node whose parts a step calls: the one that it names, or else the first one. -/
def nodeOf (c : Stage) : Option NodeName → Except Refusal NodeName
  | some n => if c.nodes.contains n then .ok n else .error .unknownNode
  | none =>
    match c.nodes.keys.head? with
    | some n => .ok n
    | none => .error .unknownNode

/-- The transaction that a step takes part in: the one that it names, which must be open, or else
the one around it. -/
def txOf (c : Stage) (around : Option TxId) : Option String → Except Refusal (Option TxId)
  | some name =>
    match c.outside.transactions.get? name with
    | some id => .ok (some id)
    | none => .error .noTransaction
  | none => .ok around

/-- Where a step is carried out. -/
def placeOf (thread : Thread) (around : Option TxId) (step : Step) (c : Stage) :
    Except Refusal Place := do
  let node ← nodeOf c step.node
  let tx ← txOf c around step.tx
  return { node, tx, thread := (step.thread.map Thread.named).getD thread }

/-! ## Scripts -/

/-- Changes the world of the session. -/
def modifyScene (f : Scene → Scene) : Play Unit := Act.modify fun c => c.modifyOutside f

/-- The end of some work. -/
def Finish.perform : Finish → Play (Except ProcessingError Unit)
  | .returns => return .ok ()
  | .fails e => return .error e
  | .panics message => Act.panic message

/-- What scripts do as callbacks and as handlers: they carry their steps out, log what came of it
and end as they are told to. -/
def application (run : Runner) : Application (Script Step) Scene where
  callback thread script phase := do
    let answers ← script.work.steps.mapM (run thread none)
    modifyScene fun s => s.record (.hook script.name phase answers)
    return (← script.work.finish.perform).mapError ProcessingError.message
  handler thread script info tx := do
    let answers ← script.work.steps.mapM (run thread tx)
    modifyScene fun s => s.record (.run info tx.isSome answers)
    script.work.finish.perform
  listener name event s := s.record (.heard name event)

/-! ## Work in transactions -/

/-- Gives a transaction a label, if there is one to be given. -/
def labelWith (label : Option String) (id : TxId) (s : Scene) : Scene :=
  match label with
  | some label => s.labelTransaction label id
  | none => s

/-- Does work as the body of a transaction, and keeps the answers of its steps. -/
def body (run : Runner) (thread : Thread) (work : Work Step) (label : Option String) (id : TxId) :
    Play (Except String (List Answer)) := do
  modifyScene (labelWith label id)
  let answers ← work.steps.mapM (run thread (some id))
  modifyScene fun s => { s with work := s.work.insert id answers }
  return (← work.finish.perform).map (fun _ => answers) |>.mapError ProcessingError.message

/-- Does work in a transaction of its own. The steps are answered even if the transaction is rolled
back. -/
def execWork (run : Runner) (place : Place) (work : Work Step) (timeout : Option Time)
    (label : Option String) : Play Answer := do
  let id ← Act.gets fun c => TxId.mk c.nextTx
  let result ← Cluster.execTransaction (application run) place.node place.thread timeout
    (body run place.thread work label)
  let answers ← Act.gets fun c => (c.outside.work.get? id).getD []
  return .work (result.map fun _ => ()) answers

/-- Does work in a transaction of its own, on the worker of a node. -/
def isolateWork (run : Runner) (place : Place) (work : Work Step) (label : Option String) (c : Stage) :
    Answer × Stage :=
  let (result, c) := c.execIsolated (application run) place.node
    (body run (.worker place.node) work label)
  match result with
  | .ok answers => (.isolated answers, c)
  | .error e => (.failed (.scheduler e), c)

/-! ## Handlers -/

/-- Changes the handlers of a node. -/
def modifyHandlers (n : NodeName)
    (f : Table String (Handler (Script Step)) → Table String (Handler (Script Step))) (c : Stage) :
    Stage :=
  c.modifyNode n fun x => { x with handlers := f x.handlers }

/-- Carries out a call on the handlers of a node. -/
def HandlerCall.perform (run : Runner) (place : Place) (call : HandlerCall Step) : Play Answer :=
  let n := place.node
  match call with
  | .register script => do
    Act.modify (modifyHandlers n fun t => t.insert script.name (.custom script))
    return .value (.number (← Act.gets fun c => (c.node n).handlers.size))
  | .unregister jobType => do
    let removed ← Act.gets fun c => (c.node n).handlers.contains jobType
    Act.modify (modifyHandlers n fun t => t.erase jobType)
    return .value (.removal removed (← Act.gets fun c => (c.node n).handlers.size))
  | .handles jobType => Act.gets fun c => .value (.flag ((c.node n).handlers.contains jobType))
  | .process info => do
    let jobId ← Act.gets fun c => c.outside.jobId info.jobId.text
    let result ← Cluster.process (application run) n place.thread { info with jobId } place.tx
    return .ofUnit .processing result

/-! ## Steps -/

/-- Carries out what a step does at a place. What becomes of a scheduler as a whole is decided by
the steps of the session itself, not by those of any work. -/
def Action.perform (run : Runner) (top : Bool) (place : Place) (action : Action Step) :
    Play Answer :=
  match action with
  | .malformed => return .refused .malformed
  | .clock call => Act.lift call.run
  | .resource call => Act.lift call.run
  | .manager call => Act.lift (call.run place)
  | .transaction call => Act.lift (call.run (application run) place)
  | .jobs call => Act.lift (call.run place)
  | .scheduler call => Act.lift (call.run place)
  | .life call =>
    if top then Act.lift (call.run (application run) place) else return .refused .malformed
  | .handlers call => call.perform run place
  | .store call => Act.lift call.run
  | .heartbeats call => Act.lift call.run
  | .leases call => Act.lift call.run
  | .coordinator call => Act.lift (call.run place.node)
  | .catalog call => Act.lift (call.run place.node)
  | .registry call => Act.lift (call.run place)
  | .routes call => Act.lift (call.run place.node)
  | .exchange handle call => Act.lift (call.run handle)
  | .instances call => Act.lift (call.run place)
  | .todo queue call => Act.lift (call.run queue)
  | .exec work timeout label => execWork run place work timeout label
  | .isolated work label =>
    if top then Act.lift (isolateWork run place work label) else return .refused .malformed

/-- Carries out a step. -/
def perform (run : Runner) (top : Bool) (thread : Thread) (around : Option TxId) (step : Step) :
    Play Answer := fun c =>
  match placeOf thread around step c with
  | .ok place => step.action.perform run top place c
  | .error cause => (.ok (.refused cause), c)

/-- Carries out the steps of work that is nested no more deeply than the given number. -/
def nested : Nat → Runner
  | 0 => fun _ _ _ => Act.panic "steps are nested too deeply"
  | depth + 1 => perform (nested depth) false

/-- How deeply work may be nested. -/
def maxDepth : Nat := 1000

/-- Carries out a step of the session itself. -/
def runStep (step : Step) : Play Answer := perform (nested maxDepth) true .main none step

end JobCluster.Session
