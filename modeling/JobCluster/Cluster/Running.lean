import JobCluster.Cluster.Participants
/-!
# Running jobs

How a node processes a job: claim it if it is stored, hand it to the handler of its type, and take
it out of the store. A stored job that runs in a transaction is taken out as the last step of that
transaction; if its claim has been reset by then, the run is lost and everything it did is rolled
back.
-/

namespace JobCluster

/-- Why a run of a job came to nothing. -/
inductive JobFailure
  /-- The job was no longer there to be claimed, or its claim was lost. -/
  | lostClaim
  | store (error : JobStoreError)
  | processing (error : ProcessingError)
  deriving DecidableEq, Repr

/-- The failure that an error of the store means to a run. -/
def JobFailure.ofStore : JobStoreError → JobFailure
  | .noLongerStored _ => .lostClaim
  | e => .store e

namespace Cluster

variable {η ω : Type}

/-! ## Handlers -/

/-- Carries out the command of a job in a transaction. -/
def commandInstance (c : Cluster η ω) (details : JobDetails) (tx : Option TxId) :
    Except ProcessingError Unit × Cluster η ω :=
  match tx with
  | none => (.error (.failed "instance commands must run in a transaction"), c)
  | some tx =>
    match InstanceCommand.ofDetails details with
    | .error e => (.error e, c)
    | .ok (command, id) =>
      match c.setInstanceState tx id command.target c.clock with
      | (.ok _, c) => (.ok (), c)
      | (.error e, c) => (.error (.other e.message), c)

/-- Fails the exchange that a job names, if it is registered and not over. -/
def timeOutExchange (c : Cluster η ω) (n : NodeName) (details : JobDetails) :
    Except ProcessingError Unit × Cluster η ω :=
  match details.get? "mex" with
  | none => (.error (.failed "missing 'mex' entry"), c)
  | some id =>
    let registry := (c.node n).registry
    match registry.get? ⟨id⟩ with
    | none => (.ok (), c)
    | some _ =>
      match c.updateRegistry n
          (registry.fail ⟨id⟩ .noResponse (some "partner did not respond in time")) with
      | (.ok _, c) => (.ok (), c)
      | (.error e, c) => (.error (.other e.message), c)

/-- Hands a job to the handler of its type. -/
def process (app : Application η ω) (n : NodeName) (thread : Thread) (info : JobInfo)
    (tx : Option TxId) : Act η ω (Except ProcessingError Unit) := fun c =>
  match (c.node n).handlers.get? info.details.jobType with
  | none => (.ok (.error (.unknownType info.details.jobType)), c)
  | some .instanceCommand => Act.lift (fun c => c.commandInstance info.details tx) c
  | some .exchangeTimeout => Act.lift (fun c => c.timeOutExchange n info.details) c
  | some (.custom script) => app.handler thread script info tx c

/-! ## Claims -/

/-- Claims a stored job for the node. -/
def claim (c : Cluster η ω) (n : NodeName) (id : JobId) : Except JobFailure Unit × Cluster η ω :=
  match c.jobs.claim id (c.node n).id with
  | .ok (_, jobs) => (.ok (), { c with jobs })
  | .error e => (.error (.ofStore e), c)

/-- Claims a stored job for the time of a transaction. If the transaction is rolled back, the job
is dropped. -/
def claimFor (c : Cluster η ω) (n : NodeName) (tx : TxId) (id : JobId) :
    Except JobFailure Unit × Cluster η ω :=
  match c.claim n id with
  | (.ok (), c) => (.ok (), c.register tx .onRollback (.drop n id true))
  | (.error e, c) => (.error e, c)

/-- Takes a job that the node has claimed out of the store. -/
def finishClaim (c : Cluster η ω) (n : NodeName) (id : JobId) (outcome : JobOutcome) :
    Except JobFailure Unit × Cluster η ω :=
  match c.jobs.finish id (c.node n).id outcome with
  | .ok jobs => (.ok (), { c with jobs })
  | .error e => (.error (.ofStore e), c)

/-- A callback that no longer drops the job. -/
def disarm (id : JobId) : Callback η → Callback η
  | .drop n j armed => .drop n j (armed && decide (j ≠ id))
  | callback => callback

/-- Takes the job out of the store as the last step of its transaction. -/
def releaseClaim (c : Cluster η ω) (n : NodeName) (tx : TxId) (id : JobId) :
    Except JobFailure Unit × Cluster η ω :=
  match c.finishClaim n id .done with
  | (.ok (), c) => (.ok (), c.modifyTransaction tx fun t => t.mapCallbacks (disarm id))
  | (.error e, c) => (.error e, c)

/-! ## Runs -/

/-- The work of a run in its transaction. -/
def transactedBody (app : Application η ω) (n : NodeName) (thread : Thread) (info : JobInfo)
    (tx : TxId) : Act η ω (Except JobFailure Unit) := do
  if info.persisted then
    if let .error e ← Act.lift fun c => c.claimFor n tx info.jobId then return .error e
  if let .error e ← process app n thread info (some tx) then return .error (.processing e)
  if info.persisted then Act.lift fun c => c.releaseClaim n tx info.jobId else return .ok ()

/-- A run outside any transaction. -/
def plainRun (app : Application η ω) (n : NodeName) (thread : Thread) (info : JobInfo) :
    Act η ω (Except JobFailure Unit) := do
  if info.persisted then
    if let .error e ← Act.lift fun c => c.claim n info.jobId then return .error e
  let result ← process app n thread info none
  if info.persisted then
    let outcome := match result with
      | .ok () => JobOutcome.done
      | .error _ => .failedDropped
    if let .error e ← Act.lift fun c => c.finishClaim n info.jobId outcome then return .error e
  match result with
  | .ok () => return .ok ()
  | .error e => return .error (.processing e)

/-- How a run ended. -/
def endOf : Except (WorkFailure JobFailure) Unit → JobEnd
  | .ok () => .completed
  | .error (.body .lostClaim) => .lostClaim
  | .error (.body _) => .failed
  | .error (.transaction _) => .failed

/-- Runs a job in a transaction of its own, or in none. -/
def attempt (app : Application η ω) (n : NodeName) (thread : Thread) (info : JobInfo) :
    Act η ω JobEnd := do
  if info.transacted then
    return endOf (← runInTransaction app n thread none (transactedBody app n thread info))
  else
    match ← plainRun app n thread info with
    | .ok () => return .completed
    | .error e => return endOf (.error (.body e))

/-- Runs a job and counts how the run ended. A panic leaves the counts and the mark of the job as
they are. -/
def runJob (app : Application η ω) (n : NodeName) (job : ScheduledJob) : Act η ω Unit := do
  let info := job.info
  if ← Act.gets fun c => (c.node n).scheduler.hasProcessor then
    let ending ← attempt app n (.worker n) info
    Act.modify fun c => c.modifyTodo n fun q => q.finish info.jobId
    Act.modify fun c => c.modifyScheduler n fun s => s.count ending
  else Act.modify fun c => c.modifyTodo n fun q => q.finish info.jobId

end Cluster

end JobCluster
