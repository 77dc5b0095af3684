import JobCluster.Cluster.Lifecycle
import JobCluster.Proofs.Cluster.Bookkeeping
import JobCluster.Proofs.Job.Copies
/-!
# Dispatch loops and workers

A job that is kept in memory alone passes from the todo queue through a dispatch loop to a worker.
A loop takes a task out of the queue before it asks for a worker, and may have to wait for one with
the task in hand. A stop aborts the loops: one that waits is gone at once, and one that is at work
goes on until it would have to wait. This file is about histories in which transactions commit, jobs
are cancelled, the scheduler stops and starts, and loops and workers make their steps in any order.

Main results:

- `Dispatch.step`: what one step does;
- `Dispatch.play_of_handOut?`: a node that works on its own hands tasks out in one of these orders;
- `Cluster.runJob_handler`: a run of a volatile job invokes the processor once at most.
-/

namespace JobCluster

variable {η ω : Type}

/-! ## The runs of a volatile job -/

namespace Cluster

/-- The handler that is asked to process a job is asked once. -/
theorem process_handler (app : Application η ω) (n : NodeName) {thread : Thread} {info : JobInfo}
    {tx : Option TxId} {c : Cluster η ω}
    {handler : Thread → η → JobInfo → Option TxId → Act η ω (Except ProcessingError Unit)}
    (h : ∀ script, handler thread script info tx c = app.handler thread script info tx c) :
    process { app with handler } n thread info tx c = process app n thread info tx c := by
  unfold process
  split
  · rfl
  · rfl
  · rfl
  · exact h _

/-- The handlers that count for an attempt are called once, in a transaction of their own. -/
theorem attempt_handler (app : Application η ω) (n : NodeName) (thread : Thread) {info : JobInfo}
    (hinfo : info.persisted = false) (c : Cluster η ω) : ∃ tx d, ∀ handler,
      (∀ script, handler thread script info tx d = app.handler thread script info tx d) →
        attempt { app with handler } n thread info c = attempt app n thread info c := by
  cases htransacted : info.transacted with
  | false =>
      refine ⟨none, c, fun handler hsame => ?_⟩
      simp [attempt, htransacted, plainRun, hinfo, Act.bind_apply, process_handler app n hsame]
  | true =>
      rcases hbegin : (c.modifyManager n fun m => m.overrideTimeout thread none).begin n thread
        with ⟨e | tx, d⟩
      · refine ⟨none, c, fun handler _ => ?_⟩
        simp only [attempt_of_transacted _ _ _ _ htransacted, runInTransaction, hbegin]
      · refine ⟨some tx, d, fun handler hsame => ?_⟩
        have hbody : transactedBody { app with handler } n thread info tx d =
            transactedBody app n thread info tx d := by
          simp [transactedBody, hinfo, Act.bind_apply, process_handler app n hsame]
        simp only [attempt_of_transacted _ _ _ _ htransacted, runInTransaction, hbegin, hbody]
        rfl

/-- A run of a volatile job invokes the processor once at most: what the run does depends on the
handlers by what they do in one place. -/
theorem runJob_handler (app : Application η ω) (n : NodeName) {info : JobInfo}
    (hinfo : info.persisted = false) (c : Cluster η ω) : ∃ tx d, ∀ handler,
      (∀ script, handler (.worker n) script info tx d =
        app.handler (.worker n) script info tx d) →
      runJob { app with handler } n (.volatile info) c = runJob app n (.volatile info) c := by
  obtain ⟨tx, d, h⟩ := attempt_handler app n (.worker n) hinfo c
  refine ⟨tx, d, fun handler hsame => ?_⟩
  unfold runJob
  simp only [Act.bind_apply, Act.gets]
  split
  · simp only [Act.bind_apply, ScheduledJob.info, h handler hsame]
  · rfl

end Cluster

/-! ## Loops, workers and their steps -/

/-- Where a dispatch loop is. -/
inductive LoopStage
  /-- It is going to look whether the scheduler is still running. -/
  | top
  /-- It has read the clock, and is going to look into the queue. -/
  | looking (now : Time)
  /-- It has taken a task out, and is going to ask for a worker. -/
  | carrying (task : Task)
  /-- It waits for a worker, with the task in hand. -/
  | waiting (task : Task)
  /-- It waits for something to be queued or to become due. -/
  | asleep
  | ended
  deriving DecidableEq, Repr

namespace LoopStage

/-- The task that a loop has in hand. -/
def held? : LoopStage → Option Task
  | .carrying task | .waiting task => some task
  | .top | .looking _ | .asleep | .ended => none

/-- The task that is dropped if a loop is aborted. -/
def dropped? : LoopStage → Option Task
  | .waiting task => some task
  | .top | .looking _ | .carrying _ | .asleep | .ended => none

/-- A loop that is stopped drops the task it waits with. -/
theorem dropped?_eq_some {stage : LoopStage} {task : Task} :
    stage.dropped? = some task ↔ stage = .waiting task := by
  cases stage <;> simp [dropped?]

/-- Where a loop is once it is aborted. One that waits does not wake up again. -/
def abort : LoopStage → LoopStage
  | .waiting _ | .asleep => .ended
  | stage => stage

end LoopStage

/-- A dispatch loop. -/
structure DispatchLoop where
  stage : LoopStage := .top
  /-- Whether the loop is aborted: it goes on until it would have to wait. -/
  aborted : Bool := false
  deriving DecidableEq, Repr

namespace DispatchLoop

/-- The loop at another stage. -/
def goTo (l : DispatchLoop) (stage : LoopStage) : DispatchLoop := { l with stage }

/-- The loop once it is aborted. -/
def abort (l : DispatchLoop) : DispatchLoop := { stage := l.stage.abort, aborted := true }

end DispatchLoop

/-- A task that was handed to a worker. -/
structure PoolRun where
  task : Task
  /-- Whether the processor was invoked. -/
  invoked : Bool := false
  finished : Bool := false
  deriving DecidableEq, Repr

/-- Something that happens in a cluster and leaves the volatile jobs in the queue of a node as they
are. -/
structure Aside (η ω : Type) (n : NodeName) where
  change : Cluster η ω → Cluster η ω
  same : ∀ c : Cluster η ω, (c.node n).scheduler.todo.SameCopies ((change c).node n).scheduler.todo

/-- A step in a history of the dispatch on a node. -/
inductive DispatchStep (η ω : Type) (n : NodeName)
  /-- A transaction commits, and a job that it has scheduled to be kept in memory is queued. -/
  | commit (info : JobInfo)
  | cancel (id : JobId)
  | start (insideRuntime : Bool)
  | stop
  /-- A loop goes on. Where it may have to wait, it is told whether it has to. -/
  | proceed (loop : Nat) (ready : Bool)
  /-- A worker invokes the processor for its task. -/
  | invoke (run : Nat)
  | finish (run : Nat)
  /-- So many workers are busy with something else. -/
  | occupy (workers : Nat)
  | aside (what : Aside η ω n)

/-- The job that a step commits. -/
def DispatchStep.committed? {n : NodeName} : DispatchStep η ω n → Option JobId
  | .commit info => some info.jobId
  | .cancel _ | .start _ | .stop | .proceed .. | .invoke _ | .finish _ | .occupy _ | .aside _ =>
    none

/-- A cluster with the loops and the runs of a node, oldest first, and what became of the copies of
jobs: logs of those that were committed, cancelled or lost, and of those whose processor was
invoked. -/
structure Dispatch (η ω : Type) where
  cluster : Cluster η ω
  loops : List DispatchLoop := []
  runs : List PoolRun := []
  /-- The number of workers that are busy with something else. -/
  guests : Nat := 0
  committed : List Task := []
  cancelled : List Task := []
  lost : List Task := []
  invocations : List Task := []

namespace Dispatch

variable (n : NodeName) (s : Dispatch η ω)

/-- The todo queue of the node. -/
def todo : TodoQueue := (s.cluster.node n).scheduler.todo

/-- Whether the scheduler of the node is running. -/
def isRunning : Bool := (s.cluster.node n).scheduler.isRunning

/-- Whether there is a worker to be had. -/
def hasWorker : Bool :=
  decide ((s.runs.countP fun r => !r.finished) + s.guests <
    max (s.cluster.node n).settings.workerThreads 1)

/-- A loop moves on to another stage. -/
def moveLoop (i : Nat) (l : DispatchLoop) (stage : LoopStage) : Dispatch η ω :=
  { s with loops := s.loops.set i (l.goTo stage) }

/-- A loop takes a task out of the queue. -/
def take (i : Nat) (l : DispatchLoop) (task : Task) (rest : TodoQueue) : Dispatch η ω :=
  { s with
    cluster := s.cluster.modifyTodo n fun _ => rest
    loops := s.loops.set i (l.goTo (.carrying task)) }

/-- A loop hands its task to a worker. -/
def handOver (i : Nat) (l : DispatchLoop) (task : Task) : Dispatch η ω :=
  { s with loops := s.loops.set i (l.goTo .top), runs := s.runs ++ [{ task }] }

/-- A loop ends with a task in hand. -/
def drop (i : Nat) (l : DispatchLoop) (task : Task) : Dispatch η ω :=
  { s with loops := s.loops.set i (l.goTo .ended), lost := s.lost ++ [task] }

/-- A loop goes on. -/
def goOn (i : Nat) (l : DispatchLoop) (ready : Bool) : Dispatch η ω :=
  match l.stage with
  | .top => s.moveLoop i l (if s.isRunning n then .looking s.cluster.clock else .ended)
  | .looking now =>
    match (s.todo n).pop? now with
    | some (task, rest) => s.take n i l task rest
    | none => s.moveLoop i l (if ready then .top else if l.aborted then .ended else .asleep)
  | .carrying task =>
    if ready && s.hasWorker n then s.handOver i l task
    else if l.aborted then s.drop i l task
    else s.moveLoop i l (.waiting task)
  | .waiting task => if s.hasWorker n then s.handOver i l task else s
  | .asleep => s.moveLoop i l .top
  | .ended => s

/-- Makes a step. One that is not possible changes nothing. -/
def step : DispatchStep η ω n → Dispatch η ω
  | .commit info =>
    { s with
      cluster := s.cluster.enqueueVolatile n info
      committed := s.committed ++ [.job (.volatile info)] }
  | .cancel id =>
    match s.cluster.cancel n id with
    | (.ok _, cluster) => { s with cluster, cancelled := s.cancelled ++ (s.todo n).tasksOf id }
    | (.error _, cluster) => { s with cluster, lost := s.lost ++ (s.todo n).tasksOf id }
  | .start insideRuntime =>
    let cluster := (s.cluster.start n insideRuntime).2
    if !s.isRunning n && (cluster.node n).scheduler.isRunning then
      { s with cluster, loops := s.loops ++ [{}] }
    else { s with cluster }
  | .stop =>
    if s.isRunning n then
      { s with
        cluster := s.cluster.stop n
        loops := s.loops.map DispatchLoop.abort
        lost := s.lost ++ s.loops.filterMap fun l => l.stage.dropped? }
    else s
  | .proceed i ready =>
    match s.loops[i]? with
    | some l => s.goOn n i l ready
    | none => s
  | .invoke k =>
    match s.runs[k]? with
    | some r =>
      if r.invoked || r.finished then s
      else
        { s with
          runs := s.runs.set k { r with invoked := true }
          invocations := s.invocations ++ [r.task] }
    | none => s
  | .finish k =>
    match s.runs[k]? with
    | some r => { s with runs := s.runs.set k { r with finished := true } }
    | none => s
  | .occupy guests => { s with guests }
  | .aside what => { s with cluster := what.change s.cluster }

/-- Makes steps one after another. -/
def play (steps : List (DispatchStep η ω n)) : Dispatch η ω := steps.foldl (step n) s

end Dispatch

/-! ## What the calls leave in the queue -/

namespace Cluster

variable (c : Cluster η ω) (n : NodeName)

theorem scheduler_modifyScheduler (f : Scheduler → Scheduler) :
    ((c.modifyScheduler n f).node n).scheduler = f (c.node n).scheduler := by
  simp [modifyScheduler]

theorem todo_modifyTodo (f : TodoQueue → TodoQueue) :
    ((c.modifyTodo n f).node n).scheduler.todo = f (c.node n).scheduler.todo :=
  congrArg Scheduler.todo (c.scheduler_modifyScheduler n _)

theorem settings_modifyTodo (f : TodoQueue → TodoQueue) :
    ((c.modifyTodo n f).node n).settings = (c.node n).settings := by
  simp [modifyTodo, modifyScheduler]

/-- A cancellation takes a job out of the queue, whatever it is answered with. -/
theorem todo_cancel (id : JobId) :
    ((c.cancel n id).2.node n).scheduler.todo = ((c.node n).scheduler.todo.remove id).2 := by
  unfold cancel cancelJob
  cases c.jobs.cancel id <;> exact todo_modifyTodo _ n _

/-- A start queues housekeeping, or nothing. -/
theorem sameCopies_start (insideRuntime : Bool) : (c.node n).scheduler.todo.SameCopies
    ((c.start n insideRuntime).2.node n).scheduler.todo := by
  have hstart : ∀ s : Scheduler, ∀ now later, s.todo.SameCopies (s.start now later).todo :=
    fun s now _ => ((TodoQueue.SameCopies.push s.todo rfl now).trans (.push _ rfl now)).trans
      (.push _ rfl _)
  unfold start
  dsimp only
  split
  · exact .refl _
  · split
    · exact .refl _
    · split
      · exact .refl _
      · exact .refl _
      all_goals
        rw [scheduler_modifyScheduler]
        exact hstart _ _ _

/-- A stop leaves all copies in the queue. -/
theorem sameCopies_stop :
    (c.node n).scheduler.todo.SameCopies ((c.stop n).node n).scheduler.todo := by
  rw [stop, scheduler_modifyScheduler, Scheduler.stop]
  split
  · exact .clearForStop _
  · exact .refl _

/-- Housekeeping queues itself again, and stored jobs. -/
theorem sameCopies_runTask (app : Application η ω) {task : Task} (htask : task.job? = none) :
    (c.node n).scheduler.todo.SameCopies ((runTask app n task c).2.node n).scheduler.todo := by
  have hagain : ∀ d : Cluster η ω, ∀ next, task.isVolatileJob = false →
      (d.node n).scheduler.todo.SameCopies
        ((if (d.node n).scheduler.isRunning then d.modifyTodo n fun q => q.push task next
          else d).node n).scheduler.todo := by
    intro d next hvolatile
    split
    · rw [todo_modifyTodo]
      exact .push _ hvolatile _
    · exact .refl _
  cases task with
  | job job => cases htask
  | loadImmediate =>
      refine TodoQueue.SameCopies.trans ?_ (hagain (c.housekeep n .loadImmediate).2 _ rfl)
      rw [housekeep, todo_modifyTodo]
      exact .loadImmediate _ _ _ _
  | upgradeJobs => exact hagain (c.housekeep n .upgradeJobs).2 _ rfl
  | checkStaleNodes => exact hagain (c.housekeep n .checkStaleNodes).2 _ rfl

end Cluster

namespace Aside

variable {n : NodeName}

/-- A worker does housekeeping. -/
def housekeeping (app : Application η ω) (task : Task) (htask : task.job? = none) :
    Aside η ω n where
  change c := (Cluster.runTask app n task c).2
  same c := c.sameCopies_runTask n app htask

/-- Time goes by. -/
def wait (span : Time) : Aside η ω n where
  change c := { c with clock := c.clock + span }
  same _ := .refl _

/-- The job store cannot be reached any more. -/
def outage : Aside η ω n where
  change c := { c with jobs := { c.jobs with available := false } }
  same _ := .refl _

end Aside

namespace Dispatch

variable {n : NodeName} {s : Dispatch η ω}

/-- A loop takes its next step if it has not been stopped. -/
theorem step_proceed {i : Nat} {l : DispatchLoop} (hl : s.loops[i]? = some l) (ready : Bool) :
    s.step n (.proceed i ready) = s.goOn n i l ready := by
  rw [step, hl]

/-- A loop that goes on takes a due entry out of the queue of its node, or leaves the cluster
alone. -/
theorem cluster_proceed (s : Dispatch η ω) (i : Nat) (ready : Bool) :
    (s.step n (.proceed i ready)).cluster = s.cluster ∨
      ∃ now task rest, (s.todo n).pop? now = some (task, rest) ∧
        (s.step n (.proceed i ready)).cluster = s.cluster.modifyTodo n fun _ => rest := by
  cases hl : s.loops[i]? with
  | none =>
    rw [step, hl]
    exact .inl rfl
  | some l =>
    rw [step_proceed hl, goOn]
    cases l.stage with
    | top | asleep | ended => exact .inl rfl
    | looking now =>
      dsimp only
      cases hpop : (s.todo n).pop? now with
      | none => exact .inl rfl
      | some x => exact .inr ⟨now, x.1, x.2, hpop, rfl⟩
    | carrying task =>
      left
      dsimp only
      split
      · rfl
      · split <;> rfl
    | waiting task =>
      left
      dsimp only
      split <;> rfl

/-- Where a worker is to be had, a loop that goes on three times hands out the task that a node
which works on its own would do next. -/
theorem play_of_handOut? (app : Application η ω) {c : Cluster η ω}
    (hout : s.cluster.handOut? app n = some c) {i : Nat} {l : DispatchLoop}
    (hl : s.loops[i]? = some l) (htop : l.stage = .top) (hworker : s.hasWorker n = true) :
    ∃ task rest, (s.todo n).pop? s.cluster.clock = some (task, rest) ∧
      s.play n [.proceed i true, .proceed i true, .proceed i true] =
        { s with
          cluster := s.cluster.modifyTodo n fun _ => rest
          runs := s.runs ++ [{ task }] } ∧
      c = (Cluster.runTask app n task (s.cluster.modifyTodo n fun _ => rest)).2 := by
  unfold Cluster.handOut? at hout
  dsimp only at hout
  split at hout
  · next hrunning =>
    obtain ⟨⟨task, rest⟩, hpop, rfl⟩ := Option.map_eq_some_iff.mp hout
    refine ⟨task, rest, hpop, ?_, rfl⟩
    have hpop' : (s.todo n).pop? s.cluster.clock = some (task, rest) := hpop
    obtain ⟨hlength, hget⟩ := List.getElem?_eq_some_iff.mp hl
    have hback : s.loops.set i (l.goTo .top) = s.loops := by
      rw [DispatchLoop.goTo, ← htop, ← hget]
      exact List.set_getElem_self hlength
    have hfirst : s.step n (.proceed i true) = s.moveLoop i l (.looking s.cluster.clock) := by
      rw [step_proceed hl, goOn, htop]
      simp only [isRunning, hrunning, if_true]
    have hsecond : (s.moveLoop i l (.looking s.cluster.clock)).step n (.proceed i true) =
        s.take n i l task rest := by
      have hsame : (s.moveLoop i l (.looking s.cluster.clock)).todo n = s.todo n := rfl
      rw [step_proceed (List.getElem?_set_self hlength), goOn]
      simp only [DispatchLoop.goTo]
      rw [hsame, hpop']
      simp only [take, moveLoop, List.set_set, DispatchLoop.goTo]
    have hthird : (s.take n i l task rest).step n (.proceed i true) =
        (s.take n i l task rest).handOver i l task := by
      have hsame : (s.take n i l task rest).hasWorker n = s.hasWorker n := by
        simp only [hasWorker, take, Cluster.settings_modifyTodo]
      rw [step_proceed (List.getElem?_set_self hlength), goOn]
      simp only [DispatchLoop.goTo, hsame, hworker, Bool.and_self, if_true]
      rfl
    simp only [play, List.foldl_cons, List.foldl_nil, hfirst, hsecond, hthird]
    simp only [handOver, take, List.set_set, hback]
  · cases hout

end Dispatch

end JobCluster
