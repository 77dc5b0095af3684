import JobCluster.Proofs.Job.Dispatch
/-!
# Housekeeping of a scheduler that stops and starts

A start queues every housekeeping task once. A worker that has done such a task looks whether the
scheduler is running, and queues the task again if it is. The worker knows nothing of a stop and a
start that have come in between. This file is about histories in which the scheduler is started and
stopped, and loops and workers make their steps in any order; a task in hand is late if the
scheduler was stopped after it was taken out of the queue.

Main results:

- `TodoQueue.count`, `TodoQueue.SameUpkeep`: the copies of a housekeeping task in a queue, and what
  leaves them alone;
- `Upkeep.step`: what one step does;
- `Upkeep.goOn_dispatch`: the loops are those that hand out jobs;
- `Upkeep.play_runTask`: a worker that is left to itself does a task, looks and queues it again.
-/

namespace JobCluster

variable {η ω : Type}

/-! ## Copies of housekeeping tasks -/

namespace TodoQueue

variable {q r : TodoQueue} {task : Task}

/-- The number of copies of a task in the queue. -/
def count (q : TodoQueue) (task : Task) : Nat := q.entries.countP fun e => decide (e.task = task)

/-- A task that is pushed is one more copy of itself. -/
theorem count_push (q : TodoQueue) (other : Task) (due : Time) (task : Task) :
    (q.push other due).count task = q.count task + (decide (other = task)).toNat :=
  countP_cons_toNat _ _ _

/-- Whether one queue has come out of another without a change of the housekeeping. -/
structure SameUpkeep (q r : TodoQueue) : Prop where
  numbered : q.Numbered → r.Numbered
  count : ∀ task : Task, task.job? = none → r.count task = q.count task

namespace SameUpkeep

/-- A queue has the same housekeeping as itself. -/
theorem refl (q : TodoQueue) : q.SameUpkeep q := ⟨id, fun _ _ => rfl⟩

/-- Queues have the same housekeeping if both have that of a third one. -/
theorem trans {q r t : TodoQueue} (h : q.SameUpkeep r) (h' : r.SameUpkeep t) : q.SameUpkeep t :=
  ⟨fun hq => h'.numbered (h.numbered hq),
    fun task htask => (h'.count task htask).trans (h.count task htask)⟩

/-- Jobs may be queued. -/
theorem enqueue (q : TodoQueue) (job : ScheduledJob) (due now ttl : Time) :
    q.SameUpkeep (q.enqueue job due now ttl).2 := by
  refine ⟨fun hq => hq.enqueue job due now ttl, fun task htask => ?_⟩
  rcases q.enqueue_cases job due now ttl with ⟨p, hentries, _, heq⟩ | ⟨heq, _⟩
  · have hother : Task.job job ≠ task := by
      rintro rfl
      cases htask
    rw [heq, count_push, TodoQueue.count, hentries, decide_eq_false hother]
    rfl
  · rw [heq]

/-- Jobs that are queued one after another leave the housekeeping as it is. -/
theorem enqueueAll (now ttl : Time) (jobs : List JobRecord) (q : TodoQueue) :
    q.SameUpkeep (Housekeeping.enqueueAll now ttl jobs q) := by
  induction jobs generalizing q with
  | nil => exact refl q
  | cons r rest ih => exact (enqueue q (.persisted r) r.effectiveDue now ttl).trans (ih _)

/-- A load pass leaves the housekeeping in the queue as it is. -/
theorem loadImmediate (settings : Settings) (now : Time) (store : JobStore) (q : TodoQueue) :
    q.SameUpkeep (Housekeeping.loadImmediate settings now store q).2 := by
  unfold Housekeeping.loadImmediate
  dsimp only
  split
  · exact refl q
  · split
    · exact enqueueAll _ _ _ q
    · exact refl q

/-- Jobs may be taken out. -/
theorem remove (q : TodoQueue) (id : JobId) : q.SameUpkeep (q.remove id).2 := by
  refine ⟨fun hq => hq.remove id, fun task htask => countP_filter_of_forall (fun e he => ?_) _⟩
  rw [of_decide_eq_true he, Task.runs, htask]
  rfl

end SameUpkeep

/-- A stop takes all housekeeping out of the queue. -/
theorem count_clearForStop (q : TodoQueue) (htask : task.job? = none) :
    q.clearForStop.2.count task = 0 := by
  refine countP_filter_eq_zero (fun e he => ?_) _
  rw [of_decide_eq_true he, Task.isVolatileJob, htask]

end TodoQueue

/-- A start queues every housekeeping task once. -/
theorem Scheduler.count_start (s : Scheduler) {task : Task} (htask : task.job? = none)
    (now staleAfter : Time) :
    (s.start now staleAfter).todo.count task = s.todo.count task + 1 := by
  simp only [Scheduler.start, TodoQueue.count_push]
  cases task with
  | job job => cases htask
  | loadImmediate | upgradeJobs | checkStaleNodes => rfl

namespace Cluster

variable (c : Cluster η ω) (n : NodeName)

/-- A start does nothing to a scheduler, or starts one that is not running. -/
theorem start_cases (insideRuntime : Bool) :
    (c.start n insideRuntime).2 = c ∨
      (c.node n).scheduler.isRunning = false ∧
        ((c.start n insideRuntime).2.node n).scheduler =
          (c.node n).scheduler.start c.clock (c.node n).settings.stale.wordMillis := by
  unfold start
  dsimp only
  split
  · exact .inl rfl
  · split
    · exact .inl rfl
    · cases hphase : (c.node n).scheduler.phase with
      | running => exact .inl rfl
      | shutDown => exact .inl rfl
      | created | stopped =>
        refine .inr ⟨by rw [Scheduler.isRunning, hphase]; rfl, ?_⟩
        exact scheduler_modifyScheduler _ n _

/-- A change to the queue neither starts nor stops the scheduler. -/
theorem isRunning_modifyTodo (f : TodoQueue → TodoQueue) :
    ((c.modifyTodo n f).node n).scheduler.isRunning = (c.node n).scheduler.isRunning := by
  simp [modifyTodo, modifyScheduler, Scheduler.isRunning]

/-- Housekeeping leaves the housekeeping in the queue alone, and the scheduler running or not. -/
theorem sameUpkeep_housekeep (task : Task) :
    (c.node n).scheduler.todo.SameUpkeep ((c.housekeep n task).2.node n).scheduler.todo ∧
      ((c.housekeep n task).2.node n).scheduler.isRunning = (c.node n).scheduler.isRunning := by
  cases task with
  | job job => exact ⟨.refl _, rfl⟩
  | loadImmediate =>
    refine ⟨?_, ?_⟩
    · rw [housekeep, todo_modifyTodo]
      exact .loadImmediate _ _ _ _
    · rw [housekeep, isRunning_modifyTodo]
  | upgradeJobs => exact ⟨.refl _, rfl⟩
  | checkStaleNodes => exact ⟨.refl _, rfl⟩

/-- A worker does a housekeeping task and queues it again for the time that the task has asked for,
unless the scheduler was stopped. -/
theorem exists_runTask_eq (app : Application η ω) {task : Task} (htask : task.job? = none) :
    ∃ next d, c.housekeep n task = (some next, d) ∧
      (runTask app n task c).2 =
        if (d.node n).scheduler.isRunning then d.modifyTodo n fun q => q.push task next else d := by
  cases task with
  | job job => cases htask
  | loadImmediate | upgradeJobs | checkStaleNodes => exact ⟨_, _, rfl, rfl⟩

end Cluster

/-! ## Loops, workers and their steps -/

/-- A dispatch loop, with the lateness of the task in its hands. -/
structure UpkeepLoop extends DispatchLoop where
  /-- Whether the scheduler was stopped since the loop took the task out. -/
  late : Bool := false
  deriving DecidableEq, Repr

namespace UpkeepLoop

/-- The loop at another stage. -/
def goTo (l : UpkeepLoop) (stage : LoopStage) : UpkeepLoop := { l with stage }

/-- The loop once it has taken a task out. -/
def take (l : UpkeepLoop) (task : Task) : UpkeepLoop :=
  { l with stage := .carrying task, late := false }

/-- The loop once the scheduler is stopped. -/
def stop (l : UpkeepLoop) : UpkeepLoop := { toDispatchLoop := l.abort, late := true }

/-- Whether the loop has the task in hand, and no stop has come since it took it out. -/
def holds (task : Task) (l : UpkeepLoop) : Bool :=
  !l.late && decide (l.stage.held? = some task)

end UpkeepLoop

/-- How far a worker is with a task. -/
inductive DutyStage
  | ahead
  /-- The task is done, and is to run again at a time; the worker is going to look whether the
  scheduler is running. -/
  | done (next : Time)
  /-- The worker has found the scheduler running, and is going to queue the task. -/
  | cleared (next : Time)
  | ended
  deriving DecidableEq, Repr

/-- Whether the worker is through with the task. -/
def DutyStage.isOver : DutyStage → Bool
  | .ended => true
  | .ahead | .done _ | .cleared _ => false

/-- A task that was handed to a worker. -/
structure Duty where
  task : Task
  stage : DutyStage := .ahead
  /-- Whether the scheduler was stopped since the task was taken out of the queue. -/
  late : Bool := false
  deriving DecidableEq, Repr

namespace Duty

/-- The duty at another stage. -/
def goTo (d : Duty) (stage : DutyStage) : Duty := { d with stage }

@[simp]
theorem stage_goTo (d : Duty) (stage : DutyStage) : (d.goTo stage).stage = stage :=
  rfl

@[simp]
theorem task_goTo (d : Duty) (stage : DutyStage) : (d.goTo stage).task = d.task :=
  rfl

@[simp]
theorem late_goTo (d : Duty) (stage : DutyStage) : (d.goTo stage).late = d.late :=
  rfl

@[simp]
theorem goTo_goTo (d : Duty) (stage stage' : DutyStage) :
    (d.goTo stage).goTo stage' = d.goTo stage' :=
  rfl

/-- The duty once the scheduler is stopped. -/
def stop (d : Duty) : Duty := { d with late := true }

/-- Whether the worker has the task in hand, and no stop has come since it was taken out. -/
def holds (task : Task) (d : Duty) : Bool :=
  !d.late && !d.stage.isOver && decide (d.task = task)

end Duty

/-- Something that happens in a cluster and leaves the housekeeping in the queue of a node alone,
and its scheduler running or not. -/
structure UpkeepAside (η ω : Type) (n : NodeName) where
  change : Cluster η ω → Cluster η ω
  same : ∀ c : Cluster η ω,
    (c.node n).scheduler.todo.SameUpkeep ((change c).node n).scheduler.todo
  running : ∀ c : Cluster η ω,
    ((change c).node n).scheduler.isRunning = (c.node n).scheduler.isRunning

namespace UpkeepAside

variable {n : NodeName}

/-- Time goes by. -/
def wait (span : Time) : UpkeepAside η ω n where
  change c := { c with clock := c.clock + span }
  same _ := .refl _
  running _ := rfl

/-- A transaction commits, and a job that it has scheduled to be kept in memory is queued. -/
def commit (info : JobInfo) : UpkeepAside η ω n where
  change c := c.enqueueVolatile n info
  same c := by
    rw [Cluster.enqueueVolatile, Cluster.todo_modifyTodo]
    exact .enqueue _ _ _ _ _
  running c := c.isRunning_modifyTodo n _

/-- A job is cancelled. -/
def cancel (id : JobId) : UpkeepAside η ω n where
  change c := (c.cancel n id).2
  same c := by
    rw [Cluster.todo_cancel]
    exact .remove _ id
  running c := by
    unfold Cluster.cancel cancelJob
    cases c.jobs.cancel id <;> exact Cluster.isRunning_modifyTodo _ n _

end UpkeepAside

/-- A step in a history of the housekeeping on a node. -/
inductive UpkeepStep (η ω : Type) (n : NodeName)
  | start (insideRuntime : Bool)
  | stop
  /-- A loop goes on. Where it may have to wait, it is told whether it has to. -/
  | proceed (loop : Nat) (ready : Bool)
  /-- A worker does its task. -/
  | perform (duty : Nat)
  /-- A worker that has done its task looks whether the scheduler is running. -/
  | look (duty : Nat)
  /-- A worker that has found the scheduler running queues its task again. -/
  | requeue (duty : Nat)
  | aside (what : UpkeepAside η ω n)

/-- A cluster with the loops and the tasks handed to workers of a node, oldest first, and what
became of housekeeping tasks since the last stop. -/
structure Upkeep (η ω : Type) where
  cluster : Cluster η ω
  loops : List UpkeepLoop := []
  duties : List Duty := []
  /-- The tasks that workers have queued again after a stop, having been handed them before. -/
  strays : List Task := []
  /-- The tasks that were taken out and have come to nothing. -/
  shed : List Task := []

namespace Upkeep

variable (n : NodeName) (s : Upkeep η ω)

/-- The todo queue of the node. -/
def todo : TodoQueue := (s.cluster.node n).scheduler.todo

/-- Whether the scheduler of the node is running. -/
def isRunning : Bool := (s.cluster.node n).scheduler.isRunning

/-- A loop moves on to another stage. -/
def moveLoop (i : Nat) (l : UpkeepLoop) (stage : LoopStage) : Upkeep η ω :=
  { s with loops := s.loops.set i (l.goTo stage) }

/-- A loop takes a task out of the queue. -/
def take (i : Nat) (l : UpkeepLoop) (task : Task) (rest : TodoQueue) : Upkeep η ω :=
  { s with
    cluster := s.cluster.modifyTodo n fun _ => rest
    loops := s.loops.set i (l.take task) }

/-- A loop hands its task to a worker. -/
def handOver (i : Nat) (l : UpkeepLoop) (task : Task) : Upkeep η ω :=
  { s with
    loops := s.loops.set i (l.goTo .top)
    duties := s.duties ++ [{ task, late := l.late }] }

/-- Notes that a task has come to nothing, unless it is late. -/
def shedding (late : Bool) (task : Task) : List Task := s.shed ++ if late then [] else [task]

/-- A loop ends with a task in hand. -/
def drop (i : Nat) (l : UpkeepLoop) (task : Task) : Upkeep η ω :=
  { s with loops := s.loops.set i (l.goTo .ended), shed := s.shedding l.late task }

/-- A loop goes on. -/
def goOn (i : Nat) (l : UpkeepLoop) (ready : Bool) : Upkeep η ω :=
  match l.stage with
  | .top => s.moveLoop i l (if s.isRunning n then .looking s.cluster.clock else .ended)
  | .looking now =>
    match (s.todo n).pop? now with
    | some (task, rest) => s.take n i l task rest
    | none => s.moveLoop i l (if ready then .top else if l.aborted then .ended else .asleep)
  | .carrying task =>
    if ready then s.handOver i l task
    else if l.aborted then s.drop i l task
    else s.moveLoop i l (.waiting task)
  | .waiting task => if ready then s.handOver i l task else s
  | .asleep => s.moveLoop i l .top
  | .ended => s

/-- A worker does its task; a job is not queued again. -/
def perform (k : Nat) (d : Duty) : Upkeep η ω :=
  match d.stage with
  | .ahead =>
    match s.cluster.housekeep n d.task with
    | (some next, cluster) => { s with cluster, duties := s.duties.set k (d.goTo (.done next)) }
    | (none, cluster) => { s with cluster, duties := s.duties.set k (d.goTo .ended) }
  | .done _ | .cleared _ | .ended => s

/-- A worker that has done its task looks whether the scheduler is running. -/
def look (k : Nat) (d : Duty) : Upkeep η ω :=
  match d.stage with
  | .done next =>
    if s.isRunning n then { s with duties := s.duties.set k (d.goTo (.cleared next)) }
    else { s with duties := s.duties.set k (d.goTo .ended), shed := s.shedding d.late d.task }
  | .ahead | .cleared _ | .ended => s

/-- A worker that has found the scheduler running queues its task again. -/
def requeue (k : Nat) (d : Duty) : Upkeep η ω :=
  match d.stage with
  | .cleared next =>
    { s with
      cluster := s.cluster.modifyTodo n fun q => q.push d.task next
      duties := s.duties.set k (d.goTo .ended)
      strays := s.strays ++ if d.late then [d.task] else [] }
  | .ahead | .done _ | .ended => s

/-- Makes a step. One that is not possible changes nothing. -/
def step : UpkeepStep η ω n → Upkeep η ω
  | .start insideRuntime =>
    let cluster := (s.cluster.start n insideRuntime).2
    if !s.isRunning n && (cluster.node n).scheduler.isRunning then
      { s with cluster, loops := s.loops ++ [{}] }
    else { s with cluster }
  | .stop =>
    if s.isRunning n then
      { cluster := s.cluster.stop n
        loops := s.loops.map UpkeepLoop.stop
        duties := s.duties.map Duty.stop }
    else s
  | .proceed i ready =>
    match s.loops[i]? with
    | some l => s.goOn n i l ready
    | none => s
  | .perform k =>
    match s.duties[k]? with
    | some d => s.perform n k d
    | none => s
  | .look k =>
    match s.duties[k]? with
    | some d => s.look n k d
    | none => s
  | .requeue k =>
    match s.duties[k]? with
    | some d => s.requeue n k d
    | none => s
  | .aside what => { s with cluster := what.change s.cluster }

/-- Makes steps one after another. -/
def play (steps : List (UpkeepStep η ω n)) : Upkeep η ω := steps.foldl (step n) s

/-! ## The same loops and the same work -/

/-- The dispatch of jobs, of which the housekeeping is a part. -/
def dispatch : Dispatch η ω where
  cluster := s.cluster
  loops := s.loops.map UpkeepLoop.toDispatchLoop
  runs := s.duties.map fun d => { task := d.task, finished := d.stage.isOver }

/-- The loops are those that hand out jobs: they make the same of the cluster, and stand at the same
stages. -/
theorem goOn_dispatch {i : Nat} {l : UpkeepLoop} {ready : Bool}
    (hworker : s.dispatch.hasWorker n = ready) :
    (s.goOn n i l ready).cluster = (s.dispatch.goOn n i l.toDispatchLoop ready).cluster ∧
      (s.goOn n i l ready).dispatch.loops =
        (s.dispatch.goOn n i l.toDispatchLoop ready).loops := by
  have hset : ∀ m : UpkeepLoop, (s.loops.set i m).map UpkeepLoop.toDispatchLoop =
      s.dispatch.loops.set i m.toDispatchLoop := fun m => List.map_set
  unfold goOn Dispatch.goOn
  cases hstage : l.stage with
  | top => exact ⟨rfl, hset _⟩
  | looking now =>
    have hpop : s.dispatch.todo n = s.todo n := rfl
    simp only [hpop]
    cases (s.todo n).pop? now with
    | some x => exact ⟨rfl, hset _⟩
    | none => exact ⟨rfl, hset _⟩
  | carrying task =>
    simp only [hworker, Bool.and_self]
    split
    · exact ⟨rfl, hset _⟩
    · split
      · exact ⟨rfl, hset _⟩
      · exact ⟨rfl, hset _⟩
  | waiting task =>
    simp only [hworker]
    split
    · exact ⟨rfl, hset _⟩
    · exact ⟨rfl, rfl⟩
  | asleep => exact ⟨rfl, hset _⟩
  | ended => exact ⟨rfl, rfl⟩

variable {n s} {k : Nat} {d : Duty}

/-- A worker that is there does its task. -/
theorem step_perform (hd : s.duties[k]? = some d) : s.step n (.perform k) = s.perform n k d := by
  rw [step, hd]

/-- A worker that is there looks whether the scheduler is running. -/
theorem step_look (hd : s.duties[k]? = some d) : s.step n (.look k) = s.look n k d := by
  rw [step, hd]

theorem step_requeue (hd : s.duties[k]? = some d) : s.step n (.requeue k) = s.requeue n k d := by
  rw [step, hd]

/-- A worker that is left to itself looks whether the scheduler is running, and queues its task again
if it is. -/
theorem play_look_requeue {next : Time} (hd : s.duties[k]? = some d)
    (hstage : d.stage = .done next) :
    (s.play n [.look k, .requeue k]).cluster =
      if s.isRunning n then s.cluster.modifyTodo n fun q => q.push d.task next
      else s.cluster := by
  obtain ⟨hk, _⟩ := List.getElem?_eq_some_iff.mp hd
  have hat : ∀ stage, (s.duties.set k (d.goTo stage))[k]? = some (d.goTo stage) :=
    fun stage => List.getElem?_set_self hk
  simp only [play, List.foldl_cons, List.foldl_nil]
  rw [step_look hd, look, hstage]
  by_cases hrunning : s.isRunning n = true
  · simp only [if_pos hrunning]
    rw [step_requeue (hat _), requeue]
    simp
  · simp only [if_neg hrunning]
    rw [step_requeue (hat _), requeue]
    simp

/-- A worker that is left to itself does a housekeeping task, looks whether the scheduler is running
and queues the task again, as a node does that works on its own. -/
theorem play_runTask (app : Application η ω) (hd : s.duties[k]? = some d)
    (hahead : d.stage = .ahead) (htask : d.task.job? = none) :
    (s.play n [.perform k, .look k, .requeue k]).cluster =
      (Cluster.runTask app n d.task s.cluster).2 := by
  obtain ⟨hk, _⟩ := List.getElem?_eq_some_iff.mp hd
  obtain ⟨next, c, hhousekeep, hrun⟩ := s.cluster.exists_runTask_eq n app htask
  have hat : (s.duties.set k (d.goTo (.done next)))[k]? = some (d.goTo (.done next)) :=
    List.getElem?_set_self hk
  have hperform : s.step n (.perform k) =
      { s with cluster := c, duties := s.duties.set k (d.goTo (.done next)) } := by
    rw [step_perform hd, perform, hahead]
    simp only [hhousekeep]
  have hrest := play_look_requeue (n := n)
    (s := { s with cluster := c, duties := s.duties.set k (d.goTo (.done next)) }) hat rfl
  rw [hrun, play, List.foldl_cons, hperform]
  exact hrest

end Upkeep

end JobCluster
