import JobCluster.Proofs.Job.Upkeep
import JobCluster.Proofs.Job.Visibility
/-!
# How jobs come to be due

A job comes into the todo queue of a node in three ways: from the commit that publishes it, from the
commit after which it is to be kept in memory, and from a load pass, on the node that owns it by
then. Each way reckons a due time of its own. This file is about histories in which transactions
overlap, calls are made on the job store, load passes read the store and queue what they have read
one after another, and dispatch loops go on, stop and start on all nodes. A list keeps which jobs
were scheduled, for what time and when.

Main results:

- `Agenda.step`, `Agenda.play`: the steps, one at a time and one after another;
- `Agenda.popped?_eq_some_iff`: a loop comes to carry a job exactly by taking it out of the queue;
- `Agenda.unfolds_runTask`, `Agenda.unfolds_cancel`: the housekeeping of a node that works on its
  own and a cancellation are made of such steps.
-/

namespace JobCluster

variable {η ω : Type}

/-! ## Queues that no job comes into -/

/-- The only task of a job is the job itself. -/
theorem Task.eq_job_of_job? {t : Task} {job : ScheduledJob} (h : t.job? = some job) :
    t = .job job := by
  cases t with
  | job j => exact congrArg Task.job (Option.some.inj h)
  | loadImmediate | upgradeJobs | checkStaleNodes => cases h

namespace TodoQueue

variable {q r t : TodoQueue}

/-- Whether one queue has come out of another without a job being queued. -/
def AddsNoJob (q r : TodoQueue) : Prop :=
  ∀ e ∈ r.entries, e.task.isJob = true → e ∈ q.entries

namespace AddsNoJob

theorem refl (q : TodoQueue) : q.AddsNoJob q := fun _ he _ => he

/-- To add no job twice is to add no job. -/
theorem trans (h : q.AddsNoJob r) (h' : r.AddsNoJob t) : q.AddsNoJob t :=
  fun e he hjob => h e (h' e he hjob) hjob

/-- Entries may leave. -/
theorem of_subset (h : r.entries ⊆ q.entries) : q.AddsNoJob r := fun _ he _ => h he

/-- Housekeeping may be queued. -/
theorem push (q : TodoQueue) {task : Task} (htask : task.isJob = false) (due : Time) :
    q.AddsNoJob (q.push task due) := by
  intro e he hjob
  rcases List.mem_cons.mp he with rfl | he
  · rw [htask] at hjob
    cases hjob
  · exact he

/-- To drop an entry adds no job. -/
theorem dropEntry (q : TodoQueue) (e : TodoEntry) : q.AddsNoJob (q.dropEntry e) :=
  of_subset List.filter_sublist.subset

/-- To remove a job adds none. -/
theorem remove (q : TodoQueue) (id : JobId) : q.AddsNoJob (q.remove id).2 :=
  of_subset List.filter_sublist.subset

/-- To clear the queue for a stop adds no job. -/
theorem clearForStop (q : TodoQueue) : q.AddsNoJob q.clearForStop.2 :=
  of_subset List.filter_sublist.subset

end AddsNoJob

end TodoQueue

/-- A start adds housekeeping only. -/
theorem Scheduler.addsNoJob_start (s : Scheduler) (now staleAfter : Time) :
    s.todo.AddsNoJob (s.start now staleAfter).todo :=
  ((TodoQueue.AddsNoJob.push s.todo rfl now).trans (.push _ rfl now)).trans (.push _ rfl _)

theorem Scheduler.addsNoJob_stop (s : Scheduler) : s.todo.AddsNoJob s.stop.todo := by
  unfold stop
  split
  · exact .clearForStop _
  · exact .refl _

/-! ## Changes that queue no job -/

/-- Whether one cluster has come out of another without a job being scheduled or queued, and without
the clock being set back. -/
structure Cluster.Quietly (c d : Cluster η ω) : Prop where
  unmoved : c.Unmoved d
  transactions : d.transactions = c.transactions
  clock : c.clock ≤ d.clock
  todo : ∀ n, (c.node n).scheduler.todo.AddsNoJob (d.node n).scheduler.todo

namespace Cluster.Quietly

variable {c d : Cluster η ω} {n : NodeName}

theorem refl (c : Cluster η ω) : c.Quietly c :=
  ⟨.refl c, rfl, Nat.le_refl _, fun _ => .refl _⟩

/-- Something happens to the scheduler of a node. -/
theorem modifyScheduler (h : c.Quietly d) {f : Scheduler → Scheduler}
    (hf : (d.node n).scheduler.todo.AddsNoJob (f (d.node n).scheduler).todo) :
    c.Quietly (d.modifyScheduler n f) where
  unmoved := unmoved_modifyNode h.unmoved rfl
  transactions := h.transactions
  clock := h.clock
  todo m := by
    refine (h.todo m).trans ?_
    rw [Cluster.modifyScheduler, node_modifyNode]
    by_cases hnm : n = m
    · subst hnm
      rw [if_pos rfl]
      exact hf
    · rw [if_neg hnm]
      exact .refl _

/-- Something happens to the todo queue of a node. -/
theorem modifyTodo (c : Cluster η ω) {f : TodoQueue → TodoQueue}
    (hf : (c.node n).scheduler.todo.AddsNoJob (f (c.node n).scheduler.todo)) :
    c.Quietly (c.modifyTodo n f) :=
  (refl c).modifyScheduler hf

/-- A start queues no job. -/
theorem start (c : Cluster η ω) (n : NodeName) (insideRuntime : Bool) :
    c.Quietly (c.start n insideRuntime).2 := by
  have hbeat : ∀ heartbeats, c.Quietly { c with heartbeats } := fun _ =>
    ⟨⟨rfl, rfl, fun _ => rfl, rfl, rfl⟩, rfl, Nat.le_refl _, fun _ => .refl _⟩
  have hstart : ∀ heartbeats now staleAfter,
      c.Quietly (Cluster.modifyScheduler { c with heartbeats } n fun s => s.start now staleAfter) :=
    fun heartbeats now staleAfter => modifyScheduler (f := fun s => s.start now staleAfter)
      (hbeat heartbeats) (Scheduler.addsNoJob_start _ now staleAfter)
  unfold Cluster.start
  dsimp only
  split
  · exact refl c
  · split
    · exact refl c
    · split
      · exact refl c
      · exact refl c
      all_goals exact hstart _ _ _

theorem stop (c : Cluster η ω) (n : NodeName) : c.Quietly (c.stop n) :=
  (refl c).modifyScheduler (Scheduler.addsNoJob_stop _)

end Cluster.Quietly

namespace Elsewhere

/-- Whether no job is scheduled or queued elsewhere, and the clock is not set back. -/
def Quiet (what : Elsewhere η ω) : Prop := ∀ c : Cluster η ω, c.Quietly (what.change c)

/-- Time goes by. -/
def wait (span : Time) : Elsewhere η ω where
  change c := { c with clock := c.clock + span }
  jobs _ := rfl
  instances _ := rfl
  transactions _ := rfl
  registry _ _ := rfl
  nodeId _ _ := rfl
  nextTx _ := rfl
  nextJob _ := rfl

/-- Something happens to the todo queue of a node. -/
def inTodo (n : NodeName) (f : TodoQueue → TodoQueue) : Elsewhere η ω where
  change c := c.modifyTodo n f
  jobs _ := rfl
  instances _ := rfl
  transactions _ := rfl
  registry _ m := Cluster.registry_modifyNode rfl m
  nodeId c m := c.nodeId_modifyTodo n m f
  nextTx _ := rfl
  nextJob _ := rfl

/-- Nodes are heard of, or forgotten. -/
def inHeartbeats (f : Heartbeats → Heartbeats) : Elsewhere η ω where
  change c := { c with heartbeats := f c.heartbeats }
  jobs _ := rfl
  instances _ := rfl
  transactions _ := rfl
  registry _ _ := rfl
  nodeId _ _ := rfl
  nextTx _ := rfl
  nextJob _ := rfl

/-- No job is queued as the clock moves on. -/
theorem quiet_wait (span : Time) : (wait span : Elsewhere η ω).Quiet := fun _ =>
  ⟨⟨rfl, rfl, fun _ => rfl, rfl, rfl⟩, rfl, Nat.le_add_right _ _, fun _ => .refl _⟩

/-- What happens in a queue is quiet if it adds no job. -/
theorem quiet_inTodo (n : NodeName) {f : TodoQueue → TodoQueue}
    (hf : ∀ q : TodoQueue, q.AddsNoJob (f q)) : (inTodo n f : Elsewhere η ω).Quiet :=
  fun c => .modifyTodo c (hf _)

theorem quiet_inHeartbeats (f : Heartbeats → Heartbeats) :
    (inHeartbeats f : Elsewhere η ω).Quiet := fun _ =>
  ⟨⟨rfl, rfl, fun _ => rfl, rfl, rfl⟩, rfl, Nat.le_refl _, fun _ => .refl _⟩

end Elsewhere

/-! ## Loops that go on -/

namespace Dispatch

variable {n : NodeName} {s : Dispatch η ω}

/-- A step of a dispatch loop queues no job by itself. -/
theorem quietly_proceed (s : Dispatch η ω) (i : Nat) (ready : Bool) :
    s.cluster.Quietly (s.step n (.proceed i ready)).cluster := by
  rcases s.cluster_proceed (n := n) i ready with heq | ⟨now, task, rest, hpop, heq⟩
  · rw [heq]
    exact .refl _
  · rw [heq]
    obtain ⟨e, _, _, _, rfl⟩ := TodoQueue.pop?_eq_some hpop
    exact .modifyTodo _ (.dropEntry _ e)

theorem quietly_start (s : Dispatch η ω) (insideRuntime : Bool) :
    s.cluster.Quietly (s.step n (.start insideRuntime)).cluster := by
  rw [step]
  split <;> exact .start s.cluster n insideRuntime

theorem quietly_stop (s : Dispatch η ω) : s.cluster.Quietly (s.step n .stop).cluster := by
  rw [step]
  split
  · exact .stop s.cluster n
  · exact .refl _

end Dispatch

namespace Cluster

/-- A queue may be set and then modified, or set to the modified one. -/
theorem modifyTodo_modifyTodo (c : Cluster η ω) (n : NodeName) (q : TodoQueue)
    (f : TodoQueue → TodoQueue) :
    (c.modifyTodo n fun _ => q).modifyTodo n f = c.modifyTodo n fun _ => f q := by
  have hinsert : ∀ (t : Table NodeName (Node η)) x y, (t.insert n x).insert n y = t.insert n y :=
    fun t x y => Table.ext_get? fun m => by
      simp only [Table.get?_insert]
      split <;> rfl
  unfold modifyTodo modifyScheduler modifyNode setNode
  simp [node, hinsert]

end Cluster

/-! ## The clock -/

namespace Cluster

/-- No time passes as a transaction begins. -/
theorem clock_begin (c : Cluster η ω) (n : NodeName) (thread : Thread) :
    (c.begin n thread).2.clock = c.clock := by
  unfold begin
  dsimp only
  split
  · rfl
  · split <;> rfl

end Cluster

/-- A call in a transaction does not change the clock. -/
theorem WorkCall.Effect.clock {tx : TxId} {c d : Cluster η ω} {a : WorkCall η}
    {answer : WorkAnswer} {registered : List (Synchronizer (Callback η))}
    (h : Effect tx c a answer registered d) : d.clock = c.clock := by
  cases h with
  | written _ _ _ =>
      unfold Cluster.stageWrite
      split <;> rfl
  | staged | unstaged | planned | created | claimed | released | registered | marked | availability
  | refusal | failed => rfl

namespace Departure

theorem clock_first (app : Application η ω) (thread : Thread) (tx : TxId)
    (request : Transaction.Request) (t : Transaction (Callback η)) (c : Cluster η ω) :
    (first app thread tx request t c).2.clock = c.clock := by
  unfold first
  dsimp only
  split <;> rfl

theorem clock_next (app : Application η ω) (d : Departure η) (c : Cluster η ω) :
    (d.next app c).2.clock = c.clock := by
  unfold next
  dsimp only
  split
  · exact c.clock_carryOut app d.thread _ _
  · have hcommit : ((Cluster.surroundings app d.thread).commitResource d.transaction.id c).2.clock =
        c.clock := rfl
    split
    · next heq =>
      rw [heq] at hcommit
      exact hcommit
    · next heq =>
      rw [heq] at hcommit
      exact hcommit
  · exact c.clock_carryOut app d.thread _ _
  · rfl

end Departure

/-- A move that is not made elsewhere does not change the clock, and none sets it back that is. -/
theorem Interplay.clock_le_step (app : Application η ω) (o : Interplay η ω) {m : Move η ω}
    (hm : ∀ what, m = .elsewhere what → what.Quiet) :
    o.cluster.clock ≤ (o.step app m).cluster.clock := by
  cases m with
  | begin n thread => exact Nat.le_of_eq (o.cluster.clock_begin n thread).symm
  | work tx a =>
      unfold step
      dsimp only
      split
      · exact Nat.le_refl _
      · exact Nat.le_of_eq (a.effect_perform tx o.cluster).clock.symm
  | depart tx thread request =>
      unfold step
      dsimp only
      split
      · exact Nat.le_refl _
      · exact Nat.le_of_eq (Departure.clock_first app thread tx request _ o.cluster).symm
  | advance i =>
      unfold step
      dsimp only
      split
      · exact Nat.le_refl _
      · next d _ => exact Nat.le_of_eq (d.clock_next app o.cluster).symm
  | store a | registry n a => exact Nat.le_refl _
  | elsewhere what => exact (hm what rfl o.cluster).clock

/-! ## Agendas -/

/-- A job that was scheduled: for what time, and when. -/
structure Booking where
  id : JobId
  dueAt : Option Time
  time : Time
  deriving DecidableEq, Repr

/-- The job that a call schedules, if it is answered so at a time. -/
def WorkCall.booking? (now : Time) : WorkCall η → WorkAnswer → Option Booking
  | .schedulePersisted _ _ dueAt, .job (.ok id) => some ⟨id, dueAt, now⟩
  | .scheduleVolatile _ _ _ dueAt, .job (.ok id) => some ⟨id, dueAt, now⟩
  | _, _ => none

/-- The job that a call has scheduled. -/
def WorkEntry.booking? (e : WorkEntry η ω) : Option Booking :=
  e.call.booking? e.found.clock e.answer

/-- The jobs that the calls of transactions have scheduled. -/
def Interplay.bookings (o : Interplay η ω) : List Booking := o.log.filterMap WorkEntry.booking?

/-- A load pass under way, with the jobs that it has read and not queued yet. -/
structure LoadPass where
  node : NodeName
  rest : List JobRecord
  deriving DecidableEq, Repr

/-- A step in a history of jobs that come to be due. -/
inductive AgendaStep (η ω : Type)
  /-- Transactions, calls on the job store and whatever else happens go on. -/
  | move (move : Move η ω)
  | start (node : NodeName) (insideRuntime : Bool)
  | stop (node : NodeName)
  /-- A dispatch loop of a node goes on. Where it may have to wait, it is told whether it has to. -/
  | proceed (node : NodeName) (loop : Nat) (ready : Bool)
  /-- A load pass reads the jobs of its node from the store. -/
  | fetch (node : NodeName) (maxDue : Time) (limit : Nat)
  /-- A load pass queues the next job that it has read. -/
  | load (pass : Nat) (now ttl : Time)

/-- Whether a step schedules and queues no job elsewhere, and does not set the clock back. -/
def AgendaStep.Quiet : AgendaStep η ω → Prop
  | .move m => ∀ what, m = .elsewhere what → what.Quiet
  | .start _ _ | .stop _ | .proceed _ _ _ | .fetch _ _ _ | .load _ _ _ => True

/-- A history of overlapping transactions with the dispatch loops of the nodes, the load passes
under way, and the jobs that were staged in the store apart from transactions. -/
structure Agenda (η ω : Type) where
  world : Interplay η ω
  loops : NodeName → List DispatchLoop := fun _ => []
  passes : List LoadPass := []
  placed : List Booking := []

namespace Agenda

variable (s : Agenda η ω)

def clock : Time := s.world.cluster.clock

/-- The todo queue of a node. -/
def todo (n : NodeName) : TodoQueue := (s.world.cluster.node n).scheduler.todo

/-- The jobs that were scheduled so far. -/
def bookings : List Booking := s.world.bookings ++ s.placed

/-- The job that a move stages in the store apart from transactions. -/
def placing : Move η ω → List Booking
  | .store (.stage r) =>
    match s.world.cluster.jobs.stage r with
    | .ok _ => [⟨r.id, r.dueAt, s.clock⟩]
    | .error _ => []
  | _ => []

/-- The dispatch on a node. What its workers do is left to other steps. -/
def dispatch (n : NodeName) : Dispatch η ω := { cluster := s.world.cluster, loops := s.loops n }

/-- The cluster comes to another state. -/
def become (c : Cluster η ω) : Agenda η ω := { s with world := { s.world with cluster := c } }

/-- A step of the dispatch on a node is made. -/
def dispatched (n : NodeName) (x : DispatchStep η ω n) : Agenda η ω :=
  let d := (s.dispatch n).step n x
  { s.become d.cluster with loops := fun m => if m = n then d.loops else s.loops m }

/-- A load pass queues a job. -/
def queue (n : NodeName) (r : JobRecord) (now ttl : Time) : Agenda η ω :=
  s.become (s.world.cluster.modifyTodo n fun q =>
    (q.enqueue (.persisted r) r.effectiveDue now ttl).2)

/-- Makes a step. One that is not possible changes nothing. -/
def step (app : Application η ω) : AgendaStep η ω → Agenda η ω
  | .move m => { s with world := s.world.step app m, placed := s.placed ++ s.placing m }
  | .start n insideRuntime => s.dispatched n (.start insideRuntime)
  | .stop n => s.dispatched n .stop
  | .proceed n i ready => s.dispatched n (.proceed i ready)
  | .fetch n maxDue limit =>
    match s.world.cluster.jobs.dequeueImmediate (s.world.cluster.nodeId n) maxDue limit with
    | .ok jobs => { s with passes := s.passes ++ [⟨n, jobs⟩] }
    | .error _ => s
  | .load k now ttl =>
    match s.passes[k]? with
    | some ⟨n, r :: rest⟩ => { s.queue n r now ttl with passes := s.passes.set k ⟨n, rest⟩ }
    | _ => s

/-- Makes steps one after another. -/
def play (app : Application η ω) (steps : List (AgendaStep η ω)) : Agenda η ω :=
  steps.foldl (fun s x => s.step app x) s

/-- The job that a dispatch loop takes out of the queue in a step. -/
def popped? : AgendaStep η ω → Option ScheduledJob
  | .proceed n i _ => do
    let l ← (s.loops n)[i]?
    match l.stage with
    | .looking now =>
      let (task, _) ← (s.todo n).pop? now
      task.job?
    | _ => none
  | _ => none

variable {s} {app : Application η ω} {n : NodeName}

/-- A longer history of an agenda goes on where the shorter one has ended. -/
theorem play_append (steps more : List (AgendaStep η ω)) :
    s.play app (steps ++ more) = (s.play app steps).play app more :=
  List.foldl_append

/-- A job is taken out of the queue by a loop that has read the clock. -/
theorem popped?_eq_some {x : AgendaStep η ω} {job : ScheduledJob} (h : s.popped? x = some job) :
    ∃ n i ready l now rest, x = .proceed n i ready ∧ (s.loops n)[i]? = some l ∧
      l.stage = .looking now ∧ (s.todo n).pop? now = some (.job job, rest) := by
  cases x with
  | proceed n i ready =>
    simp only [popped?, Option.bind_eq_bind, Option.bind_eq_some_iff] at h
    obtain ⟨l, hl, h⟩ := h
    cases hstage : l.stage with
    | looking now =>
      rw [hstage] at h
      obtain ⟨⟨task, rest⟩, hpop, htask⟩ := Option.bind_eq_some_iff.mp h
      obtain rfl := Task.eq_job_of_job? htask
      exact ⟨n, i, ready, l, now, rest, rfl, hl, hstage, hpop⟩
    | top | carrying | waiting | asleep | ended =>
      rw [hstage] at h
      cases h
  | move | start | stop | fetch | load => cases h

/-- A loop comes to carry a job exactly by taking it out of the queue. -/
theorem popped?_eq_some_iff {i : Nat} {ready : Bool} {l : DispatchLoop} {job : ScheduledJob}
    (hl : (s.loops n)[i]? = some l) :
    s.popped? (.proceed n i ready) = some job ↔
      l.stage.held? = none ∧ ∃ l', ((s.step app (.proceed n i ready)).loops n)[i]? = some l' ∧
        l'.stage.held? = some (.job job) := by
  obtain ⟨hi, _⟩ := List.getElem?_eq_some_iff.mp hl
  have hset : ∀ m : DispatchLoop, ((s.loops n).set i m)[i]? = some m := fun m =>
    List.getElem?_set_self hi
  have hloops : (s.step app (.proceed n i ready)).loops n =
      ((s.dispatch n).goOn n i l ready).loops := by
    rw [← Dispatch.step_proceed (s := s.dispatch n) hl]
    exact if_pos rfl
  rw [hloops, popped?, hl]
  simp only [Option.bind_eq_bind, Option.bind_some]
  unfold Dispatch.goOn
  cases hstage : l.stage with
  | looking now =>
    have htodo : (s.dispatch n).todo n = s.todo n := rfl
    simp only [htodo]
    cases (s.todo n).pop? now with
    | none =>
      simp only [Dispatch.moveLoop, dispatch, hset]
      split
      · simp [DispatchLoop.goTo, LoopStage.held?]
      · split <;> simp [DispatchLoop.goTo, LoopStage.held?]
    | some x =>
      have hjob : x.1.job? = some job ↔ x.1 = .job job :=
        ⟨Task.eq_job_of_job?, fun h => by rw [h]; rfl⟩
      simp [Dispatch.take, dispatch, hset, DispatchLoop.goTo, LoopStage.held?, hjob]
  | top =>
    cases (s.dispatch n).isRunning n with
    | true | false => simp [Dispatch.moveLoop, dispatch, hset, DispatchLoop.goTo, LoopStage.held?]
  | carrying task | waiting task => simp [LoopStage.held?]
  | asleep => simp [Dispatch.moveLoop, dispatch, hset, DispatchLoop.goTo, LoopStage.held?]
  | ended => simp [dispatch, hl, hstage, LoopStage.held?]

/-! ## The housekeeping of a node that works on its own -/

/-- Whether one cluster comes of another by quiet steps, whatever is under way besides. -/
def Unfolds (app : Application η ω) (c d : Cluster η ω) : Prop :=
  ∀ s : Agenda η ω, s.world.cluster = c →
    ∃ steps, (∀ x ∈ steps, x.Quiet) ∧ (s.play app steps).world.cluster = d

namespace Unfolds

variable {c d e : Cluster η ω}

theorem refl (app : Application η ω) (c : Cluster η ω) : Unfolds app c c :=
  fun _ hs => ⟨[], by simp, hs⟩

/-- What unfolds in two parts unfolds as a whole. -/
theorem trans (h : Unfolds app c d) (h' : Unfolds app d e) : Unfolds app c e := by
  intro s hs
  obtain ⟨steps, hsteps, hd⟩ := h s hs
  obtain ⟨more, hmore, he⟩ := h' _ hd
  refine ⟨steps ++ more, fun x hx => ?_, by rw [play_append, he]⟩
  rcases List.mem_append.mp hx with hx | hx
  · exact hsteps x hx
  · exact hmore x hx

/-- Whatever happens quietly unfolds as one step. -/
theorem elsewhere (app : Application η ω) (c : Cluster η ω) {what : Elsewhere η ω}
    (hwhat : what.Quiet) : Unfolds app c (what.change c) := by
  intro s hs
  refine ⟨[.move (.elsewhere what)], fun x hx => ?_, congrArg what.change hs⟩
  obtain rfl := List.mem_singleton.mp hx
  intro _ heq
  cases heq
  exact hwhat

/-- A call on the store unfolds as one step. -/
theorem store (app : Application η ω) (c : Cluster η ω) (a : StoreCall) :
    Unfolds app c { c with jobs := a.apply c.jobs } := by
  intro s hs
  refine ⟨[.move (.store a)], fun x hx => ?_, by rw [← hs]; rfl⟩
  obtain rfl := List.mem_singleton.mp hx
  exact fun _ heq => nomatch heq

/-- The todo queue of a node is changed. -/
theorem inTodo (app : Application η ω) (c : Cluster η ω) (n : NodeName) {f : TodoQueue → TodoQueue}
    (hf : ∀ q : TodoQueue, q.AddsNoJob (f q)) : Unfolds app c (c.modifyTodo n f) :=
  elsewhere app c (Elsewhere.quiet_inTodo n hf)

end Unfolds

/-- A load pass that is left to itself queues all jobs that it has read. -/
theorem play_load {k : Nat} {jobs : List JobRecord} (hpass : s.passes[k]? = some ⟨n, jobs⟩)
    {c : Cluster η ω} {q : TodoQueue} (hc : s.world.cluster = c.modifyTodo n fun _ => q)
    (now ttl : Time) :
    (s.play app (List.replicate jobs.length (.load k now ttl))).world.cluster =
      c.modifyTodo n fun _ => Housekeeping.enqueueAll now ttl jobs q := by
  induction jobs generalizing s q with
  | nil => exact hc
  | cons r rest ih =>
    obtain ⟨hk, _⟩ := List.getElem?_eq_some_iff.mp hpass
    have hstep : s.step app (.load k now ttl) =
        { s.queue n r now ttl with passes := s.passes.set k ⟨n, rest⟩ } := by
      simp only [step, hpass]
    refine ih (s := s.step app (.load k now ttl)) ?_ ?_
    · rw [hstep]
      exact List.getElem?_set_self hk
    · rw [hstep]
      show (s.queue n r now ttl).world.cluster = _
      rw [queue, become, hc, Cluster.modifyTodo_modifyTodo]

/-- A load pass unfolds as it queues its jobs. -/
theorem unfolds_loadImmediate (app : Application η ω) (c : Cluster η ω) (n : NodeName) :
    Unfolds app c (c.housekeep n .loadImmediate).2 := by
  have hsame : Unfolds app c (c.modifyTodo n fun _ => (c.node n).scheduler.todo) :=
    .inTodo app c n (f := id) .refl
  unfold Cluster.housekeep Housekeeping.loadImmediate
  dsimp only
  split
  · exact hsame
  · cases hjobs : c.jobs.dequeueImmediate (c.node n).settings.nodeId
      (c.clock + (c.node n).settings.immediate.wordMillis) (c.node n).settings.batchSize with
    | error e => exact hsame
    | ok jobs =>
      refine hsame.trans fun s hs => ?_
      have hfetch : s.step app (.fetch n (c.clock + (c.node n).settings.immediate.wordMillis)
          (c.node n).settings.batchSize) = { s with passes := s.passes ++ [⟨n, jobs⟩] } := by
        have hsameJobs : s.world.cluster.jobs = c.jobs := by rw [hs]; rfl
        have hsameId : s.world.cluster.nodeId n = (c.node n).settings.nodeId := by
          rw [hs, Cluster.nodeId_modifyTodo]
          rfl
        simp only [step, hsameJobs, hsameId, hjobs]
      refine ⟨.fetch n (c.clock + (c.node n).settings.immediate.wordMillis)
          (c.node n).settings.batchSize :: List.replicate jobs.length (.load s.passes.length c.clock
            (c.node n).settings.outstanding.wordMillis), fun x hx => ?_, ?_⟩
      · rcases List.mem_cons.mp hx with rfl | hx
        · trivial
        · rw [(List.mem_replicate.mp hx).2]
          trivial
      · rw [play, List.foldl_cons, hfetch]
        exact play_load (s := { s with passes := s.passes ++ [⟨n, jobs⟩] })
          List.getElem?_concat_length hs _ _

/-- An upgrade unfolds as a call on the store. -/
theorem unfolds_upgradeJobs (app : Application η ω) (c : Cluster η ω) (n : NodeName) :
    Unfolds app c (c.housekeep n .upgradeJobs).2 := by
  unfold Cluster.housekeep Housekeeping.upgradeJobs
  dsimp only
  split
  · exact .refl app c
  · have hcall := Unfolds.store app c (.upgrade
      (c.clock + (c.node n).settings.nearFuture.wordMillis)
      (Housekeeping.candidates (c.node n).settings c.heartbeats))
    rw [StoreCall.apply] at hcall
    split
    · next heq =>
      rw [heq] at hcall
      exact hcall
    · exact .refl app c

/-- The jobs of nodes that have fallen silent are taken over, one node after another. -/
theorem unfolds_recover (app : Application η ω) (c : Cluster η ω) (me : NodeId)
    (nodes : List NodeId) (view : Heartbeats) (store : JobStore) :
    Unfolds app { c with heartbeats := view, jobs := store }
      { c with
        heartbeats := (nodes.foldl (Housekeeping.recover me) (view, store)).1
        jobs := (nodes.foldl (Housekeeping.recover me) (view, store)).2 } := by
  induction nodes generalizing view store with
  | nil => exact .refl app _
  | cons node rest ih =>
    refine Unfolds.trans ?_ (ih _ _)
    have hcall := Unfolds.store app { c with heartbeats := view, jobs := store }
      (.reassign node me)
    rw [StoreCall.apply] at hcall
    dsimp only
    cases hreassign : store.reassignJobs node me with
    | error e => exact .refl app _
    | ok x =>
      rw [hreassign] at hcall
      exact hcall.trans (.elsewhere app _ (Elsewhere.quiet_inHeartbeats fun v => v.forget node))

/-- A check for stale nodes unfolds as heartbeats and calls on the store. -/
theorem unfolds_checkStaleNodes (app : Application η ω) (c : Cluster η ω) (n : NodeName) :
    Unfolds app c (c.housekeep n .checkStaleNodes).2 := by
  unfold Cluster.housekeep Housekeeping.checkStaleNodes
  dsimp only
  split
  · exact .refl app c
  · have hview : ∀ view, Unfolds app c { c with heartbeats := view } := fun view =>
      .elsewhere app c (Elsewhere.quiet_inHeartbeats fun _ => view)
    exact (hview _).trans (unfolds_recover app c _ _ _ _)

/-- A worker that does housekeeping makes steps of such a history. -/
theorem unfolds_runTask (app : Application η ω) (c : Cluster η ω) (n : NodeName) {task : Task}
    (htask : task.job? = none) : Unfolds app c (Cluster.runTask app n task c).2 := by
  have hagain : ∀ (d : Cluster η ω) next, Unfolds app d
      (if (d.node n).scheduler.isRunning then d.modifyTodo n fun q => q.push task next else d) := by
    intro d next
    split
    · refine .inTodo app d n fun q => .push q ?_ next
      rw [Task.isJob, htask]
      rfl
    · exact .refl app d
  cases task with
  | job job => cases htask
  | loadImmediate => exact (unfolds_loadImmediate app c n).trans (hagain _ _)
  | upgradeJobs => exact (unfolds_upgradeJobs app c n).trans (hagain _ _)
  | checkStaleNodes => exact (unfolds_checkStaleNodes app c n).trans (hagain _ _)

/-- A cancellation unfolds as a removal from the queue and a call on the store. -/
theorem unfolds_cancel (app : Application η ω) (c : Cluster η ω) (n : NodeName) (id : JobId) :
    Unfolds app c (c.cancel n id).2 := by
  have hcall := Unfolds.store app c (.cancel id)
  rw [StoreCall.apply] at hcall
  have hqueue : ∀ d : Cluster η ω, Unfolds app d (d.modifyTodo n fun q => (q.remove id).2) :=
    fun d => .inTodo app d n fun q => .remove q id
  unfold Cluster.cancel cancelJob
  cases hcancel : c.jobs.cancel id with
  | error e => exact hqueue c
  | ok x =>
    rw [hcancel] at hcall
    exact hcall.trans (hqueue _)

end Agenda

end JobCluster
