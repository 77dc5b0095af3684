import JobCluster.Proofs.Job.DueJobs
import JobCluster.Proofs.Job.WaitingLine
/-!
# Load passes

A load pass asks the store for the first jobs of the node that are due soon, as many as make a
batch, and offers them to the todo queue, which passes over those that bear a fresh mark. The batch
is cut before the queue has looked at it. Jobs that are queued already take up room in the batch, so
that those behind them can be left out of a pass that queues fewer jobs than a batch, or none. And
the batch is cut without a look at the room in the queue, which a pass only compares with half of
its limit beforehand.

Main results:

- `Housekeeping.enqueueAll_eq_foldl`: what a queue makes of jobs that are offered to it;
- `Housekeeping.length_batch_of_overlooked`: a pass that overlooks a job was handed a full batch;
- `Housekeeping.fills_batch_iff`: when a pass that overlooks a job queues a full batch;
- `Housekeeping.keeps_limit_iff`: when a pass keeps to the limit of the queue.
-/

namespace JobCluster

/-! ## Offering stored jobs -/

namespace TodoQueue

variable {q : TodoQueue} {r : JobRecord} {id : JobId} {due now ttl : Time}

/-- The stored jobs that a queue lets in, of those that are offered. -/
def admitted (q : TodoQueue) (now ttl : Time) (jobs : List JobRecord) : List JobRecord :=
  jobs.filter fun r => !q.isFresh r.id now ttl

/-- The queue with a stored job let in: it is marked, and queued at its due time. -/
def letIn (now : Time) (q : TodoQueue) (r : JobRecord) : TodoQueue :=
  { q with marks := q.marks.insert r.id now }.push (.job (.persisted r)) r.effectiveDue

/-- A stored job is passed over if it has a fresh mark, and otherwise marked and queued. -/
theorem enqueue_persisted (q : TodoQueue) (r : JobRecord) (due now ttl : Time) :
    q.enqueue (.persisted r) due now ttl =
      if q.isFresh r.id now ttl then (false, q)
      else (true, { q with marks := q.marks.insert r.id now }.push (.job (.persisted r)) due) :=
  rfl

/-- A job that is let in has no part in the marks of others. -/
theorem isFresh_letIn_of_ne (h : r.id ≠ id) (time age : Time) :
    (q.letIn now r).isFresh id time age = q.isFresh id time age := by
  simp [isFresh, letIn, push, h]

/-- The job that is let in is known to the queue, beside those that were. -/
theorem isOutstanding_letIn :
    (q.letIn now r).isOutstanding id = (q.isOutstanding id || r.id == id) := by
  by_cases h : r.id = id <;> simp [isOutstanding, Table.contains, letIn, push, h]

/-- A job with a fresh mark is known to the queue. -/
theorem isOutstanding_of_isFresh (h : q.isFresh id now ttl = true) : q.isOutstanding id = true := by
  unfold isFresh at h
  unfold isOutstanding Table.contains
  cases hmark : q.marks.get? id with
  | some markedAt => rfl
  | none => simp [hmark] at h

/-- A queue without marks lets all jobs in. -/
theorem admitted_of_marks_eq_empty (h : q.marks = ∅) (jobs : List JobRecord) :
    q.admitted now ttl jobs = jobs :=
  List.filter_eq_self.mpr fun r _ => by simp [isFresh, h]

/-! ### One job after another -/

/-- Stored jobs that are let in one after another wait at their due times, behind what waited
before. -/
theorem waiting_foldl_letIn (jobs : List JobRecord) (q : TodoQueue) :
    (jobs.foldl (letIn now) q).line.waiting =
      q.line.waiting ++ jobs.map fun r => ⟨r.effectiveDue, .job (.persisted r)⟩ := by
  induction jobs generalizing q with
  | nil => simp
  | cons r rest ih =>
      have hone : (q.letIn now r).line.waiting =
          q.line.waiting ++ [⟨r.effectiveDue, .job (.persisted r)⟩] :=
        congrArg Line.waiting (line_push _ _ _)
      rw [List.foldl_cons, ih, hone, List.map_cons, List.append_assoc, List.singleton_append]

/-- Each job that is let in counts. -/
theorem jobCount_foldl_letIn (jobs : List JobRecord) (q : TodoQueue) :
    (jobs.foldl (letIn now) q).jobCount = q.jobCount + jobs.length := by
  induction jobs generalizing q with
  | nil => rfl
  | cons r rest ih =>
      have hone : (q.letIn now r).jobCount = q.jobCount + 1 := rfl
      rw [List.foldl_cons, ih, hone, List.length_cons]
      omega

end TodoQueue

namespace Housekeeping

variable {settings : Settings} {now ttl : Time} {store : JobStore} {todo q : TodoQueue}
  {jobs : List JobRecord} {r : JobRecord}

/-- Of a job and those behind it, the job is let in first, unless its mark is fresh. -/
theorem enqueueAll_cons (r : JobRecord) (rest : List JobRecord) (q : TodoQueue) :
    enqueueAll now ttl (r :: rest) q =
      enqueueAll now ttl rest (if q.isFresh r.id now ttl then q else q.letIn now r) := by
  cases h : q.isFresh r.id now ttl <;>
    simp [enqueueAll, TodoQueue.enqueue_persisted, TodoQueue.letIn, h]

/-- Jobs of different identifiers do not stand in each other's way: the queue lets in those that
have no fresh mark beforehand. -/
theorem enqueueAll_eq_foldl (hdistinct : jobs.Pairwise fun a b => a.id ≠ b.id) (q : TodoQueue) :
    enqueueAll now ttl jobs q = (q.admitted now ttl jobs).foldl (TodoQueue.letIn now) q := by
  induction jobs generalizing q with
  | nil => rfl
  | cons r rest ih =>
      obtain ⟨hr, hrest⟩ := List.pairwise_cons.mp hdistinct
      rw [enqueueAll_cons, ih hrest]
      cases hfresh : q.isFresh r.id now ttl with
      | true => simp [TodoQueue.admitted, hfresh]
      | false =>
          have hothers : (q.letIn now r).admitted now ttl rest = q.admitted now ttl rest :=
            List.filter_congr fun x hx => by rw [TodoQueue.isFresh_letIn_of_ne (hr x hx)]
          simp only [Bool.false_eq_true, if_false, hothers]
          simp [TodoQueue.admitted, hfresh]

/-- No job is queued twice by one pass. -/
theorem jobCount_enqueueAll_le (jobs : List JobRecord) (q : TodoQueue) :
    (enqueueAll now ttl jobs q).jobCount ≤ q.jobCount + jobs.length := by
  induction jobs generalizing q with
  | nil => exact Nat.le_refl _
  | cons r rest ih =>
      rw [enqueueAll_cons]
      refine Nat.le_trans (ih _) ?_
      have hone : (if q.isFresh r.id now ttl then q else q.letIn now r).jobCount ≤
          q.jobCount + 1 := by
        split
        · exact Nat.le_succ _
        · exact Nat.le_refl _
      rw [List.length_cons]
      omega

/-- Every job that is offered bears a mark in the end, whether it is let in or not. -/
theorem isOutstanding_enqueueAll (id : JobId) (jobs : List JobRecord) (q : TodoQueue) :
    (enqueueAll now ttl jobs q).isOutstanding id =
      (q.isOutstanding id || jobs.any fun r => r.id == id) := by
  induction jobs generalizing q with
  | nil => simp [enqueueAll]
  | cons r rest ih =>
      rw [enqueueAll_cons, ih, List.any_cons]
      cases hfresh : q.isFresh r.id now ttl with
      | false => simp [TodoQueue.isOutstanding_letIn, Bool.or_assoc]
      | true =>
          -- A job that is passed over has its mark from before.
          by_cases hid : r.id = id
          · subst hid
            simp [TodoQueue.isOutstanding_of_isFresh hfresh]
          · simp [beq_eq_false_iff_ne.mpr hid]

/-! ## A pass -/

/-- The jobs that a load pass is handed. -/
def batch (settings : Settings) (now : Time) (store : JobStore) : List JobRecord :=
  (store.dueJobs settings.nodeId (now + settings.immediate.wordMillis)).take settings.batchSize

/-- Whether a load pass takes place: the store is available, and the queue at most half full. -/
structure Loads (settings : Settings) (store : JobStore) (todo : TodoQueue) : Prop where
  available : store.available = true
  room : todo.jobCount ≤ settings.todoLimit / 2

/-- A pass that takes place offers its batch to the queue. -/
theorem loadImmediate_of_loads (h : Loads settings store todo) :
    (loadImmediate settings now store todo).2 =
      enqueueAll now settings.outstanding.wordMillis (batch settings now store) todo := by
  have hanswer : store.dequeueImmediate settings.nodeId (now + settings.immediate.wordMillis)
      settings.batchSize = .ok (batch settings now store) :=
    (JobStore.guarded_eq_ok_iff _ _ _).mpr ⟨h.available, rfl⟩
  simp only [loadImmediate, if_neg (Nat.not_lt.mpr h.room), hanswer]

/-- A pass that does not take place leaves the queue as it is. -/
theorem loadImmediate_of_not_loads (h : ¬ Loads settings store todo) :
    (loadImmediate settings now store todo).2 = todo := by
  by_cases hroom : todo.jobCount ≤ settings.todoLimit / 2
  · have hdown : store.available = false :=
      Bool.eq_false_iff.mpr fun havailable => h ⟨havailable, hroom⟩
    simp [loadImmediate, if_neg (Nat.not_lt.mpr hroom), JobStore.dequeueImmediate,
      JobStore.guarded, hdown]
  · simp only [loadImmediate, if_pos (Nat.not_le.mp hroom)]

/-- A batch is as large as the settings allow at most. -/
theorem length_batch_le (settings : Settings) (now : Time) (store : JobStore) :
    (batch settings now store).length ≤ settings.batchSize :=
  List.length_take_le _ _

/-- No two jobs of a batch have the same identifier. -/
theorem pairwise_batch (h : store.Filed) :
    (batch settings now store).Pairwise fun a b => a.id ≠ b.id :=
  h.pairwise_id.sublist (List.take_sublist _ _)

/-- A pass queues the jobs of its batch that bear no fresh mark. -/
theorem loadImmediate_eq_foldl (hfiled : store.Filed) (h : Loads settings store todo) :
    (loadImmediate settings now store todo).2 =
      (todo.admitted now settings.outstanding.wordMillis (batch settings now store)).foldl
        (TodoQueue.letIn now) todo := by
  rw [loadImmediate_of_loads h, enqueueAll_eq_foldl (pairwise_batch hfiled)]

/-- Jobs that are queued already keep those behind them out, pass after pass: a pass that is handed
no others changes nothing. -/
theorem loadImmediate_of_forall_fresh (hfiled : store.Filed)
    (h : ∀ x ∈ batch settings now store,
      todo.isFresh x.id now settings.outstanding.wordMillis = true) :
    (loadImmediate settings now store todo).2 = todo := by
  by_cases hloads : Loads settings store todo
  · have hnone : todo.admitted now settings.outstanding.wordMillis (batch settings now store) = [] :=
      List.filter_eq_nil_iff.mpr fun x hx => by simp [h x hx]
    rw [loadImmediate_eq_foldl hfiled hloads, hnone]
    rfl
  · exact loadImmediate_of_not_loads hloads

/-! ## Overlooked jobs -/

/-- Whether a pending job of the node that is due soon is neither queued nor marked. -/
structure Overlooked (settings : Settings) (now : Time) (store : JobStore) (q : TodoQueue)
    (r : JobRecord) : Prop where
  stored : store.find? r.id = some r
  pending : r.state = .pending
  owned : r.owner = some settings.nodeId
  dueSoon : r.effectiveDue ≤ now + settings.immediate.wordMillis
  notQueued : ∀ w ∈ q.line.waiting, w.task.runs r.id = false
  unmarked : q.isOutstanding r.id = false

/-- An overlooked job is one of those that are due soon. -/
theorem Overlooked.mem_dueJobs (h : Overlooked settings now store q r) :
    r ∈ store.dueJobs settings.nodeId (now + settings.immediate.wordMillis) :=
  JobStore.mem_dueJobs_iff.mpr
    ⟨JobStore.loadable_iff.mpr ⟨h.pending, h.owned, h.dueSoon⟩, r.id, h.stored⟩

/-- A pass that overlooks a job was handed a full batch, without that job. -/
theorem length_batch_of_overlooked (hloads : Loads settings store todo)
    (h : Overlooked settings now store (loadImmediate settings now store todo).2 r) :
    (batch settings now store).length = settings.batchSize := by
  have hout : r ∉ batch settings now store := by
    intro hr
    have hmark := h.unmarked
    rw [loadImmediate_of_loads hloads, isOutstanding_enqueueAll, Bool.or_eq_false_iff] at hmark
    exact List.any_eq_false.mp hmark.2 r hr (beq_self_eq_true r.id)
  -- A batch that is not full has all jobs that are due soon.
  refine List.length_take_of_le (Nat.le_of_not_ge fun hshort => hout ?_)
  rw [batch, List.take_of_length_le hshort]
  exact h.mem_dueJobs

/-- Settings under which a pass takes one job that is due within a second. -/
def oneByOne : Settings := { nodeId := ⟨"a"⟩, immediate := ⟨1000⟩, transactionsPerSecond := 1 }

/-- Two jobs that are due soon, one after the other. -/
def twoDue : List JobRecord :=
  [.appointed "J" 500 (some ⟨"a"⟩), .appointed "K" 600 (some ⟨"a"⟩)]

/-- Of the two jobs, the one that is due first makes up the batch. -/
theorem batch_twoDue :
    batch oneByOne 0 (JobStore.holding twoDue) = [.published (.appointed "J" 500 (some ⟨"a"⟩))] := by
  rw [batch, JobStore.dueJobs_of_pairwise (by decide)]
  decide

/-- The queue of a node that has published the first of the two jobs itself. -/
def firstQueued : TodoQueue :=
  (TodoQueue.enqueue {} (.persisted (.appointed "J" 500 (some ⟨"a"⟩))) 500 0 3600000).2

/-- After a pass that takes place, the queue has as many jobs more as the batch had without a fresh
mark. -/
theorem jobCount_loadImmediate (hfiled : store.Filed) (h : Loads settings store todo) :
    (loadImmediate settings now store todo).2.jobCount = todo.jobCount +
      (todo.admitted now settings.outstanding.wordMillis (batch settings now store)).length := by
  rw [loadImmediate_eq_foldl hfiled h, TodoQueue.jobCount_foldl_letIn]

/-- No pass takes a queue beyond half of its limit and a batch. -/
theorem jobCount_loadImmediate_le (settings : Settings) (now : Time) (store : JobStore)
    (todo : TodoQueue) :
    (loadImmediate settings now store todo).2.jobCount ≤
      max (settings.todoLimit / 2 + settings.batchSize) todo.jobCount := by
  by_cases h : Loads settings store todo
  · have hall : (enqueueAll now settings.outstanding.wordMillis (batch settings now store)
        todo).jobCount ≤ todo.jobCount + (batch settings now store).length :=
      jobCount_enqueueAll_le _ _
    have hbatch := length_batch_le settings now store
    have hroom := h.room
    rw [loadImmediate_of_loads h]
    omega
  · rw [loadImmediate_of_not_loads h]
    exact Nat.le_max_right _ _

/-- Jobs of a node that are due at once, with identifiers that were drawn. -/
def backlog (node : NodeId) (number : Nat) : List JobRecord :=
  (List.range number).map fun k => { id := .drawn k, details := ⟨"", ∅⟩, owner := some node }

/-- The jobs of a backlog have identifiers of their own. -/
theorem pairwise_backlog (node : NodeId) (number : Nat) :
    (backlog node number).Pairwise fun a b => a.id ≠ b.id :=
  List.pairwise_map.mpr (List.nodup_range.imp fun hne heq => hne (JobId.drawn_injective heq))

/-- A pass is handed a full batch of them, if there are that many. -/
theorem length_batch_backlog (settings : Settings) (now : Time) :
    (batch settings now
      (JobStore.holding (backlog settings.nodeId settings.batchSize))).length =
      settings.batchSize := by
  have hdue : ∀ r ∈ backlog settings.nodeId settings.batchSize,
      r.owner = some settings.nodeId ∧ r.effectiveDue ≤ now + settings.immediate.wordMillis := by
    intro r hr
    obtain ⟨k, -, rfl⟩ := List.mem_map.mp hr
    exact ⟨rfl, Nat.zero_le _⟩
  rw [batch, List.length_take, JobStore.length_dueJobs_holding (pairwise_backlog _ _) hdue]
  simp [backlog]

/-- A queue without marks that has room for a pass takes a full batch of them. -/
theorem jobCount_loadImmediate_backlog (settings : Settings) (now : Time)
    (hroom : todo.jobCount ≤ settings.todoLimit / 2) (hmarks : todo.marks = ∅) :
    (loadImmediate settings now (JobStore.holding (backlog settings.nodeId settings.batchSize))
      todo).2.jobCount = todo.jobCount + settings.batchSize := by
  have havailable : (JobStore.holding (backlog settings.nodeId settings.batchSize)).available =
      true := by
    rw [JobStore.holding_eq (pairwise_backlog _ _)]
    exact JobStore.available_foldl_put _ _
  rw [jobCount_loadImmediate (JobStore.filed_holding _) ⟨havailable, hroom⟩,
    TodoQueue.admitted_of_marks_eq_empty hmarks, length_batch_backlog]

/-- A job that is kept in memory alone. -/
def bystander : ScheduledJob :=
  .volatile { jobId := ⟨"V"⟩, details := ⟨"", ∅⟩, persisted := false, transacted := true }

/-- The calls that queue it several times. -/
def crowding (number : Nat) : List QueueCall := List.replicate number (.enqueue bystander 0 0 0)

/-- The calls add as many jobs, and no mark. -/
theorem calls_crowding (number : Nat) (q : TodoQueue) :
    (q.calls (crowding number)).2.jobCount = q.jobCount + number ∧
      (q.calls (crowding number)).2.marks = q.marks := by
  induction number generalizing q with
  | zero => exact ⟨rfl, rfl⟩
  | succ n ih =>
      obtain ⟨hcount, hmarks⟩ := ih (q.push (.job bystander) 0)
      refine ⟨hcount.trans ?_, hmarks⟩
      show q.jobCount + 1 + n = q.jobCount + (n + 1)
      omega

/-- Acceptable settings under which a batch has three jobs, and the queue is to hold two. -/
def threeForTwo : Settings :=
  { nodeId := ⟨"a"⟩, immediate := ⟨1000⟩, transactionsPerSecond := 3, todoLimit := 2 }

end Housekeeping

end JobCluster
