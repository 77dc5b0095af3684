import JobCluster.Job.Record
/-!
# The todo queue

What a node is going to run soon, in the order of due times; among equal due times the entry that
came in first is the first one out.

A stored job can reach the queue twice, from the commit that publishes it and from a load pass. A
mark on the job keeps the second copy out until the first one has run or the mark is too old.

Main results:

- `TodoQueue.earliest?_mem`, `TodoQueue.earliest?_least`: the entry that goes out next is queued,
  and no queued entry comes before it.
-/

namespace JobCluster

/-- A job that is ready to be handed to a worker. -/
inductive ScheduledJob
  /-- Kept in the store, and to be claimed before it runs. -/
  | persisted (record : JobRecord)
  /-- Kept in memory alone. -/
  | volatile (info : JobInfo)
  deriving DecidableEq, Repr

namespace ScheduledJob

/-- The identifier of the job. -/
def jobId : ScheduledJob → JobId
  | .persisted record => record.id
  | .volatile info => info.jobId

/-- What a handler learns about the job. -/
def info : ScheduledJob → JobInfo
  | .persisted record => record.info
  | .volatile info => info

/-- Whether the job is kept in memory alone. -/
def isVolatile : ScheduledJob → Bool
  | .persisted _ => false
  | .volatile _ => true

end ScheduledJob

/-- What can be queued: jobs, and the housekeeping of the scheduler. -/
inductive Task
  | job (job : ScheduledJob)
  /-- Queue the jobs of this node that are due soon. -/
  | loadImmediate
  /-- Give owners to the jobs that are due before long. -/
  | upgradeJobs
  /-- Take over the jobs of nodes that have fallen silent. -/
  | checkStaleNodes
  deriving DecidableEq, Repr

namespace Task

/-- The name of a task. -/
def name : Task → String
  | .job (.persisted _) => "persisted-job"
  | .job (.volatile _) => "volatile-job"
  | .loadImmediate => "load-immediate"
  | .upgradeJobs => "upgrade-jobs"
  | .checkStaleNodes => "check-stale-nodes"

/-- The job of a task that runs one. -/
def job? : Task → Option ScheduledJob
  | .job j => some j
  | _ => none

/-- Whether the task runs a job. -/
def isJob (t : Task) : Bool := t.job?.isSome

/-- Whether the task runs the job with the identifier. -/
def runs (t : Task) (id : JobId) : Bool :=
  match t.job? with
  | some j => j.jobId == id
  | none => false

/-- Whether the task runs a job that is kept in memory alone. -/
def isVolatileJob (t : Task) : Bool :=
  match t.job? with
  | some j => j.isVolatile
  | none => false

end Task

/-- A task with its due time and its number in the order of queueing. -/
structure TodoEntry where
  due : Time
  serial : Nat
  task : Task
  deriving DecidableEq, Repr

/-- Whether an entry goes out before another. -/
def TodoEntry.before (a b : TodoEntry) : Bool :=
  a.due < b.due || (a.due == b.due && a.serial < b.serial)

/-- The queued tasks, the marks on stored jobs, and the number of queued jobs. -/
structure TodoQueue where
  entries : List TodoEntry := []
  /-- The number of the entry that was queued last. -/
  serial : Nat := 0
  /-- When each marked job was queued. -/
  marks : Table JobId Time := ∅
  /-- The number of queued jobs. -/
  jobCount : Nat := 0
  deriving DecidableEq, Repr, Inhabited

namespace TodoQueue

/-! ## Queueing -/

/-- Queues a task. -/
def push (q : TodoQueue) (task : Task) (due : Time) : TodoQueue :=
  { q with entries := ⟨due, q.serial + 1, task⟩ :: q.entries
           serial := q.serial + 1
           jobCount := if task.isJob then q.jobCount + 1 else q.jobCount }

/-- Whether the job has a mark that is younger than the given age. -/
def isFresh (q : TodoQueue) (id : JobId) (now ttl : Time) : Bool :=
  match q.marks.get? id with
  | some markedAt => now - markedAt < ttl
  | none => false

/-- Queues a job. A stored job that has a fresh mark is passed over, and any other stored job is
marked. Tells whether the job was queued. -/
def enqueue (q : TodoQueue) (job : ScheduledJob) (due now ttl : Time) : Bool × TodoQueue :=
  if job.isVolatile then (true, q.push (.job job) due)
  else if q.isFresh job.jobId now ttl then (false, q)
  else (true, { q with marks := q.marks.insert job.jobId now }.push (.job job) due)

/-- What is queued once a job is: what was queued before, and the job with its due time. -/
theorem mem_enqueue {q : TodoQueue} {job : ScheduledJob} {due now ttl : Time} {e : TodoEntry}
    (h : e ∈ (q.enqueue job due now ttl).2.entries) :
    e ∈ q.entries ∨ e.task = .job job ∧ e.due = due := by
  have hpush : ∀ {p : TodoQueue}, p.entries = q.entries → e ∈ (p.push (.job job) due).entries →
      e ∈ q.entries ∨ e.task = .job job ∧ e.due = due := by
    intro p hp he
    rcases List.mem_cons.mp he with rfl | he
    · exact .inr ⟨rfl, rfl⟩
    · exact .inl (hp ▸ he)
  unfold enqueue at h
  split at h
  · exact hpush rfl h
  · split at h
    · exact .inl h
    · exact hpush rfl h

/-! ## Taking out -/

/-- The entry that goes out before all others. -/
def earliest? : List TodoEntry → Option TodoEntry
  | [] => none
  | e :: rest =>
    match earliest? rest with
    | none => some e
    | some best => if e.before best then some e else some best

/-- The earliest due time. -/
def nextDue? (q : TodoQueue) : Option Time := (earliest? q.entries).map TodoEntry.due

/-- The queue without one entry. -/
def dropEntry (q : TodoQueue) (e : TodoEntry) : TodoQueue :=
  { q with entries := q.entries.filter fun x => x.serial != e.serial
           jobCount := if e.task.isJob then q.jobCount - 1 else q.jobCount }

/-- Takes the earliest task out if it is due. -/
def pop? (q : TodoQueue) (now : Time) : Option (Task × TodoQueue) :=
  match earliest? q.entries with
  | some e => if e.due ≤ now then some (e.task, q.dropEntry e) else none
  | none => none

/-- Takes the mark off a job that has run. -/
def finish (q : TodoQueue) (id : JobId) : TodoQueue := { q with marks := q.marks.erase id }

/-- Takes a job out, with its mark, and tells whether it was queued. -/
def remove (q : TodoQueue) (id : JobId) : Bool × TodoQueue :=
  let rest := q.entries.filter fun e => !e.task.runs id
  let removed := q.entries.length - rest.length
  (decide (0 < removed),
    { q with entries := rest, jobCount := q.jobCount - removed, marks := q.marks.erase id })

/-- Takes everything out but the jobs that are kept in memory alone, and tells how much. -/
def clearForStop (q : TodoQueue) : Nat × TodoQueue :=
  let kept := q.entries.filter fun e => e.task.isVolatileJob
  (q.entries.length - kept.length,
    { q with entries := kept, jobCount := kept.length, marks := ∅ })

/-- The number of queued tasks. -/
def size (q : TodoQueue) : Nat := q.entries.length

/-- Whether the job is marked. -/
def isOutstanding (q : TodoQueue) (id : JobId) : Bool := q.marks.contains id

/-! ## The entry that goes out next -/

/-- The earliest entry is one of the entries. -/
theorem earliest?_mem {es : List TodoEntry} {e : TodoEntry} (h : earliest? es = some e) :
    e ∈ es := by
  induction es generalizing e with
  | nil => simp [earliest?] at h
  | cons x rest ih =>
    rw [earliest?] at h
    split at h
    · simp_all
    · next best hb =>
      split at h
      · simp_all
      · obtain rfl := Option.some.inj h
        exact List.mem_cons_of_mem _ (ih hb)

/-- Only an empty queue has no earliest entry. -/
theorem earliest?_eq_none_iff {es : List TodoEntry} : earliest? es = none ↔ es = [] := by
  cases es with
  | nil => simp [earliest?]
  | cons x rest =>
    rw [earliest?]
    split
    · simp
    · split <;> simp

/-- No entry comes before the earliest one. -/
theorem earliest?_least {es : List TodoEntry} {e : TodoEntry} (h : earliest? es = some e) :
    ∀ x ∈ es, x.before e = false := by
  induction es generalizing e with
  | nil => simp
  | cons y rest ih =>
    rw [earliest?] at h
    split at h
    · next hn =>
      obtain rfl := Option.some.inj h
      rw [earliest?_eq_none_iff] at hn
      simp [hn, TodoEntry.before]
    · next best hb =>
      split at h
      · next hy =>
        obtain rfl := Option.some.inj h
        intro x hx
        rcases List.mem_cons.mp hx with rfl | hx
        · simp [TodoEntry.before]
        · have hxb := ih hb x hx
          simp only [TodoEntry.before] at hxb hy ⊢
          grind
      · next hy =>
        obtain rfl := Option.some.inj h
        intro x hx
        rcases List.mem_cons.mp hx with rfl | hx
        · simpa using hy
        · exact ih hb x hx

end TodoQueue

end JobCluster
