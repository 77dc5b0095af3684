import JobCluster.Scheduler.Housekeeping
import JobCluster.Proofs.Counting
/-!
# Copies of volatile jobs in the todo queue

A job that is kept in memory alone is lost when its last copy is. This file counts the copies that a
todo queue holds. Every entry has a number of its own, so taking the earliest task out takes out no
more than that task; a stop clears the queue of everything but such jobs, and a cancellation takes
out all copies of one job.

Main results:

- `TodoQueue.Numbered`: every entry has a number of its own;
- `TodoQueue.Numbered.copies_pop?`: what is left when a task is taken out;
- `TodoQueue.copies_remove_add`: what is left when a job is cancelled;
- `TodoQueue.SameCopies`: stops and load passes leave all copies.
-/

namespace JobCluster

/-! ## Copies -/

/-- Whether a task is a copy of a job that is kept in memory alone. -/
def Task.isCopyOf (id : JobId) : Task → Bool
  | .job (.volatile info) => decide (info.jobId = id)
  | .job (.persisted _) | .loadImmediate | .upgradeJobs | .checkStaleNodes => false

/-- Only volatile jobs have copies that count. -/
theorem Task.isVolatileJob_of_isCopyOf {id : JobId} {t : Task} (h : t.isCopyOf id = true) :
    t.isVolatileJob = true := by
  rcases t with (r | info) | _ | _ | _
  · cases h
  · rfl
  · cases h
  · cases h
  · cases h

namespace TodoQueue

/-- The number of copies of a volatile job in the queue. -/
def copies (q : TodoQueue) (id : JobId) : Nat := q.entries.countP fun e => e.task.isCopyOf id

variable {q r : TodoQueue} {id : JobId}

/-! ## Numbers -/

/-- Whether every entry has a number of its own, no larger than the one that was given last. -/
structure Numbered (q : TodoQueue) : Prop where
  bounded : ∀ e ∈ q.entries, e.serial ≤ q.serial
  distinct : q.entries.Pairwise fun e f => e.serial ≠ f.serial

/-- The entries of an empty queue are numbered. -/
theorem numbered_empty : ({} : TodoQueue).Numbered :=
  ⟨fun _ h => absurd h List.not_mem_nil, .nil⟩

/-- A new entry has a number of its own. -/
theorem Numbered.push (h : q.Numbered) (task : Task) (due : Time) : (q.push task due).Numbered := by
  constructor
  · intro e he
    rcases List.mem_cons.mp he with rfl | he
    · exact Nat.le_refl _
    · exact Nat.le_succ_of_le (h.bounded e he)
  · exact List.pairwise_cons.mpr
      ⟨fun e he => Nat.ne_of_gt (Nat.lt_succ_of_le (h.bounded e he)), h.distinct⟩

/-- Entries that leave take no number from those that stay. -/
theorem Numbered.of_sublist (h : q.Numbered) (hsub : r.entries.Sublist q.entries)
    (hserial : r.serial = q.serial) : r.Numbered :=
  ⟨fun e he => hserial ▸ h.bounded e (hsub.mem he), h.distinct.sublist hsub⟩

/-! ## Putting in -/

/-- A task that is pushed is one more copy of its job. -/
theorem copies_push (q : TodoQueue) (task : Task) (due : Time) (id : JobId) :
    (q.push task due).copies id = q.copies id + (task.isCopyOf id).toNat :=
  countP_cons_toNat _ _ _

/-- A job comes into the queue, or it is stored and stays out. -/
theorem enqueue_cases (q : TodoQueue) (job : ScheduledJob) (due now ttl : Time) :
    (∃ p : TodoQueue, p.entries = q.entries ∧ p.serial = q.serial ∧
        (q.enqueue job due now ttl).2 = p.push (.job job) due) ∨
      (q.enqueue job due now ttl).2 = q ∧ job.isVolatile = false := by
  unfold enqueue
  split
  · exact .inl ⟨q, rfl, rfl, rfl⟩
  · next hvolatile =>
    split
    · exact .inr ⟨rfl, Bool.eq_false_iff.mpr hvolatile⟩
    · exact .inl ⟨{ q with marks := q.marks.insert job.jobId now }, rfl, rfl, rfl⟩

theorem copies_enqueue (q : TodoQueue) (job : ScheduledJob) (due now ttl : Time) (id : JobId) :
    (q.enqueue job due now ttl).2.copies id =
      q.copies id + ((Task.job job).isCopyOf id).toNat := by
  rcases q.enqueue_cases job due now ttl with ⟨p, hentries, _, heq⟩ | ⟨heq, hvolatile⟩
  · rw [heq, copies_push, copies, hentries]
    rfl
  · rw [heq]
    cases job with
    | persisted record => rfl
    | volatile info => cases hvolatile

/-- A job that is queued, or turned away, leaves the entries numbered. -/
theorem Numbered.enqueue (h : q.Numbered) (job : ScheduledJob) (due now ttl : Time) :
    (q.enqueue job due now ttl).2.Numbered := by
  rcases q.enqueue_cases job due now ttl with ⟨p, hentries, hserial, heq⟩ | ⟨heq, _⟩
  · rw [heq]
    exact (h.of_sublist (hentries ▸ List.Sublist.refl _) hserial).push _ _
  · rwa [heq]

/-! ## Taking out -/

/-- An entry that is taken out was queued, and was due. -/
theorem pop?_eq_some {task : Task} {now : Time} (h : q.pop? now = some (task, r)) :
    ∃ e ∈ q.entries, e.task = task ∧ e.due ≤ now ∧ r = q.dropEntry e := by
  unfold pop? at h
  split at h
  · next e he =>
    split at h
    · next hdue =>
      cases h
      exact ⟨e, earliest?_mem he, rfl, hdue, rfl⟩
    · cases h
  · cases h

/-- Where every entry has a number of its own, one entry leaves with its number. -/
theorem countP_filter_serial {es : List TodoEntry} (h : es.Pairwise fun e f => e.serial ≠ f.serial)
    {e : TodoEntry} (he : e ∈ es) (p : TodoEntry → Bool) :
    es.countP p = (es.filter fun x => x.serial != e.serial).countP p + (p e).toNat := by
  induction es with
  | nil => exact absurd he List.not_mem_nil
  | cons x rest ih =>
      obtain ⟨hx, hrest⟩ := List.pairwise_cons.mp h
      rcases List.mem_cons.mp he with rfl | he
      · have hall : (rest.filter fun y => y.serial != e.serial) = rest :=
          List.filter_eq_self.mpr fun y hy => bne_iff_ne.mpr (Ne.symm (hx y hy))
        simp [hall, countP_cons_toNat]
      · have hne : (x.serial != e.serial) = true := bne_iff_ne.mpr (hx e he)
        rw [List.filter_cons, if_pos hne, countP_cons_toNat, countP_cons_toNat, ih hrest he]
        omega

/-- Taking a task out takes out no other. -/
theorem Numbered.countP_pop? (h : q.Numbered) {now : Time} {task : Task}
    (hpop : q.pop? now = some (task, r)) (p : Task → Bool) :
    (q.entries.countP fun e => p e.task) =
      (r.entries.countP fun e => p e.task) + (p task).toNat := by
  obtain ⟨e, he, rfl, -, rfl⟩ := pop?_eq_some hpop
  exact countP_filter_serial h.distinct he fun x => p x.task

/-- Taking a task out leaves the copies of all jobs but its own, of which it takes out one. -/
theorem Numbered.copies_pop? (h : q.Numbered) {now : Time} {task : Task}
    (hpop : q.pop? now = some (task, r)) (id : JobId) :
    q.copies id = r.copies id + (task.isCopyOf id).toNat :=
  h.countP_pop? hpop (Task.isCopyOf id)

theorem Numbered.pop? (h : q.Numbered) {now : Time} {task : Task}
    (hpop : q.pop? now = some (task, r)) : r.Numbered := by
  obtain ⟨e, -, -, -, rfl⟩ := pop?_eq_some hpop
  exact h.of_sublist List.filter_sublist rfl

/-- The queued tasks that run a job. -/
def tasksOf (q : TodoQueue) (id : JobId) : List Task :=
  (q.entries.map TodoEntry.task).filter fun t => t.runs id

/-- Cancelling a job takes out the tasks that run it, and leaves the copies of all others. -/
theorem copies_remove_add (q : TodoQueue) (id other : JobId) :
    (q.remove id).2.copies other + (q.tasksOf id).countP (Task.isCopyOf other) =
      q.copies other := by
  show (q.entries.filter fun e => !e.task.runs id).countP _ + _ = _
  rw [tasksOf, List.countP_filter, List.countP_filter, List.countP_map]
  refine (countP_add fun e => ?_).symm
  simp only [Function.comp_apply]
  cases e.task.runs id <;> simp

theorem Numbered.remove (h : q.Numbered) (id : JobId) : (q.remove id).2.Numbered :=
  h.of_sublist List.filter_sublist rfl

/-! ## Keeping the copies -/

/-- Whether one queue has come out of another without a change of the volatile jobs. -/
structure SameCopies (q r : TodoQueue) : Prop where
  numbered : q.Numbered → r.Numbered
  copies : ∀ id, r.copies id = q.copies id

namespace SameCopies

theorem refl (q : TodoQueue) : q.SameCopies q := ⟨id, fun _ => rfl⟩

/-- Queues with the same copies may follow one another. -/
theorem trans {q r t : TodoQueue} (h : q.SameCopies r) (h' : r.SameCopies t) : q.SameCopies t :=
  ⟨fun hq => h'.numbered (h.numbered hq), fun id => (h'.copies id).trans (h.copies id)⟩

/-- Housekeeping may be queued. -/
theorem push (q : TodoQueue) {task : Task} (htask : task.isVolatileJob = false) (due : Time) :
    q.SameCopies (q.push task due) := by
  refine ⟨fun hq => hq.push task due, fun id => ?_⟩
  have hcopy : task.isCopyOf id = false := by
    refine Bool.eq_false_iff.mpr fun hcopy => ?_
    rw [Task.isVolatileJob_of_isCopyOf hcopy] at htask
    cases htask
  rw [copies_push, hcopy]
  rfl

/-- Stored jobs may be queued. -/
theorem enqueueAll (now ttl : Time) (jobs : List JobRecord) (q : TodoQueue) :
    q.SameCopies (Housekeeping.enqueueAll now ttl jobs q) := by
  induction jobs generalizing q with
  | nil => exact refl q
  | cons r rest ih =>
      have hone : q.SameCopies (q.enqueue (.persisted r) r.effectiveDue now ttl).2 :=
        ⟨fun hq => hq.enqueue _ _ _ _, fun id => q.copies_enqueue _ _ _ _ id⟩
      exact hone.trans (ih _)

/-- A load pass queues stored jobs. -/
theorem loadImmediate (settings : Settings) (now : Time) (store : JobStore) (q : TodoQueue) :
    q.SameCopies (Housekeeping.loadImmediate settings now store q).2 := by
  unfold Housekeeping.loadImmediate
  dsimp only
  split
  · exact refl q
  · split
    · exact enqueueAll _ _ _ q
    · exact refl q

/-- A stop clears the queue of everything else. -/
theorem clearForStop (q : TodoQueue) : q.SameCopies q.clearForStop.2 :=
  ⟨fun hq => hq.of_sublist List.filter_sublist rfl, fun _ =>
    countP_filter_of_forall (fun _ hcopy => Task.isVolatileJob_of_isCopyOf hcopy) q.entries⟩

end SameCopies

end TodoQueue

end JobCluster
