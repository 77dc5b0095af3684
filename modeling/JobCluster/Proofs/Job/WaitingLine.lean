import JobCluster.Proofs.Job.Copies
/-!
# Todo queues as waiting lines

A todo queue numbers its entries and looks for the one that goes out next among all of them. To its
users it is a line: the tasks wait in the order in which they were queued, and whoever asks for work
is given the task that is due first, and the one that has waited longest of those that are due at
the same time.

Main results:

- `Line.Answers`: what a line answers to a call, and what becomes of it;
- `Line.Answers.unique`: a line leaves no choice;
- `TodoQueue.InOrder.call`: a todo queue answers one call as its line does;
- `TodoQueue.serves_iff`: it does so in every sequence of calls, and its number of jobs is right.
-/

namespace JobCluster

/-- Every task that runs a job of some identifier is a job. -/
theorem Task.isJob_of_runs {t : Task} {id : JobId} (h : t.runs id = true) : t.isJob = true := by
  unfold runs at h
  unfold isJob
  cases hjob : t.job? with
  | none =>
      rw [hjob] at h
      cases h
  | some job => rfl

/-! ## Calls -/

/-- A call on a todo queue. -/
inductive QueueCall
  | push (task : Task) (due : Time)
  | enqueue (job : ScheduledJob) (due now ttl : Time)
  | pop (now : Time)
  | remove (id : JobId)
  | finish (id : JobId)
  | clearForStop
  deriving DecidableEq, Repr

/-- What a call on a todo queue answers. -/
inductive QueueAnswer
  | done
  /-- Whether a job was queued. -/
  | queued (admitted : Bool)
  /-- The task that was taken out. -/
  | handedOut (task : Option Task)
  /-- Whether a job was taken out. -/
  | removed (found : Bool)
  /-- How many tasks were taken out. -/
  | cleared (number : Nat)
  deriving DecidableEq, Repr

namespace TodoQueue

/-- Carries out a call. -/
def call (q : TodoQueue) : QueueCall → QueueAnswer × TodoQueue
  | .push task due => (.done, q.push task due)
  | .enqueue job due now ttl =>
    (.queued (q.enqueue job due now ttl).1, (q.enqueue job due now ttl).2)
  | .pop now =>
    match q.pop? now with
    | some (task, r) => (.handedOut (some task), r)
    | none => (.handedOut none, q)
  | .remove id => (.removed (q.remove id).1, (q.remove id).2)
  | .finish id => (.done, q.finish id)
  | .clearForStop => (.cleared q.clearForStop.1, q.clearForStop.2)

/-- Carries out calls one after another, and lists the answers. -/
def calls (q : TodoQueue) : List QueueCall → List QueueAnswer × TodoQueue
  | [] => ([], q)
  | a :: rest =>
    let (answer, q) := q.call a
    let (answers, q) := q.calls rest
    (answer :: answers, q)

end TodoQueue

/-! ## Lines -/

/-- A task that waits for its due time. -/
structure Waiting where
  due : Time
  task : Task
  deriving DecidableEq, Repr

/-- Tasks that wait, in the order in which they were queued, and the marks on stored jobs. -/
structure Line where
  waiting : List Waiting := []
  marks : Table JobId Time := ∅

namespace Line

/-- The line with a task at its end. -/
def add (l : Line) (task : Task) (due : Time) : Line :=
  { l with waiting := l.waiting ++ [⟨due, task⟩] }

/-- The line once a job is marked; a job that is kept in memory alone never is. -/
def mark (l : Line) (job : ScheduledJob) (now : Time) : Line :=
  if job.isVolatile then l else { l with marks := l.marks.insert job.jobId now }

/-- Whether a job is let in: it is kept in memory alone, or has no mark that is younger than the
given age. -/
def Admits (l : Line) (job : ScheduledJob) (now ttl : Time) : Prop :=
  job.isVolatile = true ∨ ∀ markedAt, l.marks.get? job.jobId = some markedAt → ttl ≤ now - markedAt

/-- What a line answers to a call, and what becomes of it. -/
inductive Answers (l : Line) : QueueCall → QueueAnswer → Line → Prop
  | push (task : Task) (due : Time) : Answers l (.push task due) .done (l.add task due)
  | letIn {job : ScheduledJob} {due now ttl : Time} (h : l.Admits job now ttl) :
      Answers l (.enqueue job due now ttl) (.queued true) ((l.mark job now).add (.job job) due)
  | passOver {job : ScheduledJob} {due now ttl : Time} (h : ¬ l.Admits job now ttl) :
      Answers l (.enqueue job due now ttl) (.queued false) l
  /-- A task is due, and those before it in the line are due later, and those behind it no
  earlier. -/
  | handOut {now : Time} {before after : List Waiting} {w : Waiting}
      (hline : l.waiting = before ++ w :: after) (hdue : w.due ≤ now)
      (hbefore : ∀ x ∈ before, w.due < x.due) (hafter : ∀ x ∈ after, w.due ≤ x.due) :
      Answers l (.pop now) (.handedOut (some w.task)) { l with waiting := before ++ after }
  | wait {now : Time} (h : ∀ w ∈ l.waiting, now < w.due) : Answers l (.pop now) (.handedOut none) l
  | remove (id : JobId) :
      Answers l (.remove id) (.removed (l.waiting.any fun w => w.task.runs id))
        { waiting := l.waiting.filter fun w => !w.task.runs id, marks := l.marks.erase id }
  | finish (id : JobId) : Answers l (.finish id) .done { l with marks := l.marks.erase id }
  | clear :
      Answers l .clearForStop (.cleared (l.waiting.countP fun w => !w.task.isVolatileJob))
        { waiting := l.waiting.filter fun w => w.task.isVolatileJob, marks := ∅ }

/-- What a line answers to calls that come one after another, and what becomes of it. -/
inductive Serves : Line → List QueueCall → List QueueAnswer → Line → Prop
  | nil (l : Line) : Serves l [] [] l
  | cons {l m n : Line} {a : QueueCall} {answer : QueueAnswer} {rest : List QueueCall}
      {answers : List QueueAnswer} (first : l.Answers a answer m) (later : Serves m rest answers n) :
      Serves l (a :: rest) (answer :: answers) n

/-! ## No choice -/

/-- The task that goes out next has one place in the line. -/
theorem split_unique {before after before' after' : List Waiting} {w w' : Waiting}
    (hline : before ++ w :: after = before' ++ w' :: after')
    (hbefore : ∀ x ∈ before, w.due < x.due) (hafter : ∀ x ∈ after, w.due ≤ x.due)
    (hbefore' : ∀ x ∈ before', w'.due < x.due) (hafter' : ∀ x ∈ after', w'.due ≤ x.due) :
    before = before' ∧ w = w' ∧ after = after' := by
  rcases List.append_eq_append_iff.mp hline with ⟨more, rfl, hrest⟩ | ⟨more, rfl, hrest⟩
  · cases more with
    | nil => simpa using hrest
    | cons x more =>
        -- The second task would stand behind the first one, and be due before it.
        obtain ⟨rfl, rfl⟩ := List.cons.inj hrest
        have hearlier := hbefore' w (by simp)
        have hlater := hafter w' (by simp)
        exact absurd hlater (Nat.not_le.mpr hearlier)
  · cases more with
    | nil =>
        obtain ⟨rfl, rfl⟩ := List.cons.inj hrest
        simp
    | cons x more =>
        obtain ⟨rfl, rfl⟩ := List.cons.inj hrest
        have hearlier := hbefore w' (by simp)
        have hlater := hafter' w (by simp)
        exact absurd hlater (Nat.not_le.mpr hearlier)

/-- A line has one answer to a call, and one way to go on. -/
theorem Answers.unique {l m n : Line} {a : QueueCall} {answer answer' : QueueAnswer}
    (h : l.Answers a answer m) (h' : l.Answers a answer' n) : answer = answer' ∧ m = n := by
  cases h with
  | push | remove | finish | clear =>
      cases h'
      exact ⟨rfl, rfl⟩
  | letIn h =>
      cases h' with
      | letIn => exact ⟨rfl, rfl⟩
      | passOver h' => exact absurd h h'
  | passOver h =>
      cases h' with
      | letIn h' => exact absurd h' h
      | passOver => exact ⟨rfl, rfl⟩
  | handOut hline hdue hbefore hafter =>
      cases h' with
      | handOut hline' _ hbefore' hafter' =>
          obtain ⟨rfl, rfl, rfl⟩ :=
            split_unique (hline.symm.trans hline') hbefore hafter hbefore' hafter'
          exact ⟨rfl, rfl⟩
      | wait h' => exact absurd (h' _ (by simp [hline])) (Nat.not_lt.mpr hdue)
  | wait h =>
      cases h' with
      | handOut hline hdue => exact absurd (h _ (by simp [hline])) (Nat.not_lt.mpr hdue)
      | wait => exact ⟨rfl, rfl⟩

/-- A line serves calls with the same answers, however it is done. -/
theorem Serves.unique {l m n : Line} {calls : List QueueCall} {answers answers' : List QueueAnswer}
    (h : l.Serves calls answers m) (h' : l.Serves calls answers' n) :
    answers = answers' ∧ m = n := by
  induction h generalizing answers' with
  | nil =>
      cases h'
      exact ⟨rfl, rfl⟩
  | cons first _ ih =>
      cases h' with
      | cons first' later' =>
          obtain ⟨rfl, rfl⟩ := first.unique first'
          obtain ⟨rfl, rfl⟩ := ih later'
          exact ⟨rfl, rfl⟩

end Line

/-! ## Todo queues -/

namespace TodoQueue

variable {q r : TodoQueue}

/-- A todo queue as its users see it: the entry that was queued first comes first. -/
def line (q : TodoQueue) : Line where
  waiting := q.entries.reverse.map fun e => ⟨e.due, e.task⟩
  marks := q.marks

/-- Whether the entries are numbered in the order in which they were queued, and the number of jobs
is right. -/
structure InOrder (q : TodoQueue) : Prop where
  bounded : ∀ e ∈ q.entries, e.serial ≤ q.serial
  /-- What was queued last comes first. -/
  descending : q.entries.Pairwise fun e f => f.serial < e.serial
  counted : q.jobCount = q.entries.countP fun e => e.task.isJob

/-- An empty queue is in order. -/
theorem inOrder_empty : ({} : TodoQueue).InOrder :=
  ⟨fun _ h => absurd h List.not_mem_nil, .nil, rfl⟩

/-- The jobs in a queue, as its line has them. -/
theorem countP_line (q : TodoQueue) (p : Task → Bool) :
    (q.line.waiting.countP fun w => p w.task) = q.entries.countP fun e => p e.task := by
  rw [line, List.countP_map, List.countP_reverse]
  rfl

/-! ### Queueing -/

/-- A task that is pushed waits at the end of the line. -/
theorem line_push (q : TodoQueue) (task : Task) (due : Time) :
    (q.push task due).line = q.line.add task due := by
  simp [line, push, Line.add]

/-- A queue in order stays so with one more task. -/
theorem InOrder.push (h : q.InOrder) (task : Task) (due : Time) : (q.push task due).InOrder where
  bounded e he := by
    rcases List.mem_cons.mp he with rfl | he
    · exact Nat.le_refl _
    · exact Nat.le_succ_of_le (h.bounded e he)
  descending := List.pairwise_cons.mpr
    ⟨fun e he => Nat.lt_succ_of_le (h.bounded e he), h.descending⟩
  counted := by
    simp only [TodoQueue.push, countP_cons_toNat, h.counted]
    cases task.isJob <;> rfl

/-- Marks are no part of the order. -/
theorem InOrder.withMarks (h : q.InOrder) (marks : Table JobId Time) :
    ({ q with marks } : TodoQueue).InOrder :=
  ⟨h.bounded, h.descending, h.counted⟩

/-- A stored job is passed over if its mark is fresh. -/
theorem isFresh_eq_false_iff {id : JobId} {now ttl : Time} :
    q.isFresh id now ttl = false ↔
      ∀ markedAt, q.line.marks.get? id = some markedAt → ttl ≤ now - markedAt := by
  unfold isFresh line
  cases q.marks.get? id <;> simp

/-- A queue in order lets a job in, or not, as the line does. -/
theorem InOrder.enqueue (h : q.InOrder) (job : ScheduledJob) (due now ttl : Time) :
    q.line.Answers (.enqueue job due now ttl) (.queued (q.enqueue job due now ttl).1)
        (q.enqueue job due now ttl).2.line ∧
      (q.enqueue job due now ttl).2.InOrder := by
  unfold TodoQueue.enqueue
  cases hvolatile : job.isVolatile with
  | true =>
      simp only [if_true, line_push]
      have hmark : q.line.mark job now = q.line := by simp [Line.mark, hvolatile]
      have hlet : q.line.Answers (.enqueue job due now ttl) (.queued true)
          ((q.line.mark job now).add (.job job) due) := .letIn (.inl hvolatile)
      rw [hmark] at hlet
      exact ⟨hlet, h.push _ _⟩
  | false =>
      simp only [Bool.false_eq_true, if_false]
      cases hfresh : q.isFresh job.jobId now ttl with
      | true =>
          refine ⟨.passOver fun hadmits => ?_, h⟩
          rcases hadmits with hadmits | hadmits
          · rw [hvolatile] at hadmits
            cases hadmits
          · rw [isFresh_eq_false_iff.mpr hadmits] at hfresh
            cases hfresh
      | false =>
          simp only [Bool.false_eq_true, if_false, line_push]
          have hmark : q.line.mark job now =
              ({ q with marks := q.marks.insert job.jobId now } : TodoQueue).line := by
            simp [Line.mark, hvolatile, line]
          rw [← hmark]
          exact ⟨.letIn (.inr (isFresh_eq_false_iff.mp hfresh)), (h.withMarks _).push _ _⟩

/-! ### Taking out -/

/-- An entry that leaves does so alone, with its number. -/
theorem InOrder.dropEntry_append (h : q.InOrder) {e : TodoEntry} {newer older : List TodoEntry}
    (hentries : q.entries = newer ++ e :: older) :
    (q.dropEntry e).entries = newer ++ older ∧
      (∀ x ∈ newer, e.serial < x.serial) ∧ ∀ x ∈ older, x.serial < e.serial := by
  have hdescending := h.descending
  rw [hentries] at hdescending
  obtain ⟨-, hrest, hcross⟩ := List.pairwise_append.mp hdescending
  have hnewer : ∀ x ∈ newer, e.serial < x.serial :=
    fun x hx => hcross x hx e List.mem_cons_self
  have holder : ∀ x ∈ older, x.serial < e.serial := (List.pairwise_cons.mp hrest).1
  refine ⟨?_, hnewer, holder⟩
  have hkeep : ∀ xs : List TodoEntry, (∀ x ∈ xs, x.serial ≠ e.serial) →
      xs.filter (fun x => x.serial != e.serial) = xs :=
    fun xs hxs => List.filter_eq_self.mpr fun x hx => bne_iff_ne.mpr (hxs x hx)
  show q.entries.filter (fun x => x.serial != e.serial) = newer ++ older
  rw [hentries, List.filter_append, List.filter_cons_of_neg (by simp),
    hkeep newer fun x hx => Nat.ne_of_gt (hnewer x hx),
    hkeep older fun x hx => Nat.ne_of_lt (holder x hx)]

theorem InOrder.dropEntry (h : q.InOrder) {e : TodoEntry} (he : e ∈ q.entries) :
    (q.dropEntry e).InOrder where
  bounded x hx := h.bounded x (List.mem_filter.mp hx).1
  descending := h.descending.sublist List.filter_sublist
  counted := by
    obtain ⟨newer, older, hentries⟩ := List.append_of_mem he
    rw [(h.dropEntry_append hentries).1]
    simp only [TodoQueue.dropEntry, h.counted, hentries, List.countP_append, countP_cons_toNat]
    cases e.task.isJob <;> simp

/-- An entry that goes out before all others is due before those that were queued earlier, and no
later than those that were queued after it. -/
theorem due_of_before_eq_false {e x : TodoEntry} (h : x.before e = false) :
    e.due ≤ x.due ∧ (x.serial < e.serial → e.due < x.due) := by
  simp only [TodoEntry.before, Bool.or_eq_false_iff, Bool.and_eq_false_iff, decide_eq_false_iff_not,
    beq_eq_false_iff_ne] at h
  have hle : e.due ≤ x.due := Nat.not_lt.mp h.1
  refine ⟨hle, fun hserial => Nat.lt_of_le_of_ne hle fun heq => ?_⟩
  rcases h.2 with hne | hlater
  · exact hne heq.symm
  · exact hlater hserial

/-- Taking the earliest task out hands out the one whose turn it is. -/
theorem InOrder.pop? (h : q.InOrder) (now : Time) :
    q.line.Answers (.pop now) (q.call (.pop now)).1 (q.call (.pop now)).2.line ∧
      (q.call (.pop now)).2.InOrder := by
  unfold TodoQueue.call TodoQueue.pop?
  cases hearliest : earliest? q.entries with
  | none =>
      refine ⟨.wait fun w hw => ?_, h⟩
      rw [earliest?_eq_none_iff] at hearliest
      simp [line, hearliest] at hw
  | some e =>
      have hleast := earliest?_least hearliest
      by_cases hdue : e.due ≤ now
      · simp only [if_pos hdue]
        obtain ⟨newer, older, hentries⟩ := List.append_of_mem (earliest?_mem hearliest)
        obtain ⟨hdropped, -, holder⟩ := h.dropEntry_append hentries
        refine ⟨?_, h.dropEntry (earliest?_mem hearliest)⟩
        have hline : q.line.waiting = older.reverse.map (fun x => ⟨x.due, x.task⟩) ++
            ⟨e.due, e.task⟩ :: newer.reverse.map fun x => ⟨x.due, x.task⟩ := by
          simp [line, hentries]
        have hleft : (q.dropEntry e).line = { q.line with
            waiting := older.reverse.map (fun x => ⟨x.due, x.task⟩) ++
              newer.reverse.map fun x => ⟨x.due, x.task⟩ } := by
          rw [line, hdropped]
          simp [line, TodoQueue.dropEntry]
        rw [hleft]
        refine .handOut hline hdue (fun w hw => ?_) fun w hw => ?_
        · obtain ⟨x, hx, rfl⟩ := List.mem_map.mp hw
          have hx := List.mem_reverse.mp hx
          exact (due_of_before_eq_false (hleast x (by simp [hentries, hx]))).2 (holder x hx)
        · obtain ⟨x, hx, rfl⟩ := List.mem_map.mp hw
          have hx := List.mem_reverse.mp hx
          exact (due_of_before_eq_false (hleast x (by simp [hentries, hx]))).1
      · simp only [if_neg hdue]
        refine ⟨.wait fun w hw => ?_, h⟩
        obtain ⟨x, hx, rfl⟩ := List.mem_map.mp hw
        have hle := (due_of_before_eq_false (hleast x (List.mem_reverse.mp hx))).1
        exact Nat.lt_of_lt_of_le (Nat.not_le.mp hdue) hle

/-- Tasks that are filtered out of a queue leave the line. -/
theorem line_filter (q : TodoQueue) (p : Task → Bool) (marks : Table JobId Time) (count : Nat) :
    ({ q with entries := q.entries.filter fun e => p e.task, marks, jobCount := count } :
        TodoQueue).line =
      { waiting := q.line.waiting.filter fun w => p w.task, marks } := by
  simp [line, List.filter_map, List.filter_reverse, Function.comp_def]

/-- Entries that leave keep the order of those that stay. -/
theorem InOrder.filter (h : q.InOrder) (p : Task → Bool) (marks : Table JobId Time) {count : Nat}
    (hcount : count = (q.entries.filter fun e => p e.task).countP fun e => e.task.isJob) :
    ({ q with entries := q.entries.filter fun e => p e.task, marks, jobCount := count } :
      TodoQueue).InOrder where
  bounded e he := h.bounded e (List.mem_filter.mp he).1
  descending := h.descending.sublist List.filter_sublist
  counted := hcount

/-- As many entries leave with a job as run it, and all of them are counted as jobs. -/
theorem InOrder.jobCount_eq (h : q.InOrder) (id : JobId) :
    q.jobCount = (q.entries.filter fun e => !e.task.runs id).countP (fun e => e.task.isJob) +
      (q.entries.length - (q.entries.filter fun e => !e.task.runs id).length) := by
  rw [h.counted, List.countP_filter, length_sub_length_filter]
  refine countP_add fun e => ?_
  cases hruns : e.task.runs id with
  | false => simp
  | true => simp [Task.isJob_of_runs hruns]

theorem InOrder.remove (h : q.InOrder) (id : JobId) :
    q.line.Answers (.remove id) (.removed (q.remove id).1) (q.remove id).2.line ∧
      (q.remove id).2.InOrder := by
  have hcount := h.jobCount_eq id
  have hanswer : (q.remove id).1 = q.line.waiting.any fun w => w.task.runs id := by
    have hlength := length_sub_length_filter q.entries fun e => !e.task.runs id
    simp only [Bool.not_not] at hlength
    simp only [TodoQueue.remove, hlength, line, List.any_map, List.any_reverse, Function.comp_def]
    rw [Bool.eq_iff_iff, decide_eq_true_iff, List.countP_pos_iff, List.any_eq_true]
  refine ⟨?_, h.filter (fun t => !t.runs id) _ ?_⟩
  · rw [hanswer]
    have hline := q.line_filter (fun t => !t.runs id) (q.marks.erase id)
      (q.jobCount - (q.entries.length - (q.entries.filter fun e => !e.task.runs id).length))
    exact (congrArg _ hline).mpr (.remove id)
  · omega

theorem InOrder.clearForStop (h : q.InOrder) :
    q.line.Answers .clearForStop (.cleared q.clearForStop.1) q.clearForStop.2.line ∧
      q.clearForStop.2.InOrder := by
  have hnumber : q.clearForStop.1 = q.line.waiting.countP fun w => !w.task.isVolatileJob := by
    rw [countP_line q fun t => !t.isVolatileJob]
    exact length_sub_length_filter q.entries fun e => e.task.isVolatileJob
  refine ⟨?_, h.filter Task.isVolatileJob _ ?_⟩
  · rw [hnumber]
    exact (congrArg _ (q.line_filter _ ∅ _)).mpr .clear
  · -- What stays is a job each.
    symm
    refine List.countP_eq_length.mpr fun e he => ?_
    have hvolatile := (List.mem_filter.mp he).2
    unfold Task.isVolatileJob at hvolatile
    unfold Task.isJob
    cases hjob : e.task.job? with
    | none => simp [hjob] at hvolatile
    | some job => rfl

/-! ### Calls -/

/-- A todo queue answers a call as its line does, and stays in order. -/
theorem InOrder.call (h : q.InOrder) (a : QueueCall) :
    q.line.Answers a (q.call a).1 (q.call a).2.line ∧ (q.call a).2.InOrder := by
  cases a with
  | push task due =>
      refine ⟨?_, h.push task due⟩
      simp only [TodoQueue.call, line_push]
      exact .push task due
  | enqueue job due now ttl => exact h.enqueue job due now ttl
  | pop now => exact h.pop? now
  | remove id => exact h.remove id
  | finish id => exact ⟨.finish id, h.withMarks _⟩
  | clearForStop => exact h.clearForStop

/-- A queue in order answers any calls as the line does, and stays in order. -/
theorem InOrder.calls (h : q.InOrder) (sequence : List QueueCall) :
    q.line.Serves sequence (q.calls sequence).1 (q.calls sequence).2.line ∧
      (q.calls sequence).2.InOrder := by
  induction sequence generalizing q with
  | nil => exact ⟨.nil _, h⟩
  | cons a rest ih =>
      obtain ⟨hfirst, horder⟩ := h.call a
      obtain ⟨hlater, hend⟩ := ih horder
      exact ⟨.cons hfirst hlater, hend⟩

/-- A new todo queue answers every sequence of calls exactly as an empty line does, and has in the
end what the line has. It knows how many jobs it has, and never takes more off that number than
there are: neither when a task goes out nor when a job is taken out. -/
theorem serves_iff (sequence : List QueueCall) :
    let q := (TodoQueue.calls {} sequence).2
    (∀ answers l, Line.Serves {} sequence answers l ↔
        answers = (TodoQueue.calls {} sequence).1 ∧ l = q.line) ∧
      q.jobCount = (q.line.waiting.countP fun w => w.task.isJob) ∧
      (∀ now task r, q.pop? now = some (task, r) → task.isJob = true → 0 < q.jobCount) ∧
      ∀ id, q.entries.length - (q.entries.filter fun e => !e.task.runs id).length ≤ q.jobCount := by
  obtain ⟨hserves, horder⟩ := inOrder_empty.calls sequence
  have hempty : ({} : TodoQueue).line = {} := rfl
  rw [hempty] at hserves
  refine ⟨fun answers l => ⟨fun h => h.unique hserves, ?_⟩, ?_, fun now task r hpop hjob => ?_,
    fun id => ?_⟩
  · rintro ⟨rfl, rfl⟩
    exact hserves
  · rw [countP_line]
    exact horder.counted
  · obtain ⟨e, he, htask, -, -⟩ := pop?_eq_some hpop
    rw [horder.counted]
    exact List.countP_pos_iff.mpr ⟨e, he, htask ▸ hjob⟩
  · have hcount := horder.jobCount_eq id
    omega

/-- Tasks that are due at the same time go out as they came in. -/
example :
    (TodoQueue.calls {} [.push .upgradeJobs 50, .push .loadImmediate 50, .push .checkStaleNodes 20,
      .pop 10, .pop 50, .pop 50, .clearForStop]).1 =
    [.done, .done, .done, .handedOut none, .handedOut (some .checkStaleNodes),
      .handedOut (some .upgradeJobs), .cleared 1] := by
  decide

end TodoQueue

end JobCluster
