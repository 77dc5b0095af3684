import JobCluster.Proofs.Transaction.Completion
/-!
# The course of a transaction's end

The end of a transaction is watched from outside. Surroundings that keep a log of every call show
which callbacks run, in which order and with which flag, whatever the callbacks themselves do and
however the resource manager answers.

Main results:

- `Transaction.finish_logged`: keeping a log changes nothing else, and the log is the course of the
  end;
- `Transaction.finish_course`: the order of callbacks, the flag that they learn, the answer to the
  owner and the status at the end agree, for every transaction and every way to its end.
-/

namespace JobCluster

variable {σ κ : Type}

/-! ## Logs -/

/-- A call in the course of a transaction's end. -/
inductive Occurrence (κ : Type)
  /-- A callback ran in a round. -/
  | ran (callback : κ) (phase : Phase)
  /-- The resource manager was asked to commit. -/
  | commit (succeeded : Bool)
  /-- The resource manager was asked to roll back. -/
  | rollback
  /-- The thread ceased to own the transaction. -/
  | leave
  deriving DecidableEq, Repr

namespace Occurrence

/-- The callbacks of a round, as a log shows them. -/
def ofRound (phase : Phase) (callbacks : List κ) : List (Occurrence κ) :=
  callbacks.map fun callback => .ran callback phase

/-- The callbacks that ran in a round, each as often as it ran, in the order in which they ran. -/
def ranIn (phase : Phase) (log : List (Occurrence κ)) : List κ :=
  log.filterMap fun
    | .ran callback p => if p = phase then some callback else none
    | .commit _ | .rollback | .leave => none

/-- The callbacks of a round can be read from the parts of a log. -/
theorem ranIn_append (phase : Phase) (log rest : List (Occurrence κ)) :
    ranIn phase (log ++ rest) = ranIn phase log ++ ranIn phase rest :=
  List.filterMap_append

/-- A round shows its own callbacks, and no other round's. -/
theorem ranIn_ofRound (phase p : Phase) (callbacks : List κ) :
    ranIn phase (ofRound p callbacks) = if p = phase then callbacks else [] := by
  unfold ranIn ofRound
  rw [List.filterMap_map]
  by_cases h : p = phase
  · simp only [Function.comp_def, if_pos h, List.filterMap_some]
  · simp only [Function.comp_def, if_neg h, List.filterMap_eq_nil_iff, implies_true]

end Occurrence

namespace Surroundings

/-- The surroundings with a log of every call. -/
def logged (w : Surroundings σ κ) : Surroundings (σ × List (Occurrence κ)) κ where
  run callback phase s :=
    let (answer, s') := w.run callback phase s.1
    (answer, s', s.2 ++ [.ran callback phase])
  commitResource id s :=
    let (answer, s') := w.commitResource id s.1
    (answer, s', s.2 ++ [.commit answer.isOk])
  rollbackResource id s :=
    let (answer, s') := w.rollbackResource id s.1
    (answer, s', s.2 ++ [.rollback])
  leave t s := (w.leave t s.1, s.2 ++ [.leave])

/-- Callbacks that run under a log do what they did, and the log shows them. -/
theorem runAll_logged (w : Surroundings σ κ) (phase : Phase) (callbacks : List κ) (s : σ)
    (log : List (Occurrence κ)) :
    Slots.runAll w.logged phase callbacks (s, log) =
      (Slots.runAll w phase callbacks s, log ++ Occurrence.ofRound phase callbacks) := by
  induction callbacks generalizing s log with
  | nil => simp [Slots.runAll, Occurrence.ofRound]
  | cons callback rest ih =>
      have hrest := ih (w.run callback phase s).2 (log ++ [.ran callback phase])
      simpa [Slots.runAll, Occurrence.ofRound, logged] using hrest

/-- The surroundings in which callbacks do what they did, and end in other ways. -/
def answering (w : Surroundings σ κ) (answers : κ → Phase → σ → Except CallbackFailure Unit) :
    Surroundings σ κ :=
  { w with run := fun callback phase s => (answers callback phase s, (w.run callback phase s).2) }

end Surroundings

/-! ## Courses -/

namespace Transaction

/-- The ways to call for the end of a transaction. -/
inductive Request
  | commit
  | rollback
  /-- Nobody completes the transaction. -/
  | drop
  deriving DecidableEq, Repr

/-- Brings a transaction to its end. What a dropped transaction answers reaches nobody. -/
def finish (w : Surroundings σ κ) (t : Transaction κ) : Request → σ → Ending × σ
  | .commit => t.commit w
  | .rollback => t.rollback w
  | .drop => t.rollback w

/-- Whether a request lets the transaction get as far as the commit of the resource manager. -/
def reachesCommit (t : Transaction κ) (request : Request) : Bool :=
  decide (request = .commit) && t.canCommit

/-- What follows once the outcome is decided: the thread is free, and the callbacks that wait for
the end learn the outcome, in the order of registration. -/
def aftermath (t : Transaction κ) (committed : Bool) : List (Occurrence κ) :=
  .leave :: Occurrence.ofRound (.after committed) (t.callbacks (.after committed))

/-- The whole end of a transaction. If it gets as far as a commit, the callbacks before the commit
run first, in the order of registration, and then the resource manager is asked; where that refuses,
or where the end is no commit, the resource manager rolls back. -/
def course (t : Transaction κ) (reaches committed : Bool) : List (Occurrence κ) :=
  (if reaches then
      Occurrence.ofRound .before (t.callbacks .before) ++
        .commit committed :: (if committed then [] else [.rollback])
    else [.rollback]) ++ t.aftermath committed

theorem runPhase_logged (w : Surroundings σ κ) (t : Transaction κ) (phase : Phase) (s : σ)
    (log : List (Occurrence κ)) :
    t.runPhase w.logged phase (s, log) =
      (t.runPhase w phase s, log ++ Occurrence.ofRound phase (t.callbacks phase)) :=
  w.runAll_logged phase _ s log

/-- The thread is freed and the last round run under a log as without it, and the log shows this. -/
theorem runPhase_leave_logged (w : Surroundings σ κ) (t : Transaction κ) (committed : Bool)
    (s : σ) (log : List (Occurrence κ)) :
    t.runPhase w.logged (.after committed) (w.logged.leave t (s, log)) =
      (t.runPhase w (.after committed) (w.leave t s), log ++ t.aftermath committed) := by
  have hleave : w.logged.leave t (s, log) = (w.leave t s, log ++ [.leave]) := rfl
  rw [hleave, runPhase_logged, List.append_assoc]
  rfl

/-- A rollback answers and ends with a log as it does without. -/
theorem rollback_fst_logged (w : Surroundings σ κ) (t : Transaction κ) (s : σ)
    (log : List (Occurrence κ)) :
    (t.rollback w.logged (s, log)).1 = (t.rollback w s).1 := by
  have hanswer : w.logged.rollbackResource t.id (s, log) =
      ((w.rollbackResource t.id s).1, (w.rollbackResource t.id s).2, log ++ [.rollback]) := rfl
  unfold rollback
  rw [hanswer]
  rcases w.rollbackResource t.id s with ⟨_ | _, s'⟩ <;> rfl

theorem rollback_logged (w : Surroundings σ κ) (t : Transaction κ) (s : σ)
    (log : List (Occurrence κ)) :
    t.rollback w.logged (s, log) =
      ((t.rollback w s).1, (t.rollback w s).2, log ++ t.course false false) := by
  have hsnd : (t.rollback w.logged (s, log)).2 =
      ((t.rollback w s).2, log ++ t.course false false) := by
    rw [rollback_snd, rollback_snd]
    have hanswer : (w.logged.rollbackResource t.id (s, log)).2 =
        ((w.rollbackResource t.id s).2, log ++ [.rollback]) := rfl
    rw [hanswer, runPhase_leave_logged, List.append_assoc]
    rfl
  exact Prod.ext (rollback_fst_logged w t s log) hsnd

/-- A commit that is given up does under a log what it did, and the log shows the course of a
rollback. -/
theorem degrade_logged (w : Surroundings σ κ) (t : Transaction κ) (cause : RollbackCause) (s : σ)
    (log : List (Occurrence κ)) :
    t.degrade w.logged cause (s, log) =
      ((t.degrade w cause s).1, (t.degrade w cause s).2, log ++ t.course false false) := by
  unfold degrade
  rw [rollback_logged]
  rcases t.rollback w s with ⟨⟨_ | _, status⟩, s'⟩ <;> rfl

theorem commit_logged_of_canCommit_eq_false (w : Surroundings σ κ) (t : Transaction κ) (s : σ)
    (log : List (Occurrence κ)) (h : t.canCommit = false) :
    t.commit w.logged (s, log) =
      ((t.commit w s).1, (t.commit w s).2, log ++ t.course false false) := by
  unfold canCommit at h
  by_cases hmarked : t.rollbackOnly = true
  · rw [commit_of_marked _ _ _ hmarked, commit_of_marked _ _ _ hmarked, degrade_logged]
  · have hopen : t.rollbackOnly = false := by simpa using hmarked
    have hexpired : t.isExpired = true := by simpa [hopen] using h
    rw [commit_of_expired _ _ _ hopen hexpired, commit_of_expired _ _ _ hopen hexpired,
      degrade_logged]

/-- A commit that may succeed does under a log what it did, and the log shows its course. -/
theorem commit_logged_of_canCommit (w : Surroundings σ κ) (t : Transaction κ) (s : σ)
    (log : List (Occurrence κ)) (h : t.canCommit = true) :
    t.commit w.logged (s, log) =
      ((t.commit w s).1, (t.commit w s).2,
        log ++ t.course true (decide ((t.commit w s).1.status = .committed))) := by
  rw [commit_of_canCommit _ _ _ h, commit_of_canCommit _ _ _ h, runPhase_logged]
  have hcommit : ∀ x l, w.logged.commitResource t.id (x, l) =
      ((w.commitResource t.id x).1, (w.commitResource t.id x).2,
        l ++ [.commit (w.commitResource t.id x).1.isOk]) := fun _ _ => rfl
  have hrollback : ∀ x l, (w.logged.rollbackResource t.id (x, l)).2 =
      ((w.rollbackResource t.id x).2, l ++ [.rollback]) := fun _ _ => rfl
  rw [hcommit]
  rcases w.commitResource t.id (t.runPhase w .before s) with ⟨e | _, s'⟩
  · simp only [hrollback, runPhase_leave_logged]
    simp [course, Except.isOk, Except.toBool]
  · simp only [runPhase_leave_logged]
    simp [course, Except.isOk, Except.toBool]

/-! ## What a course shows -/

/-- The callbacks before the commit run, each once, exactly where the course reaches it. -/
theorem ranIn_before_course (t : Transaction κ) (reaches committed : Bool) :
    Occurrence.ranIn .before (t.course reaches committed) =
      if reaches then t.callbacks .before else [] := by
  have hafter : Occurrence.ranIn .before (t.aftermath committed) = [] := by
    have h := Occurrence.ranIn_ofRound .before (.after committed) (t.callbacks (.after committed))
    simpa [aftermath, Occurrence.ranIn] using h
  have hbefore := Occurrence.ranIn_ofRound .before .before (t.callbacks .before)
  unfold course
  rw [Occurrence.ranIn_append, hafter, List.append_nil]
  cases reaches with
  | false => rfl
  | true =>
      simp only [if_true]
      rw [Occurrence.ranIn_append, hbefore]
      cases committed <;> simp [Occurrence.ranIn]

/-- The callbacks after the end run, each once, and learn the one outcome. -/
theorem ranIn_after_course (t : Transaction κ) (reaches committed flag : Bool) :
    Occurrence.ranIn (.after flag) (t.course reaches committed) =
      if flag = committed then t.callbacks (.after flag) else [] := by
  have hafter : Occurrence.ranIn (.after flag) (t.aftermath committed) =
      if flag = committed then t.callbacks (.after flag) else [] := by
    have h := Occurrence.ranIn_ofRound (.after flag) (.after committed)
      (t.callbacks (.after committed))
    have hleave : Occurrence.ranIn (.after flag) (t.aftermath committed) =
        Occurrence.ranIn (.after flag)
          (Occurrence.ofRound (.after committed) (t.callbacks (.after committed))) := rfl
    rw [hleave, h]
    by_cases hflag : flag = committed
    · simp [hflag]
    · simp [hflag, Ne.symm hflag]
  have hbefore := Occurrence.ranIn_ofRound (.after flag) .before (t.callbacks .before)
  unfold course
  rw [Occurrence.ranIn_append, hafter]
  cases reaches with
  | false => rfl
  | true =>
      simp only [if_true]
      rw [Occurrence.ranIn_append, hbefore]
      cases committed <;> simp [Occurrence.ranIn]

/-- The course shows a successful commit of the resource manager exactly when it ends in one. -/
theorem commit_mem_course (t : Transaction κ) (reaches committed : Bool)
    (h : committed = true → reaches = true) :
    Occurrence.commit true ∈ t.course reaches committed ↔ committed = true := by
  cases committed with
  | false => cases reaches <;> simp [course, aftermath, Occurrence.ofRound]
  | true => simp [h rfl, course]

/-! ## The end of every transaction -/

/-- Whether a transaction commits: the request gets as far as the resource manager, and that
commits in the state in which the callbacks before the commit left everything. -/
def succeeds (w : Surroundings σ κ) (t : Transaction κ) (request : Request) (s : σ) : Bool :=
  t.reachesCommit request && (w.commitResource t.id (t.runPhase w .before s)).1.isOk

/-- Keeping a log changes nothing else, and the log is the course of the end. -/
theorem finish_logged (w : Surroundings σ κ) (t : Transaction κ) (request : Request) (s : σ) :
    t.finish w.logged request (s, []) =
      ((t.finish w request s).1, (t.finish w request s).2,
        t.course (t.reachesCommit request) (t.succeeds w request s)) := by
  cases request with
  | commit =>
      cases h : t.canCommit with
      | false =>
          simpa [finish, succeeds, reachesCommit, h] using
            commit_logged_of_canCommit_eq_false w t s [] h
      | true =>
          have hstatus : decide ((t.commit w s).1.status = .committed) =
              t.succeeds w .commit s := by
            rw [commit_of_canCommit w t s h, succeeds, reachesCommit, h]
            rcases w.commitResource t.id (t.runPhase w .before s) with ⟨_ | _, s'⟩ <;>
              simp [Except.isOk, Except.toBool]
          have hlogged := commit_logged_of_canCommit w t s [] h
          rw [hstatus] at hlogged
          simpa [finish, reachesCommit, h] using hlogged
  | rollback => simpa [finish, succeeds, reachesCommit] using rollback_logged w t s []
  | drop => simpa [finish, succeeds, reachesCommit] using rollback_logged w t s []

/-- The answer to the owner and the status at the end tell whether the transaction committed. -/
theorem finish_fst (w : Surroundings σ κ) (t : Transaction κ) (request : Request) (s : σ) :
    (t.finish w request s).1.status =
        (if t.succeeds w request s then .committed else .rolledBack) ∧
      ((request = .commit ∧ (t.finish w request s).1.result = .ok ()) ↔
        t.succeeds w request s = true) := by
  cases request with
  | commit =>
      cases h : t.canCommit with
      | false =>
          obtain ⟨cause, hc⟩ := commit_of_canCommit_eq_false w t s h
          obtain ⟨⟨e, he⟩, hstatus⟩ := degrade_fst w t cause s
          simp [finish, succeeds, reachesCommit, h, hc, he, hstatus]
      | true =>
          simp only [finish, commit_of_canCommit w t s h, succeeds, reachesCommit, h]
          rcases w.commitResource t.id (t.runPhase w .before s) with ⟨_ | _, s'⟩ <;>
            simp [Except.isOk, Except.toBool]
  | rollback => simp [finish, succeeds, reachesCommit]
  | drop => simp [finish, succeeds, reachesCommit]

/-- The end of a transaction follows one course, whatever its callbacks do and however the resource
manager answers. A log of it shows that
- the callbacks before the commit run first, if the request gets as far as a commit; the resource
  manager is asked next; the thread is freed, and the callbacks after the end run last;
- a round runs every callback of it, each once, in the order of registration;
- all callbacks after the end learn the same flag, and that is set exactly when the resource manager
  committed, when the owner is told that the commit succeeded, and when the status at the end says so;
- how the callbacks end makes no difference to it. -/
theorem finish_course (w : Surroundings σ κ) (t : Transaction κ) (request : Request) (s : σ)
    (answers : κ → Phase → σ → Except CallbackFailure Unit) :
    ∃ committed : Bool, ∃ log : List (Occurrence κ),
      t.finish w.logged request (s, []) =
          ((t.finish w request s).1, (t.finish w request s).2, log) ∧
        log = t.course (t.reachesCommit request) committed ∧
        Occurrence.ranIn .before log =
          (if t.reachesCommit request then t.callbacks .before else []) ∧
        (∀ flag, Occurrence.ranIn (.after flag) log =
          if flag = committed then t.callbacks (.after flag) else []) ∧
        (committed = true ↔ Occurrence.commit true ∈ log) ∧
        (committed = true ↔ request = .commit ∧ (t.finish w request s).1.result = .ok ()) ∧
        (committed = true ↔ (t.finish w request s).1.status = .committed) ∧
        (committed = false ↔ (t.finish w request s).1.status = .rolledBack) ∧
        (t.finish (w.answering answers).logged request (s, [])).2.2 = log := by
  obtain ⟨hstatus, hresult⟩ := finish_fst w t request s
  have hreaches : t.succeeds w request s = true → t.reachesCommit request = true := by
    intro h
    exact (Bool.and_eq_true_iff.mp h).1
  have hanswers : t.succeeds (w.answering answers) request s = t.succeeds w request s := rfl
  refine ⟨t.succeeds w request s, t.course (t.reachesCommit request) (t.succeeds w request s),
    finish_logged w t request s, rfl, ranIn_before_course t _ _, ranIn_after_course t _ _,
    (commit_mem_course t _ _ hreaches).symm, hresult.symm, ?_, ?_, ?_⟩
  · rw [hstatus]
    cases t.succeeds w request s <;> simp
  · rw [hstatus]
    cases t.succeeds w request s <;> simp
  · rw [finish_logged, hanswers]

end Transaction

end JobCluster
