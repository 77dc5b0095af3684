import JobCluster.Transaction.Basic
/-!
# The walks over the callbacks of a transaction

A transaction walks its slots once before the commit and once after its end, and empties some of
them on the way. This file says what the two walks come to: each runs the callbacks that take part
in its round, in the order of registration, and the first walk takes nothing away from the second.

Main results:

- `Transaction.conclude_slots`, `Transaction.conclude_runBefore`: the walk after the end, with and
  without a walk before the commit;
- `Transaction.rollback_snd`, `Transaction.commit_of_canCommit`: the two ways to the end;
- `Transaction.commit_eq_ok_iff`: when a commit succeeds;
- `Surroundings.Keeps.rollback`, `Surroundings.Keeps.commit`: what lasts to the end.
-/

namespace JobCluster

variable {σ κ : Type}

/-! ## Walks over slots -/

namespace Slots

/-- The callbacks in the slots that take part in a round, in order. -/
def callbacks (slots : Slots κ) (phase : Phase) : List κ :=
  slots.filterMap fun slot => slot.bind fun x =>
    if x.moment.takesPart phase then some x.callback else none

/-- Runs callbacks one after another. -/
def runAll (w : Surroundings σ κ) (phase : Phase) (callbacks : List κ) (s : σ) : σ :=
  callbacks.foldl (fun s callback => (w.run callback phase s).2) s

@[simp]
theorem callbacks_nil (phase : Phase) : callbacks ([] : Slots κ) phase = [] :=
  rfl

/-- The callback of the first slot comes first. -/
theorem callbacks_cons (slot : Option (Synchronizer κ)) (rest : Slots κ) (phase : Phase) :
    callbacks (slot :: rest) phase = callbacks [slot] phase ++ callbacks rest phase := by
  unfold callbacks
  rw [← List.singleton_append, List.filterMap_append]

/-- Callbacks are run one list after the other. -/
theorem runAll_append (w : Surroundings σ κ) (phase : Phase) (xs ys : List κ) (s : σ) :
    runAll w phase (xs ++ ys) s = runAll w phase ys (runAll w phase xs s) := by
  unfold runAll
  rw [List.foldl_append]

/-- What every callback of a list keeps is kept by the list. -/
theorem runAll_induction {P : σ → Prop} {w : Surroundings σ κ} {phase : Phase} {callbacks : List κ}
    (h : ∀ callback ∈ callbacks, ∀ s, P s → P (w.run callback phase s).2) {s : σ} (hs : P s) :
    P (runAll w phase callbacks s) := by
  induction callbacks generalizing s with
  | nil => exact hs
  | cons callback rest ih =>
      exact ih (fun x hx => h x (List.mem_cons_of_mem _ hx)) (h callback List.mem_cons_self s hs)

/-- What one callback of a list brings about lasts, if the others let it last and leave alone what
the one needs. -/
theorem runAll_reaches {P Q : σ → Prop} {w : Surroundings σ κ} {phase : Phase}
    {callbacks : List κ} {callback : κ} (hmem : callback ∈ callbacks)
    (hP : ∀ x ∈ callbacks, ∀ s, P s → P (w.run x phase s).2)
    (hreach : ∀ s, P s → Q (w.run callback phase s).2)
    (hQ : ∀ x ∈ callbacks, ∀ s, Q s → Q (w.run x phase s).2) {s : σ} (hs : P s) :
    Q (runAll w phase callbacks s) := by
  obtain ⟨before, rest, rfl⟩ := List.append_of_mem hmem
  have hbefore : P (runAll w phase before s) :=
    runAll_induction (fun x hx => hP x (List.mem_append_left _ hx)) hs
  rw [runAll_append]
  have hrest : ∀ x ∈ rest, ∀ s, Q s → Q (w.run x phase s).2 :=
    fun x hx => hQ x (List.mem_append_right _ (List.mem_cons_of_mem _ hx))
  exact runAll_induction hrest (hreach _ hbefore)

/-- Firing a slot runs its callback exactly when that waits for the commit. -/
theorem fire_snd (w : Surroundings σ κ) (slot : Option (Synchronizer κ)) (s : σ) :
    (fire w slot s).2 = runAll w .before (callbacks [slot] .before) s := by
  cases slot with
  | none => rfl
  | some x =>
      obtain ⟨moment, callback⟩ := x
      cases moment <;> rfl

/-- Firing a slot takes no callback away from the round after the end. -/
theorem callbacks_fire_fst (w : Surroundings σ κ) (slot : Option (Synchronizer κ)) (s : σ)
    (committed : Bool) :
    callbacks [(fire w slot s).1] (.after committed) = callbacks [slot] (.after committed) := by
  cases slot with
  | none => rfl
  | some x =>
      obtain ⟨moment, callback⟩ := x
      cases moment <;> rfl

/-- The walk before the commit runs the callbacks that wait for it, in order. -/
theorem runBefore_snd (w : Surroundings σ κ) (slots : Slots κ) (s : σ) :
    (slots.runBefore w s).2 = runAll w .before (slots.callbacks .before) s := by
  induction slots generalizing s with
  | nil => rfl
  | cons slot rest ih =>
      rw [callbacks_cons, runAll_append, ← fire_snd]
      exact ih _

/-- The walk before the commit leaves the round after the end as it was. -/
theorem callbacks_runBefore_fst (w : Surroundings σ κ) (slots : Slots κ) (s : σ)
    (committed : Bool) :
    (slots.runBefore w s).1.callbacks (.after committed) = slots.callbacks (.after committed) := by
  induction slots generalizing s with
  | nil => rfl
  | cons slot rest ih =>
      have hrest := ih (fire w slot s).2
      rw [callbacks_cons slot rest, ← callbacks_fire_fst w slot s, ← hrest, ← callbacks_cons]
      rfl

/-- Informing a slot runs its callback exactly when that waits for the end. -/
theorem inform_eq (w : Surroundings σ κ) (committed : Bool) (slot : Option (Synchronizer κ))
    (s : σ) :
    inform w committed slot s =
      runAll w (.after committed) (callbacks [slot] (.after committed)) s := by
  cases slot with
  | none => rfl
  | some x =>
      by_cases h : x.moment.takesPart (.after committed) = true <;>
        simp [inform, callbacks, runAll, h]

/-- The walk after the end runs the callbacks that wait for it, in order. -/
theorem runAfter_eq (w : Surroundings σ κ) (committed : Bool) (slots : Slots κ) (s : σ) :
    slots.runAfter w committed s =
      runAll w (.after committed) (slots.callbacks (.after committed)) s := by
  induction slots generalizing s with
  | nil => rfl
  | cons slot rest ih =>
      rw [callbacks_cons, runAll_append, ← inform_eq]
      exact ih _

end Slots

/-! ## The rounds of a transaction -/

namespace Transaction

/-- The callbacks of a transaction that take part in a round, in the order of registration. -/
def callbacks (t : Transaction κ) (phase : Phase) : List κ :=
  (t.synchronizers.filter fun x => x.moment.takesPart phase).map Synchronizer.callback

/-- Runs the callbacks of a round. -/
def runPhase (w : Surroundings σ κ) (t : Transaction κ) (phase : Phase) (s : σ) : σ :=
  Slots.runAll w phase (t.callbacks phase) s

/-- The callbacks in the slots of a transaction are those that take part. -/
theorem callbacks_slots (t : Transaction κ) (phase : Phase) :
    t.slots.callbacks phase = t.callbacks phase := by
  unfold Slots.callbacks slots callbacks
  rw [List.filterMap_map]
  induction t.synchronizers with
  | nil => rfl
  | cons x rest ih =>
      by_cases h : x.moment.takesPart phase = true <;> simp_all

/-- A callback runs in a round exactly when it was registered for a moment of that round. -/
theorem mem_callbacks_iff {t : Transaction κ} {phase : Phase} {callback : κ} :
    callback ∈ t.callbacks phase ↔
      ∃ x ∈ t.synchronizers, x.moment.takesPart phase = true ∧ x.callback = callback := by
  simp [callbacks, and_assoc]

/-- Without a walk before the commit, the end runs the callbacks that wait for it. -/
theorem conclude_slots (w : Surroundings σ κ) (t : Transaction κ) (committed : Bool) (s : σ) :
    t.conclude w t.slots committed s = t.runPhase w (.after committed) (w.leave t s) := by
  unfold conclude runPhase
  rw [Slots.runAfter_eq, callbacks_slots]

/-- After a walk before the commit, the end runs the same callbacks as without it. -/
theorem conclude_runBefore (w : Surroundings σ κ) (t : Transaction κ) (committed : Bool)
    (s s' : σ) :
    t.conclude w (t.slots.runBefore w s).1 committed s' =
      t.runPhase w (.after committed) (w.leave t s') := by
  unfold conclude runPhase
  rw [Slots.runAfter_eq, Slots.callbacks_runBefore_fst, callbacks_slots]

/-- The walk before the commit is the round before the commit. -/
theorem runBefore_slots (w : Surroundings σ κ) (t : Transaction κ) (s : σ) :
    (t.slots.runBefore w s).2 = t.runPhase w .before s := by
  unfold runPhase
  rw [Slots.runBefore_snd, callbacks_slots]

/-! ## The ways to the end -/

/-- Whether the transaction commits, if the resource manager does. -/
def canCommit (t : Transaction κ) : Bool := !t.rollbackOnly && !t.isExpired

/-- A rollback runs the callbacks that wait for the end, and no others. -/
theorem rollback_snd (w : Surroundings σ κ) (t : Transaction κ) (s : σ) :
    (t.rollback w s).2 =
      t.runPhase w (.after false) (w.leave t (w.rollbackResource t.id s).2) := by
  rw [← conclude_slots]
  unfold rollback
  rcases w.rollbackResource t.id s with ⟨_ | _, s'⟩ <;> rfl

@[simp]
theorem rollback_status (w : Surroundings σ κ) (t : Transaction κ) (s : σ) :
    (t.rollback w s).1.status = .rolledBack := by
  unfold rollback
  rcases w.rollbackResource t.id s with ⟨_ | _, s'⟩ <;> rfl

/-- A commit that is turned into a rollback changes the world as a rollback does. -/
theorem degrade_snd (w : Surroundings σ κ) (t : Transaction κ) (cause : RollbackCause) (s : σ) :
    (t.degrade w cause s).2 = (t.rollback w s).2 := by
  unfold degrade
  rcases t.rollback w s with ⟨⟨_ | _, status⟩, s'⟩ <;> rfl

/-- A commit that is turned into a rollback fails, and ends as a rollback does. -/
theorem degrade_fst (w : Surroundings σ κ) (t : Transaction κ) (cause : RollbackCause) (s : σ) :
    (∃ e, (t.degrade w cause s).1.result = .error e) ∧
      (t.degrade w cause s).1.status = .rolledBack := by
  have hstatus := rollback_status w t s
  unfold degrade
  rcases h : t.rollback w s with ⟨⟨_ | _, status⟩, s'⟩ <;> rw [h] at hstatus
  · exact ⟨⟨_, rfl⟩, hstatus⟩
  · exact ⟨⟨_, rfl⟩, hstatus⟩

/-- A transaction that cannot commit is rolled back by a commit. -/
theorem commit_of_canCommit_eq_false (w : Surroundings σ κ) (t : Transaction κ) (s : σ)
    (h : t.canCommit = false) : ∃ cause, t.commit w s = t.degrade w cause s := by
  unfold canCommit at h
  by_cases hmarked : t.rollbackOnly = true
  · exact ⟨_, commit_of_marked w t s hmarked⟩
  · have hexpired : t.isExpired = true := by simpa [hmarked] using h
    exact ⟨_, commit_of_expired w t s (by simpa using hmarked) hexpired⟩

/-- A transaction that can commit asks the resource manager between its two rounds. -/
theorem commit_of_canCommit (w : Surroundings σ κ) (t : Transaction κ) (s : σ)
    (h : t.canCommit = true) :
    t.commit w s = match w.commitResource t.id (t.runPhase w .before s) with
      | (.ok (), s) => (⟨.ok (), .committed⟩, t.runPhase w (.after true) (w.leave t s))
      | (.error e, s) => (⟨.error (.commitFailed t.id e), .rolledBack⟩,
          t.runPhase w (.after false) (w.leave t (w.rollbackResource t.id s).2)) := by
  have hopen : t.rollbackOnly = false ∧ t.isExpired = false := by
    simpa [canCommit] using h
  rw [← runBefore_slots]
  simp only [commit, hopen.1, hopen.2, commitPrepared, Bool.false_eq_true, if_false]
  rcases w.commitResource t.id (t.slots.runBefore w s).2 with ⟨_ | _, s'⟩
  · simp only [conclude_runBefore]
  · simp only [conclude_runBefore]

/-- A commit succeeds exactly when the transaction can commit and the resource manager does. -/
theorem commit_eq_ok_iff (w : Surroundings σ κ) (t : Transaction κ) (s : σ) :
    (t.commit w s).1.result = .ok () ↔
      t.canCommit = true ∧ (w.commitResource t.id (t.runPhase w .before s)).1 = .ok () := by
  cases h : t.canCommit with
  | false =>
      obtain ⟨cause, hc⟩ := commit_of_canCommit_eq_false w t s h
      obtain ⟨⟨e, he⟩, _⟩ := degrade_fst w t cause s
      simp [hc, he]
  | true =>
      rw [commit_of_canCommit w t s h]
      rcases w.commitResource t.id (t.runPhase w .before s) with ⟨_ | _, s'⟩ <;> simp

end Transaction

/-! ## What lasts to the end -/

/-- Whether everything that a transaction does on its way to the end keeps a property of its
surroundings. -/
structure Surroundings.Keeps (w : Surroundings σ κ) (P : σ → Prop) : Prop where
  run : ∀ callback phase s, P s → P (w.run callback phase s).2
  commitResource : ∀ id s, P s → P (w.commitResource id s).2
  rollbackResource : ∀ id s, P s → P (w.rollbackResource id s).2
  leave : ∀ t s, P s → P (w.leave t s)

namespace Surroundings.Keeps

variable {w : Surroundings σ κ} {P : σ → Prop} {s : σ}

/-- A round keeps what each of its calls keeps. -/
theorem runPhase (h : w.Keeps P) (t : Transaction κ) (phase : Phase) (hs : P s) :
    P (t.runPhase w phase s) :=
  Slots.runAll_induction (fun callback _ s => h.run callback phase s) hs

theorem rollback (h : w.Keeps P) (t : Transaction κ) (hs : P s) : P (t.rollback w s).2 := by
  rw [Transaction.rollback_snd]
  exact h.runPhase t _ (h.leave t _ (h.rollbackResource t.id s hs))

theorem commit (h : w.Keeps P) (t : Transaction κ) (hs : P s) : P (t.commit w s).2 := by
  cases hcan : t.canCommit with
  | false =>
      obtain ⟨cause, heq⟩ := Transaction.commit_of_canCommit_eq_false w t s hcan
      rw [heq, Transaction.degrade_snd]
      exact h.rollback t hs
  | true =>
      have hprepared := h.commitResource t.id _ (h.runPhase t .before hs)
      rw [Transaction.commit_of_canCommit w t s hcan]
      rcases hanswer : w.commitResource t.id (t.runPhase w .before s) with ⟨e | _, s'⟩ <;>
        rw [hanswer] at hprepared
      · exact h.runPhase t _ (h.leave t _ (h.rollbackResource t.id s' hprepared))
      · exact h.runPhase t _ (h.leave t s' hprepared)

end Surroundings.Keeps

end JobCluster
