import JobCluster.Proofs.Job.RunStep
/-!
# Runs of a job from the claim to the end

A scheduler lets a run of a job go from its beginning to its end. Whatever else is said of the steps
of a run, it can be said of the whole run, if it can be said of each step and of steps one after
another: a step of its own, the work of the handler, and a callback that is carried out.

Main results:

- `JobRun.Paces`: what is to be known of single steps;
- `JobRun.Paces.runAll_before`, `Paces.commit`, `Paces.abandon`: a walk over callbacks and the end
  of a transaction as the steps of a run;
- `JobRun.Paces.runInTransaction`: a whole run in its transaction.
-/

namespace JobCluster

variable {η ω : Type}

/-! ## Stages -/

/-- Whether the next step of a run is one of its own: it does not wait for the handler, and runs no
callback. -/
def JobStage.isBare : JobStage η → Bool
  | .handling | .preparing _ (_ :: _) | .concluding _ (_ :: _) _ => false
  | .opened | .handled | .released | .failing _ | .preparing _ [] | .concluding _ [] _
  | .ended _ => true

/-- Where a handler leaves its run. -/
def stageHandled : Except Panic (Except ProcessingError Unit) → JobStage η
  | .error _ => .failing none
  | .ok (.error e) => .failing (some (Cluster.endOf (.error (.body (.processing e)))))
  | .ok (.ok ()) => .handled

/-- Where the work of a run leaves it. -/
def stageAfter : Except Panic (Except JobFailure Unit) → JobStage η
  | .error _ => .failing none
  | .ok (.error e) => .failing (some (Cluster.endOf (.error (.body e))))
  | .ok (.ok ()) => .released

/-- How the transaction of a run that has taken its job out ends. -/
def endingOf : Except TxError Unit → JobEnd
  | .ok () => .completed
  | .error _ => .failed

/-- The work of a run of a stored job, step by step. -/
theorem Cluster.transactedBody_of_persisted (app : Application η ω) (n : NodeName)
    (thread : Thread) {info : JobInfo} (tx : TxId) (c : Cluster η ω)
    (h : info.persisted = true) :
    transactedBody app n thread info tx c =
      match c.claimFor n tx info.jobId with
      | (.error e, c) => (.ok (.error e), c)
      | (.ok (), c) =>
        match process app n thread info (some tx) c with
        | (.error p, c) => (.error p, c)
        | (.ok (.error e), c) => (.ok (.error (.processing e)), c)
        | (.ok (.ok ()), c) =>
          (.ok (c.releaseClaim n tx info.jobId).1, (c.releaseClaim n tx info.jobId).2) := by
  unfold transactedBody
  simp only [h, if_true, Act.bind_apply, Act.lift]
  rcases c.claimFor n tx info.jobId with ⟨e | _, d⟩
  · rfl
  · simp only
    rw [Act.bind_apply]
    rcases process app n thread info (some tx) d with ⟨p | (e | _), d⟩ <;> rfl

/-- A run of a stored job outside any transaction, step by step. -/
theorem Cluster.plainRun_of_persisted (app : Application η ω) (n : NodeName) (thread : Thread)
    {info : JobInfo} (c : Cluster η ω) (h : info.persisted = true) :
    plainRun app n thread info c =
      match c.claim n info.jobId with
      | (.error e, c) => (.ok (.error e), c)
      | (.ok (), c) =>
        match process app n thread info none c with
        | (.error p, c) => (.error p, c)
        | (.ok (.error e), c) =>
          (.ok ((c.finishClaim n info.jobId .failedDropped).1.bind fun _ => .error (.processing e)),
            (c.finishClaim n info.jobId .failedDropped).2)
        | (.ok (.ok ()), c) =>
          (.ok (c.finishClaim n info.jobId .done).1, (c.finishClaim n info.jobId .done).2) := by
  unfold plainRun
  simp only [h, if_true, Act.bind_apply, Act.lift]
  rcases c.claim n info.jobId with ⟨e | _, d⟩
  · rfl
  · simp only
    rw [Act.bind_apply]
    rcases process app n thread info none d with ⟨p | (e | _), d⟩
    · rfl
    · simp only [Act.bind_apply, Act.lift]
      rcases d.finishClaim n info.jobId .failedDropped with ⟨f | _, d'⟩ <;> rfl
    · simp only [Act.bind_apply, Act.lift]
      rcases d.finishClaim n info.jobId .done with ⟨f | _, d'⟩ <;> rfl

/-! ## From step to step -/

namespace JobRun

/-- What is to be known of the steps of a run for it to hold from the claim to the end. -/
structure Paces (app : Application η ω) (info : JobInfo)
    (R : Cluster η ω → JobRun η → Cluster η ω → JobRun η → Prop) : Prop where
  refl : ∀ c r, R c r c r
  trans : ∀ {c r d s e t}, R c r d s → R d s e t → R c r e t
  advance : ∀ c r, r.stage.isBare = true →
    R c r (r.advance app info.jobId 0 .panicked c).2.1
      (r.moveTo (r.advance app info.jobId 0 .panicked c).1)
  handle : ∀ c r, r.stage = .handling →
    R c r (Cluster.process app r.node r.thread info (some r.tx) c).2
      (r.moveTo (stageHandled (Cluster.process app r.node r.thread info (some r.tx) c).1))
  before : ∀ c r t callback rest, r.stage = .preparing t (callback :: rest) →
    R c r (Cluster.runCallback app r.thread callback .before c).2 (r.moveTo (.preparing t rest))
  after : ∀ c r committed callback rest ending,
    r.stage = .concluding committed (callback :: rest) ending →
    R c r (Cluster.runCallback app r.thread callback (.after committed) c).2
      (r.moveTo (.concluding committed rest ending))

namespace Paces

variable {app : Application η ω} {info : JobInfo}
  {R : Cluster η ω → JobRun η → Cluster η ω → JobRun η → Prop} {c d : Cluster η ω}

/-- A step of its own brings a run to the next stage. -/
theorem step (h : Paces app info R) {r : JobRun η} {stage : JobStage η} (event : JobEvent)
    (hbare : r.stage.isBare = true)
    (hadvance : r.advance app info.jobId 0 .panicked c = (stage, d, event)) :
    R c r d (r.moveTo stage) := by
  have hstep := h.advance c r hbare
  rwa [hadvance] at hstep

/-- The walk over the callbacks before the commit. -/
theorem runAll_before (h : Paces app info R) (t : Transaction (Callback η))
    (rest : List (Callback η)) (c : Cluster η ω) (r : JobRun η)
    (hstage : r.stage = .preparing t rest) :
    R c r (Slots.runAll (Cluster.surroundings app r.thread) .before rest c)
      (r.moveTo (.preparing t [])) := by
  induction rest generalizing c r with
  | nil =>
      have hr : r.moveTo (.preparing t []) = r := by
        rw [← hstage]
        rfl
      rw [hr]
      exact h.refl c r
  | cons callback rest ih =>
      exact h.trans (h.before c r t callback rest hstage) (ih _ (r.moveTo (.preparing t rest)) rfl)

/-- The walk over the callbacks after the end. -/
theorem runAll_after (h : Paces app info R) (committed : Bool) (ending : Option JobEnd)
    (rest : List (Callback η)) (c : Cluster η ω) (r : JobRun η)
    (hstage : r.stage = .concluding committed rest ending) :
    R c r (Slots.runAll (Cluster.surroundings app r.thread) (.after committed) rest c)
      (r.moveTo (.ended ending)) := by
  induction rest generalizing c r with
  | nil =>
      refine h.step .quiet (by rw [hstage]; rfl) ?_
      simp [JobRun.advance, hstage, Slots.runAll]
  | cons callback rest ih =>
      exact h.trans (h.after c r committed callback rest ending hstage)
        (ih _ (r.moveTo (.concluding committed rest ending)) rfl)

/-! ## The end of the transaction -/

/-- A rollback of an open transaction by its run. -/
theorem rollback (h : Paces app info R) {t : Transaction (Callback η)} (ending : Option JobEnd)
    (c : Cluster η ω) (r : JobRun η) (hbare : r.stage.isBare = true)
    (hadvance : r.advance app info.jobId 0 .panicked c =
      ((r.withdraw app ending c).1, (r.withdraw app ending c).2, .quiet))
    (ht : c.transaction? r.tx = some t) :
    R c r
      (t.rollback (Cluster.surroundings app r.thread)
        { c with transactions := c.transactions.erase r.tx }).2
      (r.moveTo (.ended ending)) := by
  let w := Cluster.surroundings app r.thread
  let c' : Cluster η ω := { c with transactions := c.transactions.erase r.tx }
  have hwithdraw : R c r (w.leave t (w.rollbackResource t.id c').2)
      (r.moveTo (.concluding false (t.callbacks (.after false)) ending)) := by
    refine h.step .quiet hbare ?_
    rw [hadvance, withdraw, ht]
  rw [Transaction.rollback_snd]
  exact h.trans hwithdraw (h.runAll_after false ending _ _ (r.moveTo _) rfl)

/-- A run whose work has failed abandons its transaction. -/
theorem abandon (h : Paces app info R) (ending : Option JobEnd) (c : Cluster η ω)
    (r : JobRun η) (hstage : r.stage = .failing ending) :
    R c r (c.abandon app r.thread r.tx) (r.moveTo (.ended ending)) := by
  have hbare : r.stage.isBare = true := by
    rw [hstage]
    rfl
  have hadvance : r.advance app info.jobId 0 .panicked c =
      ((r.withdraw app ending c).1, (r.withdraw app ending c).2, .quiet) := by
    simp only [JobRun.advance, hstage]
  unfold Cluster.abandon Cluster.rollback Cluster.conclude
  cases ht : c.transaction? r.tx with
  | none =>
      refine h.step .quiet hbare ?_
      rw [hadvance, withdraw, ht]
  | some t => exact h.rollback ending c r hbare hadvance ht

/-- A prepared run commits its transaction with the resource manager, or rolls it back. -/
theorem settle (h : Paces app info R) (t : Transaction (Callback η)) (c : Cluster η ω)
    (r : JobRun η) (hstage : r.stage = .preparing t []) :
    R c r
      (match (Cluster.surroundings app r.thread).commitResource t.id c with
        | (.ok (), d) => t.runPhase (Cluster.surroundings app r.thread) (.after true)
            ((Cluster.surroundings app r.thread).leave t d)
        | (.error _, d) => t.runPhase (Cluster.surroundings app r.thread) (.after false)
            ((Cluster.surroundings app r.thread).leave t
              ((Cluster.surroundings app r.thread).rollbackResource t.id d).2))
      (r.moveTo (.ended (some
        (if ((Cluster.surroundings app r.thread).commitResource t.id c).1.isOk then .completed
          else .failed)))) := by
  have hbare : r.stage.isBare = true := by
    rw [hstage]
    rfl
  obtain ⟨w, hw⟩ : ∃ w, w = Cluster.surroundings app r.thread := ⟨_, rfl⟩
  rw [← hw]
  rcases hcommit : w.commitResource t.id c with ⟨e | _, d⟩
  · have hsettle : R c r (w.leave t (w.rollbackResource t.id d).2)
        (r.moveTo (.concluding false (t.callbacks (.after false)) (some .failed))) := by
      refine h.step .quiet hbare ?_
      simp [JobRun.advance, hstage, JobRun.settle, ← hw, hcommit]
    have hafter := h.runAll_after false (some .failed) (t.callbacks (.after false))
      (w.leave t (w.rollbackResource t.id d).2) (r.moveTo _) rfl
    rw [thread_moveTo, ← hw] at hafter
    exact h.trans hsettle hafter
  · have hsettle : R c r (w.leave t d)
        (r.moveTo (.concluding true (t.callbacks (.after true)) (some .completed))) := by
      refine h.step (.committed 0) hbare ?_
      simp [JobRun.advance, hstage, JobRun.settle, ← hw, hcommit]
    have hafter := h.runAll_after true (some .completed) (t.callbacks (.after true))
      (w.leave t d) (r.moveTo _) rfl
    rw [thread_moveTo, ← hw] at hafter
    exact h.trans hsettle hafter

/-- A run that has taken its job out commits its transaction, if that can be. -/
theorem commit (h : Paces app info R) (c : Cluster η ω) (r : JobRun η)
    (hstage : r.stage = .released) :
    R c r (c.commit app r.thread r.tx).2
      (r.moveTo (.ended (some (endingOf (c.commit app r.thread r.tx).1)))) := by
  have hbare : r.stage.isBare = true := by
    rw [hstage]
    rfl
  obtain ⟨w, hw⟩ : ∃ w, w = Cluster.surroundings app r.thread := ⟨_, rfl⟩
  unfold Cluster.commit Cluster.conclude
  cases ht : c.transaction? r.tx with
  | none =>
      refine h.step .quiet hbare ?_
      simp [JobRun.advance, hstage, ht, withdraw, endingOf]
  | some t =>
      obtain ⟨c', hc'⟩ : ∃ c' : Cluster η ω,
        c' = { c with transactions := c.transactions.erase r.tx } := ⟨_, rfl⟩
      simp only [← hw, ← hc']
      cases hcan : t.canCommit with
      | false =>
          have hadvance : r.advance app info.jobId 0 .panicked c =
              ((r.withdraw app (some .failed) c).1, (r.withdraw app (some .failed) c).2,
                .quiet) := by
            simp [JobRun.advance, hstage, ht, Option.filter, hcan]
          obtain ⟨cause, heq⟩ := Transaction.commit_of_canCommit_eq_false w t c' hcan
          obtain ⟨⟨e, hresult⟩, _⟩ := Transaction.degrade_fst w t cause c'
          have hrollback := h.rollback (some .failed) c r hbare hadvance ht
          rw [← hw, ← hc'] at hrollback
          rw [heq, hresult, Transaction.degrade_snd]
          exact hrollback
      | true =>
          have hprepare : R c r c' (r.moveTo (.preparing t (t.callbacks .before))) := by
            refine h.step .quiet hbare ?_
            simp [JobRun.advance, hstage, ht, Option.filter, hcan, hc']
          have hbefore := h.runAll_before t (t.callbacks .before) c' (r.moveTo _) rfl
          have hsettle := h.settle t (t.runPhase w .before c') (r.moveTo (.preparing t [])) rfl
          rw [thread_moveTo, ← hw] at hbefore hsettle
          have hall := h.trans (h.trans hprepare hbefore) hsettle
          rw [Transaction.commit_of_canCommit w t c' hcan]
          rcases hcommit : w.commitResource t.id (t.runPhase w .before c') with ⟨e | _, d⟩ <;>
            rw [hcommit] at hall <;> exact hall

/-! ## The whole run -/

/-- The work of a run, from the claim to the release. -/
theorem transactedBody (h : Paces app info R) (hinfo : info.persisted = true) (c : Cluster η ω)
    (r : JobRun η) (hstage : r.stage = .opened) :
    R c r (Cluster.transactedBody app r.node r.thread info r.tx c).2
      (r.moveTo (stageAfter (Cluster.transactedBody app r.node r.thread info r.tx c).1)) := by
  have hbare : r.stage.isBare = true := by
    rw [hstage]
    rfl
  rw [Cluster.transactedBody_of_persisted app r.node r.thread r.tx c hinfo]
  rcases hclaim : c.claimFor r.node r.tx info.jobId with ⟨e | _, d⟩
  · refine h.step .quiet hbare ?_
    simp [JobRun.advance, hstage, hclaim, stageAfter]
  · have hclaimed : R c r d (r.moveTo .handling) := by
      refine h.step (.claimed 0) hbare ?_
      simp [JobRun.advance, hstage, hclaim]
    have hhandled := h.handle d (r.moveTo .handling) rfl
    simp only [node_moveTo, thread_moveTo, tx_moveTo] at hhandled ⊢
    rcases hprocess : Cluster.process app r.node r.thread info (some r.tx) d with
      ⟨p | (e | _), d'⟩ <;> rw [hprocess] at hhandled
    · exact h.trans hclaimed hhandled
    · exact h.trans hclaimed hhandled
    · have hreleased : R d' (r.moveTo .handled) (d'.releaseClaim r.node r.tx info.jobId).2
          (r.moveTo (stageAfter (.ok (d'.releaseClaim r.node r.tx info.jobId).1))) := by
        rcases hrelease : d'.releaseClaim r.node r.tx info.jobId with ⟨e | _, d''⟩
        · refine h.step (r := r.moveTo .handled) .quiet rfl ?_
          simp [JobRun.advance, hrelease, stageAfter]
        · refine h.step (r := r.moveTo .handled) (.released 0) rfl ?_
          simp [JobRun.advance, hrelease, stageAfter]
      exact h.trans (h.trans hclaimed hhandled) hreleased

/-- A run in its transaction, from the claim to the end. What is left is the timeout of the thread,
which becomes what it was before. -/
theorem runInTransaction (h : Paces app info R) (hinfo : info.persisted = true) {n : NodeName}
    {thread : Thread} {tx : TxId}
    (hbegin : (c.modifyManager n fun m => m.overrideTimeout thread none).begin n thread =
      (.ok tx, d)) :
    ∃ e, R d { node := n, thread, tx } e
        { node := n, thread, tx,
          stage := .ended ((Cluster.runInTransaction app n thread none
            (Cluster.transactedBody app n thread info) c).1.map Cluster.endOf).toOption } ∧
      (Cluster.runInTransaction app n thread none (Cluster.transactedBody app n thread info) c).2 =
        e.modifyManager n fun m => m.setTimeout thread ((c.node n).manager.override? thread) := by
  have hbody := h.transactedBody hinfo d { node := n, thread, tx } rfl
  simp only at hbody
  simp only [Cluster.runInTransaction, hbegin]
  rcases hwork : Cluster.transactedBody app n thread info tx d with ⟨p | (e | _), c'⟩ <;>
    rw [hwork] at hbody
  · exact ⟨_, h.trans hbody (h.abandon none c' (moveTo ⟨n, thread, tx, .opened⟩ _) rfl), rfl⟩
  · exact ⟨_, h.trans hbody (h.abandon (some (Cluster.endOf (.error (.body e)))) c'
      (moveTo ⟨n, thread, tx, .opened⟩ _) rfl), rfl⟩
  · have hcommit := h.trans hbody (h.commit c' (moveTo ⟨n, thread, tx, .opened⟩ .released) rfl)
    simp only [thread_moveTo, tx_moveTo] at hcommit
    rcases hend : c'.commit app thread tx with ⟨e | _, c''⟩
    · simp only [hend] at hcommit ⊢
      exact ⟨c'', hcommit, rfl⟩
    · simp only [hend] at hcommit ⊢
      exact ⟨c'', hcommit, rfl⟩

end Paces

end JobRun

end JobCluster
