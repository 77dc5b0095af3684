import JobCluster.Cluster.Lifecycle
import JobCluster.Proofs.Cluster.Underway
import JobCluster.Proofs.Transaction.Completion
/-!
# Units of work that come to nothing

A unit of work whose transaction does not commit takes back whatever it has done: by a rollback that
was asked for or brought about by a panic, by a mark, by a timeout or by a refusal of the resource
manager, and whatever else the callbacks of the application do meanwhile.

Main results:

- `Cluster.withdrawn_runPhase`: the callbacks after a rollback take everything back;
- `Cluster.withdrawn_abandon`, `Cluster.withdrawn_commit`: the two ways there;
- `Cluster.withdrawn_runInTransaction`: work in a transaction of its own that does not commit;
- `Cluster.noTrace_of_failure`: the three kinds of units leave no trace if they do not commit.
-/

namespace JobCluster

variable {η ω ν ε α : Type}

namespace Cluster

variable {heard : ω → (NodeName → Routes) → ν} {start c d : Cluster η ω} {tx : TxId}
  {deeds : List Deed} {app : Application η ω}

/-! ## The walk over the callbacks -/

/-- A unit of work whose transaction has been taken out of the cluster. -/
structure Closing (heard : ω → (NodeName → Routes) → ν) (start : Cluster η ω) (tx : TxId)
    (c : Cluster η ω) : Prop where
  since : start.Apart heard c
  fresh : c.Fresh
  number : tx.serial < c.nextTx
  closed : c.transaction? tx = none

/-- A unit of work that is closing stays so, whatever happens apart from it. -/
theorem Closing.apart (h : Closing heard start tx c) (hd : c.Apart heard d) :
    Closing heard start tx d where
  since := h.since.trans hd
  fresh := hd.fresh h.fresh
  number := Nat.lt_of_lt_of_le h.number hd.nextTx
  closed := hd.closed tx h.number h.closed

/-- A unit of work that has taken everything back. -/
structure Withdrawn (heard : ω → (NodeName → Routes) → ν) (start : Cluster η ω) (tx : TxId)
    (deeds : List Deed) (c : Cluster η ω) : Prop extends Closing heard start tx c where
  undone : ∀ x ∈ deeds, x.Known c ∧ x.Undone c
  unwritten : c.instances.staged.get? tx = none

theorem Withdrawn.apart (h : Withdrawn heard start tx deeds c) (hd : c.Apart heard d) :
    Withdrawn heard start tx deeds d where
  toClosing := h.toClosing.apart hd
  undone x hx := ⟨(h.undone x hx).1.apart hd, (h.undone x hx).2.apart (h.undone x hx).1 hd⟩
  unwritten := hd.unwritten tx h.number h.closed h.unwritten

/-- What covers the deeds of a unit covers them still, whatever happens apart from it. -/
theorem Closing.covers {t : Transaction (Callback η)} (h : Closing heard start tx c)
    (hcovers : t.Covers tx deeds c) (hd : c.Apart heard d) : t.Covers tx deeds d where
  deeds x hx := (hcovers.deeds x hx).apart hd
  writes := hcovers.writes.imp_left fun hnone => hd.unwritten tx h.number h.closed hnone
  queues := hcovers.queues

/-- A callback that undoes a deed does so, even while the job store is unavailable. -/
theorem undone_runCallback (app : Application η ω) (thread : Thread) {callback : Callback η}
    {x : Deed} (h : callback.Undoes x) (hx : x.Reversible c) :
    x.Undone (runCallback app thread callback (.after false) c).2 := by
  cases callback with
  | publish n plan =>
      cases x with
      | job id =>
          have hid : plan.record.id = id := h
          subst hid
          exact ⟨StoreCall.find?_discard_of_hides hx.1, hx.2⟩
      | exchange m id slot => exact absurd h not_false
  | withdraw n id =>
      cases x with
      | job j => exact absurd h not_false
      | exchange m j slot =>
          obtain ⟨rfl, rfl⟩ : n = m ∧ id = j := h
          have hnode : ((c.modifyRegistry n fun r => r.rollBack id).node n).registry =
              (c.node n).registry.rollBack id := by
            simp [modifyRegistry]
          show ((c.modifyRegistry n fun r => r.rollBack id).node n).registry.Left slot
          rw [hnode]
          exact Registry.left_rollBack hx
  | queue n info | drop n id armed | applyWrites other | custom script =>
      cases x <;> exact absurd h not_false

/-- The callbacks that take part in a round before a commit or after a rollback queue nothing. -/
theorem not_queue_of_mem_callbacks {t : Transaction (Callback η)} (h : t.Covers tx deeds c)
    {phase : Phase} (hphase : followsCommit phase = false) {callback : Callback η}
    (hmem : callback ∈ t.callbacks phase) (n : NodeName) (info : JobInfo) :
    callback ≠ .queue n info := by
  obtain ⟨s, hs, hmoment, rfl⟩ := Transaction.mem_callbacks_iff.mp hmem
  intro hqueue
  rw [h.queues s hs n info hqueue] at hmoment
  cases phase with
  | before => simp [Moment.takesPart] at hmoment
  | after committed => simp_all [Moment.takesPart, followsCommit]

/-- A callback leaves the unit closing that it belongs to. -/
theorem Closing.runCallback (happ : app.Considerate heard) (h : Closing heard start tx c)
    (thread : Thread) {phase : Phase} (hphase : followsCommit phase = false)
    {callback : Callback η} (hqueue : ∀ n info, callback ≠ .queue n info) :
    c.Apart heard (runCallback app thread callback phase c).2 ∧
      Closing heard start tx (runCallback app thread callback phase c).2 := by
  have hd := apart_runCallback happ thread hphase h.fresh hqueue
  exact ⟨hd, h.apart hd⟩

/-- The callbacks before the commit leave the unit as it is. -/
theorem closing_runPhase_before (happ : app.Considerate heard) {t : Transaction (Callback η)}
    (h : Closing heard start tx c) (hcovers : t.Covers tx deeds c) (thread : Thread) :
    Closing heard start tx (t.runPhase (surroundings app thread) .before c) ∧
      t.Covers tx deeds (t.runPhase (surroundings app thread) .before c) := by
  refine Slots.runAll_induction (P := fun s => Closing heard start tx s ∧ t.Covers tx deeds s)
    (fun callback hmem s hs => ?_) ⟨h, hcovers⟩
  have hphase : followsCommit .before = false := rfl
  have hrun := hs.1.runCallback happ thread hphase
    (not_queue_of_mem_callbacks hcovers hphase hmem)
  exact ⟨hrun.2, hs.1.covers hs.2 hrun.1⟩

/-- The callbacks after a rollback bring about what one of them does, if the others let it last. -/
theorem closing_runPhase_after (happ : app.Considerate heard) {t : Transaction (Callback η)}
    {P : Cluster η ω → Prop} {Q : Cluster η ω → Prop} {R : Callback η → Prop}
    (h : Closing heard start tx c) (hcovers : t.Covers tx deeds c) (thread : Thread)
    (hprovides : t.Provides R)
    (hP : ∀ s s', Closing heard start tx s → s.Apart heard s' → P s → P s')
    (hreach : ∀ callback s, R callback →
      s.Apart heard (runCallback app thread callback (.after false) s).2 → P s →
      Q (runCallback app thread callback (.after false) s).2)
    (hQ : ∀ s s', Closing heard start tx s → s.Apart heard s' → Q s → Q s') (hc : P c) :
    Q (t.runPhase (surroundings app thread) (.after false) c) := by
  obtain ⟨x, hx, hmoment, hR⟩ := hprovides
  have hmem : x.callback ∈ t.callbacks (.after false) :=
    Transaction.mem_callbacks_iff.mpr ⟨x, hx, hmoment, rfl⟩
  have hrun : ∀ callback ∈ t.callbacks (.after false), ∀ s, Closing heard start tx s →
      s.Apart heard (runCallback app thread callback (.after false) s).2 ∧
        Closing heard start tx (runCallback app thread callback (.after false) s).2 :=
    fun callback hcallback s hs =>
      hs.runCallback happ thread rfl (not_queue_of_mem_callbacks hcovers rfl hcallback)
  refine (Slots.runAll_reaches (P := fun s => Closing heard start tx s ∧ P s)
    (Q := fun s => Closing heard start tx s ∧ Q s) hmem ?_ ?_ ?_ ⟨h, hc⟩).2
  · exact fun callback hcallback s hs => ⟨(hrun callback hcallback s hs.1).2,
      hP s _ hs.1 (hrun callback hcallback s hs.1).1 hs.2⟩
  · exact fun s hs => ⟨(hrun x.callback hmem s hs.1).2,
      hreach x.callback s hR (hrun x.callback hmem s hs.1).1 hs.2⟩
  · exact fun callback hcallback s hs => ⟨(hrun callback hcallback s hs.1).2,
      hQ s _ hs.1 (hrun callback hcallback s hs.1).1 hs.2⟩

/-- The callbacks after a rollback leave the unit closing. -/
theorem Closing.runPhase_after (happ : app.Considerate heard) {t : Transaction (Callback η)}
    (h : Closing heard start tx c) (hcovers : t.Covers tx deeds c) (thread : Thread) :
    c.Apart heard (t.runPhase (surroundings app thread) (.after false) c) ∧
      Closing heard start tx (t.runPhase (surroundings app thread) (.after false) c) := by
  refine Slots.runAll_induction (P := fun s => c.Apart heard s ∧ Closing heard start tx s)
    (fun callback hmem s hs => ?_) ⟨.refl heard c, h⟩
  have hphase : followsCommit (.after false) = false := rfl
  have hrun := hs.2.runCallback happ thread hphase
    (not_queue_of_mem_callbacks hcovers hphase hmem)
  exact ⟨hs.1.trans hrun.1, hrun.2⟩

/-- The callbacks after a rollback take everything back. -/
theorem withdrawn_runPhase (happ : app.Considerate heard) {t : Transaction (Callback η)}
    (h : Closing heard start tx c) (hcovers : t.Covers tx deeds c) (thread : Thread) :
    Withdrawn heard start tx deeds (t.runPhase (surroundings app thread) (.after false) c) := by
  obtain ⟨hapart, hclosing⟩ := h.runPhase_after happ hcovers thread
  refine ⟨hclosing, fun x hx => ?_, ?_⟩
  · obtain ⟨hknown, hreversible, hundone | hprovides⟩ := hcovers.deeds x hx
    · exact ⟨hknown.apart hapart, hundone.apart hknown hapart⟩
    · refine ⟨hknown.apart hapart, ?_⟩
      refine (closing_runPhase_after (P := fun s => x.Known s ∧ x.Reversible s)
        (Q := fun s => x.Known s ∧ x.Undone s) happ h hcovers thread hprovides ?_ ?_ ?_
        ⟨hknown, hreversible⟩).2
      · exact fun s s' _ hs hx => ⟨hx.1.apart hs, hx.2.apart hx.1 hs⟩
      · exact fun callback s hundoes hs hx =>
          ⟨hx.1.apart hs, undone_runCallback app thread hundoes hx.2⟩
      · exact fun s s' _ hs hx => ⟨hx.1.apart hs, hx.2.apart hx.1 hs⟩
  · rcases hcovers.writes with hnone | hprovides
    · exact hapart.unwritten tx h.number h.closed hnone
    · refine closing_runPhase_after (P := fun _ => True)
        (Q := fun s => s.instances.staged.get? tx = none) happ h hcovers thread hprovides
        (fun _ _ _ _ _ => trivial) (fun callback s hcallback _ _ => ?_)
        (fun s s' hs hapart hnone => hapart.unwritten tx hs.number hs.closed hnone) trivial
      subst hcallback
      simp [runCallback, followsCommit, completeWrites_false]

/-! ## The end of a transaction -/

/-- The transaction of a unit that is taken out of the cluster covers its deeds as before. -/
theorem Underway.closing (h : Underway heard start tx deeds c) :
    ∃ t, c.transaction? tx = some t ∧
      Closing heard start tx { c with transactions := c.transactions.erase tx } ∧
      t.Covers tx deeds { c with transactions := c.transactions.erase tx } := by
  obtain ⟨t, ht, hcovers⟩ := h.covered
  have herase : c.Apart heard { c with transactions := c.transactions.erase tx } :=
    c.apart_erase tx
  refine ⟨t, ht, ⟨h.since.trans herase, herase.fresh h.fresh, h.number, ?_⟩,
    fun x hx => (hcovers.deeds x hx).apart herase, hcovers.writes, hcovers.queues⟩
  simp [transaction?]

/-- The resource manager is told of an end, and the thread is freed. -/
theorem apart_leave (app : Application η ω) (thread : Thread) (t : Transaction (Callback η))
    (c : Cluster η ω) (resource : ResourceManager) :
    c.Apart heard ((surroundings app thread).leave t { c with resource }) :=
  (c.apart_resource resource).trans (apart_modifyManager _ t.node _)

/-- A rollback withdraws everything that the transaction has done, callback by callback. -/
theorem withdrawn_rollback (happ : app.Considerate heard) {t : Transaction (Callback η)}
    (h : Closing heard start tx c) (hcovers : t.Covers tx deeds c) (thread : Thread) :
    Withdrawn heard start tx deeds (t.rollback (surroundings app thread) c).2 := by
  have hleave : c.Apart heard _ := c.apart_leave app thread t c.resource.rollback.2
  rw [Transaction.rollback_snd]
  exact withdrawn_runPhase happ (h.apart hleave) (h.covers hcovers hleave) thread

/-- A unit whose transaction is rolled back takes everything back. -/
theorem withdrawn_abandon (happ : app.Considerate heard) (h : Underway heard start tx deeds c)
    (thread : Thread) : Withdrawn heard start tx deeds (c.abandon app thread tx) := by
  obtain ⟨t, ht, hclosing, hcovers⟩ := h.closing
  unfold abandon rollback conclude
  rw [ht]
  exact withdrawn_rollback happ hclosing hcovers thread

/-- A unit whose transaction fails to commit takes everything back. -/
theorem withdrawn_commit (happ : app.Considerate heard) (h : Underway heard start tx deeds c)
    (thread : Thread) (hfail : (c.commit app thread tx).1 ≠ .ok ()) :
    Withdrawn heard start tx deeds (c.commit app thread tx).2 := by
  obtain ⟨t, ht, hclosing, hcovers⟩ := h.closing
  obtain ⟨w, hw⟩ : ∃ w, w = surroundings app thread := ⟨_, rfl⟩
  obtain ⟨s, hs⟩ : ∃ s : Cluster η ω, s = { c with transactions := c.transactions.erase tx } :=
    ⟨_, rfl⟩
  unfold commit conclude at hfail ⊢
  simp only [ht, ← hw, ← hs] at hfail hclosing hcovers ⊢
  cases hcan : t.canCommit with
  | false =>
      obtain ⟨cause, heq⟩ := Transaction.commit_of_canCommit_eq_false w t s hcan
      rw [heq, Transaction.degrade_snd, hw]
      exact withdrawn_rollback happ hclosing hcovers thread
  | true =>
      obtain ⟨hbefore, hcovers'⟩ := closing_runPhase_before happ hclosing hcovers thread
      rw [← hw] at hbefore hcovers'
      rw [Transaction.commit_of_canCommit w t s hcan] at hfail ⊢
      rcases hcommit : w.commitResource t.id (t.runPhase w .before s) with ⟨e | _, s'⟩
      · -- The refusing resource manager has changed its counts and nothing else.
        obtain ⟨resource, hs'⟩ : ∃ resource, s' = { t.runPhase w .before s with resource } := by
          subst hw
          exact ⟨_, (congrArg Prod.snd hcommit).symm⟩
        have hleave : (t.runPhase w .before s).Apart heard _ :=
          apart_leave app thread t (t.runPhase w .before s) resource.rollback.2
        subst hs' hw
        exact withdrawn_runPhase happ (hbefore.apart hleave) (hbefore.covers hcovers' hleave) thread
      · rw [hcommit] at hfail
        exact absurd rfl hfail

/-! ## Work in a transaction of its own -/

/-- Begins the transaction of a unit of work, with a timeout of its own if there is one. -/
def opening (c : Cluster η ω) (n : NodeName) (thread : Thread) (timeout : Option Time) :
    Except TxError TxId × Cluster η ω :=
  (c.modifyManager n fun m => m.overrideTimeout thread timeout).begin n thread

/-- Work in a transaction of its own, from the opening of the transaction on. -/
theorem runInTransaction_eq (app : Application η ω) (n : NodeName) (thread : Thread)
    (timeout : Option Time) (body : TxId → Act η ω (Except ε α)) (c : Cluster η ω) :
    runInTransaction app n thread timeout body c =
      let restore := fun d : Cluster η ω => d.modifyManager n fun m =>
        m.setTimeout thread ((c.node n).manager.override? thread)
      match c.opening n thread timeout with
      | (.error e, d) => (.ok (.error (.transaction e)), restore d)
      | (.ok tx, d) =>
        match body tx d with
        | (.error p, d) => (.error p, restore (d.abandon app thread tx))
        | (.ok (.error e), d) => (.ok (.error (.body e)), restore (d.abandon app thread tx))
        | (.ok (.ok a), d) =>
          match d.commit app thread tx with
          | (.ok (), d) => (.ok (.ok a), restore d)
          | (.error e, d) => (.ok (.error (.transaction e)), restore d) :=
  rfl

/-- What work in a transaction of its own brings into the world. -/
def deedsOf (c : Cluster η ω) (n : NodeName) (thread : Thread) (timeout : Option Time)
    (work : TxId → Work η α) : List Deed :=
  match c.opening n thread timeout with
  | (.ok tx, d) => (work tx).deeds tx d
  | (.error _, _) => []

/-- A transaction that has just begun has done nothing yet. -/
theorem underway_opening (hc : c.Fresh) {n : NodeName} {thread : Thread} {timeout : Option Time}
    (h : c.opening n thread timeout = (.ok tx, d)) :
    tx = ⟨c.nextTx⟩ ∧ Underway heard c tx [] d := by
  have hapart : c.Apart heard d := by
    have hmanager : c.Apart heard
        (c.modifyManager n fun m => m.overrideTimeout thread timeout) := c.apart_modifyManager n _
    have hbegin := hmanager.trans (apart_begin _ n thread)
    rwa [← opening, h] at hbegin
  obtain ⟨t, hempty, htransaction⟩ := (begin_eq_ok h).transaction
  have hnumber : tx = ⟨c.nextTx⟩ := (begin_eq_ok h).number
  have hnext : d.nextTx = c.nextTx + 1 := (begin_eq_ok h).nextTx
  have hinstances : d.instances = c.instances := (begin_eq_ok h).instances
  refine ⟨hnumber, hapart, hapart.fresh hc, ?_, t, ?_, nofun, .inl ?_, ?_⟩
  · rw [hnumber, hnext]
    exact Nat.lt_succ_self _
  · rw [htransaction, if_pos rfl]
  · rw [hinstances, hnumber]
    exact hc.staged c.nextTx (Nat.le_refl _)
  · rw [hempty]
    nofun

/-- A unit whose transaction cannot begin has done nothing. -/
theorem withdrawn_opening (hc : c.Fresh) {n : NodeName} {thread : Thread} {timeout : Option Time}
    {e : TxError} (h : c.opening n thread timeout = (.error e, d)) :
    Withdrawn heard c ⟨c.nextTx⟩ [] d := by
  obtain ⟨resource, rfl⟩ := begin_eq_error h
  have hmanager : c.Apart heard (c.modifyManager n fun m => m.overrideTimeout thread timeout) :=
    c.apart_modifyManager n _
  have hapart := (hmanager.trans (apart_nextTx _)).trans (apart_resource _ resource)
  exact ⟨⟨hapart, hapart.fresh hc, Nat.lt_succ_self _, hc.opened c.nextTx (Nat.le_refl _)⟩, nofun,
    hc.staged c.nextTx (Nat.le_refl _)⟩

/-- Work in a transaction of its own that does not commit takes everything back. -/
theorem withdrawn_runInTransaction (happ : app.Considerate heard) (hc : c.Fresh) (n : NodeName)
    (thread : Thread) (timeout : Option Time) (work : TxId → Work η (Except ε α))
    {body : TxId → Act η ω (Except ε α)}
    (hbody : ∀ tx d, c.opening n thread timeout = (.ok tx, d) → body tx d = (work tx).act tx d)
    (hfail : ∀ a, (runInTransaction app n thread timeout body c).1 ≠ .ok (.ok a)) :
    Withdrawn heard c ⟨c.nextTx⟩ (c.deedsOf n thread timeout work)
      (runInTransaction app n thread timeout body c).2 := by
  have hrestore : ∀ d before, Withdrawn heard c ⟨c.nextTx⟩ (c.deedsOf n thread timeout work) d →
      Withdrawn heard c ⟨c.nextTx⟩ (c.deedsOf n thread timeout work)
        (d.modifyManager n fun m => m.setTimeout thread before) :=
    fun d before h => h.apart (d.apart_modifyManager n _)
  simp only [runInTransaction_eq] at hfail ⊢
  rcases hopening : c.opening n thread timeout with ⟨e | tx, d⟩
  · refine hrestore d _ ?_
    simp only [deedsOf, hopening]
    exact withdrawn_opening hc hopening
  · have hopened : tx = ⟨c.nextTx⟩ ∧ Underway heard c tx [] d := underway_opening hc hopening
    obtain ⟨rfl, hunderway⟩ := hopened
    have hdone := underway_act (work ⟨c.nextTx⟩) hunderway
    have hdeeds : [] ++ (work ⟨c.nextTx⟩).deeds ⟨c.nextTx⟩ d = c.deedsOf n thread timeout work := by
      simp [deedsOf, hopening]
    rw [hdeeds] at hdone
    simp only [hopening, hbody _ d hopening] at hfail ⊢
    rcases hact : (work ⟨c.nextTx⟩).act ⟨c.nextTx⟩ d with ⟨p | (e | a), d'⟩ <;>
      rw [hact] at hdone <;> simp only [hact] at hfail ⊢
    · exact hrestore _ _ (withdrawn_abandon happ hdone thread)
    · exact hrestore _ _ (withdrawn_abandon happ hdone thread)
    · have hwithdrawn := withdrawn_commit happ hdone thread
      rcases hcommit : d'.commit app thread ⟨c.nextTx⟩ with ⟨e | _, d''⟩ <;>
        rw [hcommit] at hwithdrawn <;> simp only [hcommit] at hfail ⊢
      · exact hrestore _ _ (hwithdrawn nofun)
      · exact absurd rfl (hfail a)

/-! ## Units of work -/

/-- An execution in a transaction leaves the cluster as the run in the transaction does. -/
theorem execTransaction_snd (app : Application η ω) (n : NodeName) (thread : Thread)
    (timeout : Option Time) (body : TxId → Act η ω (Except String α)) (c : Cluster η ω) :
    (execTransaction app n thread timeout body c).2 =
      (runInTransaction app n thread timeout body c).2 := by
  unfold execTransaction
  rw [Act.bind_apply]
  rcases runInTransaction app n thread timeout body c with ⟨p | ((e | e) | a), d⟩ <;> rfl

theorem execTransaction_eq_ok {app : Application η ω} {n : NodeName} {thread : Thread}
    {timeout : Option Time} {body : TxId → Act η ω (Except String α)} {c : Cluster η ω} {a : α}
    (h : (runInTransaction app n thread timeout body c).1 = .ok (.ok a)) :
    (execTransaction app n thread timeout body c).1 = .ok (.ok a) := by
  unfold execTransaction
  rw [Act.bind_apply]
  rcases hrun : runInTransaction app n thread timeout body c with ⟨p | ((e | e) | b), d⟩ <;>
    rw [hrun] at h
  · simp at h
  · simp at h
  · simp at h
  · obtain rfl : b = a := by simpa using h
    rfl

/-- An execution that does not succeed withdraws what it has done. -/
theorem withdrawn_execTransaction (happ : app.Considerate heard) (hc : c.Fresh) (n : NodeName)
    (thread : Thread) (timeout : Option Time) (work : TxId → Work η (Except String α))
    (hfail : ∀ a, (execTransaction app n thread timeout (fun tx => (work tx).act tx) c).1 ≠
      .ok (.ok a)) :
    Withdrawn heard c ⟨c.nextTx⟩ (c.deedsOf n thread timeout work)
      (execTransaction app n thread timeout (fun tx => (work tx).act tx) c).2 := by
  rw [execTransaction_snd]
  exact withdrawn_runInTransaction happ hc n thread timeout work (fun _ _ _ => rfl)
    fun a ha => hfail a (execTransaction_eq_ok ha)

/-- Isolated work is work in a transaction on the worker, after which the worker goes on with
whatever is due. -/
theorem execIsolated_of_hasWorkers {app : Application η ω} {n : NodeName}
    {body : TxId → Act η ω (Except String α)} {c : Cluster η ω}
    (h : ((c.settle app n).node n).scheduler.hasWorkers = true) :
    (execIsolated app n body c).2 =
        (execTransaction app n (.worker n) none body (c.settle app n)).2.settle app n ∧
      ∀ a, (execTransaction app n (.worker n) none body (c.settle app n)).1 = .ok (.ok a) →
        (execIsolated app n body c).1 = .ok a := by
  unfold execIsolated
  simp only [h, if_true]
  rcases execTransaction app n (.worker n) none body (c.settle app n) with ⟨p | answer, d⟩
  · exact ⟨rfl, fun a ha => by simp at ha⟩
  · exact ⟨rfl, fun a ha => Except.ok.inj ha⟩

/-! ## Runs of jobs -/

/-- What follows the handler in a run in a transaction: a stored job is taken out. -/
def afterHandler (n : NodeName) (info : JobInfo) :
    Except ProcessingError Unit → Work η (Except JobFailure Unit)
  | .error e => .done (.error (.processing e))
  | .ok () =>
    if info.persisted then
      .call (.release n info.jobId) fun
        | .claimed answer => .done answer
        | _ => .done (.ok ())
    else .done (.ok ())

/-- The work of a run in a transaction: a stored job is claimed, and then the handler is at work. -/
def jobWork (n : NodeName) (info : JobInfo) (work : Work η (Except ProcessingError Unit)) :
    Work η (Except JobFailure Unit) :=
  if info.persisted then
    .call (.claim n info.jobId) fun
      | .claimed (.error e) => .done (.error e)
      | _ => work.bind (afterHandler n info)
  else work.bind (afterHandler n info)

/-- A claim changes no handler. -/
theorem handlers_claimFor (c : Cluster η ω) (n m : NodeName) (tx : TxId) (id : JobId) :
    ((c.claimFor n tx id).2.node m).handlers = (c.node m).handlers := by
  unfold claimFor claim
  cases c.jobs.claim id (c.node n).id with
  | error e => rfl
  | ok x => rfl

/-- A handler that works by calls makes the work of a run one that consists of calls. -/
theorem transactedBody_eq_act {app : Application η ω} {n : NodeName} {thread : Thread}
    {info : JobInfo} {tx : TxId} {script : η} {work : Work η (Except ProcessingError Unit)}
    {c : Cluster η ω}
    (hhandler : (c.node n).handlers.get? info.details.jobType = some (.custom script))
    (hwork : app.handler thread script info (some tx) = work.act tx) :
    transactedBody app n thread info tx c = (jobWork n info work).act tx c := by
  have hprocess : ∀ d : Cluster η ω, (d.node n).handlers = (c.node n).handlers →
      process app n thread info (some tx) d = work.act tx d := by
    intro d hd
    unfold process
    rw [hd, hhandler, ← hwork]
  unfold transactedBody jobWork afterHandler
  cases hpersisted : info.persisted with
  | true =>
      have hhandlers := c.handlers_claimFor n n tx info.jobId
      simp only [if_true, Act.bind_apply, Act.lift, Work.act, WorkCall.perform]
      rcases hclaim : c.claimFor n tx info.jobId with ⟨e | _, d⟩
      · rfl
      · rw [hclaim] at hhandlers
        simp only [Work.act_bind, Act.bind_apply, hprocess d hhandlers]
        rcases work.act tx d with ⟨p | (e | _), d'⟩ <;> rfl
  | false =>
      simp only [Bool.false_eq_true, if_false, Work.act_bind, Act.bind_apply, hprocess c rfl]
      rcases work.act tx c with ⟨p | (e | _), d'⟩ <;> rfl

theorem handlers_opening {n : NodeName} {thread : Thread} {timeout : Option Time}
    (h : c.opening n thread timeout = (.ok tx, d)) (m : NodeName) :
    (d.node m).handlers = (c.node m).handlers := by
  rw [(begin_eq_ok h).handlers m, handlers_modifyManager]

/-- A run in a transaction that does not complete its job takes everything back. -/
theorem withdrawn_attempt (happ : app.Considerate heard) (hc : c.Fresh) (n : NodeName)
    {info : JobInfo} (htransacted : info.transacted = true) {script : η}
    (hhandler : (c.node n).handlers.get? info.details.jobType = some (.custom script))
    (work : TxId → Work η (Except ProcessingError Unit))
    (hwork : ∀ tx, app.handler (.worker n) script info (some tx) = (work tx).act tx)
    (hfail : (attempt app n (.worker n) info c).1 ≠ .ok .completed) :
    Withdrawn heard c ⟨c.nextTx⟩
      (c.deedsOf n (.worker n) none fun tx => jobWork n info (work tx))
      (attempt app n (.worker n) info c).2 := by
  have hbody : ∀ tx d, c.opening n (.worker n) none = (.ok tx, d) →
      transactedBody app n (.worker n) info tx d = (jobWork n info (work tx)).act tx d := by
    intro tx d hopening
    refine transactedBody_eq_act ?_ (hwork tx)
    rw [handlers_opening hopening, hhandler]
  rw [attempt_of_transacted app n (.worker n) c htransacted] at hfail ⊢
  refine withdrawn_runInTransaction happ hc n (.worker n) none
    (fun tx => jobWork n info (work tx)) hbody fun a ha => hfail ?_
  rw [ha]
  rfl

/-- A run that is counted and takes the mark off its job changes nothing else. -/
theorem withdrawn_runJob {n : NodeName} {job : ScheduledJob}
    (hprocessor : (c.node n).scheduler.hasProcessor = true)
    (h : Withdrawn heard c tx deeds (attempt app n (.worker n) job.info c).2) :
    Withdrawn heard c tx deeds (runJob app n job c).2 := by
  have hmark : ∀ d : Cluster η ω, Withdrawn heard c tx deeds d → ∀ ending,
      Withdrawn heard c tx deeds
        ((d.modifyTodo n fun q => q.finish job.info.jobId).modifyScheduler n
          fun s => s.count ending) := by
    intro d hd ending
    have hcount : ∀ s : Scheduler, (s.count ending).todo = s.todo := by
      intro s
      cases ending <;> rfl
    have hfinish := hd.apart (d.apart_modifyScheduler n
      (fun s => { s with todo := s.todo.finish job.info.jobId }) rfl)
    exact hfinish.apart (apart_modifyScheduler _ n _ (by rw [hcount]))
  unfold runJob
  simp only [Act.bind_apply, Act.gets, hprocessor, if_true]
  rcases hattempt : attempt app n (.worker n) job.info c with ⟨p | ending, d⟩ <;> rw [hattempt] at h
  · exact h
  · exact hmark d h ending

end Cluster

/-! ## A unit in trouble -/

/-- Work that leaves something everywhere. In between it registers callbacks that are going to fail,
and the job store becomes unavailable; in the end the transaction is marked. -/
def Work.troubled (a : α) : Work Bool α :=
  .call (.schedulePersisted "n" ⟨"t", ∅⟩ none) fun _ =>
  .call (.register .both true) fun _ =>
  .call (.scheduleVolatile "n" true ⟨"t", ∅⟩ none) fun _ =>
  .call (.createExchange "n" ⟨"x"⟩ .myRole) fun _ =>
  .call (.register .after false) fun _ =>
  .call (.createInstance { id := ⟨"i"⟩, process := "p", lastActive := 0 }) fun _ =>
  .call (.setStoreAvailable false) fun _ =>
  .call .mark fun _ => .done a

/-- An application whose callbacks panic or fail, whose handlers do such work, and whose listeners
keep what they hear. -/
def Application.troubled : Application Bool (List InstanceEvent) where
  callback _ script _ := if script then Act.panic "callback" else pure (.error "callback")
  handler _ _ _ tx := match tx with
    | some tx => (Work.troubled (.ok ())).act tx
    | none => pure (.ok ())
  listener _ event heard := event :: heard

/-- A job that is run in a transaction. -/
def ScheduledJob.troubled : ScheduledJob :=
  .volatile { jobId := ⟨"J"⟩, details := ⟨"t", ∅⟩, persisted := false, transacted := true }

namespace Cluster

/-- A cluster of one node, with listeners. -/
def ofNode : Cluster Bool (List InstanceEvent) where
  clock := 0
  listeners := [.report "l", .cleanUp "n"]
  nodes := Table.ofList
    [("n", { (default : Node Bool) with
      scheduler := { hasWorkers := true }
      handlers := Table.ofList [("t", .custom true)] })]
  outside := []

theorem fresh_ofNode : ofNode.Fresh := by
  have hnode : ∀ m, (ofNode.node m).scheduler.todo = {} ∧ (ofNode.node m).registry.slots = ∅ := by
    intro m
    by_cases hm : "n" = m
    · subst hm
      exact ⟨rfl, rfl⟩
    · have hdefault : ofNode.node m = default := by
        simp [node, ofNode, Table.ofList, hm]
      rw [hdefault]
      exact ⟨rfl, rfl⟩
  refine ⟨fun _ _ => rfl, fun k _ => ?_, fun _ _ => rfl, fun _ _ => rfl, fun m id slot h => ?_⟩
  · rintro ⟨m, e, he, _⟩
    rw [(hnode m).1] at he
    exact absurd he List.not_mem_nil
  · rw [(hnode m).2, Table.get?_empty] at h
    simp at h

/-! ## No trace -/

variable {heard : ω → (NodeName → Routes) → ν} {start c : Cluster η ω} {deeds : List Deed}
  {app : Application η ω}

/-- Whether nothing is left of a unit of work that began in a given cluster: of the jobs that it
scheduled, of the exchanges that it created, of its writes, and of what listeners do when they hear
of changes. -/
structure NoTrace (heard : ω → (NodeName → Routes) → ν) (start : Cluster η ω) (deeds : List Deed)
    (c : Cluster η ω) : Prop where
  stored : ∀ id, .job id ∈ deeds → c.jobs.find? id = none
  queued : ∀ id, .job id ∈ deeds → ¬ c.Queued id
  exchanges : ∀ n id slot, .exchange n id slot ∈ deeds → (c.node n).registry.Left slot
  committed : c.instances.committed = start.instances.committed
  staged : c.instances.staged.get? ⟨start.nextTx⟩ = none
  heard : heard c.outside c.routes = heard start.outside start.routes

/-- What is withdrawn has left no trace. -/
theorem Withdrawn.noTrace (h : Withdrawn heard start ⟨start.nextTx⟩ deeds c) :
    NoTrace heard start deeds c where
  stored id hid := (h.undone (.job id) hid).2.1
  queued id hid := (h.undone (.job id) hid).2.2
  exchanges n id slot hid := (h.undone (.exchange n id slot) hid).2
  committed := h.since.committed
  staged := h.unwritten
  heard := h.since.heard

/-- Whatever a unit of work does, and however it comes to nothing, it leaves no trace: work in a
transaction of its own, isolated work, and a run of a job in a transaction. -/
theorem noTrace_of_failure (happ : app.Considerate heard) :
    (∀ n thread timeout (work : TxId → Work η (Except String α)) (c : Cluster η ω), c.Fresh →
      (∀ a, (execTransaction app n thread timeout (fun tx => (work tx).act tx) c).1 ≠
        .ok (.ok a)) →
      NoTrace heard c (c.deedsOf n thread timeout work)
        (execTransaction app n thread timeout (fun tx => (work tx).act tx) c).2) ∧
    (∀ n (work : TxId → Work η (Except String α)) (c : Cluster η ω), (c.settle app n).Fresh →
      ((c.settle app n).node n).scheduler.hasWorkers = true →
      (∀ a, (execIsolated app n (fun tx => (work tx).act tx) c).1 ≠ .ok a) →
      ∃ d, NoTrace heard (c.settle app n) ((c.settle app n).deedsOf n (.worker n) none work) d ∧
        (execIsolated app n (fun tx => (work tx).act tx) c).2 = d.settle app n) ∧
    (∀ n job script (work : TxId → Work η (Except ProcessingError Unit)) (c : Cluster η ω),
      c.Fresh → (c.node n).scheduler.hasProcessor = true → job.info.transacted = true →
      (c.node n).handlers.get? job.info.details.jobType = some (.custom script) →
      (∀ tx, app.handler (.worker n) script job.info (some tx) = (work tx).act tx) →
      (attempt app n (.worker n) job.info c).1 ≠ .ok .completed →
      NoTrace heard c (c.deedsOf n (.worker n) none fun tx => jobWork n job.info (work tx))
        (runJob app n job c).2) := by
  refine ⟨fun n thread timeout work c hc hfail => ?_, fun n work c hc hworkers hfail => ?_,
    fun n job script work c hc hprocessor htransacted hhandler hwork hfail => ?_⟩
  · exact (withdrawn_execTransaction happ hc n thread timeout work hfail).noTrace
  · obtain ⟨hend, hok⟩ := execIsolated_of_hasWorkers hworkers
    exact ⟨_, (withdrawn_execTransaction happ hc n (.worker n) none work
      fun a ha => hfail a (hok a ha)).noTrace, hend⟩
  · exact (withdrawn_runJob hprocessor
      (withdrawn_attempt happ hc n htransacted hhandler work hwork hfail)).noTrace

/-- Callbacks that fail and panic, and a store that becomes unavailable, do not keep the three kinds
of units from taking back two jobs and an exchange. -/
theorem noTrace_of_failure_troubled :
    NoTrace Prod.mk ofNode [.job (.drawn 0), .job (.drawn 1), .exchange "n" ⟨"x"⟩ 0]
        (execTransaction .troubled "n" .main none
          (fun tx => (Work.troubled (.ok () : Except String Unit)).act tx) ofNode).2 ∧
      (∃ d, NoTrace Prod.mk ofNode [.job (.drawn 0), .job (.drawn 1), .exchange "n" ⟨"x"⟩ 0] d ∧
        (execIsolated .troubled "n"
          (fun tx => (Work.troubled (.ok () : Except String Unit)).act tx) ofNode).2 =
            d.settle .troubled "n") ∧
      NoTrace Prod.mk ofNode [.job (.drawn 0), .job (.drawn 1), .exchange "n" ⟨"x"⟩ 0]
        (runJob .troubled "n" .troubled ofNode).2 := by
  have happ : Application.troubled.Considerate Prod.mk := by
    intro thread script phase c _
    cases script <;> exact .refl _ c
  obtain ⟨htransaction, hisolated, hjob⟩ := noTrace_of_failure (α := Unit) happ
  refine ⟨?_, ?_, ?_⟩
  · exact htransaction "n" .main none (fun _ => .troubled (.ok ())) ofNode fresh_ofNode nofun
  · exact hisolated "n" (fun _ => .troubled (.ok ())) ofNode fresh_ofNode rfl nofun
  · exact hjob "n" .troubled true (fun _ => .troubled (.ok ())) ofNode fresh_ofNode rfl rfl rfl
      (fun _ => rfl) nofun

end Cluster

end JobCluster
