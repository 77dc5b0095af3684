import JobCluster.Proofs.Cluster.Interplay
import JobCluster.Proofs.Cluster.Undoing
/-!
# Units of work as histories

A unit of work goes from its beginning to its end in one go, and so does the end of a transaction
that is called for. Both are histories of overlapping transactions like any other, as long as the
callbacks of the application do nothing that could not happen in a history. So what holds of all
histories holds of units of work as well.

Main results:

- `Interplay.Takes.walk`, `Interplay.enacts_finish`: the walk over callbacks and the end of a
  transaction as the steps of its departure;
- `Interplay.unfolds_act`: the calls of a transaction as moves;
- `Interplay.unfolds_runInTransaction`, `Interplay.unfolds_attempt`: whole units of work.
-/

namespace JobCluster

variable {η ω ε α : Type}

/-- Something that happens in the transaction manager of a node. -/
def Elsewhere.inManager (n : NodeName) (f : TxManager → TxManager) : Elsewhere η ω where
  change c := c.modifyManager n f
  jobs _ := rfl
  instances _ := rfl
  transactions _ := rfl
  registry _ m := Cluster.registry_modifyNode rfl m
  nodeId c m := c.nodeId_modifyManager n m f
  nextTx _ := rfl
  nextJob _ := rfl

namespace Interplay

/-- Whether one cluster comes of another by a history in which the transactions on their way out
take no steps. Others may begin, work and leave. -/
def Unfolds (app : Application η ω) (c d : Cluster η ω) : Prop :=
  ∀ departures log, ∃ moves more log',
    (Interplay.mk c departures log).play app moves = ⟨d, departures ++ more, log'⟩

/-- Whether one cluster comes of another by a history that takes a departure from one round to
another. -/
def Takes (app : Application η ω) (c : Cluster η ω) (x : Departure η) (d : Cluster η ω)
    (y : Departure η) : Prop :=
  ∀ before after log, ∃ moves more log',
    (Interplay.mk c (before ++ x :: after) log).play app moves =
      ⟨d, before ++ y :: (after ++ more), log'⟩

variable {app : Application η ω} {c d e : Cluster η ω} {x y z : Departure η} {tx : TxId}
  {t : Transaction (Callback η)}

namespace Unfolds

theorem refl (app : Application η ω) (c : Cluster η ω) : Unfolds app c c :=
  fun departures log => ⟨[], [], log, by simp [play]⟩

/-- What unfolds in two parts unfolds as a whole. -/
theorem trans (h : Unfolds app c d) (h' : Unfolds app d e) : Unfolds app c e := by
  intro departures log
  obtain ⟨moves, more, log', hfirst⟩ := h departures log
  obtain ⟨moves', more', log'', hsecond⟩ := h' (departures ++ more) log'
  refine ⟨moves ++ moves', more ++ more', log'', ?_⟩
  rw [play_append, hfirst, hsecond, List.append_assoc]

/-- A move that lets no departure take a step. -/
theorem of_step {m : Move η ω}
    (h : ∀ departures log, (Interplay.mk c departures log).step app m = ⟨d, departures, log⟩) :
    Unfolds app c d :=
  fun departures log => ⟨[m], [], log, by rw [List.append_nil]; exact h departures log⟩

/-- The table of owners may change at any time without anything being carried out. -/
theorem modifyManager (app : Application η ω) (c : Cluster η ω) (n : NodeName)
    (f : TxManager → TxManager) : Unfolds app c (c.modifyManager n f) := by
  have hstep : ∀ departures log,
      (Interplay.mk c departures log).step app (.elsewhere (.inManager n f)) =
        ⟨c.modifyManager n f, departures, log⟩ := fun _ _ => rfl
  exact of_step hstep

end Unfolds

namespace Takes

theorem refl (app : Application η ω) (c : Cluster η ω) (x : Departure η) : Takes app c x c x :=
  fun before after log => ⟨[], [], log, by simp [play]⟩

/-- Two parts of a departure make up one. -/
theorem trans (h : Takes app c x d y) (h' : Takes app d y e z) : Takes app c x e z := by
  intro before after log
  obtain ⟨moves, more, log', hfirst⟩ := h before after log
  obtain ⟨moves', more', log'', hsecond⟩ := h' before (after ++ more) log'
  refine ⟨moves ++ moves', more ++ more', log'', ?_⟩
  rw [play_append, hfirst, hsecond, List.append_assoc]

/-- What happens while a departure waits belongs to it. -/
theorem of_unfolds (h : Unfolds app c d) (x : Departure η) : Takes app c x d x := by
  intro before after log
  obtain ⟨moves, more, log', hplay⟩ := h (before ++ x :: after) log
  refine ⟨moves, more, log', ?_⟩
  rw [hplay, List.append_assoc, List.cons_append]

/-- A departure takes its next step. -/
theorem next (app : Application η ω) (c : Cluster η ω) (x : Departure η) :
    Takes app c x (x.next app c).2 (x.moveTo (x.next app c).1) := by
  intro before after log
  refine ⟨[.advance before.length], [], log, ?_⟩
  have hget : (before ++ x :: after)[before.length]? = some x := by simp
  have hset : (before ++ x :: after).set before.length (x.moveTo (x.next app c).1) =
      before ++ x.moveTo (x.next app c).1 :: after := by
    simp
  simp only [play, List.foldl_cons, List.foldl_nil, step, hget, hset, List.append_nil]

end Takes

end Interplay

/-- Whether the callbacks of an application do nothing but what may happen in a history. -/
def Application.Enacted (app : Application η ω) : Prop :=
  ∀ thread script phase c, Interplay.Unfolds app c (app.callback thread script phase c).2

namespace Interplay

variable {app : Application η ω} {c d e : Cluster η ω} {x y z : Departure η} {tx : TxId}
  {t : Transaction (Callback η)}

/-! ## The end of a transaction -/

/-- What a callback of the application does happens around the departure that runs it. -/
theorem unfolds_runCallback (h : app.Enacted) (thread : Thread) (phase : Phase) (c : Cluster η ω)
    (callback : Callback η) :
    Unfolds app (c.carryOut app thread phase callback)
      (Cluster.runCallback app thread callback phase c).2 := by
  cases callback with
  | custom script =>
      have hscript := h thread script phase c
      simp only [Cluster.carryOut, Cluster.runCallback]
      rcases hanswer : app.callback thread script phase c with ⟨p | (e | _), d⟩ <;>
        rw [hanswer] at hscript <;> exact hscript
  | publish n plan | queue n info | drop n j armed | applyWrites tx | withdraw n j =>
      exact .refl app _

/-- The round in which callbacks are left to run. -/
def roundOf (phase : Phase) (rest : List (Callback η)) : Round η :=
  match phase with
  | .before => .preparing rest
  | .after committed => .concluding committed rest

/-- The walk over the callbacks of a round. -/
theorem Takes.walk (h : app.Enacted) (phase : Phase) (rest : List (Callback η)) (c : Cluster η ω)
    (x : Departure η) (hround : x.round = roundOf phase rest) :
    Takes app c x (Slots.runAll (Cluster.surroundings app x.thread) phase rest c)
      (x.moveTo (roundOf phase [])) := by
  induction rest generalizing c x with
  | nil =>
      have hx : x.moveTo (roundOf phase []) = x := by
        rw [← hround]
        rfl
      rw [hx]
      exact .refl app c x
  | cons callback rest ih =>
      have hnext : x.next app c =
          (roundOf phase rest, c.carryOut app x.thread phase callback) := by
        cases phase <;> simp only [Departure.next, hround, roundOf]
      have hstep := Takes.next app c x
      rw [hnext] at hstep
      -- A step leaves out what a callback of the application does; that is a history of its own.
      have hdone := unfolds_runCallback h x.thread phase c callback
      exact (hstep.trans (.of_unfolds hdone _)).trans (ih _ (x.moveTo (roundOf phase rest)) rfl)

/-- Where an open transaction leaves, its departure takes the steps that are left. -/
theorem enacts_of_takes {round : Round η} {thread : Thread} (request : Transaction.Request)
    (ht : c.transaction? tx = some t)
    (h : Takes app (Departure.first app thread tx request t c).2
      ⟨tx, thread, t, (Departure.first app thread tx request t c).1⟩ d ⟨tx, thread, t, round⟩)
    (departures : List (Departure η)) (log : List (WorkEntry η ω)) :
    ∃ moves more log', (Interplay.mk c departures log).play app moves =
      ⟨d, departures ++ ⟨tx, thread, t, round⟩ :: more, log'⟩ := by
  obtain ⟨moves, more, log', hplay⟩ := h departures [] log
  refine ⟨.depart tx thread request :: moves, more, log', ?_⟩
  rw [play_cons]
  simp only [step, ht]
  rw [hplay, List.nil_append]

/-- A prepared departure commits with the resource manager or rolls back, and runs its callbacks. -/
theorem takes_settle (h : app.Enacted) (c : Cluster η ω) (x : Departure η)
    (hround : x.round = .preparing []) :
    Takes app c x
      (match (Cluster.surroundings app x.thread).commitResource x.transaction.id c with
        | (.ok (), d) => x.transaction.runPhase (Cluster.surroundings app x.thread) (.after true)
            ((Cluster.surroundings app x.thread).leave x.transaction d)
        | (.error _, d) => x.transaction.runPhase (Cluster.surroundings app x.thread) (.after false)
            ((Cluster.surroundings app x.thread).leave x.transaction
              ((Cluster.surroundings app x.thread).rollbackResource x.transaction.id d).2))
      (x.moveTo (.concluding
        ((Cluster.surroundings app x.thread).commitResource x.transaction.id c).1.isOk [])) := by
  have hstep := Takes.next app c x
  unfold Departure.next at hstep
  simp only [hround] at hstep
  rcases hcommit : (Cluster.surroundings app x.thread).commitResource x.transaction.id c with
    ⟨e | _, d⟩ <;> rw [hcommit] at hstep
  · exact hstep.trans (Takes.walk h (.after false) _ _ (x.moveTo _) rfl)
  · exact hstep.trans (Takes.walk h (.after true) _ _ (x.moveTo _) rfl)

/-- A transaction that does not get as far as a commit ends with its callbacks after a rollback. -/
theorem finish_snd_of_not_reaches (w : Surroundings (Cluster η ω) (Callback η))
    {request : Transaction.Request} (h : t.reachesCommit request = false) (c : Cluster η ω) :
    (t.finish w request c).2 =
      t.runPhase w (.after false) (w.leave t (w.rollbackResource t.id c).2) := by
  rw [← Transaction.rollback_snd]
  cases request with
  | commit =>
      have hcan : t.canCommit = false := by simpa [Transaction.reachesCommit] using h
      obtain ⟨cause, heq⟩ := Transaction.commit_of_canCommit_eq_false w t c hcan
      rw [Transaction.finish, heq, Transaction.degrade_snd]
  | rollback | drop => rfl

/-- The end of an open transaction, however it is called for, is a history in which the transaction
leaves, takes its steps and is over. -/
theorem enacts_finish (h : app.Enacted) (ht : c.transaction? tx = some t) (thread : Thread)
    (request : Transaction.Request) {c' : Cluster η ω}
    (hc' : c' = { c with transactions := c.transactions.erase tx })
    (departures : List (Departure η)) (log : List (WorkEntry η ω)) :
    ∃ moves more log', (Interplay.mk c departures log).play app moves =
      ⟨(t.finish (Cluster.surroundings app thread) request c').2,
        departures ++ ⟨tx, thread, t, .concluding
          (t.succeeds (Cluster.surroundings app thread) request c') []⟩ :: more, log'⟩ := by
  obtain ⟨w, hw⟩ : ∃ w, w = Cluster.surroundings app thread := ⟨_, rfl⟩
  refine enacts_of_takes request ht ?_ departures log
  rw [← hw, Transaction.succeeds]
  cases hreaches : t.reachesCommit request with
  | false =>
      rw [finish_snd_of_not_reaches w hreaches]
      have hfirst : Departure.first app thread tx request t c = (.concluding false
          (t.callbacks (.after false)), w.leave t (w.rollbackResource t.id c').2) := by
        rw [Departure.first, hreaches, ← hw, ← hc']
        rfl
      have hwalk := Takes.walk h (.after false) (t.callbacks (.after false))
        (w.leave t (w.rollbackResource t.id c').2) ⟨tx, thread, t, _⟩ rfl
      rw [← hw] at hwalk
      rw [hfirst]
      exact hwalk
  | true =>
      obtain ⟨hcommit, hcan⟩ : request = .commit ∧ t.canCommit = true := by
        simpa [Transaction.reachesCommit] using hreaches
      have hfirst : Departure.first app thread tx request t c =
          (.preparing (t.callbacks .before), c') := by
        rw [Departure.first, hreaches, ← hc']
        rfl
      have hbefore := Takes.walk h .before (t.callbacks .before) c'
        ⟨tx, thread, t, .preparing (t.callbacks .before)⟩ rfl
      have hsettle := takes_settle h (t.runPhase w .before c') ⟨tx, thread, t, .preparing []⟩ rfl
      rw [← hw] at hbefore hsettle
      have hall := hbefore.trans hsettle
      rw [hfirst, hcommit, Transaction.finish, Transaction.commit_of_canCommit w t c' hcan]
      rcases hanswer : w.commitResource t.id (t.runPhase w .before c') with ⟨e | _, d⟩ <;>
        simp only [hanswer] at hall <;> exact hall

/-- A transaction that is brought to its end carries its callbacks out one by one. -/
theorem unfolds_conclude (h : app.Enacted) (thread : Thread) (tx : TxId)
    (request : Transaction.Request) (c : Cluster η ω) :
    Unfolds app c
      (c.conclude tx fun t => t.finish (Cluster.surroundings app thread) request).2 := by
  unfold Cluster.conclude
  cases ht : c.transaction? tx with
  | none => exact .refl app c
  | some t =>
      intro departures log
      obtain ⟨moves, more, log', hplay⟩ := enacts_finish h ht thread request rfl departures log
      exact ⟨moves, _ :: more, log', hplay⟩

/-- So does a commit. -/
theorem unfolds_commit (h : app.Enacted) (thread : Thread) (tx : TxId) (c : Cluster η ω) :
    Unfolds app c (c.commit app thread tx).2 :=
  unfolds_conclude h thread tx .commit c

/-- So does a transaction that is dropped without an end. -/
theorem unfolds_abandon (h : app.Enacted) (thread : Thread) (tx : TxId) (c : Cluster η ω) :
    Unfolds app c (c.abandon app thread tx) :=
  unfolds_conclude h thread tx .rollback c

/-! ## Whole units of work -/

/-- The calls of an open transaction are moves, and the transaction stays open. -/
theorem unfolds_act (app : Application η ω) (work : Work η α)
    (ht : (c.transaction? tx).isSome = true) :
    Unfolds app c (work.act tx c).2 := by
  induction work generalizing c with
  | done a | crash message => exact .refl app c
  | call a next ih =>
      obtain ⟨t, ht⟩ := Option.isSome_iff_exists.mp ht
      obtain ⟨t', ht', _⟩ := (a.effect_perform tx c).own ht
      have hopen : ((a.perform tx c).2.transaction? tx).isSome = true := by rw [ht']; rfl
      have hwork : Unfolds app c (a.perform tx c).2 := by
        intro departures log
        refine ⟨[.work tx a], [], log ++ [⟨tx, a, c⟩], ?_⟩
        simp only [play, List.foldl_cons, List.foldl_nil, step, ht, List.append_nil]
      exact hwork.trans (ih _ hopen)

/-- Work in a transaction of its own, from its beginning to its end. -/
theorem unfolds_runInTransaction (h : app.Enacted) (n : NodeName) (thread : Thread)
    (timeout : Option Time) (work : TxId → Work η (Except ε α))
    {body : TxId → Act η ω (Except ε α)}
    (hbody : ∀ tx d, c.opening n thread timeout = (.ok tx, d) → body tx d = (work tx).act tx d) :
    Unfolds app c (Cluster.runInTransaction app n thread timeout body c).2 := by
  have hset := Unfolds.modifyManager app c n fun m => m.overrideTimeout thread timeout
  have hopening : Unfolds app c (c.opening n thread timeout).2 :=
    hset.trans (.of_step (m := .begin n thread) fun _ _ => rfl)
  have hrestore := fun d : Cluster η ω => Unfolds.modifyManager app d n fun m =>
    m.setTimeout thread ((c.node n).manager.override? thread)
  simp only [Cluster.runInTransaction_eq]
  rcases hbegin : c.opening n thread timeout with ⟨f | tx, d⟩ <;> rw [hbegin] at hopening
  · exact hopening.trans (hrestore d)
  · obtain ⟨t, _, ht⟩ := (Cluster.begin_eq_ok hbegin).transaction
    have hopen : (d.transaction? tx).isSome = true := by rw [ht, if_pos rfl]; rfl
    have hwork := hopening.trans (unfolds_act app (work tx) hopen)
    simp only [hbody tx d hbegin]
    rcases hact : (work tx).act tx d with ⟨p | (f | a), d'⟩ <;> simp only [hact] at hwork ⊢
    · exact (hwork.trans (unfolds_abandon h thread tx d')).trans (hrestore _)
    · exact (hwork.trans (unfolds_abandon h thread tx d')).trans (hrestore _)
    · have hcommit := hwork.trans (unfolds_commit h thread tx d')
      rcases hend : d'.commit app thread tx with ⟨f | _, d''⟩ <;> rw [hend] at hcommit
      · exact hcommit.trans (hrestore d'')
      · exact hcommit.trans (hrestore d'')

/-- A run of a job in a transaction, from its beginning to its end. -/
theorem unfolds_attempt (h : app.Enacted) (n : NodeName) {info : JobInfo}
    (htransacted : info.transacted = true) {script : η}
    (hhandler : (c.node n).handlers.get? info.details.jobType = some (.custom script))
    (work : TxId → Work η (Except ProcessingError Unit))
    (hwork : ∀ tx, app.handler (.worker n) script info (some tx) = (work tx).act tx) :
    Unfolds app c (Cluster.attempt app n (.worker n) info c).2 := by
  rw [Cluster.attempt_of_transacted app n (.worker n) c htransacted]
  refine unfolds_runInTransaction h n (.worker n) none
    (fun tx => Cluster.jobWork n info (work tx)) fun tx d hopening => ?_
  refine Cluster.transactedBody_eq_act ?_ (hwork tx)
  rw [Cluster.handlers_opening hopening, hhandler]

end Interplay

end JobCluster
