import JobCluster.Proofs.Cluster.Undoing
import JobCluster.Proofs.Job.WholeRun
/-!
# A run of a job while other things happen

A run of a stored job goes from its claim to the moment at which the scheduler has counted it. Its
steps are the operations of `Cluster.runJob`, cut where others may come in, and between any two of
them anything may happen to the cluster. The handler and the callbacks of the application are
carried out.

Main results:

- `JobRun.goOn`, `JobRun.turn_goOn`: the next step of a run, and what it comes to;
- `Passage.step`: what happens next, a step of the run or something else;
- `Passage.proceed_cases`: what a step of the run comes to in a passage;
- `Passage.Throughout.of_invariant`: what holds at every move of a passage;
- `Passage.ending?_play`: once it is settled how a run ends, it ends so;
- `Cluster.runJob_eq_play`, `Cluster.runJob_eq_play_plain`: a run that nothing comes between is what
  a scheduler does.
-/

namespace JobCluster

variable {η ω : Type}

/-! ## The steps of a run -/

namespace JobRun

/-- The next step of a run in its transaction, with the handler and the callbacks carried out. -/
def goOn (app : Application η ω) (info : JobInfo) (r : JobRun η) (c : Cluster η ω) :
    JobStage η × Cluster η ω :=
  match r.stage with
  | .handling =>
    let (answer, c) := Cluster.process app r.node r.thread info (some r.tx) c
    (stageHandled answer, c)
  | .preparing t (callback :: rest) =>
    (.preparing t rest, (Cluster.runCallback app r.thread callback .before c).2)
  | .concluding committed (callback :: rest) ending =>
    (.concluding committed rest ending,
      (Cluster.runCallback app r.thread callback (.after committed) c).2)
  | _ =>
    let (stage, c, _) := r.advance app info.jobId 0 .panicked c
    (stage, c)

/-- The next step of a run outside any transaction. -/
def goOnPlain (app : Application η ω) (info : JobInfo) (r : JobRun η) (c : Cluster η ω) :
    JobStage η × Cluster η ω :=
  let lost (e : JobFailure) : JobStage η := .ended (some (Cluster.endOf (.error (.body e))))
  match r.stage with
  | .opened =>
    match c.claim r.node info.jobId with
    | (.ok (), c) => (.handling, c)
    | (.error e, c) => (lost e, c)
  | .handling =>
    let (answer, c) := Cluster.process app r.node r.thread info none c
    (stageHandled answer, c)
  | .handled =>
    match c.finishClaim r.node info.jobId .done with
    | (.ok (), c) => (.ended (some .completed), c)
    | (.error e, c) => (lost e, c)
  | .failing (some ending) =>
    match c.finishClaim r.node info.jobId .failedDropped with
    | (.ok (), c) => (.ended (some ending), c)
    | (.error e, c) => (lost e, c)
  | .failing none => (.ended none, c)
  | stage => (stage, c)

/-- A step in which neither the handler nor a callback runs is one of the run alone. -/
theorem goOn_of_isBare (app : Application η ω) (info : JobInfo) {r : JobRun η} (c : Cluster η ω)
    (h : r.stage.isBare = true) :
    r.goOn app info c = ((r.advance app info.jobId 0 .panicked c).1,
      (r.advance app info.jobId 0 .panicked c).2.1) := by
  unfold goOn
  cases hstage : r.stage with
  | handling =>
      rw [hstage] at h
      cases h
  | preparing t rest | concluding committed rest ending =>
      cases rest with
      | nil => rfl
      | cons callback rest =>
          rw [hstage] at h
          cases h
  | opened | handled | released | failing | ended => rfl

/-- How a run ends that is about to give its transaction up: its work has failed, or its transaction
cannot commit. -/
def givesUp? (r : JobRun η) (c : Cluster η ω) : Option (Option JobEnd) :=
  match r.stage with
  | .failing ending => some ending
  | .released =>
    if ((c.transaction? r.tx).filter Transaction.canCommit).isNone then some (some .failed)
    else none
  | _ => none

/-- A run gives its transaction up after it has failed, or if the transaction cannot commit. -/
theorem givesUp?_cases {r : JobRun η} {c : Cluster η ω} {ending : Option JobEnd}
    (h : r.givesUp? c = some ending) :
    r.stage = .failing ending ∨ r.stage = .released ∧ ending = some .failed ∧
      (c.transaction? r.tx).filter Transaction.canCommit = none := by
  unfold givesUp? at h
  cases hstage : r.stage with
  | failing other =>
      rw [hstage] at h
      cases h
      exact .inl rfl
  | released =>
      simp only [hstage] at h
      split at h
      · next hnone =>
        cases h
        exact .inr ⟨rfl, rfl, Option.isNone_iff_eq_none.mp hnone⟩
      · cases h
  | opened | handling | handled | preparing | concluding | ended =>
      rw [hstage] at h
      cases h

/-- What the next step of a run in its transaction comes to: the next stage and the cluster. -/
inductive Turn (app : Application η ω) (info : JobInfo) (r : JobRun η) (c : Cluster η ω) :
    JobStage η → Cluster η ω → Prop
  | claimed {held : JobRecord} {jobs : JobStore} (hstage : r.stage = .opened)
      (hclaim : c.jobs.claim info.jobId (c.nodeId r.node) = .ok (held, jobs)) :
      Turn app info r c .handling
        (({ c with jobs }).register r.tx .onRollback (.drop r.node info.jobId true))
  | unclaimed {e : JobStoreError} (hstage : r.stage = .opened)
      (hclaim : c.jobs.claim info.jobId (c.nodeId r.node) = .error e) :
      Turn app info r c (.failing (some (Cluster.endOf (.error (.body (.ofStore e)))))) c
  | handled (hstage : r.stage = .handling) :
      Turn app info r c
        (stageHandled (Cluster.process app r.node r.thread info (some r.tx) c).1)
        (Cluster.process app r.node r.thread info (some r.tx) c).2
  | released {jobs : JobStore} (hstage : r.stage = .handled)
      (hfinish : c.jobs.finish info.jobId (c.nodeId r.node) .done = .ok jobs) :
      Turn app info r c .released
        (({ c with jobs }).modifyTransaction r.tx fun t =>
          t.mapCallbacks (Cluster.disarm info.jobId))
  | unreleased {e : JobStoreError} (hstage : r.stage = .handled)
      (hfinish : c.jobs.finish info.jobId (c.nodeId r.node) .done = .error e) :
      Turn app info r c (.failing (some (Cluster.endOf (.error (.body (.ofStore e)))))) c
  | prepared {t : Transaction (Callback η)} (hstage : r.stage = .released)
      (ht : c.transaction? r.tx = some t) (hcan : t.canCommit = true) :
      Turn app info r c (.preparing t (t.callbacks .before))
        { c with transactions := c.transactions.erase r.tx }
  | withdrawn {t : Transaction (Callback η)} {ending : Option JobEnd}
      (resource : ResourceManager) (hends : r.givesUp? c = some ending)
      (ht : c.transaction? r.tx = some t) :
      Turn app info r c (.concluding false (t.callbacks (.after false)) ending)
        ({ c with transactions := c.transactions.erase r.tx, resource }.modifyManager t.node
          fun m => m.release t.owner t.id)
  /-- Somebody else has brought the transaction to its end. -/
  | bereft {ending : Option JobEnd} (hends : r.givesUp? c = some ending)
      (ht : c.transaction? r.tx = none) : Turn app info r c (.ended ending) c
  | committed {t : Transaction (Callback η)} (resource : ResourceManager)
      (hstage : r.stage = .preparing t []) (hgrants : c.resource.refusesCommit = false) :
      Turn app info r c (.concluding true (t.callbacks (.after true)) (some .completed))
        ({ c with resource }.modifyManager t.node fun m => m.release t.owner t.id)
  | refused {t : Transaction (Callback η)} (resource : ResourceManager)
      (hstage : r.stage = .preparing t []) (hrefuses : c.resource.refusesCommit = true) :
      Turn app info r c (.concluding false (t.callbacks (.after false)) (some .failed))
        ({ c with resource }.modifyManager t.node fun m => m.release t.owner t.id)
  | before {t : Transaction (Callback η)} {callback : Callback η} {rest : List (Callback η)}
      (hstage : r.stage = .preparing t (callback :: rest)) :
      Turn app info r c (.preparing t rest) (Cluster.runCallback app r.thread callback .before c).2
  | after {committed : Bool} {callback : Callback η} {rest : List (Callback η)}
      {ending : Option JobEnd}
      (hstage : r.stage = .concluding committed (callback :: rest) ending) :
      Turn app info r c (.concluding committed rest ending)
        (Cluster.runCallback app r.thread callback (.after committed) c).2
  | concluded {committed : Bool} {ending : Option JobEnd}
      (hstage : r.stage = .concluding committed [] ending) : Turn app info r c (.ended ending) c

/-- A run that gives its transaction up rolls it back. -/
theorem turn_withdraw (app : Application η ω) (info : JobInfo) {r : JobRun η} {c : Cluster η ω}
    {ending : Option JobEnd} (h : r.givesUp? c = some ending) :
    Turn app info r c (r.withdraw app ending c).1 (r.withdraw app ending c).2 := by
  rcases r.withdraw_cases app c ending with ⟨ht, heq⟩ | ⟨t, resource, ht, heq⟩
  · rw [heq]
    exact .bereft h ht
  · rw [heq]
    exact .withdrawn resource h ht

/-- Every step of a run that has not ended is one of these. -/
theorem turn_goOn (app : Application η ω) (info : JobInfo) (r : JobRun η) (c : Cluster η ω)
    (h : ∀ ending, r.stage ≠ .ended ending) :
    Turn app info r c (r.goOn app info c).1 (r.goOn app info c).2 := by
  unfold goOn
  cases hstage : r.stage with
  | opened =>
      simp only [advance, hstage]
      rcases c.claimFor_cases r.node r.tx info.jobId with
        ⟨held, jobs, hclaim, heq⟩ | ⟨e, hclaim, heq⟩
      · rw [heq]
        exact .claimed hstage hclaim
      · rw [heq]
        exact .unclaimed hstage hclaim
  | handling => exact .handled hstage
  | handled =>
      simp only [advance, hstage]
      rcases c.releaseClaim_cases r.node r.tx info.jobId with
        ⟨jobs, hfinish, heq⟩ | ⟨e, hfinish, heq⟩
      · rw [heq]
        exact .released hstage hfinish
      · rw [heq]
        exact .unreleased hstage hfinish
  | released =>
      simp only [advance, hstage]
      cases hfilter : (c.transaction? r.tx).filter Transaction.canCommit with
      | some t =>
          obtain ⟨ht, hcan⟩ := Option.filter_eq_some_iff.mp hfilter
          exact .prepared hstage ht hcan
      | none => exact turn_withdraw app info (by simp [givesUp?, hstage, hfilter])
  | failing ending =>
      simp only [advance, hstage]
      exact turn_withdraw app info (by simp [givesUp?, hstage])
  | preparing t rest =>
      cases rest with
      | cons callback rest => exact .before hstage
      | nil =>
          have hcommit : (Cluster.surroundings app r.thread).commitResource t.id c =
              ((c.resource.commit t.id).1, { c with resource := (c.resource.commit t.id).2 }) := rfl
          simp only [advance, hstage, settle, hcommit]
          cases hrefuses : c.resource.refusesCommit with
          | true =>
              simp only [ResourceManager.commit, hrefuses, if_true]
              exact .refused _ hstage hrefuses
          | false =>
              simp only [ResourceManager.commit, hrefuses, Bool.false_eq_true, if_false]
              exact .committed _ hstage hrefuses
  | concluding committed rest ending =>
      cases rest with
      | cons callback rest => exact .after hstage
      | nil =>
          simp only [advance, hstage]
          exact .concluded hstage
  | ended ending => exact absurd hstage (h ending)

end JobRun

/-! ## Passages -/

/-- A run of a stored job on its way, in a cluster in which other things happen as well. -/
structure Passage (η ω : Type) where
  cluster : Cluster η ω
  run : JobRun η
  /-- The time at which the handler was given the job. -/
  handledAt : Time := 0
  /-- Whether the scheduler is done with the run. -/
  isOver : Bool := false

namespace Passage

/-- What happens next. -/
inductive Move (η ω : Type)
  /-- The run takes its next step. -/
  | proceed
  /-- Something else happens, and leaves another cluster. -/
  | meanwhile (after : Cluster η ω)

/-- A run whose transaction has just begun. -/
def start (n : NodeName) (thread : Thread) (tx : TxId) (c : Cluster η ω) : Passage η ω where
  cluster := c
  run := { node := n, thread, tx }

/-- The run takes its next step. -/
def proceed (app : Application η ω) (job : JobRecord) (p : Passage η ω) : Passage η ω :=
  match p.run.stage with
  | .ended ending =>
    if p.isOver then p
    else { p with cluster := p.cluster.record p.run.node job.id ending, isOver := true }
  | stage =>
    let (next, c) :=
      if job.transacted then p.run.goOn app job.info p.cluster
      else p.run.goOnPlain app job.info p.cluster
    { p with
      cluster := c
      run := p.run.moveTo next
      handledAt := if stage matches .handling then p.cluster.clock else p.handledAt }

/-- Makes a move. -/
def step (app : Application η ω) (job : JobRecord) (p : Passage η ω) :
    Move η ω → Passage η ω
  | .proceed => p.proceed app job
  | .meanwhile c => { p with cluster := c }

/-- Makes moves one after another. -/
def play (app : Application η ω) (job : JobRecord) (p : Passage η ω)
    (moves : List (Move η ω)) : Passage η ω :=
  moves.foldl (step app job) p

/-- Whether every move of a passage has a property, at the moment at which it is made. -/
def Throughout (app : Application η ω) (job : JobRecord)
    (P : Passage η ω → Move η ω → Prop) : Passage η ω → List (Move η ω) → Prop
  | _, [] => True
  | p, m :: rest => P p m ∧ Throughout app job P (p.step app job m) rest

variable {app : Application η ω} {job : JobRecord} {p : Passage η ω}
  {moves : List (Move η ω)} {P Q : Passage η ω → Move η ω → Prop}

instance Throughout.decidable [∀ p m, Decidable (P p m)] (p : Passage η ω)
    (moves : List (Move η ω)) : Decidable (Throughout app job P p moves) :=
  match moves with
  | [] => .isTrue trivial
  | m :: rest =>
    have := Throughout.decidable (p.step app job m) rest
    inferInstanceAs (Decidable (P p m ∧ Throughout app job P (p.step app job m) rest))

/-- To make some moves and then more is to make them all. -/
theorem play_append (app : Application η ω) (job : JobRecord) (p : Passage η ω)
    (moves more : List (Move η ω)) :
    p.play app job (moves ++ more) = (p.play app job moves).play app job more :=
  List.foldl_append

/-- What is kept by every move with a property holds at every move of a passage, and in the end. -/
theorem Throughout.of_invariant {I : Passage η ω → Prop} (h : Throughout app job P p moves)
    (hstep : ∀ p m, I p → P p m → I (p.step app job m)) (hp : I p) :
    Throughout app job (fun p m => I p ∧ P p m) p moves ∧ I (p.play app job moves) := by
  induction moves generalizing p with
  | nil => exact ⟨trivial, hp⟩
  | cons m rest ih =>
      obtain ⟨hm, hrest⟩ := h
      obtain ⟨hall, hend⟩ := ih hrest (hstep p m hp hm)
      exact ⟨⟨⟨hp, hm⟩, hall⟩, hend⟩

/-- What implies something holds throughout if the first does. -/
theorem Throughout.mono (h : Throughout app job P p moves) (hPQ : ∀ p m, P p m → Q p m) :
    Throughout app job Q p moves := by
  induction moves generalizing p with
  | nil => exact trivial
  | cons m rest ih => exact ⟨hPQ p m h.1, ih h.2⟩

theorem Throughout.and (h : Throughout app job P p moves) (h' : Throughout app job Q p moves) :
    Throughout app job (fun p m => P p m ∧ Q p m) p moves := by
  induction moves generalizing p with
  | nil => exact trivial
  | cons m rest ih => exact ⟨⟨h.1, h'.1⟩, ih h.2 h'.2⟩

/-- What is true of every move as long as an invariant lasts is true of every move, if it keeps the
invariant up itself. -/
theorem Throughout.derive {I : Passage η ω → Prop} (h : Throughout app job P p moves)
    (hPQ : ∀ p m, I p → P p m → Q p m)
    (hstep : ∀ p m, I p → P p m → Q p m → I (p.step app job m)) (hp : I p) :
    Throughout app job Q p moves := by
  induction moves generalizing p with
  | nil => exact trivial
  | cons m rest ih =>
      have hm := hPQ p m hp h.1
      exact ⟨hm, ih h.2 (hstep p m hp h.1 hm)⟩

end Passage

/-! ## How a run ends -/

/-- How a run ends, once that is settled. -/
def JobStage.ending? : JobStage η → Option (Option JobEnd)
  | .concluding _ _ ending | .ended ending => some ending
  | .opened | .handling | .handled | .released | .preparing _ _ | .failing _ => none

/-- Whether a run may end so yet: one that has taken its job out has not lost its claim. -/
def JobStage.mayEnd (ending : Option JobEnd) : JobStage η → Prop
  | .opened | .handling | .handled | .failing _ => True
  | .released | .preparing _ _ => ending ≠ some .lostClaim
  | .concluding _ _ other | .ended other => other = ending

/-- A run has ended, or still goes on. -/
theorem JobStage.ended_or_running (stage : JobStage η) :
    (∃ ending, stage = .ended ending) ∨ ∀ ending, stage ≠ .ended ending := by
  by_cases hended : ∃ ending, stage = .ended ending
  · exact .inl hended
  · exact .inr fun ending h => hended ⟨ending, h⟩

/-- It is settled how a run ends that has ended. -/
theorem JobStage.ending?_of_ended {stage : JobStage η} {ending : Option JobEnd}
    (h : stage = .ended ending) : stage.ending? = some ending := by
  rw [h]
  rfl

namespace JobRun

variable {app : Application η ω} {info : JobInfo} {r : JobRun η} {c : Cluster η ω}
  {ending : Option JobEnd}

/-- No step of a run in its transaction changes how the run ends once that is settled. -/
theorem ending?_goOn (h : r.stage.ending? = some ending) :
    (r.goOn app info c).1.ending? = some ending := by
  unfold goOn
  cases hstage : r.stage with
  | concluding committed rest other =>
      rw [hstage] at h
      cases rest with
      | nil =>
          simp only [advance, hstage]
          exact h
      | cons callback rest => exact h
  | ended other =>
      rw [hstage] at h
      simp only [advance, hstage]
      exact h
  | opened | handling | handled | released | preparing | failing =>
      rw [hstage] at h
      cases h

theorem ending?_goOnPlain (h : r.stage.ending? = some ending) :
    (r.goOnPlain app info c).1.ending? = some ending := by
  unfold goOnPlain
  cases hstage : r.stage with
  | concluding | ended =>
      rw [hstage] at h
      exact h
  | opened | handling | handled | released | preparing | failing =>
      rw [hstage] at h
      cases h

/-- A run that may end in some way after a step could do so before. -/
theorem Turn.mayEnd {stage : JobStage η} {d : Cluster η ω} (h : Turn app info r c stage d)
    (hmay : stage.mayEnd ending) : r.stage.mayEnd ending := by
  cases h with
  | claimed hstage | unclaimed hstage | handled hstage | released hstage | unreleased hstage =>
      rw [hstage]
      exact trivial
  | prepared hstage | before hstage | after hstage | concluded hstage =>
      rw [hstage]
      exact hmay
  | withdrawn _ hends | bereft hends =>
      obtain rfl := hmay
      rcases givesUp?_cases hends with hstage | ⟨hstage, rfl, -⟩
      · rw [hstage]
        exact trivial
      · rw [hstage]
        exact nofun
  | committed _ hstage | refused _ hstage =>
      rw [hstage]
      obtain rfl := hmay
      exact nofun

theorem mayEnd_goOnPlain (hmay : (r.goOnPlain app info c).1.mayEnd ending) :
    r.stage.mayEnd ending := by
  unfold goOnPlain at hmay
  cases hstage : r.stage with
  | opened | handling | handled | failing => exact trivial
  | released | preparing | concluding | ended =>
      rw [hstage] at hmay
      exact hmay

end JobRun

namespace Passage

variable {app : Application η ω} {job : JobRecord} {p : Passage η ω}
  {moves : List (Move η ω)} {ending : Option JobEnd}

theorem ending?_step (h : p.run.stage.ending? = some ending) (m : Move η ω) :
    (p.step app job m).run.stage.ending? = some ending := by
  cases m with
  | meanwhile c => exact h
  | proceed =>
      simp only [step, proceed]
      split
      · split <;> exact h
      · simp only [JobRun.stage_moveTo]
        split
        · exact JobRun.ending?_goOn h
        · exact JobRun.ending?_goOnPlain h

/-- Once it is settled how a run ends, it ends so. -/
theorem ending?_play (h : p.run.stage.ending? = some ending) (moves : List (Move η ω)) :
    (p.play app job moves).run.stage.ending? = some ending := by
  induction moves generalizing p with
  | nil => exact h
  | cons m rest ih => exact ih (ending?_step h m)

/-- At every move of a passage, nothing is settled yet, or the way in which the run ends. -/
theorem throughout_ending? (h : (p.play app job moves).run.stage.ending? = some ending) :
    Throughout app job
      (fun p _ => ∀ other, p.run.stage.ending? = some other → other = ending) p moves := by
  induction moves generalizing p with
  | nil => exact trivial
  | cons m rest ih =>
      refine ⟨fun other hother => ?_, ih h⟩
      exact Option.some.inj ((ending?_play hother (m :: rest)).symm.trans h)

/-! ## The moves of a run -/

/-- A run in its transaction takes its next step, unless it has ended. -/
theorem proceed_of_transacted (app : Application η ω) (htransacted : job.transacted = true)
    (h : ∀ ending, p.run.stage ≠ .ended ending) :
    p.proceed app job = { p with
      cluster := (p.run.goOn app job.info p.cluster).2
      run := p.run.moveTo (p.run.goOn app job.info p.cluster).1
      handledAt := if p.run.stage matches .handling then p.cluster.clock else p.handledAt } := by
  unfold proceed
  split
  · next hended => exact absurd hended (h _)
  · simp only [htransacted, if_true]

theorem proceed_of_plain (app : Application η ω) (hplain : job.transacted = false)
    (h : ∀ ending, p.run.stage ≠ .ended ending) :
    p.proceed app job = { p with
      cluster := (p.run.goOnPlain app job.info p.cluster).2
      run := p.run.moveTo (p.run.goOnPlain app job.info p.cluster).1
      handledAt := if p.run.stage matches .handling then p.cluster.clock else p.handledAt } := by
  unfold proceed
  split
  · next hended => exact absurd hended (h _)
  · simp only [hplain, Bool.false_eq_true, if_false]

/-- The end of a run is recorded, and the scheduler is done with it. -/
theorem proceed_of_ended {ending : Option JobEnd} (h : p.run.stage = .ended ending)
    (hopen : p.isOver = false) :
    p.proceed app job =
      { p with cluster := p.cluster.record p.run.node job.id ending, isOver := true } := by
  unfold proceed
  simp only [h, hopen, Bool.false_eq_true, if_false]

/-- Nothing happens to a run with which the scheduler is done. -/
theorem proceed_of_isOver {ending : Option JobEnd} (h : p.run.stage = .ended ending)
    (hover : p.isOver = true) : p.proceed app job = p := by
  unfold proceed
  simp only [h, hover, if_true]

/-- Recording a run is all that is left to be done once it has ended. -/
theorem proceed_ended {ending : Option JobEnd} (h : p.run.stage = .ended ending) :
    (p.proceed app job).run = p.run ∧ (p.proceed app job).cluster.jobs = p.cluster.jobs := by
  unfold proceed
  simp only [h]
  split
  · exact ⟨rfl, rfl⟩
  · cases ending <;> exact ⟨rfl, rfl⟩

/-- A run in its transaction has ended and is recorded at most, or it takes one of its turns. -/
theorem proceed_cases (app : Application η ω) (htransacted : job.transacted = true)
    (p : Passage η ω) :
    (∃ ending, p.run.stage = .ended ending ∧ (p.proceed app job).run = p.run ∧
        (p.proceed app job).cluster.jobs = p.cluster.jobs) ∨
      ∃ stage, (p.proceed app job).run = p.run.moveTo stage ∧
        JobRun.Turn app job.info p.run p.cluster stage (p.proceed app job).cluster := by
  rcases p.run.stage.ended_or_running with ⟨ending, hstage⟩ | hrunning
  · exact .inl ⟨ending, hstage, proceed_ended hstage⟩
  · rw [proceed_of_transacted app htransacted hrunning]
    exact .inr ⟨_, rfl, JobRun.turn_goOn app job.info p.run p.cluster hrunning⟩

theorem mayEnd_step {m : Move η ω} (h : (p.step app job m).run.stage.mayEnd ending) :
    p.run.stage.mayEnd ending := by
  cases m with
  | meanwhile c => exact h
  | proceed =>
      simp only [step] at h
      rcases p.run.stage.ended_or_running with ⟨other, hstage⟩ | hrunning
      · rwa [(proceed_ended hstage).1] at h
      · cases htransacted : job.transacted with
        | true =>
            rw [proceed_of_transacted app htransacted hrunning] at h
            exact (JobRun.turn_goOn app job.info p.run p.cluster hrunning).mayEnd h
        | false =>
            rw [proceed_of_plain app htransacted hrunning] at h
            exact JobRun.mayEnd_goOnPlain h

theorem mayEnd_play (moves : List (Move η ω))
    (h : (p.play app job moves).run.stage.mayEnd ending) : p.run.stage.mayEnd ending := by
  induction moves generalizing p with
  | nil => exact h
  | cons m rest ih => exact mayEnd_step (ih h)

/-- Every move of a passage leaves a run that may end as it does. -/
theorem throughout_mayEnd (h : (p.play app job moves).run.stage.mayEnd ending) :
    Throughout app job (fun p m => (p.step app job m).run.stage.mayEnd ending) p moves := by
  induction moves generalizing p with
  | nil => exact trivial
  | cons m rest ih => exact ⟨mayEnd_play rest h, ih h⟩

/-! ## Runs that nothing comes between -/

/-- Whether a run gets from one stage to another by its own steps alone. -/
def Reaches (app : Application η ω) (job : JobRecord) (c : Cluster η ω) (r : JobRun η)
    (d : Cluster η ω) (s : JobRun η) : Prop :=
  ∀ handledAt, ∃ steps later,
    (Passage.mk c r handledAt false).play app job (List.replicate steps .proceed) =
      ⟨d, s, later, false⟩

namespace Reaches

variable {c d e : Cluster η ω} {r s t : JobRun η}

theorem refl (c : Cluster η ω) (r : JobRun η) : Reaches app job c r c r :=
  fun handledAt => ⟨0, handledAt, rfl⟩

/-- Steps of a run can be followed by more. -/
theorem trans (h : Reaches app job c r d s) (h' : Reaches app job d s e t) :
    Reaches app job c r e t := by
  intro handledAt
  obtain ⟨steps, later, hfirst⟩ := h handledAt
  obtain ⟨more, last, hsecond⟩ := h' later
  refine ⟨steps + more, last, ?_⟩
  rw [← List.replicate_append_replicate, play_append, hfirst, hsecond]

/-- One step of a run. -/
theorem proceed {stage : JobStage η}
    (h : ∀ handledAt, ∃ later, (Passage.mk c r handledAt false).proceed app job =
      ⟨d, r.moveTo stage, later, false⟩) :
    Reaches app job c r d (r.moveTo stage) := by
  intro handledAt
  obtain ⟨later, hlater⟩ := h handledAt
  exact ⟨1, later, hlater⟩

theorem goOn (app : Application η ω) (htransacted : job.transacted = true) (c : Cluster η ω)
    {r : JobRun η} (h : ∀ ending, r.stage ≠ .ended ending) :
    Reaches app job c r (r.goOn app job.info c).2 (r.moveTo (r.goOn app job.info c).1) :=
  .proceed fun _ => ⟨_, proceed_of_transacted app htransacted h⟩

/-- A run in its transaction gets on by its own steps. -/
theorem paces (htransacted : job.transacted = true) :
    JobRun.Paces app job.info (Reaches app job) where
  refl := .refl
  trans := .trans
  advance c r hbare := by
    have hgoOn := JobRun.goOn_of_isBare app job.info c hbare
    rcases r.stage.ended_or_running with ⟨ending, hstage⟩ | hrunning
    · have hr : r.moveTo (.ended ending) = r := by
        rw [← hstage]
        rfl
      simp only [JobRun.advance, hstage, hr]
      exact .refl c r
    · have hstep := goOn app htransacted c hrunning
      rwa [hgoOn] at hstep
  handle c r hstage := by
    have hstep := goOn app htransacted c (r := r) (by simp [hstage])
    simpa only [JobRun.goOn, hstage] using hstep
  before c r t callback rest hstage := by
    have hstep := goOn app htransacted c (r := r) (by simp [hstage])
    simpa only [JobRun.goOn, hstage] using hstep
  after c r committed callback rest ending hstage := by
    have hstep := goOn app htransacted c (r := r) (by simp [hstage])
    simpa only [JobRun.goOn, hstage] using hstep

theorem goOnPlain (app : Application η ω) (hplain : job.transacted = false) (c : Cluster η ω)
    {r : JobRun η} (h : ∀ ending, r.stage ≠ .ended ending) :
    Reaches app job c r (r.goOnPlain app job.info c).2
      (r.moveTo (r.goOnPlain app job.info c).1) :=
  .proceed fun _ => ⟨_, proceed_of_plain app hplain h⟩

/-- A run outside any transaction, from the claim to the end. -/
theorem plainRun (app : Application η ω) (hplain : job.transacted = false) (c : Cluster η ω)
    (r : JobRun η) (hstage : r.stage = .opened) :
    Reaches app job c r (Cluster.plainRun app r.node r.thread job.info c).2
      (r.moveTo (.ended ((Cluster.plainRun app r.node r.thread job.info c).1.map fun result =>
        Cluster.endOf (result.mapError .body)).toOption)) := by
  have hstep : ∀ {d : Cluster η ω} {s : JobRun η} {stage : JobStage η} {e : Cluster η ω},
      (∀ ending, s.stage ≠ .ended ending) → s.goOnPlain app job.info d = (stage, e) →
      Reaches app job d s e (s.moveTo stage) := by
    intro d s stage e h heq
    have hreaches := goOnPlain app hplain d h
    rwa [heq] at hreaches
  rw [Cluster.plainRun_of_persisted app r.node r.thread c rfl]
  rcases hclaim : c.claim r.node job.info.jobId with ⟨e | _, d⟩
  · refine hstep (by simp [hstage]) ?_
    simp only [JobRun.goOnPlain, hstage, hclaim]
    rfl
  · have hclaimed : Reaches app job c r d (r.moveTo .handling) := by
      refine hstep (by simp [hstage]) ?_
      simp only [JobRun.goOnPlain, hstage, hclaim]
    simp only
    rcases hprocess : Cluster.process app r.node r.thread job.info none d with
      ⟨x | (e | _), d'⟩ <;> simp only
    · have hpanicked : Reaches app job d (r.moveTo .handling) d' (r.moveTo (.failing none)) :=
        hstep (by simp) (by simp [JobRun.goOnPlain, hprocess, stageHandled])
      refine (hclaimed.trans hpanicked).trans (hstep (by simp) ?_)
      simp only [JobRun.goOnPlain, JobRun.stage_moveTo]
      rfl
    · have hfailed : Reaches app job d (r.moveTo .handling) d'
          (r.moveTo (.failing (some .failed))) :=
        hstep (by simp) (by simp [JobRun.goOnPlain, hprocess, stageHandled, Cluster.endOf])
      refine (hclaimed.trans hfailed).trans (hstep (by simp) ?_)
      simp only [JobRun.goOnPlain, JobRun.stage_moveTo, JobRun.node_moveTo]
      rcases d'.finishClaim r.node job.info.jobId .failedDropped with ⟨f | _, d''⟩ <;> rfl
    · have hhandled : Reaches app job d (r.moveTo .handling) d' (r.moveTo .handled) :=
        hstep (by simp) (by simp [JobRun.goOnPlain, hprocess, stageHandled])
      refine (hclaimed.trans hhandled).trans (hstep (by simp) ?_)
      simp only [JobRun.goOnPlain, JobRun.stage_moveTo, JobRun.node_moveTo]
      rcases d'.finishClaim r.node job.info.jobId .done with ⟨f | _, d''⟩ <;> rfl

end Reaches

end Passage

namespace Cluster

variable {app : Application η ω} {c d : Cluster η ω} {n : NodeName} {tx : TxId}

/-- What a scheduler does with a stored job that runs in a transaction: the run takes one step after
another, the timeout of the worker becomes what it was before, and the run is recorded. -/
theorem runJob_eq_play (app : Application η ω) {job : JobRecord}
    (htransacted : job.transacted = true)
    (hprocessor : (c.node n).scheduler.hasProcessor = true)
    (hopening : c.opening n (.worker n) none = (.ok tx, d)) :
    ∃ steps,
      let p := (Passage.start n (.worker n) tx d).play app job (List.replicate steps .proceed)
      let restored := p.cluster.modifyManager n fun m =>
        m.setTimeout (.worker n) ((c.node n).manager.override? (.worker n))
      let q := p.play app job [.meanwhile restored, .proceed]
      q.isOver = true ∧ (runJob app n (.persisted job) c).2 = q.cluster := by
  obtain ⟨e, hrun, hrestore⟩ := (Passage.Reaches.paces htransacted).runInTransaction rfl hopening
  obtain ⟨steps, later, hplay⟩ := hrun 0
  refine ⟨steps, ?_⟩
  have hrecorded := runJob_snd app (.persisted job) hprocessor
  simp only [ScheduledJob.info] at hrecorded
  rw [attempt_of_transacted app n (.worker n) c htransacted, hrestore] at hrecorded
  rw [hrecorded, Passage.start, hplay]
  exact ⟨rfl, rfl⟩

/-- What a scheduler does with a stored job that runs outside any transaction. -/
theorem runJob_eq_play_plain (app : Application η ω) {job : JobRecord}
    (hplain : job.transacted = false)
    (hprocessor : (c.node n).scheduler.hasProcessor = true) (tx : TxId) :
    ∃ steps,
      let p := (Passage.start n (.worker n) tx c).play app job (List.replicate steps .proceed)
      p.isOver = true ∧ (runJob app n (.persisted job) c).2 = p.cluster := by
  obtain ⟨steps, later, hplay⟩ :=
    Passage.Reaches.plainRun app hplain c { node := n, thread := .worker n, tx } rfl 0
  refine ⟨steps + 1, ?_⟩
  have hrecorded := runJob_snd app (.persisted job) hprocessor
  simp only [ScheduledJob.info] at hrecorded
  rw [attempt_of_plain app n (.worker n) c hplain] at hrecorded
  rw [hrecorded, List.replicate_succ', Passage.play_append, Passage.start, hplay]
  exact ⟨rfl, rfl⟩

end Cluster

end JobCluster
