import JobCluster.Proofs.Instance.Command
/-!
# Commands are carried out as a whole or not at all

A run of a command to a process instance is counted as completed, as failed or as a lost claim, and
what is left of the instances and of the job is to agree with the count. While the run is on its way
anything may happen beside it that keeps off the instance and off the transaction of the run.

Main results:

- `Passage.Sound.step`: what a run of a command keeps up at every move;
- `Passage.Commences.judged`: a run whose job nobody else touches misjudges nothing;
- `Passage.comes_out_iff`: exactly when the count of a run agrees with what the run leaves;
- `Passage.command_outlives_failure`: a command that has failed and is to be carried out still.
-/

namespace JobCluster

variable {η ω : Type}

/-! ## Runs of commands -/

namespace Passage

/-- What may become of a cluster beside a run of a command: the job is not brought back, the job
store stays available, the node carries commands out as before, and nobody changes the instance that
the job names or has a hand on the transaction of the run. -/
structure Beside (job : JobRecord) (p : Passage η ω) (c : Cluster η ω) : Prop where
  jobs : p.cluster.jobs.Onward job.id c.jobs
  handler : (c.node p.run.node).handlers.get? job.details.jobType =
    (p.cluster.node p.run.node).handlers.get? job.details.jobType
  named : ∀ command id, InstanceCommand.ofDetails job.details = .ok (command, id) →
    c.instances.get? id = p.cluster.instances.get? id
  transaction : job.transacted = true →
    c.transaction? p.run.tx = p.cluster.transaction? p.run.tx
  writes : job.transacted = true →
    c.instances.staged.get? p.run.tx = p.cluster.instances.staged.get? p.run.tx

/-- Whether a move is a step of the run, or something that may happen beside it. -/
def Undisturbed (job : JobRecord) (p : Passage η ω) : Move η ω → Prop
  | .proceed => True
  | .meanwhile c => p.Beside job c

/-- Whether a move misjudges what has become of the claim of the run. -/
def isMisjudged (job : JobRecord) (p : Passage η ω) : Move η ω → Bool
  | .proceed => p.run.isMisjudged job.id p.cluster
  | .meanwhile _ => false

/-- Whether a move has a property, of what it finds and what it leaves, if it is a step of the run
itself. -/
def OwnStep (app : Application η ω) (job : JobRecord) (P : Passage η ω → Passage η ω → Prop)
    (p : Passage η ω) : Move η ω → Prop
  | .proceed => P p (p.proceed app job)
  | .meanwhile _ => True

/-! ## How a run comes out -/

/-- Whether the scheduler counts a run as ended so, and as nothing else. -/
def CountsAs (app : Application η ω) (job : JobRecord) (p : Passage η ω)
    (moves : List (Move η ω)) (ending : JobEnd) : Prop :=
  ∀ other, total app job (gain app job fun c => c.counted p.run.node other) p moves =
    if ending = other then 1 else 0

/-- Whether the command of a job is carried out: the job names a command and a committed instance
that has not come to its end but in the state of the command; the instance is in that state now,
remembers its former state and the time, and is unchanged otherwise; the run changes no other
instance, and the job is gone. -/
structure CarriedOut (app : Application η ω) (job : JobRecord) (p : Passage η ω)
    (moves : List (Move η ω)) : Prop where
  moved : ∃ command former, InstanceCommand.ofDetails job.details = .ok (command, former.id) ∧
    p.cluster.instances.get? former.id = some former ∧
    (former.isFinished = false ∨ former.state = command.target) ∧
    (p.play app job moves).cluster.instances.get? former.id = some
      { former with
        state := command.target
        previousState := some former.state
        lastActive := (p.play app job moves).handledAt } ∧
    Throughout app job (OwnStep app job fun q q' => ∀ id, id ≠ former.id →
      q'.cluster.instances.get? id = q.cluster.instances.get? id) p moves
  gone : (p.play app job moves).cluster.jobs.find? job.id = none

/-- Whether the command of a job comes to nothing: the run changes no instance and tells nobody of a
change, and every step that it takes once its end is settled leaves no record of the job. -/
structure Dropped (app : Application η ω) (job : JobRecord) (p : Passage η ω)
    (moves : List (Move η ω)) : Prop where
  still : Throughout app job (OwnStep app job fun q q' => q.cluster.Still q'.cluster) p moves
  settled : Throughout app job (OwnStep app job fun q q' =>
    q.run.stage.ending?.isSome = true → q'.cluster.jobs.find? job.id = none) p moves
  gone : (p.play app job moves).cluster.jobs.find? job.id = none

/-- Whether a run yields to whoever has the job: it changes no instance and tells nobody of a
change, and leaves the record of the job alone, unless it claims the job. -/
structure Yields (app : Application η ω) (job : JobRecord) (p : Passage η ω)
    (moves : List (Move η ω)) : Prop where
  still : Throughout app job (OwnStep app job fun q q' => q.cluster.Still q'.cluster) p moves
  kept : Throughout app job (OwnStep app job fun q q' =>
    q.run.stage = .opened ∨
      q'.cluster.jobs.find? job.id = q.cluster.jobs.find? job.id) p moves

/-- Whether a run is counted as ended so, and leaves what such a run is to leave. -/
def ComesOut (app : Application η ω) (job : JobRecord) (p : Passage η ω)
    (moves : List (Move η ω)) (ending : JobEnd) : Prop :=
  p.CountsAs app job moves ending ∧
    match ending with
    | .completed => p.CarriedOut app job moves
    | .failed => p.Dropped app job moves
    | .lostClaim => p.Yields app job moves

variable {app : Application η ω} {job : JobRecord} {origin : InstanceStore} {p : Passage η ω}
  {m : Move η ω} {moves : List (Move η ω)}

/-- How a run of a command stands, and that its node carries commands out. -/
structure Sound (job : JobRecord) (origin : InstanceStore) (p : Passage η ω) : Prop where
  enabled : p.run.Enabled job p.cluster
  standing : if job.transacted then p.run.Standing job origin p.handledAt p.cluster
    else p.run.StandingPlain job p.cluster

/-- A run in a transaction that is sound stands as such a run ought to. -/
theorem Sound.of_transacted (hp : p.Sound job origin) (htransacted : job.transacted = true) :
    p.run.Standing job origin p.handledAt p.cluster := by
  have hstanding := hp.standing
  rwa [if_pos htransacted] at hstanding

theorem Sound.of_plain (hp : p.Sound job origin) (hplain : job.transacted = false) :
    p.run.StandingPlain job p.cluster := by
  have hstanding := hp.standing
  rwa [hplain, if_neg Bool.false_ne_true] at hstanding

/-- A property of the steps of a run may be weakened. -/
theorem OwnStep.mono {P Q : Passage η ω → Passage η ω → Prop} (h : OwnStep app job P p m)
    (hPQ : P p (p.step app job m) → Q p (p.step app job m)) : OwnStep app job Q p m := by
  cases m with
  | meanwhile c => exact trivial
  | proceed => exact hPQ h

/-- What may happen beside a run of a command leaves it standing as it does. -/
theorem Beside.sound {c : Cluster η ω} (h : p.Beside job c) (hp : p.Sound job origin) :
    Sound job origin { p with cluster := c } := by
  refine ⟨⟨h.jobs.available hp.enabled.available, h.handler.trans hp.enabled.handler⟩, ?_⟩
  split
  · next htransacted =>
    exact (hp.of_transacted htransacted).transfer h.jobs (h.transaction htransacted)
      (h.writes htransacted) h.named
  · next hplain => exact (hp.of_plain (Bool.eq_false_iff.mpr hplain)).transfer h.jobs

/-- A run of a command that is over has completed, has failed or has lost its claim. -/
theorem Sound.ended (hp : p.Sound job origin) {ending : Option JobEnd}
    (hstage : p.run.stage = .ended ending) :
    ending = some .lostClaim ∨ p.cluster.jobs.find? job.id = none ∧
      (ending = some .failed ∨
        ending = some .completed ∧ JobRun.Moved job origin p.handledAt p.cluster) := by
  cases htransacted : job.transacted with
  | true => simpa only [JobRun.Standing, hstage] using hp.of_transacted htransacted
  | false =>
      have hstanding := hp.of_plain htransacted
      simp only [JobRun.StandingPlain, hstage] at hstanding
      rcases hstanding with hlost | ⟨hfailed, hgone⟩
      · exact .inl hlost
      · exact .inr ⟨hgone, .inl hfailed⟩

/-- A run that has ended as failed leaves no record of its job. -/
theorem Sound.gone (hp : p.Sound job origin) (hstage : p.run.stage = .ended (some .failed)) :
    p.cluster.jobs.find? job.id = none := by
  rcases hp.ended hstage with hlost | ⟨hgone, -⟩
  · cases hlost
  · exact hgone

/-- The count of a run may be recorded beside it. -/
theorem beside_record (p : Passage η ω) (ending : Option JobEnd) :
    p.Beside job (p.cluster.record p.run.node job.id ending) where
  jobs := .of_eq (by cases ending <;> rfl)
  handler := by rw [Cluster.handlers_record]
  named _ _ _ := by cases ending <;> rfl
  transaction _ := by cases ending <;> rfl
  writes _ := by cases ending <;> rfl

/-- A run of a command takes no step but those that it may take, as long as its claim is not
misjudged. -/
theorem Sound.proceed (app : Application η ω) (hp : p.Sound job origin) (horigin : origin.Keyed)
    (hjudged : p.isMisjudged job .proceed = false) :
    (p.proceed app job).Sound job origin ∧
      p.run.Proper job p.cluster (p.proceed app job).run.stage (p.proceed app job).cluster := by
  rcases p.run.stage.ended_or_running with ⟨ending, hstage⟩ | hrunning
  · have hsettled : p.run.stage.ending? = some (some .failed) →
        p.cluster.jobs.find? job.id = none := by
      intro h
      rw [hstage] at h
      cases h
      exact hp.gone hstage
    cases hover : p.isOver with
    | true =>
        rw [proceed_of_isOver hstage hover]
        exact ⟨hp, .of_still (.refl _) hsettled fun _ _ => rfl⟩
    | false =>
        have hjobs : (p.cluster.record p.run.node job.id ending).jobs = p.cluster.jobs := by
          cases ending <;> rfl
        have hrecorded := (p.beside_record ending).sound hp
        rw [proceed_of_ended hstage hover]
        refine ⟨⟨hrecorded.enabled, hrecorded.standing⟩,
          .of_still (Cluster.still_record ..) (fun h => ?_) fun _ _ => ?_⟩
        · simp only [hjobs]
          exact hsettled h
        · simp only [hjobs]
  · cases htransacted : job.transacted with
    | true =>
        have hstanding := hp.of_transacted htransacted
        have hturn := JobRun.turn_goOn app job.info p.run p.cluster hrunning
        rw [proceed_of_transacted app htransacted hrunning]
        refine ⟨⟨hturn.enabled hp.enabled hstanding horigin, ?_⟩,
          hturn.proper hp.enabled hstanding horigin hjudged⟩
        rw [if_pos htransacted]
        exact hturn.standing hp.enabled hstanding horigin hjudged
    | false =>
        obtain ⟨stage, d, hgoOn, henabled, hstands, hproper⟩ :=
          JobRun.standing_goOnPlain app hp.enabled (hp.of_plain htransacted) hrunning
        rw [proceed_of_plain app htransacted hrunning, hgoOn]
        refine ⟨⟨henabled, ?_⟩, hproper⟩
        rw [htransacted, if_neg Bool.false_ne_true]
        exact hstands

/-- What a run of a command keeps up at each of the moves of its passage. -/
theorem Sound.step (app : Application η ω) (hp : p.Sound job origin) (horigin : origin.Keyed)
    (hm : p.Undisturbed job m) (hjudged : p.isMisjudged job m = false) :
    (p.step app job m).Sound job origin := by
  cases m with
  | meanwhile c => exact hm.sound hp
  | proceed => exact (hp.proceed app horigin hjudged).1

/-! ## The count of a run and what it leaves -/

/-- Whether the steps of a run do what they may do. -/
def Behaves (app : Application η ω) (job : JobRecord) : Passage η ω → List (Move η ω) → Prop :=
  Throughout app job (OwnStep app job fun q q' =>
    q.run.Proper job q.cluster q'.run.stage q'.cluster)

/-- A run counts as it has ended. -/
theorem countsAs_iff {ending : Option JobEnd} (hopen : p.isOver = false)
    (hover : (p.play app job moves).isOver = true)
    (hended : (p.play app job moves).run.stage = .ended ending) (other : JobEnd) :
    p.CountsAs app job moves other ↔ ending = some other := by
  have hcounted := total_counted_of_ended app job hopen hover hended
  constructor
  · intro h
    have hself := (hcounted other).symm.trans (h other)
    by_cases hne : ending = some other
    · exact hne
    · simp [hne] at hself
  · rintro rfl other
    simpa using hcounted other

/-- A run that is not to be counted as completed changes no instance. -/
theorem Behaves.still (h : Behaves app job p moves) {ending : Option JobEnd}
    (hended : (p.play app job moves).run.stage.ending? = some ending)
    (hne : ending ≠ some .completed) :
    Throughout app job (OwnStep app job fun q q' => q.cluster.Still q'.cluster) p moves := by
  refine (Throughout.and h (throughout_ending? hended)).mono fun q m hq => ?_
  exact hq.1.mono fun hown => hown.still fun hcompleted => hne (hq.2 _ hcompleted).symm

/-- A run that ends as completed has carried its command out. -/
theorem Sound.carriedOut (h : Behaves app job p moves)
    (hlast : (p.play app job moves).Sound job p.cluster.instances)
    (hended : (p.play app job moves).run.stage = .ended (some .completed)) :
    p.CarriedOut app job moves := by
  rcases hlast.ended hended with hlost | ⟨hgone, hfailed | ⟨-, hmoved⟩⟩
  · cases hlost
  · cases hfailed
  · obtain ⟨_, ⟨command, former, hdetails, hfind, hmoves, rfl⟩, hnew⟩ := hmoved
    refine ⟨⟨command, former, hdetails, hfind, hmoves, hnew, h.mono fun q m hown =>
      hown.mono fun hown id hne => hown.others id fun other hother => hne ?_⟩, hgone⟩
    rw [hdetails] at hother
    exact (Prod.mk.inj (Except.ok.inj hother)).2.symm

theorem Sound.dropped (h : Behaves app job p moves)
    (hlast : (p.play app job moves).Sound job origin)
    (hended : (p.play app job moves).run.stage = .ended (some .failed)) :
    p.Dropped app job moves := by
  have hending := JobStage.ending?_of_ended hended
  refine ⟨h.still hending nofun, ?_, hlast.gone hended⟩
  refine (Throughout.and h (throughout_ending? hending)).mono fun q m hq => ?_
  refine hq.1.mono fun hown hsome => ?_
  obtain ⟨other, hother⟩ := Option.isSome_iff_exists.mp hsome
  obtain rfl := hq.2 other hother
  exact hown.settled hother

/-- A run that has lost its claim leaves the job to somebody else. -/
theorem Behaves.yields (h : Behaves app job p moves)
    (hended : (p.play app job moves).run.stage = .ended (some .lostClaim)) :
    p.Yields app job moves := by
  have hmay : (p.play app job moves).run.stage.mayEnd (some .lostClaim) := by
    rw [hended]
    rfl
  refine ⟨h.still (JobStage.ending?_of_ended hended) nofun, ?_⟩
  refine (Throughout.and h (throughout_mayEnd hmay)).mono fun q m hq => ?_
  refine hq.1.mono fun hown => ?_
  by_cases hstage : q.run.stage = .opened
  · exact .inl hstage
  · exact .inr (hown.kept hstage hq.2)

/-- A run outside any transaction misjudges nothing. -/
theorem Sound.transacted_of_isMisjudged (hp : p.Sound job origin)
    (h : p.isMisjudged job .proceed = true) : job.transacted = true := by
  refine Bool.of_not_eq_false fun hplain => ?_
  have hstanding := hp.of_plain hplain
  simp only [JobRun.StandingPlain] at hstanding
  simp only [isMisjudged, JobRun.isMisjudged] at h
  split at h
  · next hstage => simp only [hstage] at hstanding
  · next hstage => simp only [hstage] at hstanding
  · cases h

/-- A step that misjudges the claim of a run leaves the record of a job whose run has failed, or
drops a job whose run has lost its claim. -/
theorem Sound.misjudges (app : Application η ω) (hp : p.Sound job origin)
    (h : p.isMisjudged job .proceed = true) :
    (p.cluster.jobs.find? job.id).isSome = true ∧
      (p.run.stage.ending? = some (some .failed) ∧
          (p.proceed app job).cluster.jobs.find? job.id = p.cluster.jobs.find? job.id ∨
        p.run.stage.ending? = some (some .lostClaim) ∧
          (p.proceed app job).cluster.jobs.find? job.id = none) := by
  have htransacted := hp.transacted_of_isMisjudged h
  have hproceed : ∀ committed callback rest ending,
      p.run.stage = .concluding committed (callback :: rest) ending → callback.Drops job.id →
      (p.proceed app job).cluster.jobs.find? job.id =
        if callback.dropsIn p.cluster then none else p.cluster.jobs.find? job.id := by
    intro committed callback rest ending hstage hdrops
    rw [proceed_of_transacted app htransacted (by simp [hstage])]
    simp only [JobRun.goOn, hstage]
    exact JobRun.Owns.find? (.inl hdrops) hp.enabled.available _
  simp only [isMisjudged, JobRun.isMisjudged] at h
  split at h
  · next committed n id rest hstage =>
    simp only [Bool.and_eq_true, beq_iff_eq, bne_iff_ne] at h
    obtain ⟨⟨rfl, hsome⟩, hheld⟩ := h
    refine ⟨hsome, .inl ⟨by rw [hstage]; rfl, ?_⟩⟩
    rw [hproceed _ _ _ _ hstage rfl]
    simp [Callback.dropsIn, hheld]
  · next committed n id rest hstage =>
    simp only [Bool.and_eq_true, beq_iff_eq] at h
    obtain ⟨rfl, hheld⟩ := h
    obtain ⟨r, hr, -⟩ := JobStore.heldBy?_eq_some.mp hheld
    refine ⟨by rw [hr]; rfl, .inr ⟨by rw [hstage]; rfl, ?_⟩⟩
    rw [hproceed _ _ _ _ hstage rfl]
    simp [Callback.dropsIn, hp.enabled.available, hheld]
  · cases h

/-- Whether a step of a run does with the record of the job what is to become of it, if the run is
to be counted as ended so. -/
def Accords (ending : JobEnd) (job : JobRecord) (q q' : Passage η ω) : Prop :=
  match ending with
  | .completed => True
  | .failed => q.run.stage.ending?.isSome = true → q'.cluster.jobs.find? job.id = none
  | .lostClaim => q.run.stage = .opened ∨
      q'.cluster.jobs.find? job.id = q.cluster.jobs.find? job.id

/-- A step that does with the record of the job what is to become of it misjudges nothing. -/
theorem Sound.judged (app : Application η ω) (hp : p.Sound job origin) {ending : JobEnd}
    (hleaves : OwnStep app job (Accords ending job) p m)
    (hsettled : ∀ other, p.run.stage.ending? = some other → other = some ending) :
    p.isMisjudged job m = false := by
  refine Bool.eq_false_iff.mpr fun hmisjudged => ?_
  cases m with
  | meanwhile c => cases hmisjudged
  | proceed =>
      obtain ⟨hsome, ⟨hfailed, hstays⟩ | ⟨hlost, hdropped⟩⟩ := hp.misjudges app hmisjudged
      · obtain rfl : JobEnd.failed = ending := Option.some.inj (hsettled _ hfailed)
        rw [← hstays, show (p.proceed app job).cluster.jobs.find? job.id = none from
          hleaves (by rw [hfailed]; rfl)] at hsome
        cases hsome
      · obtain rfl : JobEnd.lostClaim = ending := Option.some.inj (hsettled _ hlost)
        rcases hleaves with hopened | hsame
        · rw [hopened] at hlost
          cases hlost
        · rw [← hsame, hdropped] at hsome
          cases hsome

/-- How a run of a command begins: its node knows how to process commands, the job store is
available, the instances stand under their identifiers, nothing is written under the number of the
next transaction, and the transaction of the run begins, if the job runs in one. -/
structure Commences (job : JobRecord) (c : Cluster η ω) (n : NodeName) (thread : Thread)
    (tx : TxId) (d : Cluster η ω) : Prop where
  jobType : job.details.jobType = InstanceCommand.jobType
  handler : (c.node n).handlers.get? InstanceCommand.jobType = some .instanceCommand
  available : c.jobs.available = true
  keyed : c.instances.Keyed
  fresh : c.instances.staged.get? ⟨c.nextTx⟩ = none
  transacted : job.transacted = true → c.begin n thread = (.ok tx, d)
  plain : job.transacted = false → d = c

/-- A run of a command stands as it ought to when it begins. -/
theorem Commences.sound {c d : Cluster η ω} {n : NodeName} {thread : Thread} {tx : TxId}
    (h : Commences job c n thread tx d) :
    (start n thread tx d).Sound job d.instances ∧ d.instances.Keyed := by
  cases htransacted : job.transacted with
  | false =>
      obtain rfl := h.plain htransacted
      refine ⟨⟨⟨h.available, h.jobType ▸ h.handler⟩, ?_⟩, h.keyed⟩
      simp only [htransacted, Bool.false_eq_true, if_false]
      exact trivial
  | true =>
      have hbegun := Cluster.begin_eq_ok (h.transacted htransacted)
      obtain ⟨t, hempty, ht⟩ := hbegun.transaction
      refine ⟨⟨⟨?_, ?_⟩, ?_⟩, hbegun.instances ▸ h.keyed⟩
      · exact hbegun.jobs ▸ h.available
      · show (d.node n).handlers.get? job.details.jobType = _
        rw [hbegun.handlers, h.jobType]
        exact h.handler
      · simp only [htransacted, if_true]
        refine ⟨⟨t, (ht tx).trans (if_pos rfl), hempty⟩, ?_, fun _ _ _ => rfl⟩
        show d.instances.staged.get? tx = none
        rw [hbegun.instances, hbegun.number]
        exact h.fresh

/-- Whether a move leaves the record of the job alone, and the node of the run under its identifier,
unless it is a step of the run. -/
def SparesJob (job : JobRecord) (p : Passage η ω) : Move η ω → Prop
  | .proceed => True
  | .meanwhile c => c.jobs.find? job.id = p.cluster.jobs.find? job.id ∧
      c.nodeId p.run.node = p.cluster.nodeId p.run.node

/-- A run of a command whose job nobody else touches misjudges nothing. -/
theorem Commences.judged (app : Application η ω) {c d : Cluster η ω} {n : NodeName}
    {thread : Thread} {tx : TxId} (h : Commences job c n thread tx d) (moves : List (Move η ω))
    (hmoves : Throughout app job (fun p m => p.Undisturbed job m ∧ p.SparesJob job m)
      (start n thread tx d) moves) :
    Throughout app job (fun q m => q.isMisjudged job m = false) (start n thread tx d) moves := by
  obtain ⟨hsound, horigin⟩ := h.sound
  refine hmoves.derive
    (I := fun q => q.Sound job d.instances ∧
      (job.transacted = true → q.run.Holding job q.cluster))
    (fun q m hq _ => ?_) (fun q m hq hm hjudged => ?_) ⟨hsound, fun _ => trivial⟩
  · obtain ⟨hq, hholding⟩ := hq
    cases m with
    | meanwhile c => rfl
    | proceed =>
        refine Bool.eq_false_iff.mpr fun hmisjudged => ?_
        have htransacted := hq.transacted_of_isMisjudged hmisjudged
        have hjudged := (hholding htransacted).judged (hq.of_transacted htransacted)
        simp [isMisjudged, hjudged] at hmisjudged
  · obtain ⟨hq, hholding⟩ := hq
    refine ⟨hq.step app horigin hm.1 hjudged, fun htransacted => ?_⟩
    cases m with
    | meanwhile c =>
        exact (hholding htransacted).transfer hm.2.1 hm.2.2 (hm.1.transaction htransacted)
    | proceed =>
        simp only [step]
        rcases q.proceed_cases app htransacted with
          ⟨ending, hstage, hrun, -⟩ | ⟨stage, hrun, hturn⟩
        · rw [JobRun.Holding, hrun, hstage]
          exact trivial
        · rw [hrun]
          exact hturn.holding hq.enabled (hq.of_transacted htransacted) (hholding htransacted)
            horigin

/-- A run of a command, in a transaction that has begun or outside any, on a node that knows how to
process commands and whatever happens beside it, comes to exactly one of three ends exactly if it
misjudges nowhere what has become of its claim. Either it is counted as completed, the command is
carried out and the job is gone; or it is counted as failed, nothing is changed and the job is gone;
or it is counted as a lost claim, nothing is changed, and the record of the job is left alone. -/
theorem comes_out_iff (app : Application η ω) {job : JobRecord} {c d : Cluster η ω}
    {n : NodeName} {thread : Thread} {tx : TxId} (h : Commences job c n thread tx d)
    (moves : List (Move η ω))
    (hmoves : Throughout app job (Undisturbed job) (start n thread tx d) moves)
    (hover : ((start n thread tx d).play app job moves).isOver = true) :
    let p := start n thread tx d
    Throughout app job (fun q m => q.isMisjudged job m = false) p moves ↔
      ∃ ending, p.ComesOut app job moves ending ∧
        ∀ other, p.ComesOut app job moves other → other = ending := by
  intro p
  obtain ⟨hsound, horigin⟩ : p.Sound job p.cluster.instances ∧ p.cluster.instances.Keyed := h.sound
  obtain ⟨ending, hended⟩ := ended_play (p := p) nofun hover
  have hcounts := countsAs_iff (p := p) rfl hover hended
  constructor
  · intro hjudged
    obtain ⟨hall, hlast⟩ := (hmoves.and hjudged).of_invariant
      (fun q m hq hm => hq.step app horigin hm.1 hm.2) hsound
    have hbehaves : Behaves app job p moves := by
      refine hall.mono fun q m hq => ?_
      cases m with
      | meanwhile c => exact trivial
      | proceed => exact (hq.1.proceed app horigin hq.2.2).2
    have hout : ∃ end', ending = some end' ∧ p.ComesOut app job moves end' := by
      rcases hlast.ended hended with rfl | ⟨-, rfl | ⟨rfl, -⟩⟩
      · exact ⟨.lostClaim, rfl, (hcounts _).mpr rfl, hbehaves.yields hended⟩
      · exact ⟨.failed, rfl, (hcounts _).mpr rfl, hlast.dropped hbehaves hended⟩
      · exact ⟨.completed, rfl, (hcounts _).mpr rfl, hlast.carriedOut hbehaves hended⟩
    obtain ⟨end', rfl, hcomes⟩ := hout
    exact ⟨end', hcomes, fun other hother => (Option.some.inj ((hcounts other).mp hother.1)).symm⟩
  · rintro ⟨end', ⟨hcount, hleaves⟩, -⟩
    obtain rfl := (hcounts end').mp hcount
    have hending := JobStage.ending?_of_ended hended
    have hown : Throughout app job (OwnStep app job (Accords end' job)) p moves := by
      cases end' with
      | completed => exact hmoves.mono fun q m _ => by cases m <;> exact trivial
      | failed => exact hleaves.settled
      | lostClaim => exact hleaves.kept
    exact (hmoves.and (hown.and (throughout_ending? hending))).derive
      (fun q m hq hm => hq.judged app hm.2.1 hm.2.2)
      (fun q m hq hm hjudged => hq.step app horigin hm.1 hjudged) hsound

/-- The job that retires an instance. -/
def retirement : JobRecord :=
  { id := ⟨"J"⟩, details := InstanceCommand.retire.job ⟨"P"⟩, state := .pending }

/-- An instance that is at work. -/
def worker : ProcessInstance where
  id := ⟨"P"⟩
  process := "Order"
  state := .active
  lastActive := 0

/-- Two nodes that share a store with the job that retires an instance. -/
def retiring (instances : InstanceStore) : Cluster Unit Unit :=
  { (Overlap.ofJob "a" "b" ⟨"J"⟩).cluster with jobs := JobStore.put {} retirement, instances }

/-- A run of that job on one of the nodes, whose transaction has just begun. -/
def retiringRun (instances : InstanceStore) : Passage Unit Unit :=
  start "a" (.worker "a") ⟨0⟩ ((retiring instances).begin "a" (.worker "a")).2

/-- A process instance that is at work. -/
def working : InstanceStore := { committed := Table.insert ∅ ⟨"P"⟩ worker }

/-- The run claims the job, time passes, and the run takes the other steps. -/
def retires : List (Move Unit Unit) :=
  let claimed := ((retiringRun working).step .silent retirement .proceed).cluster
  [.proceed, .meanwhile { claimed with clock := 7 }] ++ List.replicate 7 .proceed

/-- The instance is retired. -/
theorem comes_out_iff_retired :
    let p := retiringRun working
    (∃ ending, p.ComesOut .silent retirement retires ending ∧
        ∀ other, p.ComesOut .silent retirement retires other → other = ending) ∧
      (p.play .silent retirement retires).cluster.instances.get? ⟨"P"⟩ = some
        { worker with state := .retired, previousState := some .active, lastActive := 7 } := by
  intro p
  have hkeyed : (retiring working).instances.Keyed := by
    intro id q hq
    have hcommitted : (Table.insert ∅ ⟨"P"⟩ worker).get? id = some q := hq
    rw [Table.get?_insert] at hcommitted
    split at hcommitted
    · next hid =>
      obtain rfl := Option.some.inj hcommitted
      exact hid
    · simp at hcommitted
  have hcommences : Commences retirement (retiring working) "a" (.worker "a") ⟨0⟩ p.cluster :=
    ⟨rfl, rfl, rfl, hkeyed, rfl, fun _ => rfl, fun hplain => by cases hplain⟩
  have hmoves : Throughout .silent retirement (Undisturbed retirement) p retires :=
    ⟨trivial, ⟨.refl _ _, rfl, fun _ _ _ => rfl, fun _ => rfl, fun _ => rfl⟩, trivial, trivial,
      trivial, trivial, trivial, trivial, trivial, trivial⟩
  have hjudged : Throughout .silent retirement (fun q m => q.isMisjudged retirement m = false) p
      retires := by decide +kernel
  have hcomes := comes_out_iff .silent hcommences retires hmoves (by decide +kernel)
  exact ⟨hcomes.mp hjudged, by decide +kernel⟩

/-- The run claims the job, the job goes to the other node, and the run takes the other steps. -/
def outlived : List (Move Unit Unit) :=
  let claimed := ((retiringRun {}).step .silent retirement .proceed).cluster
  let moved := (StoreCall.reassign ⟨"a"⟩ ⟨"b"⟩).apply claimed.jobs
  [.proceed, .meanwhile { claimed with jobs := moved }] ++ List.replicate 5 .proceed

/-- A run is counted as failed, since there is no such instance, and the job has been moved to
another node, where it is to be run. -/
theorem command_outlives_failure :
    let p := retiringRun {}
    let q := p.play .silent retirement outlived
    Throughout .silent retirement (Undisturbed retirement) p outlived ∧ q.isOver = true ∧
      (q.cluster.node "a").scheduler.failed = 1 ∧
      (q.cluster.node "a").scheduler.lostClaims = 0 ∧
      q.cluster.jobs.find? ⟨"J"⟩ = some { retirement with owner := some ⟨"b"⟩ } ∧
      ∀ ending, ¬ p.ComesOut .silent retirement outlived ending := by
  have hgone : ((retiringRun {}).play .silent retirement outlived).cluster.jobs.find? ⟨"J"⟩ =
      some { retirement with owner := some ⟨"b"⟩ } := by decide +kernel
  have hcounted : total .silent retirement
      (gain .silent retirement fun c => c.counted "a" .failed) (retiringRun {}) outlived = 1 := by
    decide +kernel
  refine ⟨⟨trivial, ?_, trivial, trivial, trivial, trivial, trivial, trivial⟩, by decide +kernel,
    by decide +kernel, by decide +kernel, hgone, ?_⟩
  · exact ⟨.call (a := .reassign ⟨"a"⟩ ⟨"b"⟩) _ rfl nofun, rfl, fun _ _ _ => rfl, fun _ => rfl,
      fun _ => rfl⟩
  · rintro ending ⟨hcount, hleaves⟩
    have hfailed := hcounted.symm.trans (hcount .failed)
    cases ending with
    | completed | lostClaim => simp at hfailed
    | failed =>
        have hnone := hgone.symm.trans hleaves.gone
        cases hnone

end Passage

end JobCluster
