import JobCluster.Proofs.Job.Interleaving
import JobCluster.Proofs.Job.WholeRun
/-!
# Runs of a job from beginning to end

A scheduler lets a run of a job go from its beginning to its end. What comes of that is one of the
histories in which a run takes its steps one after another, as long as the handlers and callbacks
of the application do nothing that could not be done around the runs of the job. So whatever holds
of all histories holds of the runs of a scheduler.

Main results:

- `Leads.paces`: the steps of a run as histories;
- `Cluster.attempt_history`: a whole run as a history.
-/

namespace JobCluster

variable {η ω : Type}

/-! ## Histories without the runs at hand -/

/-- Whether one cluster comes of another by a history in which the runs at hand take no steps.
Others may begin. -/
def Plays (app : Application η ω) (id : JobId) (c d : Cluster η ω) : Prop :=
  ∀ runs, ∃ events more, Overlap.Steps app id ⟨c, runs⟩ events ⟨d, runs ++ more⟩

/-- Whether one cluster comes of another by a history that brings a run from one stage to
another. -/
def Leads (app : Application η ω) (id : JobId) (c : Cluster η ω) (r : JobRun η) (d : Cluster η ω)
    (s : JobRun η) : Prop :=
  ∀ before after, ∃ events more,
    Overlap.Steps app id ⟨c, before ++ r :: after⟩ events ⟨d, before ++ s :: (after ++ more)⟩

/-- Whether the handlers and callbacks of an application do nothing to a job but what may be done
around its runs. -/
structure Application.Unobtrusive (app : Application η ω) (id : JobId) : Prop where
  callback : ∀ thread script phase c, Plays app id c (app.callback thread script phase c).2
  handler : ∀ thread script info tx c, Plays app id c (app.handler thread script info tx c).2

variable {app : Application η ω} {id : JobId} {c d e : Cluster η ω} {r s t : JobRun η}

namespace Plays

theorem refl (c : Cluster η ω) : Plays app id c c :=
  fun runs => ⟨[], [], by simpa using Overlap.Steps.refl⟩

/-- What plays in two parts plays as a whole. -/
theorem trans (h : Plays app id c d) (h' : Plays app id d e) : Plays app id c e := by
  intro runs
  obtain ⟨events, more, hfirst⟩ := h runs
  obtain ⟨events', more', hsecond⟩ := h' (runs ++ more)
  refine ⟨events ++ events', more ++ more', hfirst.trans ?_⟩
  rwa [← List.append_assoc]

/-- What happens around a job plays without a step of its run. -/
theorem of_around (h : c.Around id d) : Plays app id c d :=
  fun runs => by
    have hstep : Overlap.Step app id ⟨c, runs⟩ .quiet ⟨d, runs⟩ := .around h
    exact ⟨[.quiet], [], by simpa using hstep.steps⟩

end Plays

namespace Leads

theorem refl (c : Cluster η ω) (r : JobRun η) : Leads app id c r c r :=
  fun before after => ⟨[], [], by simpa using Overlap.Steps.refl⟩

/-- A run that is led on twice is led on. -/
theorem trans (h : Leads app id c r d s) (h' : Leads app id d s e t) : Leads app id c r e t := by
  intro before after
  obtain ⟨events, more, hfirst⟩ := h before after
  obtain ⟨events', more', hsecond⟩ := h' before (after ++ more)
  refine ⟨events ++ events', more ++ more', hfirst.trans ?_⟩
  rwa [← List.append_assoc]

/-- What happens while a run waits leads it nowhere. -/
theorem of_plays (h : Plays app id c d) (r : JobRun η) : Leads app id c r d r := by
  intro before after
  obtain ⟨events, more, hsteps⟩ := h (before ++ r :: after)
  refine ⟨events, more, ?_⟩
  simpa using hsteps

/-- A run takes a step, whichever it is by number. -/
theorem advance {stage : JobStage η} (answer : HandlerAnswer)
    (h : ∀ run, (r.advance app id run answer c).1 = stage ∧
      (r.advance app id run answer c).2.1 = d) :
    Leads app id c r d (r.moveTo stage) := by
  intro before after
  have hget : (before ++ r :: after)[before.length]? = some r := by simp
  have hset : (before ++ r :: after).set before.length (r.moveTo stage) =
      before ++ r.moveTo stage :: after := by
    simp
  obtain ⟨hstage, hcluster⟩ := h before.length
  have hstep : Overlap.Step app id ⟨c, before ++ r :: after⟩ _ _ := .advance before.length answer
  have hsteps := hstep.steps
  simp only [Overlap.advance, hget, hstage, hcluster, hset] at hsteps
  refine ⟨[(r.advance app id before.length answer c).2.2], [], ?_⟩
  rwa [List.append_nil]

end Leads

/-! ## Callbacks -/

/-- What a callback of the application does is done around the run that carries it out. -/
theorem plays_runCallback (h : app.Unobtrusive id) (thread : Thread) (phase : Phase)
    (c : Cluster η ω) (callback : Callback η) :
    Plays app id (c.carryOut app thread phase callback)
      (Cluster.runCallback app thread callback phase c).2 := by
  cases callback with
  | custom script =>
      have hplays := h.callback thread script phase c
      simp only [Cluster.carryOut, Cluster.runCallback]
      rcases hanswer : app.callback thread script phase c with ⟨p | (e | _), d⟩ <;>
        rw [hanswer] at hplays <;> exact hplays
  | publish n plan | queue n info | drop n j armed | applyWrites tx | withdraw n j => exact .refl _

/-! ## Handlers -/

namespace Cluster

theorem Around.trans (h : c.Around id d) (h' : d.Around id e) : c.Around id e where
  jobs := h'.jobs.trans h.jobs
  nodeId n := (h'.nodeId n).trans (h.nodeId n)
  nextTx := Nat.le_trans h.nextTx h'.nextTx
  drops tx t ht x hx hdrops := by
    obtain ⟨t', ht', hx'⟩ := h'.drops tx t ht x hx hdrops
    exact h.drops tx t' ht' x hx' hdrops

/-- The manager of a node may change around a job. -/
theorem around_modifyManager (id : JobId) (c : Cluster η ω) (n : NodeName)
    (f : TxManager → TxManager) : c.Around id (c.modifyManager n f) :=
  ⟨rfl, fun m => c.nodeId_modifyManager n m f, Nat.le_refl _, fun _ t ht _ hx _ => ⟨t, ht, hx⟩⟩

theorem around_modifyRegistry (id : JobId) (c : Cluster η ω) (n : NodeName)
    (f : Registry → Registry) : c.Around id (c.modifyRegistry n f) :=
  ⟨rfl, fun m => c.nodeId_modifyRegistry n m f, Nat.le_refl _, fun _ t ht _ hx _ => ⟨t, ht, hx⟩⟩

theorem around_instances (id : JobId) (c : Cluster η ω) (instances : InstanceStore) :
    c.Around id { c with instances } :=
  ⟨rfl, fun _ => rfl, Nat.le_refl _, fun _ t ht _ hx _ => ⟨t, ht, hx⟩⟩

/-- A callback that does not drop the job may be registered around it. -/
theorem around_register (c : Cluster η ω) (tx : TxId) (moment : Moment) (callback : Callback η)
    (h : ¬ callback.Drops id) : c.Around id (c.register tx moment callback) := by
  refine ⟨rfl, fun _ => rfl, Nat.le_refl _, fun other t ht x hx hdrops => ?_⟩
  rw [transaction?_register] at ht
  by_cases hother : other = tx
  · rw [if_pos hother] at ht
    obtain ⟨t', ht', rfl⟩ := Option.map_eq_some_iff.mp ht
    refine ⟨t', ht', ?_⟩
    rcases List.mem_append.mp hx with hx | hx
    · exact hx
    · cases List.mem_singleton.mp hx
      exact absurd hdrops h
  · rw [if_neg hother] at ht
    exact ⟨t, ht, hx⟩

/-- Writes may be staged around a job. -/
theorem around_stageWrite (id : JobId) (c : Cluster η ω) (tx : TxId) (w : InstanceWrite) :
    c.Around id (c.stageWrite tx w) := by
  unfold stageWrite
  split
  · exact c.around_instances id _
  · exact (c.around_instances id _).trans (around_register _ tx _ _ fun hdrops => hdrops)

/-- A command is carried out around the job that brings it. -/
theorem around_commandInstance (id : JobId) (c : Cluster η ω) (details : JobDetails)
    (tx : Option TxId) : c.Around id (c.commandInstance details tx).2 := by
  unfold commandInstance setInstanceState
  cases tx with
  | none => exact .refl id c
  | some tx =>
      cases InstanceCommand.ofDetails details with
      | error e => exact .refl id c
      | ok command =>
          simp only
          cases c.instances.stateChange tx command.2 command.1.target c.clock with
          | error e => exact .refl id c
          | ok change => exact c.around_stageWrite id tx change.2

theorem around_timeOutExchange (id : JobId) (c : Cluster η ω) (n : NodeName)
    (details : JobDetails) : c.Around id (c.timeOutExchange n details).2 := by
  unfold timeOutExchange
  cases details.get? "mex" with
  | none => exact .refl id c
  | some exchange =>
      simp only
      cases (c.node n).registry.get? ⟨exchange⟩ with
      | none => exact .refl id c
      | some _ =>
          simp only
          cases (c.node n).registry.fail ⟨exchange⟩ .noResponse
              (some "partner did not respond in time") with
          | error e => exact .refl id c
          | ok answer => exact c.around_modifyRegistry id n fun _ => answer.2

/-- What a handler does is done around the run that calls it. -/
theorem plays_process (h : app.Unobtrusive id) (n : NodeName) (thread : Thread) (info : JobInfo)
    (tx : Option TxId) (c : Cluster η ω) : Plays app id c (process app n thread info tx c).2 := by
  unfold process
  cases (c.node n).handlers.get? info.details.jobType with
  | none => exact .refl c
  | some handler =>
      cases handler with
      | instanceCommand => exact .of_around (c.around_commandInstance id info.details tx)
      | exchangeTimeout => exact .of_around (c.around_timeOutExchange id n info.details)
      | custom script => exact h.handler thread script info tx c

end Cluster

/-! ## Whole runs -/

/-- The number of a run makes no difference to where a step of its own leads. -/
theorem JobRun.advance_of_isBare (app : Application η ω) (id : JobId) (run : Nat) (c : Cluster η ω)
    {r : JobRun η} (h : r.stage.isBare = true) :
    (r.advance app id run .panicked c).1 = (r.advance app id 0 .panicked c).1 ∧
      (r.advance app id run .panicked c).2.1 = (r.advance app id 0 .panicked c).2.1 := by
  unfold advance
  cases hstage : r.stage with
  | handling =>
      rw [hstage] at h
      cases h
  | opened =>
      rcases c.claimFor r.node r.tx id with ⟨e | _, d⟩ <;> exact ⟨rfl, rfl⟩
  | handled =>
      rcases c.releaseClaim r.node r.tx id with ⟨e | _, d⟩ <;> exact ⟨rfl, rfl⟩
  | released =>
      cases (c.transaction? r.tx).filter Transaction.canCommit <;> exact ⟨rfl, rfl⟩
  | failing ending => exact ⟨rfl, rfl⟩
  | preparing t rest =>
      cases rest with
      | cons callback rest => exact ⟨rfl, rfl⟩
      | nil =>
          simp only [settle]
          rcases (Cluster.surroundings app r.thread).commitResource t.id c with ⟨e | _, d⟩ <;>
            exact ⟨rfl, rfl⟩
  | concluding committed rest ending => cases rest <;> exact ⟨rfl, rfl⟩
  | ended ending => exact ⟨rfl, rfl⟩

/-- A run takes its steps in a history, and its handler and its callbacks are at work around it. -/
theorem Leads.paces {info : JobInfo} (h : app.Unobtrusive info.jobId) :
    JobRun.Paces app info (Leads app info.jobId) where
  refl := .refl
  trans := .trans
  advance c _ hbare := .advance .panicked fun run =>
    JobRun.advance_of_isBare app info.jobId run c hbare
  handle c r hstage := by
    have hplays := Cluster.plays_process h r.node r.thread info (some r.tx) c
    refine (of_plays hplays r).trans ?_
    rcases Cluster.process app r.node r.thread info (some r.tx) c with ⟨p | (e | _), d⟩
    · exact .advance .panicked fun run => by simp [JobRun.advance, hstage, stageHandled]
    · exact .advance (.returned (.error e)) fun run => by
        simp [JobRun.advance, hstage, stageHandled]
    · exact .advance (.returned (.ok ())) fun run => by
        simp [JobRun.advance, hstage, stageHandled]
  before c r t callback rest hstage := by
    have hstep : Leads app info.jobId c r (c.carryOut app r.thread .before callback)
        (r.moveTo (.preparing t rest)) :=
      .advance .panicked fun run => by simp [JobRun.advance, hstage]
    exact hstep.trans (.of_plays (plays_runCallback h r.thread .before c callback) _)
  after c r committed callback rest ending hstage := by
    have hstep : Leads app info.jobId c r (c.carryOut app r.thread (.after committed) callback)
        (r.moveTo (.concluding committed rest ending)) :=
      .advance .panicked fun run => by simp [JobRun.advance, hstage]
    exact hstep.trans (.of_plays (plays_runCallback h r.thread (.after committed) c callback) _)

/-- A run in its transaction, from the claim to the end. -/
theorem Leads.runInTransaction {info : JobInfo} (h : app.Unobtrusive info.jobId)
    (hinfo : info.persisted = true) {n : NodeName} {thread : Thread} {tx : TxId} {d : Cluster η ω}
    (hbegin : (c.modifyManager n fun m => m.overrideTimeout thread none).begin n thread =
      (.ok tx, d)) :
    Leads app info.jobId d { node := n, thread, tx }
      (Cluster.runInTransaction app n thread none (Cluster.transactedBody app n thread info) c).2
      { node := n, thread, tx,
        stage := .ended ((Cluster.runInTransaction app n thread none
          (Cluster.transactedBody app n thread info) c).1.map Cluster.endOf).toOption } := by
  obtain ⟨e, hrun, hrestore⟩ := (Leads.paces h).runInTransaction hinfo hbegin
  rw [hrestore]
  exact hrun.trans (.of_plays (.of_around (Cluster.around_modifyManager info.jobId e n _)) _)

/-- A run of a stored job, from beginning to end, is a history in which one run begins, takes its
steps and ends as the scheduler counts it; or its transaction cannot begin. -/
theorem Cluster.attempt_history {info : JobInfo} (h : app.Unobtrusive info.jobId)
    (hpersisted : info.persisted = true) (htransacted : info.transacted = true) (n : NodeName)
    (thread : Thread) (c : Cluster η ω) (runs : List (JobRun η)) :
    ∃ events more, Overlap.Steps app info.jobId ⟨c, runs⟩ events
        ⟨(attempt app n thread info c).2, runs ++ more⟩ ∧
      ((∃ r rest, more = r :: rest ∧ r.stage = .ended (attempt app n thread info c).1.toOption) ∨
        more = [] ∧ (attempt app n thread info c).1 = .ok .failed) := by
  have hset : Overlap.Step app info.jobId ⟨c, runs⟩ .quiet
      ⟨c.modifyManager n fun m => m.overrideTimeout thread none, runs⟩ :=
    .around (c.around_modifyManager info.jobId n _)
  rw [attempt_of_transacted app n thread c htransacted]
  rcases hbegin : (c.modifyManager n fun m => m.overrideTimeout thread none).begin n thread with
    ⟨e | tx, d⟩
  · have hrefused : Overlap.Step app info.jobId ⟨_, runs⟩ .quiet ⟨d, runs⟩ :=
      .around (around_begin_error info.jobId hbegin)
    have hrestore : Overlap.Step app info.jobId ⟨d, runs⟩ .quiet
        ⟨d.modifyManager n fun m => m.setTimeout thread ((c.node n).manager.override? thread),
          runs⟩ :=
      .around (d.around_modifyManager info.jobId n _)
    refine ⟨[.quiet] ++ [.quiet] ++ [.quiet], [], ?_, .inr ⟨rfl, ?_⟩⟩
    · simp only [runInTransaction, hbegin, List.append_nil]
      exact (hset.steps.trans hrefused.steps).trans hrestore.steps
    · simp only [runInTransaction, hbegin]
      rfl
  · have hbegun : Overlap.Step app info.jobId ⟨_, runs⟩ .quiet
        ⟨d, runs ++ [{ node := n, thread, tx }]⟩ := .begin hbegin
    obtain ⟨events, more, hrun⟩ := Leads.runInTransaction h hpersisted hbegin runs []
    rw [List.nil_append] at hrun
    exact ⟨_, _, (hset.steps.trans hbegun.steps).trans hrun, .inl ⟨_, more, rfl, rfl⟩⟩

end JobCluster
