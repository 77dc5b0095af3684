import JobCluster.Proofs.Counting
import JobCluster.Proofs.Job.Interleaving
/-!
# One commit for one job

However many runs of a job overlap, and whatever happens between their steps, the job is decided
once: one of its runs commits, or it is cancelled, or it is dropped.

The proof follows one stake. As long as the record of the job is in the store, the stake lies there.
The run that takes the record out takes the stake along, and a decision spends it. No step makes a
second stake.

Main results:

- `JobRun.Outcome.stake_le`, `Overlap.step_stake`: no step of a history adds to the stake;
- `Overlap.Steps.stake_le`: nor does a whole history;
- `Overlap.Steps.commits_le_one`: at most one run commits, and none after the job was cancelled or
  dropped.
-/

namespace JobCluster

variable {η ω : Type}

/-! ## The stake -/

/-- Whether a run may still commit without asking the job store again. -/
def JobStage.mayCommit : JobStage η → Bool
  | .released | .preparing _ _ => true
  | .opened | .handling | .handled | .failing _ | .concluding _ _ _ | .ended _ => false

namespace JobEvent

/-- Whether the transaction of a run has committed. -/
def isCommit : JobEvent → Bool
  | .committed _ => true
  | _ => false

/-- Whether the job is decided: a run has committed, or the job was cancelled or dropped. -/
def isDecision : JobEvent → Bool
  | .committed _ | .cancelled | .dropped _ => true
  | .claimed _ | .reset | .released _ | .quiet => false

/-- A commit decides the job. -/
theorem isDecision_of_isCommit {event : JobEvent} (h : event.isCommit = true) :
    event.isDecision = true := by
  cases event <;> simp_all [isCommit, isDecision]

end JobEvent

/-- One while the job is in the store, and nothing once it is gone. -/
def JobStore.presence (s : JobStore) (id : JobId) : Nat := (s.find? id).isSome.toNat

/-- What is left to decide about a job: the record in the store, and the runs that have taken it out
and not committed yet. -/
def Overlap.stake (o : Overlap η ω) (id : JobId) : Nat :=
  o.cluster.jobs.presence id + o.runs.countP fun r => r.stage.mayCommit

namespace JobStore

/-- A job is in the store once at most. -/
theorem presence_le_one (s : JobStore) (id : JobId) : s.presence id ≤ 1 :=
  Bool.toNat_le _

/-- A job that is not found is not there. -/
theorem presence_eq_zero {s : JobStore} {id : JobId} (h : s.find? id = none) :
    s.presence id = 0 := by
  simp [presence, h]

theorem presence_eq_one {s : JobStore} {id : JobId} {r : JobRecord} (h : s.find? id = some r) :
    s.presence id = 1 := by
  simp [presence, h]

/-- A claim leaves the job where it is. -/
theorem presence_claim {s t : JobStore} {id : JobId} {node : NodeId} {held : JobRecord}
    (h : s.claim id node = .ok (held, t)) : t.presence id = s.presence id := by
  obtain ⟨_, r, hr, _, _, rfl⟩ := (claim_eq_ok_iff s t id node held).mp h
  simp [presence, hr]

/-- Whoever finishes a job takes it out. -/
theorem presence_finish {s t : JobStore} {id : JobId} {node : NodeId} {outcome : JobOutcome}
    (h : s.finish id node outcome = .ok t) : s.presence id = 1 ∧ t.presence id = 0 := by
  obtain ⟨_, ⟨r, hr, _⟩, rfl⟩ := (finish_eq_ok_iff s t id node outcome).mp h
  exact ⟨presence_eq_one hr, presence_eq_zero (by simp)⟩

/-- Whoever cancels a job takes it out. -/
theorem presence_cancel {s t : JobStore} {id : JobId} (h : s.cancel id = .ok (true, t)) :
    s.presence id = 1 ∧ t.presence id = 0 := by
  rw [cancel, guarded_eq_ok_iff] at h
  obtain ⟨_, h⟩ := h
  cases hr : s.find? id with
  | none => simp [hr] at h
  | some r =>
      refine ⟨presence_eq_one hr, ?_⟩
      cases hstate : r.state <;> simp [hr, hstate] at h
      all_goals
        subst h
        exact presence_eq_zero (by simp)

end JobStore

/-! ## Calls and callbacks -/

/-- A call that neither stages nor claims nor finishes the job does not bring it back. -/
theorem StoreCall.presence_apply_le {s : JobStore} {a : StoreCall} {id : JobId}
    (ha : a.Bystanding id) : (a.apply s).presence id ≤ s.presence id := by
  cases h : s.find? id with
  | none =>
      rw [JobStore.presence_eq_zero (find?_apply_eq_none ha.stages_eq_false h)]
      exact Nat.zero_le _
  | some r => rw [JobStore.presence_eq_one h]; exact JobStore.presence_le_one _ _

/-- A call spends the stake if it decides the job. -/
theorem StoreCall.event_stake {s : JobStore} {a : StoreCall} {id : JobId} (ha : a.Bystanding id) :
    (a.event id s).isDecision.toNat + (a.apply s).presence id ≤ s.presence id := by
  have hle := presence_apply_le (s := s) ha
  by_cases hd : (a.event id s).isDecision = true
  · cases a with
    | cancel j =>
        rcases hcancel : s.cancel j with e | ⟨_ | _, t⟩
        · simp [event, hcancel, JobEvent.isDecision] at hd
        · simp [event, hcancel, JobEvent.isDecision] at hd
        · by_cases hj : j = id
          · subst hj
            have hspent := JobStore.presence_cancel hcancel
            simp only [event, hcancel, if_true, JobEvent.isDecision, Bool.toNat_true, apply,
              JobStore.orSelf', JobStore.orSelf, Except.map]
            omega
          · simp [event, hcancel, hj, JobEvent.isDecision] at hd
    | stage x | publish j | discard j | claim j node | finish j node outcome
    | upgrade maxDue nodes | reassign source target | setAvailable b =>
        simp only [event] at hd
        split at hd <;> simp [JobEvent.isDecision] at hd
  · simpa [hd] using hle

namespace Cluster

/-- A callback spends the stake if it drops the job. -/
theorem carryOut_stake (app : Application η ω) (thread : Thread) (phase : Phase)
    (c : Cluster η ω) (callback : Callback η) (id : JobId) (run : Nat) :
    (carriedOut id run c.jobs (c.carryOut app thread phase callback).jobs
        callback).isDecision.toNat +
        (c.carryOut app thread phase callback).jobs.presence id ≤ c.jobs.presence id := by
  rcases c.carryOut_cases app thread phase callback id run with
    ⟨n, jobs, _, hfinish, hjobs, hevent⟩ | ⟨hevent, hjobs | ⟨a, ha, _, hjobs⟩⟩
  · have hspent := JobStore.presence_finish hfinish
    rw [hevent, hjobs]
    simp [hspent, JobEvent.isDecision]
  · rw [hevent, hjobs]
    simp [JobEvent.isDecision]
  · rw [hevent, hjobs]
    simpa [JobEvent.isDecision] using StoreCall.presence_apply_le ha

end Cluster

/-! ## Steps of runs -/

/-- A step of a run takes the stake out of the store, keeps it or spends it. -/
theorem JobRun.Outcome.stake_le {app : Application η ω} {r : JobRun η} {c d : Cluster η ω}
    {id : JobId} {run : Nat} {stage : JobStage η} {event : JobEvent}
    (h : Outcome id run app r c stage d event) :
    event.isDecision.toNat + stage.mayCommit.toNat + d.jobs.presence id ≤
      r.stage.mayCommit.toNat + c.jobs.presence id := by
  cases h with
  | claimed _ hclaim =>
      have hsame := JobStore.presence_claim hclaim
      simp [Cluster.register, JobEvent.isDecision, JobStage.mayCommit, hsame]
  | released _ hfinish =>
      have htaken := JobStore.presence_finish hfinish
      simp [JobEvent.isDecision, JobStage.mayCommit, htaken]
  | prepared hstage _ => simp [hstage, JobEvent.isDecision, JobStage.mayCommit]
  | committed _ hstage | refused _ hstage =>
      simp [hstage, Cluster.modifyManager, JobEvent.isDecision, JobStage.mayCommit]
  | before callback hstage =>
      have hspent := c.carryOut_stake app r.thread .before callback id run
      rw [hstage]
      simp only [JobStage.mayCommit]
      omega
  | after committed callback hstage =>
      have hspent := c.carryOut_stake app r.thread (.after committed) callback id run
      rw [hstage]
      simp only [JobStage.mayCommit]
      omega
  | handled _ | failing _ | withdrawn _ _ _ | ended _ =>
      simp [Cluster.modifyManager, JobEvent.isDecision, JobStage.mayCommit]

/-! ## Histories -/

namespace Overlap

variable {app : Application η ω} {id : JobId} {o p : Overlap η ω}

/-- No step of a history adds to the stake, and a decision spends it. -/
theorem step_stake {event : JobEvent} (h : Step app id o event p) :
    event.isDecision.toNat + p.stake id ≤ o.stake id := by
  cases h with
  | begin h =>
      simp [stake, (Cluster.begin_eq_ok h).jobs, JobEvent.isDecision, List.countP_append,
        JobStage.mayCommit]
  | advance i answer =>
      unfold advance
      cases hr : o.runs[i]? with
      | none => simp [JobEvent.isDecision]
      | some r =>
          obtain ⟨hi, rfl⟩ := List.getElem?_eq_some_iff.mp hr
          have hstep := (JobRun.outcome_advance id i answer app o.runs[i] o.cluster).stake_le
          have hcount := countP_set_add (p := fun r : JobRun η => r.stage.mayCommit) hr
            ((o.runs[i]).moveTo ((o.runs[i]).advance app id i answer o.cluster).1)
          simp only [JobRun.stage_moveTo] at hcount
          simp only [stake]
          omega
  | call a ha =>
      have hspent := StoreCall.event_stake (s := o.cluster.jobs) ha
      simp only [stake]
      omega
  | around h => simp [stake, h.jobs, JobEvent.isDecision]

/-- What was decided and what is left to decide come to no more than at the beginning. -/
theorem Steps.stake_le {events : List JobEvent} (h : Steps app id o events p) :
    events.countP JobEvent.isDecision + p.stake id ≤ o.stake id := by
  induction h with
  | refl => simp
  | tail _ last ih =>
      have hstep := step_stake last
      rw [List.countP_append, List.countP_singleton]
      cases hdecision : JobEvent.isDecision _ <;> simp [hdecision] at hstep ⊢ <;> omega

/-- Before any run has begun, there is nothing to decide but the record. -/
theorem stake_le_one (c : Cluster η ω) (id : JobId) : (Overlap.mk c []).stake id ≤ 1 := by
  simpa [stake] using c.jobs.presence_le_one id

/-- A job is decided at most once. -/
theorem Steps.decisions_le_one {c : Cluster η ω} {events : List JobEvent}
    (h : Steps app id ⟨c, []⟩ events p) : events.countP JobEvent.isDecision ≤ 1 := by
  have hle := h.stake_le
  have hone := stake_le_one c id
  omega

/-- Nothing is decided after a decision. -/
theorem Steps.not_mem_of_decided {c : Cluster η ω} {before after : List JobEvent}
    {event later : JobEvent} (h : Steps app id ⟨c, []⟩ (before ++ event :: after) p)
    (hevent : event.isDecision = true) (hlater : later.isDecision = true) : later ∉ after := by
  intro hmem
  have hone := h.decisions_le_one
  have hpos : 0 < after.countP JobEvent.isDecision := List.countP_pos_iff.mpr ⟨later, hmem, hlater⟩
  simp only [List.countP_append, List.countP_cons, hevent, if_true] at hone
  omega

/-- Of all runs of a job, at most one commits, and none commits after the job was cancelled or
dropped. The history may begin in any cluster, in which no run of the job has begun yet. -/
theorem Steps.commits_le_one (app : Application η ω) (id : JobId) (c : Cluster η ω)
    {events : List JobEvent} (h : Steps app id ⟨c, []⟩ events p) :
    events.countP JobEvent.isCommit ≤ 1 ∧
      (∀ before after run, events = before ++ .cancelled :: after → .committed run ∉ after) ∧
      ∀ before after run other, events = before ++ .dropped other :: after →
        .committed run ∉ after := by
  refine ⟨?_, ?_, ?_⟩
  · have hmono : events.countP JobEvent.isCommit ≤ events.countP JobEvent.isDecision :=
      List.countP_mono_left fun event _ => JobEvent.isDecision_of_isCommit
    exact Nat.le_trans hmono h.decisions_le_one
  · intro before after run heq
    subst heq
    exact h.not_mem_of_decided rfl rfl
  · intro before after run other heq
    subst heq
    exact h.not_mem_of_decided rfl rfl

/-- A node claims a job and is taken for dead; its job goes to another node, which claims it as
well. Both handlers come back, and the first node is the first to commit. -/
def recovery : List JobMove :=
  [.begin "a" .main, .advance 0 .panicked, .call (.reassign ⟨"a"⟩ ⟨"b"⟩),
    .begin "b" (.named "other"), .advance 1 .panicked,
    .advance 0 (.returned (.ok ())), .advance 1 (.returned (.ok ())),
    .advance 0 .panicked, .advance 1 .panicked,
    .advance 0 .panicked, .advance 1 .panicked, .advance 1 .panicked]

/-- The run whose claim was reset does not commit, and the other does. -/
theorem Steps.commits_le_one_recovery :
    (playJob recovery).2 =
        [.quiet, .claimed 0, .reset, .quiet, .claimed 1, .quiet, .quiet, .quiet, .released 1,
          .quiet, .quiet, .committed 1] ∧
      (playJob recovery).2.countP JobEvent.isCommit ≤ 1 :=
  ⟨rfl, (commits_le_one .silent ⟨"J"⟩ (ofJob "a" "b" ⟨"J"⟩).cluster (steps_play _ _ _ recovery)).1⟩

end Overlap

end JobCluster
