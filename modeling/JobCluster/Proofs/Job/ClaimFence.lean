import JobCluster.Proofs.Job.Fenced
/-!
# The fence around a claim

A run that has claimed a job may lose its claim to a recovery before it takes the job out. The job
store then turns the run away, unless the job was claimed again for the same node. This file says
exactly when a run that has lost its claim is turned away, and when it takes the record of a newer
claim instead.

Main results:

- `Overlap.Steps.fence_iff`: a run without its claim is turned away exactly if no run of the same
  node holds the job;
- `Overlap.removes_newer_claim`: a job that went away and came back is taken from its new run.
-/

namespace JobCluster

variable {η ω : Type}

namespace Overlap

variable {app : Application η ω} {id : JobId} {events : List JobEvent} {o p : Overlap η ω}

/-! ## Runs that have lost their claim -/

/-- Whether the job is held by another run of the same node. -/
def HasRival (o : Overlap η ω) (events : List JobEvent) (i : Nat) : Prop :=
  ∃ j, JobEvent.holder events = some j ∧ j ≠ i ∧ o.nodeIds[j]? = o.nodeIds[i]?

/-- A run without its claim has a rival exactly if the store names its node all the same. -/
theorem hasRival_iff {i : Nat} {r : JobRun η} (h : Fenced id events o)
    (hr : o.runs[i]? = some r) (hlost : JobEvent.holder events ≠ some i) :
    o.HasRival events i ↔
      o.cluster.jobs.heldBy? id = some (o.cluster.nodeId r.node) := by
  have hids : o.nodeIds[i]? = some (o.cluster.nodeId r.node) := by
    simp [nodeIds, hr]
  rw [HasRival, hids, h.held]
  constructor
  · rintro ⟨j, hj, _, hnode⟩
    rw [hj]
    exact hnode
  · intro hnode
    cases hj : JobEvent.holder events with
    | none =>
        rw [hj] at hnode
        cases hnode
    | some j =>
        rw [hj] at hnode
        refine ⟨j, rfl, ?_, hnode⟩
        rintro rfl
        exact hlost hj

/-- A run that is to take out a published job is turned away exactly if the store is available and
its node does not hold the job. -/
theorem advance_handled_iff {r : JobRun η} {c : Cluster η ω} (run : Nat) (answer : HandlerAnswer)
    (hstage : r.stage = .handled) (hc : c.jobs.Published id) :
    r.advance app id run answer c = (.failing (some .lostClaim), c, .quiet) ↔
      c.jobs.available = true ∧ c.jobs.heldBy? id ≠ some (c.nodeId r.node) := by
  simp only [JobRun.advance, hstage]
  rcases c.releaseClaim_cases r.node r.tx id with ⟨jobs, hfinish, heq⟩ | ⟨e, herror, heq⟩
  · have hheld := (StoreCall.heldBy?_finish hfinish).1
    simp [heq, hheld]
  · rw [heq]
    by_cases ha : c.jobs.available = true
    · rw [JobStore.finish_eq hc ha] at herror
      split at herror
      · cases herror
      · next hheld =>
          obtain rfl := Except.error.inj herror
          exact ⟨fun _ => ⟨ha, hheld⟩, fun _ => rfl⟩
    · have hunavailable : e = .unavailable := by
        rw [JobStore.finish, JobStore.guarded, if_neg ha] at herror
        exact (Except.error.inj herror).symm
      subst hunavailable
      simp [ha, JobFailure.ofStore, Cluster.endOf]

/-- A run whose node holds the job takes it out. -/
theorem advance_handled_of_heldBy? {r : JobRun η} {c : Cluster η ω} (run : Nat)
    (answer : HandlerAnswer) (hstage : r.stage = .handled) (ha : c.jobs.available = true)
    (hheld : c.jobs.heldBy? id = some (c.nodeId r.node)) :
    (r.advance app id run answer c).1 = .released ∧
      (r.advance app id run answer c).2.1.jobs.find? id = none := by
  have hrecord := JobStore.heldBy?_eq_some.mp hheld
  simp only [JobRun.advance, hstage]
  rcases c.releaseClaim_cases r.node r.tx id with ⟨jobs, hfinish, heq⟩ | ⟨e, herror, heq⟩
  · rw [heq]
    exact ⟨rfl, (StoreCall.heldBy?_finish hfinish).2⟩
  · have hfinish := (JobStore.finish_eq_ok_iff c.jobs _ id (c.nodeId r.node) .done).mpr
      ⟨ha, hrecord, rfl⟩
    rw [hfinish] at herror
    cases herror

/-- A callback that drops a job changes the store exactly if its node holds the job. -/
theorem jobs_drop_iff {c : Cluster η ω} (thread : Thread) (phase : Phase) (n : NodeName)
    (armed : Bool) :
    (c.carryOut app thread phase (.drop n id armed)).jobs ≠ c.jobs ↔
      armed = true ∧ c.jobs.available = true ∧ c.jobs.heldBy? id = some (c.nodeId n) := by
  have hjobs := Cluster.jobs_carryOut app thread phase c (.drop n id armed)
  cases armed with
  | false =>
      rw [hjobs]
      simp [Cluster.callbackCall]
  | true =>
      simp only [Cluster.callbackCall, if_true, StoreCall.apply] at hjobs
      rw [hjobs]
      cases hfinish : c.jobs.finish id (c.nodeId n) .failedDropped with
      | ok jobs =>
          obtain ⟨ha, ⟨r, hr, _⟩, _⟩ := (JobStore.finish_eq_ok_iff _ _ _ _ _).mp hfinish
          obtain ⟨hheld, hgone⟩ := StoreCall.heldBy?_finish hfinish
          have hne : jobs ≠ c.jobs := by
            rintro rfl
            rw [hr] at hgone
            cases hgone
          simp [JobStore.orSelf, hne, ha, hheld]
      | error e =>
          have hnot : ¬ (c.jobs.available = true ∧ c.jobs.heldBy? id = some (c.nodeId n)) := by
            rintro ⟨ha, hheld⟩
            have hok := (JobStore.finish_eq_ok_iff c.jobs _ id (c.nodeId n) .failedDropped).mpr
              ⟨ha, JobStore.heldBy?_eq_some.mp hheld, rfl⟩
            rw [hfinish] at hok
            cases hok
          simpa [JobStore.orSelf] using hnot

end Overlap

/-- Whether a run is on its way to be counted as a lost claim. -/
def JobStage.IsLost : JobStage η → Prop
  | .failing (some .lostClaim) | .concluding false _ (some .lostClaim)
  | .ended (some .lostClaim) => True
  | _ => False

namespace JobRun

/-- A run that was turned away rolls its transaction back, and ends as a lost claim. -/
theorem isLost_advance (app : Application η ω) {r : JobRun η} (c : Cluster η ω) (id : JobId)
    (run : Nat) (answer : HandlerAnswer) (h : r.stage.IsLost) :
    (r.advance app id run answer c).1.IsLost ∧
      ∀ i, (r.advance app id run answer c).2.2 ≠ .committed i := by
  unfold advance
  cases hstage : r.stage with
  | failing ending =>
      rw [hstage] at h
      obtain rfl : ending = some .lostClaim := by
        rcases ending with _ | (_ | _ | _) <;> first | rfl | exact h.elim
      simp only
      rcases r.withdraw_cases app c (some .lostClaim) with ⟨_, heq⟩ | ⟨t, resource, _, heq⟩
      · rw [heq]
        exact ⟨trivial, fun _ => JobEvent.noConfusion⟩
      · rw [heq]
        exact ⟨trivial, fun _ => JobEvent.noConfusion⟩
  | concluding committed rest ending =>
      rw [hstage] at h
      cases committed with
      | true => exact h.elim
      | false =>
          obtain rfl : ending = some .lostClaim := by
            rcases ending with _ | (_ | _ | _) <;> first | rfl | exact h.elim
          cases rest with
          | nil => exact ⟨trivial, fun _ => JobEvent.noConfusion⟩
          | cons callback rest =>
              refine ⟨trivial, fun i => ?_⟩
              rcases c.carryOut_cases app r.thread (.after false) callback id run with
                ⟨_, _, _, _, _, hevent⟩ | ⟨hevent, _⟩
              · simp only [hevent]
                exact JobEvent.noConfusion
              · simp only [hevent]
                exact JobEvent.noConfusion
  | ended ending =>
      rw [hstage] at h
      exact ⟨h, fun _ => JobEvent.noConfusion⟩
  | opened | handling | handled | released =>
      rw [hstage] at h
      exact h.elim
  | preparing t rest =>
      rw [hstage] at h
      exact h.elim

/-- A step of a run is no commit of another. -/
theorem Outcome.committed_eq {app : Application η ω} {r : JobRun η} {c d : Cluster η ω}
    {id : JobId} {run i : Nat} {stage : JobStage η} {event : JobEvent}
    (h : Outcome id run app r c stage d event) (hevent : event = .committed i) : i = run := by
  cases h with
  | committed _ _ =>
      cases hevent
      rfl
  | before callback _ =>
      rcases c.carryOut_cases app r.thread .before callback id run with
        ⟨_, _, _, _, _, hdropped⟩ | ⟨hquiet, _⟩
      · rw [hdropped] at hevent
        cases hevent
      · rw [hquiet] at hevent
        cases hevent
  | after committed callback _ =>
      rcases c.carryOut_cases app r.thread (.after committed) callback id run with
        ⟨_, _, _, _, _, hdropped⟩ | ⟨hquiet, _⟩
      · rw [hdropped] at hevent
        cases hevent
      · rw [hquiet] at hevent
        cases hevent
  | claimed _ _ | released _ _ | handled _ | failing _ | prepared _ _ | withdrawn _ _ _
  | refused _ _ | ended _ => cases hevent

end JobRun

/-- No call on the store commits anything. -/
theorem StoreCall.event_ne_committed (s : JobStore) (a : StoreCall) (id : JobId) (i : Nat) :
    a.event id s ≠ .committed i := by
  cases a with
  | cancel j =>
      simp only [event]
      split
      · split <;> exact JobEvent.noConfusion
      · exact JobEvent.noConfusion
  | stage x | publish j | discard j | claim j node | finish j node outcome
  | upgrade maxDue nodes | reassign source target | setAvailable b =>
      simp only [event]
      split <;> exact JobEvent.noConfusion

namespace Overlap

variable {app : Application η ω} {id : JobId} {events : List JobEvent} {o p : Overlap η ω}

/-- A run that was turned away stays on its way through any step, and does not commit. -/
theorem isLost_step {event : JobEvent} {i : Nat} {r : JobRun η} (h : Step app id o event p)
    (hr : o.runs[i]? = some r) (hlost : r.stage.IsLost) :
    (∃ r', p.runs[i]? = some r' ∧ r'.stage.IsLost) ∧ event ≠ .committed i := by
  obtain ⟨hi, hget⟩ := List.getElem?_eq_some_iff.mp hr
  cases h with
  | begin hbegin =>
      refine ⟨⟨r, ?_, hlost⟩, JobEvent.noConfusion⟩
      rw [List.getElem?_append_left hi, hr]
  | advance j answer =>
      unfold advance
      cases hj : o.runs[j]? with
      | none => exact ⟨⟨r, hr, hlost⟩, JobEvent.noConfusion⟩
      | some s =>
          by_cases hij : j = i
          · subst hij
            obtain rfl : r = s := Option.some.inj (hr.symm.trans hj)
            obtain ⟨hstage, hevent⟩ := JobRun.isLost_advance app o.cluster id j answer hlost
            exact ⟨⟨_, List.getElem?_set_self hi, hstage⟩, hevent j⟩
          · refine ⟨⟨r, ?_, hlost⟩, fun hevent => ?_⟩
            · rw [List.getElem?_set_ne hij, hr]
            · have houtcome := JobRun.outcome_advance id j answer app s o.cluster
              exact hij (houtcome.committed_eq hevent).symm
  | call a ha => exact ⟨⟨r, hr, hlost⟩, a.event_ne_committed o.cluster.jobs id i⟩
  | around hd => exact ⟨⟨r, hr, hlost⟩, JobEvent.noConfusion⟩

/-- A run that was turned away never commits, and if it ends, it ends as a lost claim. -/
theorem Steps.isLost {i : Nat} {r : JobRun η} (h : Steps app id o events p)
    (hr : o.runs[i]? = some r) (hlost : r.stage.IsLost) :
    (∃ r', p.runs[i]? = some r' ∧ r'.stage.IsLost) ∧ .committed i ∉ events := by
  induction h with
  | refl => exact ⟨⟨r, hr, hlost⟩, List.not_mem_nil⟩
  | tail _ last ih =>
      obtain ⟨⟨s, hs, hslost⟩, hbefore⟩ := ih
      obtain ⟨hnext, hevent⟩ := isLost_step last hs hslost
      refine ⟨hnext, fun hmem => ?_⟩
      rcases List.mem_append.mp hmem with hmem | hmem
      · exact hbefore hmem
      · exact hevent (List.mem_singleton.mp hmem).symm

/-- What becomes of a run that has lost its claim, in any history of runs of a job that nobody held
at the beginning.
- When it is to take the job out, it is turned away, and nothing changes, exactly if the store is
  available and no other run of its node holds the job. If one does, the job is taken from it.
- Its callback takes the record away exactly if the callback is armed, the store is available and
  another run of its node holds the job.
- Once it was turned away, it never commits, and its ending is a lost claim. -/
theorem Steps.fence_iff {c : Cluster η ω} {i : Nat} {r : JobRun η}
    (hc : c.jobs.heldBy? id = none) (h : Steps app id ⟨c, []⟩ events o)
    (hr : o.runs[i]? = some r) (hlost : JobEvent.holder events ≠ some i) :
    (∀ answer, r.stage = .handled →
      (r.advance app id i answer o.cluster = (.failing (some .lostClaim), o.cluster, .quiet) ↔
          o.cluster.jobs.available = true ∧ ¬ o.HasRival events i) ∧
        (o.cluster.jobs.available = true ∧ o.HasRival events i →
          (r.advance app id i answer o.cluster).1 = .released ∧
            (r.advance app id i answer o.cluster).2.1.jobs.find? id = none)) ∧
      (∀ answer committed n armed rest ending,
        r.stage = .concluding committed (.drop n id armed :: rest) ending →
        ((r.advance app id i answer o.cluster).2.1.jobs ≠ o.cluster.jobs ↔
          armed = true ∧ o.cluster.jobs.available = true ∧ o.HasRival events i)) ∧
      (r.stage.IsLost → ∀ later p, Steps app id o later p →
        (∃ r', p.runs[i]? = some r' ∧ r'.stage.IsLost) ∧ .committed i ∉ later) := by
  have hfenced := h.fenced hc
  have hmem := List.mem_of_getElem? hr
  rw [hasRival_iff hfenced hr hlost]
  refine ⟨fun answer hstage => ⟨?_, ?_⟩, fun answer committed n armed rest ending hstage => ?_,
    fun hstage later p hlater => hlater.isLost hr hstage⟩
  · exact advance_handled_iff i answer hstage (hfenced.published r hmem (by rw [hstage]; rfl))
  · rintro ⟨ha, hheld⟩
    exact advance_handled_of_heldBy? i answer hstage ha hheld
  · have hown := (hfenced.own r hmem).stage (.drop n id armed)
      (by rw [hstage]; exact List.mem_cons_self) rfl
    obtain ⟨armed', heq⟩ := hown
    cases heq
    simp only [JobRun.advance, hstage]
    exact jobs_drop_iff r.thread (.after committed) r.node armed

/-- A node claims a job and is taken for dead, and the job is claimed by another node before the
handler of the first comes back. -/
def lapse : List JobMove :=
  [.begin "a" .main, .advance 0 .panicked, .call (.reassign ⟨"a"⟩ ⟨"b"⟩),
    .begin "b" (.named "other"), .advance 1 .panicked, .advance 0 (.returned (.ok ()))]

/-- The first run is turned away, as no run of its node holds the job. -/
theorem Steps.fence_iff_lapse :
    (⟨"a", .main, ⟨0⟩, .handled⟩ : JobRun Unit).advance .silent ⟨"J"⟩ 0 .panicked
        (playJob lapse).1.cluster =
      (.failing (some .lostClaim), (playJob lapse).1.cluster, .quiet) := by
  have hevents : (playJob lapse).2 = [.quiet, .claimed 0, .reset, .quiet, .claimed 1, .quiet] := rfl
  have hr : (playJob lapse).1.runs[0]? = some ⟨"a", .main, ⟨0⟩, .handled⟩ := rfl
  have hids : (playJob lapse).1.nodeIds = [⟨"a"⟩, ⟨"b"⟩] := rfl
  have hholder : JobEvent.holder (playJob lapse).2 = some 1 := by
    rw [hevents]
    rfl
  have hlost : JobEvent.holder (playJob lapse).2 ≠ some 0 := by
    rw [hholder]
    decide
  have hrival : ¬ (playJob lapse).1.HasRival (playJob lapse).2 0 := by
    rintro ⟨j, hj, _, hnode⟩
    rw [hholder] at hj
    cases hj
    rw [hids] at hnode
    revert hnode
    decide
  have hsteps := steps_play .silent ⟨"J"⟩ (ofJob "a" "b" ⟨"J"⟩) lapse
  exact ((Steps.fence_iff rfl hsteps hr hlost).1 .panicked rfl).1.mpr ⟨rfl, hrival⟩

/-- A node claims a job and is taken for dead. The job goes to another node, comes back when that is
taken for dead as well, and is claimed once more for the first node. -/
def roundTrip : List JobMove :=
  [.begin "a" .main, .advance 0 .panicked, .call (.reassign ⟨"a"⟩ ⟨"b"⟩),
    .call (.reassign ⟨"b"⟩ ⟨"a"⟩), .begin "a" (.named "other"), .advance 1 .panicked]

/-- After a round trip of the job, the fence lets the first run through, although its claim was
reset and that of the second run is in force. Whether its handler comes back in success or in
failure, it takes the record away. -/
theorem removes_newer_claim :
    (playJob (roundTrip ++ [.advance 0 (.returned (.ok ())), .advance 0 .panicked])).2 =
        [.quiet, .claimed 0, .reset, .quiet, .quiet, .claimed 1, .quiet, .released 0] ∧
      (playJob (roundTrip ++
        [.advance 0 (.returned (.ok ())), .advance 0 .panicked])).1.cluster.jobs.find? ⟨"J"⟩ = none ∧
      (playJob (roundTrip ++
        [.advance 0 (.returned (.error (.failed ""))), .advance 0 .panicked,
          .advance 0 .panicked])).2 =
        [.quiet, .claimed 0, .reset, .quiet, .quiet, .claimed 1, .quiet, .quiet, .dropped 0] ∧
      (playJob (roundTrip ++
        [.advance 0 (.returned (.error (.failed ""))), .advance 0 .panicked,
          .advance 0 .panicked])).1.cluster.jobs.find? ⟨"J"⟩ = none ∧
      JobEvent.holder [.quiet, .claimed 0, .reset, .quiet, .quiet, .claimed 1, .quiet] = some 1 := by
  refine ⟨?_, ?_, ?_, ?_, ?_⟩
  · rfl
  · rfl
  · rfl
  · rfl
  · rfl

end Overlap

end JobCluster
