import JobCluster.Proofs.Job.Fenced
/-!
# Calls that outlive their claim

A handler may be at work on a job while the claim of its run is in force no longer: the job store
takes the job for free again, and knows nothing of the call. This file shows that it takes a
recovery to bring that about. As long as no claim has been reset, one run at most has claimed the
job, and no other has anything to take it away with.

Main results:

- `JobRun.Outcome.jobs_cases`, `Overlap.Step.jobs_cases`: a step makes one call on the store at most;
- `JobRun.Unarmed.outcome`: a run that has not claimed the job cannot take it away;
- `Overlap.Steps.undisturbed`: where no claim was reset, every call in progress belongs to the claim
  in force.
-/

namespace JobCluster

variable {η ω : Type}

/-! ## One call in each step -/

/-- A step of a run makes one call on the store at most, which neither stages the job nor recovers
the jobs of a node. -/
theorem JobRun.Outcome.jobs_cases {app : Application η ω} {r : JobRun η} {c d : Cluster η ω}
    {id : JobId} {run : Nat} {stage : JobStage η} {event : JobEvent}
    (h : Outcome id run app r c stage d event) :
    d.jobs = c.jobs ∨ ∃ a : StoreCall, a.stages id = false ∧
      (∀ source target, a ≠ .reassign source target) ∧ d.jobs = a.apply c.jobs := by
  have hcallback : ∀ phase callback, (c.carryOut app r.thread phase callback).jobs = c.jobs ∨
      ∃ a : StoreCall, a.stages id = false ∧ (∀ source target, a ≠ .reassign source target) ∧
        (c.carryOut app r.thread phase callback).jobs = a.apply c.jobs := by
    intro phase callback
    rcases c.carryOut_cases app r.thread phase callback id run with
      ⟨n, jobs, _, hfinish, hjobs, _⟩ | ⟨_, hjobs | ⟨a, ha, hne, hjobs⟩⟩
    · refine .inr ⟨.finish id (c.nodeId n) .failedDropped, rfl, fun _ _ => StoreCall.noConfusion, ?_⟩
      simp only [hjobs, StoreCall.apply, hfinish, JobStore.orSelf]
    · exact .inl hjobs
    · exact .inr ⟨a, ha.stages_eq_false, hne, hjobs⟩
  cases h with
  | claimed _ hclaim =>
      refine .inr ⟨.claim id (c.nodeId r.node), rfl, fun _ _ => StoreCall.noConfusion, ?_⟩
      simp only [StoreCall.apply, hclaim, JobStore.orSelf', JobStore.orSelf, Except.map]
      rfl
  | released _ hfinish =>
      refine .inr ⟨.finish id (c.nodeId r.node) .done, rfl, fun _ _ => StoreCall.noConfusion, ?_⟩
      simp only [StoreCall.apply, hfinish, JobStore.orSelf]
      rfl
  | before callback _ | after _ callback _ => exact hcallback _ callback
  | handled _ | failing _ | prepared _ _ | withdrawn _ _ _ | committed _ _ | refused _ _
  | ended _ => exact .inl rfl

namespace Overlap

variable {app : Application η ω} {id : JobId} {o p : Overlap η ω} {event : JobEvent}

/-- A step makes one call on the store at most, which does not stage the job. A recovery means to
the job what the store makes of it. -/
theorem Step.jobs_cases (h : Step app id o event p) :
    p.cluster.jobs = o.cluster.jobs ∨ ∃ a : StoreCall, a.stages id = false ∧
      (∀ source target, a = .reassign source target → event = a.event id o.cluster.jobs) ∧
      p.cluster.jobs = a.apply o.cluster.jobs := by
  cases h with
  | begin hbegin => exact .inl (Cluster.begin_eq_ok hbegin).jobs
  | advance i answer =>
      unfold Overlap.advance
      cases hr : o.runs[i]? with
      | none => exact .inl rfl
      | some r =>
          rcases (JobRun.outcome_advance id i answer app r o.cluster).jobs_cases with
            hjobs | ⟨a, ha, hne, hjobs⟩
          · exact .inl hjobs
          · exact .inr ⟨a, ha, fun source target heq => absurd heq (hne source target), hjobs⟩
  | call a ha => exact .inr ⟨a, ha.stages_eq_false, fun _ _ _ => rfl, rfl⟩
  | around hd => exact .inl hd.jobs

end Overlap

/-! ## Jobs that nobody can claim -/

/-- Whether a job is claimed or gone. -/
def JobStore.Taken (s : JobStore) (id : JobId) : Prop :=
  ∀ r, s.find? id = some r → ∃ node, r.state = .claimed node

/-- A call that is no recovery leaves a claimed job claimed, or takes it out. -/
theorem StoreCall.Revises.state_of_claimed {a : StoreCall} {x r : JobRecord} {node : NodeId}
    (h : a.Revises x r) (hne : ∀ source target, a ≠ .reassign source target)
    (hx : x.state = .claimed node) : r.state = .claimed node := by
  cases h with
  | kept | assigned => exact hx
  | published id hstaged =>
      rw [hx] at hstaged
      cases hstaged
  | claimed id hfree => simp [JobStore.claimableBy, JobRecord.isPending, hx] at hfree
  | reassigned target _ => exact absurd rfl (hne _ target)

namespace JobStore

variable {s t : JobStore} {id : JobId}

/-- A job that is gone counts as taken. -/
theorem Taken.of_find?_eq_none (h : s.find? id = none) : s.Taken id := by
  intro r hr
  rw [h] at hr
  cases hr

/-- A job that a node holds is taken. -/
theorem Taken.of_heldBy? {node : NodeId} (h : s.heldBy? id = some node) : s.Taken id := by
  intro r hr
  obtain ⟨r', hr', hstate⟩ := heldBy?_eq_some.mp h
  rw [hr] at hr'
  cases hr'
  exact ⟨node, hstate⟩

/-- A job that is claimed or gone is refused to whoever would claim it. -/
theorem Taken.not_claim {node : NodeId} {held : JobRecord} (h : s.Taken id) :
    s.claim id node ≠ .ok (held, t) := by
  intro hclaim
  obtain ⟨_, r, hr, hfree, _, _⟩ := (claim_eq_ok_iff s t id node held).mp hclaim
  obtain ⟨other, hstate⟩ := h r hr
  simp [claimableBy, JobRecord.isPending, hstate] at hfree

/-- A job that is claimed or gone stays so, unless it is staged again or recovered. -/
theorem Taken.apply {a : StoreCall} (h : s.Taken id) (ha : a.stages id = false)
    (hne : ∀ source target, a ≠ .reassign source target) : (a.apply s).Taken id := by
  intro r hr
  obtain ⟨x, hx, hrevises⟩ := StoreCall.revises_of_find?_apply ha hr
  obtain ⟨node, hstate⟩ := h x hx
  exact ⟨node, hrevises.state_of_claimed hne hstate⟩

end JobStore

/-- As long as no claim is reset, a job that is claimed or gone stays so. -/
theorem Overlap.Step.taken {app : Application η ω} {id : JobId} {o p : Overlap η ω}
    {event : JobEvent} (h : Step app id o event p) (hevent : event ≠ .reset)
    (ho : o.cluster.jobs.Taken id) : p.cluster.jobs.Taken id := by
  rcases h.jobs_cases with hjobs | ⟨a, ha, hreassign, hjobs⟩
  · rwa [hjobs]
  · rw [hjobs]
    by_cases hrecovery : ∃ source target, a = .reassign source target
    · obtain ⟨source, target, rfl⟩ := hrecovery
      cases hfree : ((StoreCall.reassign source target).apply o.cluster.jobs).heldBy? id with
      | some node => exact .of_heldBy? hfree
      | none =>
          cases hr : o.cluster.jobs.find? id with
          | none => exact .of_find?_eq_none (StoreCall.find?_apply_eq_none ha hr)
          | some x =>
              obtain ⟨node, hx⟩ := ho x hr
              have hheld := JobStore.heldBy?_eq_some.mpr ⟨x, hr, hx⟩
              refine absurd ?_ hevent
              rw [hreassign source target rfl]
              simp [StoreCall.event, hheld, hfree]
    · exact ho.apply ha fun source target heq => hrecovery ⟨source, target, heq⟩

/-! ## Runs that have not claimed the job -/

/-- Whether a run has neither claimed the job nor anything to take it away with. -/
structure JobRun.Unarmed (id : JobId) (r : JobRun η) (c : Cluster η ω) : Prop where
  transaction : ∀ t, c.transaction? r.tx = some t → ∀ x ∈ t.synchronizers, ¬ x.callback.Drops id
  callbacks : ∀ callback ∈ r.stage.callbacks, ¬ callback.Drops id
  unclaimed : r.stage.hasClaimed = false

namespace JobRun.Unarmed

variable {app : Application η ω} {id : JobId} {r : JobRun η} {c d : Cluster η ω}

/-- A run that has claimed nothing does not have its handler at work. -/
theorem ne_handling (h : r.Unarmed id c) : r.stage ≠ .handling := by
  intro hstage
  have hnone := h.unclaimed
  rw [hstage] at hnone
  cases hnone

/-- A run stays unarmed, whatever happens to other transactions. -/
theorem beside {tx : TxId} (h : r.Unarmed id c) (hbeside : c.Beside tx d) (hne : r.tx ≠ tx) :
    r.Unarmed id d where
  transaction t ht := h.transaction t (by rwa [← hbeside.others r.tx hne])
  callbacks := h.callbacks
  unclaimed := h.unclaimed

/-- The callbacks of a transaction that drops nothing drop nothing. -/
theorem mem_callbacks {t : Transaction (Callback η)} {phase : Phase} {callback : Callback η}
    (h : ∀ x ∈ t.synchronizers, ¬ x.callback.Drops id) (hmem : callback ∈ t.callbacks phase) :
    ¬ callback.Drops id := by
  obtain ⟨x, hx, _, rfl⟩ := Transaction.mem_callbacks_iff.mp hmem
  exact h x hx

/-- A run that has not claimed the job claims it, or has nothing to take it away with after its next
step either. -/
theorem outcome {run : Nat} {stage : JobStage η} {event : JobEvent} (h : r.Unarmed id c)
    (hnext : Outcome id run app r c stage d event) :
    event = .claimed run ∨ (r.moveTo stage).Unarmed id d ∧
      ∀ i, event ≠ .released i ∧ event ≠ .dropped i := by
  have hquiet : ∀ i, JobEvent.quiet ≠ .released i ∧ JobEvent.quiet ≠ .dropped i :=
    fun _ => ⟨JobEvent.noConfusion, JobEvent.noConfusion⟩
  have hcallbacks := h.callbacks
  have herased : ∀ x, (c.transactions.erase r.tx).get? r.tx ≠ some x := by simp
  have htransaction : ∀ phase callback x,
      (c.carryOut app r.thread phase callback).transaction? r.tx = some x →
        c.transaction? r.tx = some x := by
    intro phase callback x hx
    rwa [Cluster.transaction?, (c.carryOut_frame app r.thread phase callback).1] at hx
  cases hnext with
  | claimed _ _ => exact .inl rfl
  | handled hr | released hr _ =>
      have hnone := h.unclaimed
      rw [hr] at hnone
      cases hnone
  | failing _ | ended _ =>
      exact .inr ⟨⟨h.transaction, fun _ hmem => absurd hmem List.not_mem_nil, rfl⟩, hquiet⟩
  | prepared _ ht =>
      refine .inr ⟨⟨fun x hx => absurd hx (herased x), fun callback hmem => ?_, rfl⟩, hquiet⟩
      rcases List.mem_append.mp hmem with hmem | hmem
      · obtain ⟨x, hx, rfl⟩ := List.mem_map.mp hmem
        exact h.transaction _ ht x hx
      · exact mem_callbacks (h.transaction _ ht) hmem
  | withdrawn _ _ ht =>
      exact .inr ⟨⟨fun x hx => absurd hx (herased x),
        fun _ => mem_callbacks (h.transaction _ ht), rfl⟩, hquiet⟩
  | committed _ hr | refused _ hr =>
      rw [hr] at hcallbacks
      refine .inr ⟨⟨h.transaction, fun callback hmem => ?_, rfl⟩, fun _ => ?_⟩
      · refine mem_callbacks (fun x hx => hcallbacks x.callback ?_) hmem
        exact List.mem_append_left _ (List.mem_map_of_mem hx)
      · exact ⟨JobEvent.noConfusion, JobEvent.noConfusion⟩
  | before callback hr =>
      rw [hr] at hcallbacks
      have hdrops : ¬ callback.Drops id :=
        hcallbacks callback (List.mem_append_right _ List.mem_cons_self)
      rw [Cluster.carriedOut_of_not_drops hdrops]
      refine .inr ⟨⟨fun x hx => h.transaction x (htransaction _ _ x hx), fun other hmem => ?_, rfl⟩,
        hquiet⟩
      refine hcallbacks other ?_
      rcases List.mem_append.mp hmem with hmem | hmem
      · exact List.mem_append_left _ hmem
      · exact List.mem_append_right _ (List.mem_cons_of_mem _ hmem)
  | after committed callback hr =>
      rw [hr] at hcallbacks
      rw [Cluster.carriedOut_of_not_drops (hcallbacks callback List.mem_cons_self)]
      refine .inr ⟨⟨fun x hx => h.transaction x (htransaction _ _ x hx), fun other hmem => ?_, rfl⟩,
        hquiet⟩
      exact hcallbacks other (List.mem_cons_of_mem _ hmem)

end JobRun.Unarmed

/-! ## Claims that no recovery has reset -/

namespace JobRun.Outcome

variable {app : Application η ω} {id : JobId} {run : Nat} {r : JobRun η} {c d : Cluster η ω}
  {stage : JobStage η} {event : JobEvent}

/-- Only a claim puts a handler to work. -/
theorem claimed_of_handling (h : Outcome id run app r c stage d event)
    (hstage : stage = .handling) : event = .claimed run := by
  cases h with
  | claimed _ _ => rfl
  | handled _ | released _ _ | failing _ | prepared _ _ | withdrawn _ _ _ | committed _ _
  | refused _ _ | before _ _ | after _ _ _ | ended _ => cases hstage

/-- What a step says to be a claim is one. -/
theorem claim_of_claimed (h : Outcome id run app r c stage d event)
    (hevent : event = .claimed run) :
    ∃ held jobs, c.jobs.claim id (c.nodeId r.node) = .ok (held, jobs) := by
  cases h with
  | claimed _ hclaim => exact ⟨_, _, hclaim⟩
  | before callback _ =>
      exact absurd hevent ((c.carryOut_heldBy? app r.thread .before callback id run default).2 run)
  | after committed callback _ =>
      exact absurd hevent
        ((c.carryOut_heldBy? app r.thread (.after committed) callback id run default).2 run)
  | handled _ | released _ _ | failing _ | prepared _ _ | withdrawn _ _ _ | committed _ _
  | refused _ _ | ended _ => cases hevent

/-- No step of a run resets a claim. -/
theorem ne_reset (h : Outcome id run app r c stage d event) : event ≠ .reset := by
  cases h with
  | before _ _ | after _ _ _ => exact Cluster.carriedOut_ne_reset
  | claimed _ _ | handled _ | released _ _ | failing _ | prepared _ _ | withdrawn _ _ _
  | committed _ _ | refused _ _ | ended _ => exact JobEvent.noConfusion

end JobRun.Outcome

/-- A step that claims the job has the store agree. -/
theorem Overlap.Step.claim_of_claimed {app : Application η ω} {id : JobId} {o p : Overlap η ω}
    {event : JobEvent} {run : Nat} (h : Step app id o event p) (hevent : event = .claimed run) :
    ∃ node held jobs, o.cluster.jobs.claim id node = .ok (held, jobs) := by
  cases h with
  | begin _ | around _ => cases hevent
  | advance i answer =>
      unfold Overlap.advance at hevent
      cases hr : o.runs[i]? with
      | none =>
          rw [hr] at hevent
          cases hevent
      | some r =>
          rw [hr] at hevent
          have hnext := JobRun.outcome_advance id i answer app r o.cluster
          obtain rfl := hnext.heldBy?.2 run hevent
          exact ⟨_, hnext.claim_of_claimed hevent⟩
  | call a ha => exact absurd hevent ((StoreCall.heldBy?_event ha default).2 run)

/-- A call on the store cancels the job, resets a claim, or means nothing to the job. -/
theorem StoreCall.event_cases (a : StoreCall) (id : JobId) (s : JobStore) :
    a.event id s = .quiet ∨ a.event id s = .cancelled ∨ a.event id s = .reset := by
  cases a with
  | cancel j =>
      simp only [event]
      split
      · split
        · exact .inr (.inl rfl)
        · exact .inl rfl
      · exact .inl rfl
  | stage _ | publish _ | discard _ | claim _ _ | finish _ _ _ | upgrade _ _ | reassign _ _
  | setAvailable _ =>
      simp only [event]
      split
      · exact .inr (.inr rfl)
      · exact .inl rfl

/-- What holds of the runs of a job after a history in which no claim was reset. -/
structure Undisturbed (id : JobId) (events : List JobEvent) (o : Overlap η ω) : Prop where
  /-- A job that was claimed is claimed still, or gone. -/
  taken : ∀ i, .claimed i ∈ events → o.cluster.jobs.Taken id
  /-- One run at most has claimed the job. -/
  sole : ∀ i j, .claimed i ∈ events → .claimed j ∈ events → i = j
  /-- The others cannot take it away. -/
  unarmed : ∀ i r, o.runs[i]? = some r → .claimed i ∉ events → r.Unarmed id o.cluster
  /-- A call in progress belongs to the claim in force. -/
  holding : ∀ i r, o.runs[i]? = some r → r.stage = .handling → JobEvent.holder events = some i

/-- Two runs have different transactions. -/
theorem Fenced.tx_ne {id : JobId} {events : List JobEvent} {o : Overlap η ω}
    (h : Fenced id events o) {i j : Nat} {r s : JobRun η} (hs : o.runs[j]? = some s)
    (hr : o.runs[i]? = some r) (hne : j ≠ i) : s.tx ≠ r.tx := by
  obtain ⟨hj, rfl⟩ := List.getElem?_eq_some_iff.mp hs
  obtain ⟨hi, rfl⟩ := List.getElem?_eq_some_iff.mp hr
  have hdistinct := List.pairwise_iff_getElem.mp h.distinct
  rcases Nat.lt_or_gt_of_ne hne with hlt | hlt
  · exact hdistinct j i hj hi hlt
  · exact (hdistinct i j hi hj hlt).symm

namespace Undisturbed

variable {app : Application η ω} {id : JobId} {events : List JobEvent} {event : JobEvent}
  {o p : Overlap η ω}

/-- Nothing has happened to a job before its first run. -/
theorem start (c : Cluster η ω) : Undisturbed id [] (Overlap.mk c []) where
  taken _ h := nomatch h
  sole _ _ h := nomatch h
  unarmed _ _ h := nomatch h
  holding _ _ h := nomatch h

/-- A run whose handler is at work has claimed the job. -/
theorem claimed_of_handling (h : Undisturbed id events o) {i : Nat} {r : JobRun η}
    (hr : o.runs[i]? = some r) (hstage : r.stage = .handling) : .claimed i ∈ events := by
  refine Classical.byContradiction fun hclaimed => ?_
  exact (h.unarmed i r hr hclaimed).ne_handling hstage

/-- A step that claims nothing and leaves the calls in progress as they are. -/
theorem keep (h : Undisturbed id events o) (hclaimed : ∀ i, event ≠ .claimed i)
    (htaken : o.cluster.jobs.Taken id → p.cluster.jobs.Taken id)
    (hunarmed : ∀ i r, p.runs[i]? = some r → .claimed i ∉ events → r.Unarmed id p.cluster)
    (hholding : ∀ i r, p.runs[i]? = some r → r.stage = JobStage.handling →
      o.runs[i]? = some r ∧ event.nextHolder (some i) = some i) :
    Undisturbed id (events ++ [event]) p := by
  have hmem : ∀ i, .claimed i ∈ events ++ [event] ↔ .claimed i ∈ events := by
    intro i
    have hne : JobEvent.claimed i ≠ event := (hclaimed i).symm
    simp [hne]
  refine ⟨fun i hi => ?_, fun i j hi hj => ?_, fun i r hr hi => ?_, fun i r hr hstage => ?_⟩
  · exact htaken (h.taken i ((hmem i).mp hi))
  · exact h.sole i j ((hmem i).mp hi) ((hmem j).mp hj)
  · exact hunarmed i r hr fun hclaim => hi ((hmem i).mpr hclaim)
  · obtain ⟨hbefore, hkept⟩ := hholding i r hr hstage
    rw [JobEvent.holder_append, h.holding i r hbefore hstage, hkept]

/-- A run that begins has claimed nothing, and cannot take the job away. -/
theorem begin {n : NodeName} {thread : Thread} {tx : TxId} {d : Cluster η ω}
    (h : Undisturbed id events o) (hfenced : Fenced id events o) (hbegun : o.cluster.Begun tx d) :
    Undisturbed id (events ++ [.quiet]) ⟨d, o.runs ++ [{ node := n, thread, tx }]⟩ := by
  obtain ⟨t, hempty, hopen⟩ := hbegun.transaction
  -- A run is one of those before, or the one that has just begun.
  have hruns : ∀ (i : Nat) (r : JobRun η), (o.runs ++ [{ node := n, thread, tx }])[i]? = some r →
      o.runs[i]? = some r ∨ r = { node := n, thread, tx } := by
    intro i r hr
    rw [List.getElem?_append] at hr
    split at hr
    · exact .inl hr
    · rw [List.getElem?_singleton] at hr
      split at hr
      · exact .inr (Option.some.inj hr).symm
      · cases hr
  refine h.keep (fun _ => JobEvent.noConfusion) (fun htaken => hbegun.jobs ▸ htaken)
    (fun i r hr hi => ?_) (fun i r hr hstage => ?_)
  · rcases hruns i r hr with hr | rfl
    · have hne : r.tx ≠ tx := by
        intro heq
        have hfresh := hfenced.fresh r (List.mem_of_getElem? hr)
        rw [heq, hbegun.number] at hfresh
        exact Nat.lt_irrefl _ hfresh
      have hold := h.unarmed i r hr hi
      refine ⟨fun x hx => hold.transaction x ?_, hold.callbacks, hold.unclaimed⟩
      rwa [hopen, if_neg hne] at hx
    · refine ⟨fun x hx => ?_, fun _ hmem => absurd hmem List.not_mem_nil, rfl⟩
      rw [hopen, if_pos rfl] at hx
      cases hx
      rw [hempty]
      exact fun _ hmem => absurd hmem List.not_mem_nil
  · rcases hruns i r hr with hr | rfl
    · exact ⟨hr, rfl⟩
    · cases hstage

/-- A run that claims the job is the first to do so. -/
theorem claim {i : Nat} {r : JobRun η} {stage : JobStage η} {d : Cluster η ω}
    (h : Undisturbed id events o) (hfenced : Fenced id events o) (hr : o.runs[i]? = some r)
    (hnext : JobRun.Outcome id i app r o.cluster stage d event) (hevent : event = .claimed i) :
    Undisturbed id (events ++ [event]) ⟨d, o.runs.set i (r.moveTo stage)⟩ := by
  have hfirst : ∀ j, .claimed j ∉ events := by
    intro j hj
    obtain ⟨_, _, hclaim⟩ := hnext.claim_of_claimed hevent
    exact (h.taken j hj).not_claim hclaim
  have hheld := hnext.heldBy?.1
  subst hevent
  have hmem : ∀ j, .claimed j ∈ events ++ [.claimed i] → j = i := by
    intro j hj
    rcases List.mem_append.mp hj with hj | hj
    · exact absurd hj (hfirst j)
    · cases List.mem_singleton.mp hj
      rfl
  have hothers : ∀ j s, (o.runs.set i (r.moveTo stage))[j]? = some s → j ≠ i →
      s.Unarmed id d := by
    intro j s hs hne
    rw [List.getElem?_set_ne (Ne.symm hne)] at hs
    exact (h.unarmed j s hs (hfirst j)).beside hnext.beside (hfenced.tx_ne hs hr hne)
  refine ⟨fun j _ => .of_heldBy? hheld, fun j k hj hk => (hmem j hj).trans (hmem k hk).symm,
    fun j s hs hj => hothers j s hs fun heq => hj ?_, fun j s hs hstage => ?_⟩
  · rw [heq]
    exact List.mem_append_right _ (List.mem_singleton_self _)
  · rw [JobEvent.holder_append]
    by_cases hj : j = i
    · rw [hj]
      rfl
    · exact absurd hstage (hothers j s hs hj).ne_handling

/-- A run that takes another step leaves the calls of the others in progress. -/
theorem outcome {i : Nat} {r : JobRun η} {stage : JobStage η} {d : Cluster η ω}
    (h : Undisturbed id events o) (hfenced : Fenced id events o) (hr : o.runs[i]? = some r)
    (hnext : JobRun.Outcome id i app r o.cluster stage d event) (hevent : event ≠ .claimed i)
    (htaken : o.cluster.jobs.Taken id → d.jobs.Taken id) :
    Undisturbed id (events ++ [event]) ⟨d, o.runs.set i (r.moveTo stage)⟩ := by
  have hlt := (List.getElem?_eq_some_iff.mp hr).1
  have hstage : stage ≠ .handling := fun hhandling => hevent (hnext.claimed_of_handling hhandling)
  refine h.keep (fun j hj => hevent (hnext.heldBy?.2 j hj ▸ hj)) htaken (fun j s hs hj => ?_)
    (fun j s hs hhandling => ?_)
  · by_cases hji : j = i
    · subst hji
      rw [List.getElem?_set_self hlt] at hs
      cases hs
      exact ((h.unarmed j r hr hj).outcome hnext).resolve_left hevent |>.1
    · rw [List.getElem?_set_ne (Ne.symm hji)] at hs
      exact (h.unarmed j s hs hj).beside hnext.beside (hfenced.tx_ne hs hr hji)
  · by_cases hji : j = i
    · subst hji
      rw [List.getElem?_set_self hlt] at hs
      cases hs
      exact absurd hhandling hstage
    · rw [List.getElem?_set_ne (Ne.symm hji)] at hs
      refine ⟨hs, ?_⟩
      -- Only the run that has claimed the job can take it away, and that is the other one.
      have hunarmed : .claimed i ∉ events := fun hi =>
        hji (h.sole j i (h.claimed_of_handling hs hhandling) hi)
      obtain ⟨_, hkept⟩ := ((h.unarmed i r hr hunarmed).outcome hnext).resolve_left hevent
      cases event with
      | released k => exact absurd rfl (hkept k).1
      | dropped k => exact absurd rfl (hkept k).2
      | claimed k => exact absurd (hnext.heldBy?.2 k rfl ▸ rfl) hevent
      | reset => exact absurd rfl hnext.ne_reset
      | committed _ | cancelled | quiet => rfl

/-- A call that resets no claim leaves a job that was taken as it is, or takes it out. -/
theorem call {a : StoreCall} (h : Undisturbed id events o) (ha : a.Bystanding id)
    (hevent : a.event id o.cluster.jobs ≠ .reset)
    (htaken : o.cluster.jobs.Taken id → (a.apply o.cluster.jobs).Taken id) :
    Undisturbed id (events ++ [a.event id o.cluster.jobs])
      { o with cluster := { o.cluster with jobs := a.apply o.cluster.jobs } } := by
  obtain ⟨_, hclaimed⟩ := StoreCall.heldBy?_event (s := o.cluster.jobs) ha default
  refine h.keep hclaimed htaken (fun i r hr hi => ?_) (fun i r hr _ => ⟨hr, ?_⟩)
  · exact ⟨(h.unarmed i r hr hi).transaction, (h.unarmed i r hr hi).callbacks,
      (h.unarmed i r hr hi).unclaimed⟩
  · rcases a.event_cases id o.cluster.jobs with hquiet | hcancelled | hreset
    · rw [hquiet]
      rfl
    · rw [hcancelled]
      rfl
    · exact absurd hreset hevent

/-- What happens around a job takes no claim of it away. -/
theorem around {d : Cluster η ω} (h : Undisturbed id events o) (hd : o.cluster.Around id d) :
    Undisturbed id (events ++ [.quiet]) { o with cluster := d } := by
  refine h.keep (fun _ => JobEvent.noConfusion) (fun htaken => hd.jobs ▸ htaken)
    (fun i r hr hi => ?_) (fun i r hr _ => ⟨hr, rfl⟩)
  have hold := h.unarmed i r hr hi
  refine ⟨fun t ht x hx hdrops => ?_, hold.callbacks, hold.unclaimed⟩
  obtain ⟨t', ht', hx'⟩ := hd.drops r.tx t ht x hx hdrops
  exact hold.transaction t' ht' x hx' hdrops

/-- Every step that resets no claim leaves the calls in progress to the claim in force. -/
theorem step (h : Undisturbed id events o) (hfenced : Fenced id events o)
    (hstep : Overlap.Step app id o event p) (hevent : event ≠ .reset) :
    Undisturbed id (events ++ [event]) p := by
  have htaken := hstep.taken hevent
  cases hstep with
  | begin hbegin => exact h.begin hfenced (Cluster.begin_eq_ok hbegin)
  | advance i answer =>
      unfold Overlap.advance at htaken hevent ⊢
      cases hr : o.runs[i]? with
      | none => exact h.around (.refl id o.cluster)
      | some r =>
          rw [hr] at htaken hevent
          have hnext := JobRun.outcome_advance id i answer app r o.cluster
          by_cases hclaimed : (r.advance app id i answer o.cluster).2.2 = .claimed i
          · exact h.claim hfenced hr hnext hclaimed
          · exact h.outcome hfenced hr hnext hclaimed htaken
  | call a ha => exact h.call ha hevent htaken
  | around hd => exact h.around hd

end Undisturbed

namespace Overlap

variable {app : Application η ω} {id : JobId} {events : List JobEvent} {c : Cluster η ω}
  {o : Overlap η ω}

/-- After a history in which no claim was reset, the calls in progress belong to the claim in
force. -/
theorem Steps.undisturbed (hc : c.jobs.heldBy? id = none) (h : Steps app id ⟨c, []⟩ events o)
    (hreset : .reset ∉ events) : Undisturbed id events o := by
  induction h with
  | refl => exact .start c
  | tail init last ih =>
      have hbefore := fun hmem => hreset (List.mem_append_left _ hmem)
      have hlast := fun heq => hreset (List.mem_append_right _ (List.mem_singleton.mpr heq))
      exact (ih hbefore).step (init.fenced hc) last fun heq => hlast heq.symm

/-- A call that has outlived the claim of its run: the handler is at work, and the claim is in force
no longer. -/
def HasStray (o : Overlap η ω) (events : List JobEvent) : Prop :=
  ∃ i r, o.runs[i]? = some r ∧ r.stage = .handling ∧ JobEvent.holder events ≠ some i

/-- No call outlives its claim but by a recovery. -/
theorem Steps.reset_mem_of_hasStray (hc : c.jobs.heldBy? id = none)
    (h : Steps app id ⟨c, []⟩ events o) (hstray : o.HasStray events) : .reset ∈ events := by
  by_cases hreset : .reset ∈ events
  · exact hreset
  · obtain ⟨i, r, hr, hstage, hlost⟩ := hstray
    exact absurd ((h.undisturbed hc hreset).holding i r hr hstage) hlost

end Overlap

end JobCluster
