import JobCluster.Proofs.Job.Interleaving
/-!
# The claim in force

Of the runs that have claimed a job, one at most has its claim in force: the one that claimed last,
if no recovery has reset the claim since. The job store knows it by its node alone.

Main results:

- `Fenced`: how the store and the runs agree on the claim in force;
- `Fenced.step`, `Overlap.Steps.fenced`: they agree after every step, and so after every history.
-/

namespace JobCluster

variable {η ω : Type}

/-! ## The claim in force -/

/-- The run whose claim is in force after a step, by the one before it. -/
def JobEvent.nextHolder (holder : Option Nat) : JobEvent → Option Nat
  | .claimed run => some run
  | .reset | .released _ | .dropped _ => none
  | .committed _ | .cancelled | .quiet => holder

/-- The run whose claim is in force after a history. -/
def JobEvent.holder (events : List JobEvent) : Option Nat :=
  events.foldl JobEvent.nextHolder none

@[simp]
theorem JobEvent.holder_append (events : List JobEvent) (event : JobEvent) :
    holder (events ++ [event]) = event.nextHolder (holder events) := by
  simp [holder, nextHolder]

/-- Whether a job is in the store but not staged. Once it is, it never is staged again. -/
def JobStore.Published (s : JobStore) (id : JobId) : Prop :=
  ∀ r, s.find? id = some r → r.state ≠ .staged

/-- Whether a run has claimed the job and not yet tried to take it out. -/
def JobStage.hasClaimed : JobStage η → Bool
  | .handling | .handled => true
  | .opened | .released | .failing _ | .preparing _ _ | .concluding _ _ _ | .ended _ => false

/-- Callbacks that drop the job on behalf of no node but the given one. -/
def DropsFor (n : NodeName) (id : JobId) (callbacks : List (Callback η)) : Prop :=
  ∀ callback ∈ callbacks, callback.Drops id → ∃ armed, callback = .drop n id armed

/-- The callbacks that a run has at hand. -/
def JobStage.callbacks : JobStage η → List (Callback η)
  | .preparing t rest => t.synchronizers.map Synchronizer.callback ++ rest
  | .concluding _ rest _ => rest
  | .opened | .handling | .handled | .released | .failing _ | .ended _ => []

/-- A run drops the job on behalf of its own node only. -/
structure JobRun.OwnDrops (id : JobId) (r : JobRun η) (c : Cluster η ω) : Prop where
  transaction : ∀ t, c.transaction? r.tx = some t →
    DropsFor r.node id (t.synchronizers.map Synchronizer.callback)
  stage : DropsFor r.node id r.stage.callbacks

/-- The nodes of the runs, as the job store knows them. -/
def Overlap.nodeIds (o : Overlap η ω) : List NodeId :=
  o.runs.map fun r => o.cluster.nodeId r.node

/-- What holds of a cluster and the runs of a job after a history that began without runs. -/
structure Fenced (id : JobId) (events : List JobEvent) (o : Overlap η ω) : Prop where
  /-- The store names the node of the run whose claim is in force. -/
  held : o.cluster.jobs.heldBy? id = (JobEvent.holder events).bind fun i => o.nodeIds[i]?
  /-- The run whose claim is in force has begun. -/
  begun : ∀ i, JobEvent.holder events = some i → i < o.runs.length
  /-- A run claims a job after that was published. -/
  published : ∀ r ∈ o.runs, r.stage.hasClaimed = true → o.cluster.jobs.Published id
  /-- Each run has a transaction of its own. -/
  fresh : ∀ r ∈ o.runs, r.tx.serial < o.cluster.nextTx
  distinct : o.runs.Pairwise fun r s => r.tx ≠ s.tx
  own : ∀ r ∈ o.runs, r.OwnDrops id o.cluster

/-! ## Published jobs -/

/-- No call stages a job again that was published. -/
theorem StoreCall.Revises.unstaged {a : StoreCall} {x r : JobRecord} (h : a.Revises x r)
    (hx : x.state ≠ .staged) : r.state ≠ .staged := by
  cases h with
  | kept | assigned => exact hx
  | published | claimed => exact JobState.noConfusion
  | reassigned =>
      simp only
      split
      · exact JobState.noConfusion
      · exact hx

namespace JobStore

/-- A job that is not stored counts as published, as it is not staged. -/
theorem Published.of_eq_none {s : JobStore} {id : JobId} (h : s.find? id = none) :
    s.Published id := by
  intro r hr
  rw [h] at hr
  cases hr

/-- A job that was published is not staged again. -/
theorem Published.apply {s : JobStore} {id : JobId} {a : StoreCall} (h : s.Published id)
    (ha : a.stages id = false) : (a.apply s).Published id := by
  intro r hr
  obtain ⟨x, hx, hrevises⟩ := StoreCall.revises_of_find?_apply ha hr
  exact hrevises.unstaged (h x hx)

/-- A claim is a proof that the job was published. -/
theorem published_claim {s t : JobStore} {id : JobId} {node : NodeId} {held : JobRecord}
    (h : s.claim id node = .ok (held, t)) : t.Published id := by
  obtain ⟨_, r, _, _, rfl, rfl⟩ := (claim_eq_ok_iff s t id node held).mp h
  intro x hx
  simp only [find?_insert, if_true, Option.some.injEq] at hx
  subst hx
  exact JobState.noConfusion

/-- The store turns away a node that does not hold a published job, and takes the job out for the
node that does. -/
theorem finish_eq {s : JobStore} {id : JobId} {node : NodeId} {outcome : JobOutcome}
    (h : s.Published id) (ha : s.available = true) :
    s.finish id node outcome =
      if s.heldBy? id = some node then .ok ((s.remove id).count outcome)
      else .error (.noLongerStored id) := by
  rw [finish, guarded, if_pos ha]
  cases hr : s.find? id with
  | none => simp [heldBy?, hr]
  | some r =>
      have hstaged := h r hr
      by_cases hc : r.state = .claimed node
      · simp [heldBy?, hr, hc, JobState.holder?]
      · have hne : r.state.holder? ≠ some node := by
          rwa [ne_eq, JobState.holder?_eq_some]
        simp [heldBy?, hr, hc, hstaged, hne]

end JobStore

/-! ## Callbacks that drop the job -/

namespace DropsFor

variable {n : NodeName} {id : JobId}

theorem nil : DropsFor n id ([] : List (Callback η)) :=
  fun _ h => absurd h List.not_mem_nil

/-- Callbacks one after another drop the job for the node alone if each list does. -/
theorem append {xs ys : List (Callback η)} (hx : DropsFor n id xs) (hy : DropsFor n id ys) :
    DropsFor n id (xs ++ ys) := by
  intro callback hmem
  rcases List.mem_append.mp hmem with hmem | hmem
  · exact hx callback hmem
  · exact hy callback hmem

/-- Fewer callbacks drop no more. -/
theorem mono {xs ys : List (Callback η)} (h : DropsFor n id ys) (hsub : ∀ x ∈ xs, x ∈ ys) :
    DropsFor n id xs :=
  fun callback hmem => h callback (hsub callback hmem)

/-- The callbacks of a round are among those of the transaction. -/
theorem callbacks {t : Transaction (Callback η)}
    (h : DropsFor n id (t.synchronizers.map Synchronizer.callback)) (phase : Phase) :
    DropsFor n id (t.callbacks phase) := by
  refine h.mono fun callback hmem => ?_
  obtain ⟨x, hx, _, rfl⟩ := Transaction.mem_callbacks_iff.mp hmem
  exact List.mem_map_of_mem hx

/-- A callback that is disarmed drops for the node that it dropped for. -/
theorem disarm {callbacks : List (Callback η)} (h : DropsFor n id callbacks) (j : JobId) :
    DropsFor n id (callbacks.map (Cluster.disarm j)) := by
  intro callback hmem hdrops
  obtain ⟨x, hx, rfl⟩ := List.mem_map.mp hmem
  cases x with
  | drop m i armed =>
      obtain ⟨_, heq⟩ := h _ hx hdrops
      cases heq
      exact ⟨_, rfl⟩
  | publish _ _ | queue _ _ | applyWrites _ | withdraw _ _ | custom _ => exact hdrops.elim

end DropsFor

namespace JobRun

variable {id : JobId}

/-- A run drops the job for its own node, whatever happens to other transactions. -/
theorem OwnDrops.beside {r : JobRun η} {c d : Cluster η ω} {tx : TxId} (h : r.OwnDrops id c)
    (hbeside : c.Beside tx d) (hne : r.tx ≠ tx) : r.OwnDrops id d where
  transaction t ht := h.transaction t (by rwa [← hbeside.others r.tx hne])
  stage := h.stage

/-- A run that changes its stage alone. -/
theorem OwnDrops.moveTo {r : JobRun η} {c d : Cluster η ω} {stage : JobStage η}
    (h : r.OwnDrops id c)
    (htransaction : ∀ t, d.transaction? r.tx = some t → c.transaction? r.tx = some t)
    (hstage : DropsFor r.node id stage.callbacks) : (r.moveTo stage).OwnDrops id d where
  transaction t ht := h.transaction t (htransaction t ht)
  stage := hstage

/-- A run goes on to drop the job for its own node only. -/
theorem OwnDrops.outcome {app : Application η ω} {r : JobRun η} {c d : Cluster η ω} {run : Nat}
    {stage : JobStage η} {event : JobEvent} (h : r.OwnDrops id c)
    (hnext : Outcome id run app r c stage d event) : (r.moveTo stage).OwnDrops id d := by
  have hstage := h.stage
  have herased : ∀ x, (c.transactions.erase r.tx).get? r.tx = some x →
      c.transaction? r.tx = some x := by simp
  cases hnext with
  | claimed _ _ =>
      refine ⟨fun t ht => ?_, .nil⟩
      rw [tx_moveTo, Cluster.transaction?_register, if_pos rfl] at ht
      obtain ⟨t', ht', rfl⟩ := Option.map_eq_some_iff.mp ht
      simp only [Transaction.register, List.map_append, List.map_cons, List.map_nil]
      refine (h.transaction t' ht').append fun callback hmem _ => ⟨true, ?_⟩
      exact List.mem_singleton.mp hmem
  | released _ _ =>
      refine ⟨fun t ht => ?_, .nil⟩
      rw [tx_moveTo, Cluster.transaction?_modifyTransaction, if_pos rfl] at ht
      obtain ⟨t', ht', rfl⟩ := Option.map_eq_some_iff.mp ht
      have hdisarmed := (h.transaction t' ht').disarm id
      simpa [Transaction.mapCallbacks, Function.comp_def] using hdisarmed
  | prepared _ ht =>
      exact h.moveTo herased ((h.transaction _ ht).append ((h.transaction _ ht).callbacks _))
  | withdrawn _ _ ht => exact h.moveTo herased ((h.transaction _ ht).callbacks _)
  | committed _ hr | refused _ hr =>
      rw [hr] at hstage
      have ht := hstage.mono fun callback hmem => List.mem_append_left _ hmem
      exact h.moveTo (fun _ hx => hx) (ht.callbacks _)
  | before callback hr =>
      rw [hr] at hstage
      obtain ⟨htransactions, _, _⟩ := c.carryOut_frame app r.thread .before callback
      refine h.moveTo (fun x hx => ?_) (hstage.mono fun y hmem => ?_)
      · rwa [Cluster.transaction?, htransactions] at hx
      · rcases List.mem_append.mp hmem with hmem | hmem
        · exact List.mem_append_left _ hmem
        · exact List.mem_append_right _ (List.mem_cons_of_mem _ hmem)
  | after committed callback hr =>
      rw [hr] at hstage
      obtain ⟨htransactions, _, _⟩ := c.carryOut_frame app r.thread (.after committed) callback
      refine h.moveTo (fun x hx => ?_) (hstage.mono fun y hmem => List.mem_cons_of_mem _ hmem)
      rwa [Cluster.transaction?, htransactions] at hx
  | handled _ | failing _ | ended _ => exact h.moveTo (fun _ ht => ht) .nil

end JobRun

/-! ## The node that holds the job -/

/-- The node that holds the job after a step of a run on a node, by the one before it. -/
def JobEvent.nextNode (node : NodeId) (held : Option NodeId) : JobEvent → Option NodeId
  | .claimed _ => some node
  | .reset | .released _ | .dropped _ => none
  | .committed _ | .cancelled | .quiet => held

/-- Nobody holds a job that is not stored. -/
theorem JobStore.heldBy?_of_eq_none {s : JobStore} {id : JobId} (h : s.find? id = none) :
    s.heldBy? id = none := by
  simp [heldBy?, h]

/-- A call that is no step of a run resets a claim, or leaves the holder alone. -/
theorem StoreCall.heldBy?_event {s : JobStore} {a : StoreCall} {id : JobId}
    (ha : a.Bystanding id) (node : NodeId) :
    (a.apply s).heldBy? id = (a.event id s).nextNode node (s.heldBy? id) ∧
      ∀ run, a.event id s ≠ .claimed run := by
  rcases heldBy?_apply (s := s) ha with hsame | ⟨source, target, rfl, hheld, r, hr, hpending⟩
  · cases a with
    | cancel j =>
        rw [hsame]
        simp only [event]
        split
        · split <;> exact ⟨rfl, fun _ => JobEvent.noConfusion⟩
        · exact ⟨rfl, fun _ => JobEvent.noConfusion⟩
    | stage x | publish j | discard j | claim j node | finish j node outcome
    | upgrade maxDue nodes | reassign source target | setAvailable b =>
        simp only [event, hsame]
        cases s.heldBy? id <;> exact ⟨rfl, fun _ => JobEvent.noConfusion⟩
  · have hreset : ((reassign source target).apply s).heldBy? id = none := by
      simp [JobStore.heldBy?, hr, hpending, JobState.holder?]
    simp only [event, hheld, hreset]
    exact ⟨rfl, fun _ => JobEvent.noConfusion⟩

namespace Cluster

/-- A callback that drops the job leaves nobody to hold it, and the others leave the holder
alone. -/
theorem carryOut_heldBy? (app : Application η ω) (thread : Thread) (phase : Phase)
    (c : Cluster η ω) (callback : Callback η) (id : JobId) (run : Nat) (node : NodeId) :
    (c.carryOut app thread phase callback).jobs.heldBy? id =
        (carriedOut id run c.jobs (c.carryOut app thread phase callback).jobs callback).nextNode
          node (c.jobs.heldBy? id) ∧
      ∀ i, carriedOut id run c.jobs (c.carryOut app thread phase callback).jobs callback ≠
        .claimed i := by
  rcases c.carryOut_cases app thread phase callback id run with
    ⟨n, jobs, _, hfinish, hjobs, hevent⟩ | ⟨hevent, hjobs | ⟨a, ha, hne, hjobs⟩⟩
  · rw [hevent, hjobs]
    refine ⟨?_, fun _ => JobEvent.noConfusion⟩
    exact JobStore.heldBy?_of_eq_none (StoreCall.heldBy?_finish hfinish).2
  · rw [hevent, hjobs]
    exact ⟨rfl, fun _ => JobEvent.noConfusion⟩
  · rw [hevent, hjobs]
    refine ⟨?_, fun _ => JobEvent.noConfusion⟩
    rcases StoreCall.heldBy?_apply (s := c.jobs) ha with hsame | ⟨source, target, heq, _⟩
    · exact hsame
    · exact absurd heq (hne source target)

/-- A callback does not stage a job. -/
theorem carryOut_published {app : Application η ω} {thread : Thread} {phase : Phase}
    {c : Cluster η ω} {callback : Callback η} {id : JobId} (h : c.jobs.Published id) :
    (c.carryOut app thread phase callback).jobs.Published id := by
  rcases c.carryOut_cases app thread phase callback id 0 with
    ⟨n, jobs, _, hfinish, hjobs, _⟩ | ⟨_, hjobs | ⟨a, ha, _, hjobs⟩⟩
  · rw [hjobs]
    exact .of_eq_none (StoreCall.heldBy?_finish hfinish).2
  · rwa [hjobs]
  · rw [hjobs]
    exact h.apply ha.stages_eq_false

end Cluster

namespace JobRun.Outcome

variable {app : Application η ω} {r : JobRun η} {c d : Cluster η ω} {id : JobId} {run : Nat}
  {stage : JobStage η} {event : JobEvent}

/-- The run that claims the job makes its node the holder, and whoever takes the job out leaves
nobody to hold it. -/
theorem heldBy? (h : Outcome id run app r c stage d event) :
    d.jobs.heldBy? id = event.nextNode (c.nodeId r.node) (c.jobs.heldBy? id) ∧
      ∀ i, event = .claimed i → i = run := by
  cases h with
  | claimed _ hclaim =>
      refine ⟨(StoreCall.heldBy?_claim hclaim).2, fun i h => ?_⟩
      cases h
      rfl
  | released _ hfinish =>
      refine ⟨?_, fun _ => JobEvent.noConfusion⟩
      exact JobStore.heldBy?_of_eq_none (StoreCall.heldBy?_finish hfinish).2
  | before callback _ | after _ callback _ =>
      obtain ⟨hheld, hevent⟩ :=
        c.carryOut_heldBy? app r.thread _ callback id run (c.nodeId r.node)
      exact ⟨hheld, fun i h => absurd h (hevent i)⟩
  | handled _ | failing _ | prepared _ _ | withdrawn _ _ _ | committed _ _ | refused _ _
  | ended _ => exact ⟨rfl, fun _ => JobEvent.noConfusion⟩

/-- No step of a run stages the job. -/
theorem published (h : Outcome id run app r c stage d event) (hc : c.jobs.Published id) :
    d.jobs.Published id := by
  cases h with
  | claimed _ hclaim => exact JobStore.published_claim hclaim
  | released _ hfinish => exact .of_eq_none (StoreCall.heldBy?_finish hfinish).2
  | before _ _ | after _ _ _ => exact Cluster.carryOut_published hc
  | handled _ | failing _ | prepared _ _ | withdrawn _ _ _ | committed _ _ | refused _ _
  | ended _ => exact hc

/-- A run that has claimed the job finds it published. -/
theorem published_of_hasClaimed (h : Outcome id run app r c stage d event)
    (hc : r.stage.hasClaimed = true → c.jobs.Published id) (hstage : stage.hasClaimed = true) :
    d.jobs.Published id := by
  cases h with
  | claimed _ hclaim => exact JobStore.published_claim hclaim
  | handled hr => exact hc (by rw [hr]; rfl)
  | released _ _ | failing _ | prepared _ _ | withdrawn _ _ _ | committed _ _ | refused _ _
  | before _ _ | after _ _ _ | ended _ => cases hstage

end JobRun.Outcome

/-! ## Histories -/

namespace Fenced

variable {app : Application η ω} {id : JobId} {events : List JobEvent} {event : JobEvent}
  {o p : Overlap η ω}

/-- Before any run has begun, nothing has to be fenced but a job that nobody holds. -/
theorem start {c : Cluster η ω} (h : c.jobs.heldBy? id = none) :
    Fenced id [] (Overlap.mk c []) where
  held := h
  begun _ h := nomatch h
  published _ h := nomatch h
  fresh _ h := nomatch h
  distinct := .nil
  own _ h := nomatch h

/-- A run that begins finds the fence as it is. -/
theorem begin {n : NodeName} {thread : Thread} {tx : TxId} {d : Cluster η ω}
    (h : Fenced id events o) (hbegun : o.cluster.Begun tx d) :
    Fenced id (events ++ [.quiet]) ⟨d, o.runs ++ [{ node := n, thread, tx }]⟩ := by
  obtain ⟨htx, hjobs, _, hnext, hnode, _, t, hempty, hopen⟩ := hbegun
  have hold : ∀ r ∈ o.runs, r.tx ≠ tx := by
    intro r hr heq
    have hfresh := h.fresh r hr
    rw [heq, htx] at hfresh
    exact Nat.lt_irrefl _ hfresh
  have hids : (Overlap.mk d (o.runs ++ [{ node := n, thread, tx }])).nodeIds =
      o.nodeIds ++ [o.cluster.nodeId n] := by
    simp [Overlap.nodeIds, hnode]
  have hholder : JobEvent.holder (events ++ [.quiet]) = JobEvent.holder events :=
    JobEvent.holder_append events .quiet
  refine ⟨?_, ?_, ?_, ?_, ?_, ?_⟩
  · rw [hholder, hids, hjobs, h.held]
    cases hi : JobEvent.holder events with
    | none => rfl
    | some i =>
        have hlt : i < o.nodeIds.length := by simpa [Overlap.nodeIds] using h.begun i hi
        simp [List.getElem?_append_left hlt]
  · intro i hi
    have hlt := h.begun i (hholder ▸ hi)
    simp only [List.length_append, List.length_singleton]
    omega
  · intro r hr hclaimed
    rw [hjobs]
    rcases List.mem_append.mp hr with hr | hr
    · exact h.published r hr hclaimed
    · cases List.mem_singleton.mp hr
      cases hclaimed
  · intro r hr
    rw [hnext]
    rcases List.mem_append.mp hr with hr | hr
    · exact Nat.lt_succ_of_lt (h.fresh r hr)
    · cases List.mem_singleton.mp hr
      rw [htx]
      exact Nat.lt_succ_self _
  · refine List.pairwise_append.mpr ⟨h.distinct, List.pairwise_singleton _ _, ?_⟩
    intro r hr s hs
    cases List.mem_singleton.mp hs
    exact hold r hr
  · intro r hr
    rcases List.mem_append.mp hr with hr | hr
    · refine ⟨fun x hx => (h.own r hr).transaction x ?_, (h.own r hr).stage⟩
      rwa [hopen, if_neg (hold r hr)] at hx
    · cases List.mem_singleton.mp hr
      refine ⟨fun x hx => ?_, .nil⟩
      rw [hopen, if_pos rfl] at hx
      cases hx
      rw [hempty]
      exact .nil

/-- The runs after one has moved on are the others and that one. -/
theorem mem_set_moveTo {i : Nat} {r s : JobRun η} {stage : JobStage η}
    (hr : o.runs[i]? = some r) (hdistinct : o.runs.Pairwise fun r s => r.tx ≠ s.tx)
    (hs : s ∈ o.runs.set i (r.moveTo stage)) :
    s = r.moveTo stage ∨ s ∈ o.runs ∧ s.tx ≠ r.tx := by
  obtain ⟨j, hset, hget⟩ := List.getElem_of_mem hs
  have hj : j < o.runs.length := by rwa [List.length_set] at hset
  rw [List.getElem_set] at hget
  by_cases hij : i = j
  · left
    rw [if_pos hij] at hget
    exact hget.symm
  · right
    rw [if_neg hij] at hget
    obtain ⟨hi, hri⟩ := List.getElem?_eq_some_iff.mp hr
    subst hget hri
    refine ⟨List.getElem_mem hj, ?_⟩
    rw [List.pairwise_iff_getElem] at hdistinct
    rcases Nat.lt_or_gt_of_ne hij with hlt | hlt
    · exact (hdistinct i j hi hj hlt).symm
    · exact hdistinct j i hj hi hlt

/-- What a run keeps while it moves on is kept by all runs. -/
theorem map_set_moveTo {β : Type} (f : JobRun η → β) {i : Nat} {r : JobRun η}
    {stage : JobStage η} (hr : o.runs[i]? = some r) (hf : f (r.moveTo stage) = f r) :
    (o.runs.set i (r.moveTo stage)).map f = o.runs.map f := by
  obtain ⟨hi, rfl⟩ := List.getElem?_eq_some_iff.mp hr
  have hlt : i < (o.runs.map f).length := by rwa [List.length_map]
  have hget : f o.runs[i] = (o.runs.map f)[i] := by simp
  rw [List.map_set, hf, hget, List.set_getElem_self]

/-- A run that takes a step leaves the fence closed. -/
theorem outcome {i : Nat} {r : JobRun η} {stage : JobStage η} {d : Cluster η ω}
    (h : Fenced id events o) (hr : o.runs[i]? = some r)
    (hnext : JobRun.Outcome id i app r o.cluster stage d event) :
    Fenced id (events ++ [event]) ⟨d, o.runs.set i (r.moveTo stage)⟩ := by
  have hbeside := hnext.beside
  have hmem := List.mem_of_getElem? hr
  have hids : (Overlap.mk d (o.runs.set i (r.moveTo stage))).nodeIds = o.nodeIds := by
    simp only [Overlap.nodeIds, hbeside.nodeId]
    exact map_set_moveTo (fun s => o.cluster.nodeId s.node) hr rfl
  have hr' : o.nodeIds[i]? = some (o.cluster.nodeId r.node) := by
    simp [Overlap.nodeIds, hr]
  obtain ⟨hheld, hrun⟩ := hnext.heldBy?
  refine ⟨?_, ?_, ?_, ?_, ?_, ?_⟩
  · rw [hids, JobEvent.holder_append, hheld, h.held]
    cases event with
    | claimed run =>
        cases hrun run rfl
        exact hr'.symm
    | reset | released run | dropped run | committed run | cancelled | quiet => rfl
  · intro j hj
    rw [JobEvent.holder_append] at hj
    rw [List.length_set]
    cases event with
    | claimed run =>
        cases hrun run rfl
        cases hj
        exact (List.getElem?_eq_some_iff.mp hr).1
    | reset | released run | dropped run => cases hj
    | committed run | cancelled | quiet => exact h.begun j hj
  · intro s hs hclaimed
    rcases mem_set_moveTo hr h.distinct hs with rfl | ⟨hs, _⟩
    · exact hnext.published_of_hasClaimed (h.published r hmem) hclaimed
    · exact hnext.published (h.published s hs hclaimed)
  · intro s hs
    rw [hbeside.nextTx]
    rcases mem_set_moveTo hr h.distinct hs with rfl | ⟨hs, _⟩
    · exact h.fresh r hmem
    · exact h.fresh s hs
  · have hdistinct := h.distinct
    have htx : (o.runs.set i (r.moveTo stage)).map JobRun.tx = o.runs.map JobRun.tx :=
      map_set_moveTo JobRun.tx hr rfl
    rw [← List.pairwise_map] at hdistinct ⊢
    rwa [htx]
  · intro s hs
    rcases mem_set_moveTo hr h.distinct hs with rfl | ⟨hs, hne⟩
    · exact (h.own r hmem).outcome hnext
    · exact (h.own s hs).beside hbeside hne

/-- A call that is no step of a run leaves the fence closed. -/
theorem call {a : StoreCall} (h : Fenced id events o) (ha : a.Bystanding id) :
    Fenced id (events ++ [a.event id o.cluster.jobs])
      { o with cluster := { o.cluster with jobs := a.apply o.cluster.jobs } } := by
  refine ⟨?_, ?_, ?_, h.fresh, h.distinct,
    fun r hr => ⟨(h.own r hr).transaction, (h.own r hr).stage⟩⟩
  · obtain ⟨hheld, hevent⟩ := StoreCall.heldBy?_event (s := o.cluster.jobs) ha default
    rw [JobEvent.holder_append, hheld, h.held]
    cases hcall : a.event id o.cluster.jobs with
    | claimed run => exact absurd hcall (hevent run)
    | reset | released run | dropped run | committed run | cancelled | quiet => rfl
  · intro i hi
    obtain ⟨_, hevent⟩ := StoreCall.heldBy?_event (s := o.cluster.jobs) ha default
    rw [JobEvent.holder_append] at hi
    cases hcall : a.event id o.cluster.jobs with
    | claimed run => exact absurd hcall (hevent run)
    | reset | released run | dropped run =>
        rw [hcall] at hi
        cases hi
    | committed run | cancelled | quiet =>
        rw [hcall] at hi
        exact h.begun i hi
  · intro r hr hclaimed
    exact (h.published r hr hclaimed).apply ha.stages_eq_false

/-- Whatever happens around leaves the fence closed. -/
theorem around {d : Cluster η ω} (h : Fenced id events o) (hd : o.cluster.Around id d) :
    Fenced id (events ++ [.quiet]) { o with cluster := d } := by
  have hholder : JobEvent.holder (events ++ [.quiet]) = JobEvent.holder events :=
    JobEvent.holder_append events .quiet
  have hids : ({ o with cluster := d } : Overlap η ω).nodeIds = o.nodeIds := by
    simp only [Overlap.nodeIds, hd.nodeId]
  refine ⟨?_, ?_, ?_, ?_, h.distinct, ?_⟩
  · rw [hholder, hids, hd.jobs, h.held]
  · rw [hholder]
    exact h.begun
  · rw [hd.jobs]
    exact h.published
  · intro r hr
    exact Nat.lt_of_lt_of_le (h.fresh r hr) hd.nextTx
  · intro r hr
    refine ⟨fun t ht callback hmem hdrops => ?_, (h.own r hr).stage⟩
    obtain ⟨x, hx, rfl⟩ := List.mem_map.mp hmem
    obtain ⟨t', ht', hx'⟩ := hd.drops r.tx t ht x hx hdrops
    exact (h.own r hr).transaction t' ht' x.callback (List.mem_map_of_mem hx') hdrops

/-- Every step leaves the fence closed. -/
theorem step (h : Fenced id events o) (hstep : Overlap.Step app id o event p) :
    Fenced id (events ++ [event]) p := by
  cases hstep with
  | begin hbegin => exact h.begin (Cluster.begin_eq_ok hbegin)
  | advance i answer =>
      unfold Overlap.advance
      cases hr : o.runs[i]? with
      | none => exact h.around (.refl id o.cluster)
      | some r => exact h.outcome hr (JobRun.outcome_advance id i answer app r o.cluster)
  | call a ha => exact h.call ha
  | around hd => exact h.around hd

end Fenced

namespace Overlap

variable {app : Application η ω} {id : JobId} {events : List JobEvent} {o p : Overlap η ω}

/-- After any history the store names the node of the run whose claim is in force. -/
theorem Steps.fenced {c : Cluster η ω} (hc : c.jobs.heldBy? id = none)
    (h : Steps app id ⟨c, []⟩ events o) : Fenced id events o := by
  induction h with
  | refl => exact .start hc
  | tail _ last ih => exact ih.step last

end Overlap

end JobCluster
