import JobCluster.Proofs.Coordination.Pulse
import JobCluster.Proofs.Job.StoreCall
/-!
# Taking over the jobs of silent nodes

A coordinator checks at even intervals which owners of jobs have fallen silent. An owner that it has
never heard of is watched from then on, and has one more span to be heard from; so a check never
takes a job from a node that may be alive. A job whose owner stays silent goes to the coordinator
with the first check after the span is over, whatever the store is asked for in between: as long as
the job belongs to the silent node, the node is watched, for nobody ceases to watch it without having
taken over its jobs.

Main results:

- `Housekeeping.find?_checkStaleNodes`: what a check does to the record of a job;
- `StoreCall.Revises.of_owner`: what a call does to a job that has an owner;
- `Abandoned.call`, `Abandoned.meanwhile`: a job of a silent node stays tracked between two checks;
- `Housekeeping.spares_living_and_takes_over`: whom a check spares, and what two checks achieve.
-/

namespace JobCluster

/-! ## Owners -/

namespace Heartbeats

/-- Of several nodes, those that were never heard from count as heard from at the given time. -/
theorem last?_observeAll (h : Heartbeats) (nodes : List NodeId) (time : Time) (node : NodeId) :
    (h.observeAll nodes time).last? node =
      if node ∈ nodes then some ((h.last? node).getD time) else h.last? node := by
  induction nodes generalizing h with
  | nil => simp [observeAll]
  | cons other rest ih =>
      rw [observeAll, List.foldl_cons]
      refine (ih (h.observe other time)).trans ?_
      rw [last?_observe]
      by_cases heq : other = node
      · subst heq
        simp
      · by_cases hrest : node ∈ rest <;> simp [heq, hrest, Ne.symm heq]

end Heartbeats

namespace Table

variable {κ α : Type} [DecidableEq κ] [KeyOrder κ]

/-- The keys of a table are those under which something is found. -/
theorem mem_keys_iff {t : Table κ α} {k : κ} : k ∈ t.keys ↔ ∃ a, t.get? k = some a := by
  simp [keys, mem_entries_iff]

/-- A table that is made of pairs has their keys. -/
theorem mem_keys_ofList {pairs : List (κ × α)} {k : κ} :
    k ∈ (ofList pairs).keys ↔ k ∈ pairs.map Prod.fst := by
  have hfold : ∀ t : Table κ α, (∃ a, (pairs.foldl (fun t x => t.insert x.1 x.2) t).get? k = some a) ↔
      k ∈ pairs.map Prod.fst ∨ ∃ a, t.get? k = some a := by
    induction pairs with
    | nil => simp
    | cons x rest ih =>
        intro t
        rw [List.foldl_cons, ih, get?_insert]
        by_cases hx : x.1 = k
        · simp [hx]
        · simp [hx, Ne.symm hx]
  rw [mem_keys_iff, ofList, hfold]
  simp

end Table

/-- The owner of a stored job is one of the owners. -/
theorem JobStore.mem_owners {s : JobStore} {id : JobId} {r : JobRecord} {node : NodeId}
    (hr : s.find? id = some r) (howner : r.owner = some node) : node ∈ s.owners := by
  refine Table.mem_keys_ofList.mpr (List.mem_map.mpr ⟨(node, ()), ?_, rfl⟩)
  refine List.mem_filterMap.mpr ⟨r, ?_, by rw [howner]; rfl⟩
  exact List.mem_map.mpr ⟨(id, r), (s.records.mem_entries_iff id r).mpr hr, rfl⟩

/-! ## One check -/

namespace Housekeeping

variable {me node : NodeId} {stale : List NodeId} {h : Heartbeats} {s : JobStore} {id : JobId}

/-- The nodes that a coordinator watches during a check. -/
def watched (now : Time) (view : Heartbeats) (store : JobStore) : Heartbeats :=
  match store.nodeIds with
  | .ok owners => view.observeAll owners now
  | .error _ => view

/-- The nodes whose jobs a check takes over. -/
def silent (settings : Settings) (now : Time) (view : Heartbeats) (store : JobStore) :
    List NodeId :=
  (watched now view store).staleNodes now settings.stale.wordMillis settings.nodeId

/-- A check for stale nodes recovers from those that are silent, one after another. -/
theorem checkStaleNodes_snd (settings : Settings) (now : Time) (view : Heartbeats)
    (store : JobStore) :
    (checkStaleNodes settings now true view store).2 =
      (silent settings now view store).foldl (recover settings.nodeId)
        (watched now view store, store) :=
  rfl

/-- While the store is available, a check watches all owners of jobs. -/
theorem watched_of_available (hs : s.available = true) (now : Time) (view : Heartbeats) :
    watched now view s = view.observeAll s.owners now := by
  simp [watched, JobStore.nodeIds, JobStore.guarded, hs]

/-- The silent nodes are those that have been watched before, and not been heard from for the
span. -/
theorem mem_silent_iff {settings : Settings} {now : Time} {view : Heartbeats}
    (hs : s.available = true) :
    node ∈ silent settings now view s ↔ node ≠ settings.nodeId ∧
      ∃ last, view.last? node = some last ∧ settings.stale.wordMillis < now - last := by
  rw [silent, watched_of_available hs, Heartbeats.mem_staleNodes_iff]
  simp only [Heartbeats.last?_observeAll, Heartbeats.isStale, Bool.and_eq_true, bne_iff_ne,
    decide_eq_true_eq]
  cases hlast : view.last? node with
  | none =>
      -- Whoever is watched from now on is not silent yet.
      by_cases howner : node ∈ s.owners <;> simp [howner]
  | some last => by_cases howner : node ∈ s.owners <;> simp [howner]

/-- A job after a recovery of several nodes: that of one of them has gone to the coordinator. -/
def takeOver (me : NodeId) (stale : List NodeId) (r : JobRecord) : JobRecord :=
  match r.owner with
  | some node => if node ∈ stale then JobStore.reassigned node me r else r
  | none => r

/-- Jobs are taken over one node at a time. A job that has gone to the coordinator stays there. -/
theorem takeOver_reassigned (hme : me ∉ stale) (r : JobRecord) :
    takeOver me stale (JobStore.reassigned node me r) = takeOver me (node :: stale) r := by
  cases howner : r.owner with
  | none => simp [takeOver, JobStore.reassigned, howner]
  | some owner =>
      by_cases heq : owner = node
      · subst heq
        simp [takeOver, JobStore.reassigned, howner, hme]
      · simp [takeOver, JobStore.reassigned, howner, heq]

/-- An upgrade is a call on the store, made by the coordinator alone. -/
theorem upgradeJobs_snd (settings : Settings) (now : Time) (coordinates : Bool) (view : Heartbeats)
    (store : JobStore) :
    (upgradeJobs settings now coordinates view store).2 =
      if coordinates then
        (StoreCall.upgrade (now + settings.nearFuture.wordMillis)
          (candidates settings view)).apply store
      else store := by
  cases coordinates with
  | false => rfl
  | true =>
      simp only [upgradeJobs, Bool.not_true, Bool.false_eq_true, if_false, if_true, StoreCall.apply]
      cases store.upgradeJobs (now + settings.nearFuture.wordMillis) (candidates settings view) <;>
        rfl

/-- So is what is done about the jobs of one stale node. -/
theorem recover_snd (me : NodeId) (state : Heartbeats × JobStore) (node : NodeId) :
    (recover me state node).2 = (StoreCall.reassign node me).apply state.2 := by
  simp only [recover, StoreCall.apply]
  cases state.2.reassignJobs node me <;> rfl

/-- While the store is available, a recovery takes the jobs of a node over and forgets the node. -/
theorem recover_of_available (hs : s.available = true) :
    recover me (h, s) node = (h.forget node, (StoreCall.reassign node me).apply s) := by
  simp only [recover, StoreCall.apply, JobStore.reassignJobs, JobStore.guarded, hs, if_true,
    JobStore.orSelf', JobStore.orSelf, Except.map]

/-- Each job is taken over if its owner is among the stale nodes, whatever their order. -/
theorem find?_recoverAll (hs : s.available = true) (hme : me ∉ stale) :
    (stale.foldl (recover me) (h, s)).2.find? id = (s.find? id).map (takeOver me stale) := by
  induction stale generalizing h s with
  | nil =>
      have hid : takeOver me [] = fun r => r := by
        funext r
        cases howner : r.owner <;> simp [takeOver, howner]
      simp [hid]
  | cons node rest ih =>
      have havailable : ((StoreCall.reassign node me).apply s).available = true := by
        rw [StoreCall.available_apply]
        exact hs
      rw [List.foldl_cons, recover_of_available hs,
        ih havailable fun hmem => hme (List.mem_cons_of_mem _ hmem), StoreCall.find?_apply]
      simp only [StoreCall.concerns, StoreCall.job?, Option.all_none, StoreCall.accepted, hs,
        Bool.and_self, if_true, StoreCall.revise, Option.map_map]
      refine congrArg (fun f => (s.find? id).map f) (funext fun r => ?_)
      exact takeOver_reassigned (fun hmem => hme (List.mem_cons_of_mem _ hmem)) r

/-- A check takes the jobs of silent nodes over, and leaves all other jobs as they are. -/
theorem find?_checkStaleNodes (settings : Settings) (now : Time) (view : Heartbeats)
    (hs : s.available = true) (id : JobId) :
    (checkStaleNodes settings now true view s).2.2.find? id =
      (s.find? id).map (takeOver settings.nodeId (silent settings now view s)) := by
  rw [checkStaleNodes_snd]
  exact find?_recoverAll hs fun hmem => ((mem_silent_iff hs).mp hmem).1 rfl

end Housekeeping

/-! ## Between two checks -/

/-- What a call does to a job that has an owner: only a recovery gives it another one. -/
theorem StoreCall.Revises.of_owner {a : StoreCall} {x r : JobRecord} {owner : NodeId}
    (h : a.Revises x r) (howner : x.owner = some owner) :
    (r.owner = some owner ∧
        ∀ node, r.state = .claimed node → x.state = .claimed node ∨ node = owner) ∨
      ∃ target, a = .reassign owner target ∧ r = JobStore.reassigned owner target x := by
  cases h with
  | kept => exact .inl ⟨howner, fun _ => .inl⟩
  | published => exact .inl ⟨howner, nofun⟩
  | @claimed id claimant x hfree =>
      have hclaimant : claimant = owner := by
        simp only [JobStore.claimableBy, howner, Bool.and_eq_true] at hfree
        exact Option.some.inj (beq_iff_eq.mp hfree.2).symm
      subst hclaimant
      refine .inl ⟨rfl, fun node hstate => .inr ?_⟩
      cases hstate
      rfl
  | assigned nodes hfree => simp [JobStore.upgradable, howner] at hfree
  | reassigned target hsource =>
      rw [howner] at hsource
      cases hsource
      exact .inr ⟨target, rfl, by rw [JobStore.reassigned, if_pos howner]⟩

/-- What becomes of the watched nodes and of the store while a node is silent, as far as one of its
jobs is concerned. Everybody may ask the store for anything, except that no other recovery gives the
job back to the node, and that no other job is staged by the name; nodes are heard from, the silent
one no later than at the given time; and nobody ceases to watch the silent node while the job is
its own. -/
inductive Meanwhile (id : JobId) (source : NodeId) (since : Time) (start : Heartbeats × JobStore) :
    Heartbeats × JobStore → Prop
  | refl : Meanwhile id source since start start
  | heartbeat {h : Heartbeats} {s : JobStore} (before : Meanwhile id source since start (h, s))
      (node : NodeId) (time : Time) (hnode : node = source → time ≤ since) :
      Meanwhile id source since start (h.heartbeat node time, s)
  | observe {h : Heartbeats} {s : JobStore} (before : Meanwhile id source since start (h, s))
      (node : NodeId) (time : Time) : Meanwhile id source since start (h.observe node time, s)
  | forget {h : Heartbeats} {s : JobStore} (before : Meanwhile id source since start (h, s))
      (node : NodeId)
      (hnode : node = source → ∀ r, s.find? id = some r → r.owner ≠ some source) :
      Meanwhile id source since start (h.forget node, s)
  | call {h : Heartbeats} {s : JobStore} (before : Meanwhile id source since start (h, s))
      (a : StoreCall) (hstages : a.stages id = false)
      (hback : ∀ other, a = .reassign other source → other ≠ source →
        ∀ r, s.find? id = some r → r.owner ≠ some other) :
      Meanwhile id source since start (h, a.apply s)

namespace Meanwhile

variable {id : JobId} {source me : NodeId} {since : Time} {start state : Heartbeats × JobStore}

/-- Other nodes may take jobs over in between. -/
theorem recover (before : Meanwhile id source since start state) (hme : me ≠ source)
    (node : NodeId) : Meanwhile id source since start (Housekeeping.recover me state node) := by
  obtain ⟨h, s⟩ := state
  cases hs : s.available with
  | true =>
      rw [Housekeeping.recover_of_available hs]
      refine (before.call (.reassign node me) rfl fun other heq => ?_).forget node ?_
      · cases heq
        exact absurd rfl hme
      · rintro rfl r hr
        rw [StoreCall.find?_apply] at hr
        simp only [StoreCall.concerns, StoreCall.job?, Option.all_none, StoreCall.accepted, hs,
          Bool.and_self, if_true, StoreCall.revise, Option.map_eq_some_iff] at hr
        obtain ⟨x, -, rfl⟩ := hr
        unfold JobStore.reassigned
        split
        · simpa using hme
        · assumption
  | false =>
      have hsame : Housekeeping.recover me (h, s) node = (h, s) := by
        simp [Housekeeping.recover, JobStore.reassignJobs, JobStore.guarded, hs]
      rwa [hsame]

/-- Other coordinators may check for stale nodes in between. -/
theorem checkStaleNodes {h : Heartbeats} {s : JobStore}
    (before : Meanwhile id source since start (h, s)) {settings : Settings}
    (hme : settings.nodeId ≠ source) (now : Time) (coordinates : Bool) :
    Meanwhile id source since start
      (Housekeeping.checkStaleNodes settings now coordinates h s).2 := by
  cases coordinates with
  | false => exact before
  | true =>
      rw [Housekeeping.checkStaleNodes_snd]
      refine List.foldlRecOn (Housekeeping.silent settings now h s) _ ?_
        fun state hstate node _ => hstate.recover hme node
      unfold Housekeeping.watched
      split
      · next owners _ =>
        exact List.foldlRecOn owners _ (motive := fun h : Heartbeats =>
          Meanwhile id source since start (h, s)) before fun h hbefore node _ =>
            hbefore.observe node now
      · exact before

end Meanwhile

namespace Cluster

variable {η ω : Type} {id : JobId} {source : NodeId} {since : Time} {start : Heartbeats × JobStore}
  {c : Cluster η ω} {m : NodeName}

/-- All housekeeping of other nodes may go on in between. -/
theorem meanwhile_housekeep (before : Meanwhile id source since start (c.heartbeats, c.jobs))
    (hm : (c.node m).id ≠ source) (task : Task) :
    Meanwhile id source since start
      ((c.housekeep m task).2.heartbeats, (c.housekeep m task).2.jobs) := by
  cases task with
  | job _ | loadImmediate => exact before
  | upgradeJobs =>
      rw [show (c.housekeep m .upgradeJobs).2.jobs = _ from Housekeeping.upgradeJobs_snd _ _ _ _ _]
      split
      · exact before.call _ rfl fun _ heq => by cases heq
      · exact before
  | checkStaleNodes => exact before.checkStaleNodes hm c.clock (c.coordinates m)

/-- Other nodes may be heard from, and the silent one until the first check. -/
theorem meanwhile_beat (before : Meanwhile id source since start (c.heartbeats, c.jobs))
    (hm : (c.node m).id = source → c.clock ≤ since) :
    Meanwhile id source since start ((c.beat m).heartbeats, (c.beat m).jobs) :=
  before.heartbeat (c.node m).id c.clock hm

end Cluster

/-- Whether a job has gone from a node to another one. -/
def JobRecord.HasLeft (source : NodeId) (r : JobRecord) : Prop :=
  (∃ owner, owner ≠ source ∧ r.owner = some owner) ∧ r.state ≠ .claimed source

/-- A job that is taken over leaves the node it belonged to. -/
theorem JobStore.hasLeft_reassigned {source target : NodeId} {r : JobRecord}
    (howner : r.owner = some source) (hne : target ≠ source) :
    (reassigned source target r).HasLeft source := by
  rw [reassigned, if_pos howner]
  refine ⟨⟨target, hne, rfl⟩, ?_⟩
  show (if r.state = .claimed source then JobState.pending else r.state) ≠ .claimed source
  split
  · exact JobState.noConfusion
  · assumption

/-- A job that has left a node does not come back by a recovery for another one. -/
theorem JobRecord.HasLeft.reassigned {source target : NodeId} {r : JobRecord}
    (h : r.HasLeft source) (hne : target ≠ source) (other : NodeId) :
    (JobStore.reassigned other target r).HasLeft source := by
  unfold JobStore.reassigned
  split
  · refine ⟨⟨target, hne, rfl⟩, ?_⟩
    show (if r.state = .claimed other then JobState.pending else r.state) ≠ .claimed source
    split
    · exact JobState.noConfusion
    · exact h.2
  · exact h

/-- Whether a job that has belonged to a silent node, if it is still stored, has left the node or is
about to: the node is watched, and has not been heard from since the given time. -/
def Abandoned (id : JobId) (source : NodeId) (since : Time) (state : Heartbeats × JobStore) :
    Prop :=
  ∀ r, state.2.find? id = some r →
    r.HasLeft source ∨
      r.owner = some source ∧ ∃ last ≤ since, state.1.last? source = some last

namespace Abandoned

variable {id : JobId} {source : NodeId} {since : Time} {h h' : Heartbeats} {s : JobStore}

/-- What happens to the watched nodes while a job belongs to its node matters to that node alone. -/
theorem view (habandoned : Abandoned id source since (h, s))
    (hview : ∀ r, s.find? id = some r → r.owner = some source →
      ∀ last ≤ since, h.last? source = some last → ∃ last' ≤ since, h'.last? source = some last') :
    Abandoned id source since (h', s) := by
  intro r hr
  rcases habandoned r hr with hleft | ⟨howner, last, hlast, hwatched⟩
  · exact .inl hleft
  · exact .inr ⟨howner, hview r hr howner last hlast hwatched⟩

/-- A call that neither stages the job nor brings it back leaves it abandoned. -/
theorem call (habandoned : Abandoned id source since (h, s)) {a : StoreCall}
    (hstages : a.stages id = false)
    (hback : ∀ other, a = .reassign other source → other ≠ source →
      ∀ r, s.find? id = some r → r.owner ≠ some other) :
    Abandoned id source since (h, a.apply s) := by
  intro r hr
  obtain ⟨x, hx, hrevises⟩ := StoreCall.revises_of_find?_apply hstages hr
  rcases habandoned x hx with ⟨⟨owner, hne, howner⟩, hstate⟩ | ⟨howner, hwatched⟩
  · left
    rcases hrevises.of_owner howner with ⟨hsame, hclaims⟩ | ⟨target, rfl, rfl⟩
    · refine ⟨⟨owner, hne, hsame⟩, fun hclaimed => ?_⟩
      rcases hclaims source hclaimed with hbefore | heq
      · exact hstate hbefore
      · exact hne heq.symm
    · have htarget : target ≠ source := by
        rintro rfl
        exact hback owner rfl hne x hx howner
      exact JobRecord.HasLeft.reassigned ⟨⟨owner, hne, howner⟩, hstate⟩ htarget owner
  · rcases hrevises.of_owner howner with ⟨hsame, -⟩ | ⟨target, rfl, rfl⟩
    · exact .inr ⟨hsame, hwatched⟩
    · by_cases htarget : target = source
      · subst htarget
        exact .inr ⟨by rw [JobStore.reassigned, if_pos howner], hwatched⟩
      · exact .inl (JobStore.hasLeft_reassigned howner htarget)

/-- A job of a silent node stays tracked until somebody takes it over. -/
theorem meanwhile {start state : Heartbeats × JobStore}
    (hmeanwhile : Meanwhile id source since start state)
    (hstart : Abandoned id source since start) : Abandoned id source since state := by
  induction hmeanwhile with
  | refl => exact hstart
  | heartbeat _ node time hnode ih =>
      refine ih.view fun _ _ _ last hlast hwatched => ?_
      rw [Heartbeats.last?_heartbeat]
      split
      · next heq =>
        subst heq
        rw [hwatched]
        exact ⟨_, Nat.max_le.mpr ⟨hlast, hnode rfl⟩, rfl⟩
      · exact ⟨last, hlast, hwatched⟩
  | observe _ node time ih =>
      refine ih.view fun _ _ _ last hlast hwatched => ⟨last, hlast, ?_⟩
      rw [Heartbeats.last?_observe]
      split
      · next heq =>
        subst heq
        rw [hwatched]
        rfl
      · exact hwatched
  | forget _ node hnode ih =>
      refine ih.view fun r hr howner last hlast hwatched => ⟨last, hlast, ?_⟩
      rw [Heartbeats.last?_forget, if_neg fun heq => hnode heq.symm r hr howner]
      exact hwatched
  | call _ a hstages hback ih => exact ih.call hstages hback

end Abandoned

/-! ## Two checks -/

namespace Housekeeping

variable {settings : Settings} {now : Time} {view : Heartbeats} {s : JobStore}

/-- The jobs that a check leaves alone: those of nobody, and those of the coordinator, of nodes that
were not watched before, and of nodes that were heard from within the span. -/
inductive Spared (settings : Settings) (now : Time) (view : Heartbeats) (r : JobRecord) : Prop
  | unowned (howner : r.owner = none)
  | own (howner : r.owner = some settings.nodeId)
  | unknown {node : NodeId} (howner : r.owner = some node) (hlast : view.last? node = none)
  | alive {node : NodeId} {last : Time} (howner : r.owner = some node)
      (hlast : view.last? node = some last) (hspan : now - last ≤ settings.stale.wordMillis)

/-- A check leaves the jobs of everybody alone who is not silent. -/
theorem takeOver_of_spared (hs : s.available = true) {r : JobRecord}
    (h : Spared settings now view r) :
    takeOver settings.nodeId (silent settings now view s) r = r := by
  have hkeep : ∀ node, r.owner = some node → node ∉ silent settings now view s →
      takeOver settings.nodeId (silent settings now view s) r = r := by
    intro node howner hnode
    simp [takeOver, howner, hnode]
  cases h with
  | unowned howner => simp [takeOver, howner]
  | own howner => exact hkeep _ howner fun hmem => ((mem_silent_iff hs).mp hmem).1 rfl
  | unknown howner hlast =>
      refine hkeep _ howner fun hmem => ?_
      obtain ⟨-, last, hsome, -⟩ := (mem_silent_iff hs).mp hmem
      rw [hlast] at hsome
      cases hsome
  | alive howner hlast hspan =>
      refine hkeep _ howner fun hmem => ?_
      obtain ⟨-, last, hsome, hover⟩ := (mem_silent_iff hs).mp hmem
      rw [hlast] at hsome
      cases hsome
      exact Nat.not_lt.mpr hspan hover

/-- The owner of a job is watched from the check on, unless the check takes the job over. -/
theorem abandoned_checkStaleNodes {id : JobId} {source : NodeId} {r : JobRecord}
    (hs : s.available = true) (hr : s.find? id = some r) (howner : r.owner = some source)
    (hne : source ≠ settings.nodeId) (hpast : ∀ last, view.last? source = some last → last ≤ now) :
    Abandoned id source now (checkStaleNodes settings now true view s).2 := by
  have hstart : Abandoned id source now (watched now view s, s) := by
    intro r' hr'
    cases hr.symm.trans hr'
    refine .inr ⟨howner, (view.last? source).getD now, ?_, ?_⟩
    · cases hlast : view.last? source with
      | none => exact Nat.le_refl now
      | some last => exact hpast last hlast
    · rw [watched_of_available hs, Heartbeats.last?_observeAll,
        if_pos (JobStore.mem_owners hr howner)]
  refine Abandoned.meanwhile ?_ hstart
  rw [checkStaleNodes_snd]
  exact List.foldlRecOn (silent settings now view s) _ (.refl)
    fun state hstate node _ => hstate.recover hne.symm node

/-- A check takes an abandoned job over when the span is over. -/
theorem hasLeft_checkStaleNodes {id : JobId} {source : NodeId} {since : Time} {r : JobRecord}
    (hs : s.available = true) (hne : source ≠ settings.nodeId)
    (habandoned : Abandoned id source since (view, s))
    (hspan : settings.stale.wordMillis < now - since)
    (hr : (checkStaleNodes settings now true view s).2.2.find? id = some r) :
    r.HasLeft source := by
  rw [find?_checkStaleNodes settings now view hs, Option.map_eq_some_iff] at hr
  obtain ⟨x, hx, rfl⟩ := hr
  rcases habandoned x hx with hleft | ⟨howner, last, hlast, hwatched⟩
  · unfold takeOver
    split
    · split
      · exact hleft.reassigned hne.symm _
      · exact hleft
    · exact hleft
  · have hsilent : source ∈ silent settings now view s :=
      (mem_silent_iff hs).mpr ⟨hne, last, hwatched,
        Nat.lt_of_lt_of_le hspan (Nat.sub_le_sub_left hlast now)⟩
    rw [takeOver, howner]
    simp only [hsilent, if_true]
    exact JobStore.hasLeft_reassigned howner hne.symm

/-- A recovery is safe and complete, whatever the jobs, the watched nodes and the time. A check leaves
every job as it is that belongs to nobody, to the coordinator, to a node that was not watched before,
or to a node that was heard from within the span. And with two checks that are further apart than
the span, a job that belonged to another node at the first one has left it after the second one, if
the node is not heard from after the first one and no other recovery gives the job back. -/
theorem spares_living_and_takes_over (settings : Settings) (now : Time) (view : Heartbeats)
    {s : JobStore} (hs : s.available = true) :
    (∀ id r, s.find? id = some r → Spared settings now view r →
      (checkStaleNodes settings now true view s).2.2.find? id = some r) ∧
    ∀ {id : JobId} {r : JobRecord} {source : NodeId} {later : Time} {view' : Heartbeats}
      {s' : JobStore}, s.find? id = some r → r.owner = some source → source ≠ settings.nodeId →
      (∀ last, view.last? source = some last → last ≤ now) →
      Meanwhile id source now (checkStaleNodes settings now true view s).2 (view', s') →
      s'.available = true → settings.stale.wordMillis < later - now →
      ∀ r', (checkStaleNodes settings later true view' s').2.2.find? id = some r' →
        r'.owner ≠ some source ∧ r'.state ≠ .claimed source := by
  constructor
  · intro id r hr hspared
    rw [find?_checkStaleNodes settings now view hs, hr, Option.map_some,
      takeOver_of_spared hs hspared]
  · intro id r source later view' s' hr howner hne hpast hmeanwhile hs' hspan r' hr'
    have habandoned := abandoned_checkStaleNodes hs hr howner hne hpast
    obtain ⟨⟨owner, hother, howner'⟩, hstate⟩ :=
      hasLeft_checkStaleNodes hs' hne (habandoned.meanwhile hmeanwhile) hspan hr'
    refine ⟨fun hback => hother ?_, hstate⟩
    rw [howner'] at hback
    exact Option.some.inj hback

/-- A job of a node that nobody has heard of. -/
def desertedJob : JobRecord :=
  { id := ⟨"J"⟩, details := ⟨"", ∅⟩, state := .pending, owner := some ⟨"b"⟩ }

/-- A store with a deserted job and one of a node that is going to be heard from. -/
def deserted : JobStore :=
  (({} : JobStore).put desertedJob).put { desertedJob with id := ⟨"K"⟩, owner := some ⟨"c"⟩ }

/-- The silent node gets as far as to claim its job between two checks that are 10001 milliseconds
apart. The first check spares both jobs; the second one takes the job of the silent node over, with
its claim. -/
theorem spares_living_and_takes_over_deserted :
    let settings : Settings := { nodeId := ⟨"a"⟩ }
    let first := (checkStaleNodes settings 0 true {} deserted).2
    let view := first.1.heartbeat ⟨"c"⟩ 5000
    let store := (StoreCall.claim ⟨"J"⟩ ⟨"b"⟩).apply first.2
    let second := (checkStaleNodes settings 10001 true view store).2.2
    first.2.find? ⟨"J"⟩ = deserted.find? ⟨"J"⟩ ∧ first.2.find? ⟨"K"⟩ = deserted.find? ⟨"K"⟩ ∧
      store.heldBy? ⟨"J"⟩ = some ⟨"b"⟩ ∧
      (second.find? ⟨"J"⟩).isSome = true ∧
      ∀ r, second.find? ⟨"J"⟩ = some r → r.owner ≠ some ⟨"b"⟩ ∧ r.state ≠ .claimed ⟨"b"⟩ := by
  intro settings first view store second
  have hs : deserted.available = true := rfl
  obtain ⟨hspares, htakes⟩ := spares_living_and_takes_over settings 0 {} hs
  have hbusy : Meanwhile ⟨"J"⟩ ⟨"b"⟩ 0 first (view, store) := by
    have hheard : Meanwhile ⟨"J"⟩ ⟨"b"⟩ 0 first (view, first.2) :=
      Meanwhile.refl.heartbeat ⟨"c"⟩ 5000 (by decide)
    exact hheard.call (.claim ⟨"J"⟩ ⟨"b"⟩) rfl fun _ heq => by cases heq
  have hJ : deserted.find? ⟨"J"⟩ = some desertedJob := rfl
  have hK : deserted.find? ⟨"K"⟩ = some { desertedJob with id := ⟨"K"⟩, owner := some ⟨"c"⟩ } := rfl
  have havailable : store.available = true := rfl
  have hstored : (second.find? ⟨"J"⟩).isSome = true := by
    rw [find?_checkStaleNodes settings 10001 view havailable, Option.isSome_map]
    rfl
  refine ⟨hspares _ _ hJ (.unknown rfl rfl), hspares _ _ hK (.unknown rfl rfl), rfl, hstored, ?_⟩
  have hspan : settings.stale.wordMillis < 10001 - 0 := by decide
  exact htakes hJ rfl (by decide) (fun _ hlast => by cases hlast) hbusy havailable hspan

end Housekeeping

end JobCluster
