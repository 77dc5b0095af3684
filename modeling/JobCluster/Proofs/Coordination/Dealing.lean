import JobCluster.Proofs.Coordination.Recovery
import JobCluster.Proofs.Counting
import JobCluster.Proofs.Job.DueJobs
/-!
# Dealing jobs out

Jobs that are not due before long are stored without an owner. An upgrade deals out those that have
come closer: the due time of a job decides among the nodes in turn. The outcome does not depend on
the order in which the jobs are visited, for a visit reads and changes the record of one job alone.
After an upgrade the lists of due jobs that the nodes are handed have no job in common, and together
they have every job up to the time of the upgrade that does not belong to somebody else.

Main results:

- `JobStore.foldl_visit_of_perm`: an upgrade in any order;
- `JobStore.Deals`, `JobStore.deals_upgradeJobs`: what an upgrade makes of a store;
- `JobStore.Shares`, `JobStore.shares_upgradeJobs`: what the nodes are handed afterwards;
- `JobStore.deals_and_shares`: both, for every store;
- `Housekeeping.deals_of_coordinates`: both, for the upgrades of a coordinator.
-/

namespace JobCluster

namespace Table

variable {κ α : Type} [KeyOrder κ]

/-- No key is listed twice. -/
theorem nodup_keys (t : Table κ α) : t.keys.Nodup :=
  List.pairwise_map.mpr (t.sorted.imp fun hbefore => KeyOrder.ne_of_before hbefore)

end Table

namespace JobStore

variable {s : JobStore} {maxDue : Time} {nodes : List NodeId} {r : JobRecord} {id : JobId}

/-! ## One job -/

/-- What an upgrade makes of the record of a job. -/
def dealt (maxDue : Time) (nodes : List NodeId) (r : JobRecord) : JobRecord :=
  if upgradable maxDue r then { r with owner := assignee? nodes r } else r

/-- A job can be given an owner if it is pending, has none and is due by then. -/
theorem upgradable_iff :
    upgradable maxDue r = true ↔
      r.state = .pending ∧ r.owner = none ∧ r.effectiveDue ≤ maxDue := by
  simp [upgradable, JobRecord.isPending, and_assoc]

/-- There is a node whose turn it is. -/
theorem exists_assignee (hne : nodes ≠ []) (r : JobRecord) :
    ∃ node, nodes[r.effectiveDue % nodes.length]? = some node := by
  have hlt : r.effectiveDue % nodes.length < nodes.length :=
    Nat.mod_lt _ (List.length_pos_iff.mpr hne)
  exact ⟨_, List.getElem?_eq_getElem hlt⟩

/-- A job that can be given an owner gets the one that its due time decides on. -/
theorem dealt_of_upgradable (h : upgradable maxDue r = true) {node : NodeId}
    (hnode : nodes[r.effectiveDue % nodes.length]? = some node) :
    dealt maxDue nodes r = { r with owner := some node } := by
  rw [dealt, if_pos h, assignee?, hnode]

/-- All other jobs are left alone. -/
theorem dealt_of_not_upgradable (h : upgradable maxDue r = false) : dealt maxDue nodes r = r := by
  rw [dealt, h]
  rfl

/-- A job that was dealt out is not dealt out again. -/
theorem upgradable_dealt (hne : nodes ≠ []) (r : JobRecord) :
    upgradable maxDue (dealt maxDue nodes r) = false := by
  cases h : upgradable maxDue r with
  | false => rwa [dealt_of_not_upgradable h]
  | true =>
      obtain ⟨node, hnode⟩ := exists_assignee hne r
      rw [dealt_of_upgradable h hnode]
      simp [upgradable]

/-! ## One visit after another -/

/-- A visit of an upgrade to one job, with the number of jobs that were given owners so far. -/
def visit (maxDue : Time) (nodes : List NodeId) (state : Nat × JobStore) (id : JobId) :
    Nat × JobStore :=
  (state.1 + ((state.2.find? id).any (upgradable maxDue)).toNat,
    { state.2 with records := state.2.records.modify id (dealt maxDue nodes) })

/-- Visits change nothing but records. -/
theorem foldl_visit_eq (order : List JobId) (number : Nat) (s : JobStore) :
    (order.foldl (visit maxDue nodes) (number, s)).2 =
      { s with records := (order.foldl (visit maxDue nodes) (number, s)).2.records } :=
  List.foldlRecOn order (visit maxDue nodes)
    (motive := fun state : Nat × JobStore => state.2 = { s with records := state.2.records }) rfl
    fun state hstate _ _ => by rw [visit, hstate]

/-- Every job is changed by its own visit alone. -/
theorem find?_foldl_visit {order : List JobId} (horder : order.Nodup) (number : Nat)
    (s : JobStore) (id : JobId) :
    (order.foldl (visit maxDue nodes) (number, s)).2.find? id =
      if id ∈ order then (s.find? id).map (dealt maxDue nodes) else s.find? id := by
  induction order generalizing number s with
  | nil => simp
  | cons first rest ih =>
      obtain ⟨hfirst, hrest⟩ := List.nodup_cons.mp horder
      have hvisit : ∀ j, (visit maxDue nodes (number, s) first).2.find? j =
          if j = first then (s.find? j).map (dealt maxDue nodes) else s.find? j :=
        fun j => Table.get?_modify _ _ _ _
      rw [List.foldl_cons, ih hrest, hvisit]
      by_cases hid : id = first
      · subst hid
        simp [hfirst]
      · simp [hid]

/-- Every job that is given an owner is counted by its own visit. -/
theorem fst_foldl_visit {order : List JobId} (horder : order.Nodup) (number : Nat)
    (s : JobStore) :
    (order.foldl (visit maxDue nodes) (number, s)).1 =
      number + order.countP fun id => (s.find? id).any (upgradable maxDue) := by
  induction order generalizing number s with
  | nil => rfl
  | cons first rest ih =>
      obtain ⟨hfirst, hrest⟩ := List.nodup_cons.mp horder
      have hsame : ∀ j ∈ rest, (visit maxDue nodes (number, s) first).2.find? j = s.find? j := by
        intro j hj
        have hne : j ≠ first := fun heq => hfirst (heq ▸ hj)
        exact (Table.get?_modify _ _ _ _).trans (if_neg hne)
      have hcount : (rest.countP fun id =>
            ((visit maxDue nodes (number, s) first).2.find? id).any (upgradable maxDue)) =
          rest.countP fun id => (s.find? id).any (upgradable maxDue) :=
        List.countP_congr fun j hj => by rw [hsame j hj]
      rw [List.foldl_cons, ← Prod.eta (visit maxDue nodes (number, s) first), ih hrest, hcount,
        countP_cons_toNat]
      simp only [visit]
      omega

/-- Counting the keys whose records have a property counts the records that have it. -/
theorem countP_keys (s : JobStore) (p : JobRecord → Bool) :
    (s.records.keys.countP fun id => (s.find? id).any p) = s.records.values.countP p := by
  rw [Table.keys, Table.values, List.countP_map, List.countP_map]
  refine List.countP_congr fun x hx => ?_
  have hfind : s.find? x.1 = some x.2 := (Table.mem_entries_iff _ _ _).mp hx
  simp [hfind]

/-- Whatever the order in which all jobs are visited, the outcome is that of changing all records
at once. -/
theorem foldl_visit_of_perm {order : List JobId} (horder : order.Perm s.records.keys) :
    order.foldl (visit maxDue nodes) (0, s) =
      (s.records.values.countP (upgradable maxDue),
        { s with records := s.records.map fun _ => dealt maxDue nodes }) := by
  have hnodup : order.Nodup := horder.nodup_iff.mpr (Table.nodup_keys _)
  refine Prod.ext ?_ ?_
  · rw [fst_foldl_visit hnodup, horder.countP_eq, countP_keys, Nat.zero_add]
  · rw [foldl_visit_eq]
    refine congrArg (fun records => { s with records }) (Table.ext_get? fun id => ?_)
    refine (find?_foldl_visit hnodup 0 s id).trans ((?_ : _ = (s.find? id).map _).trans
      (Table.get?_map _ _ _).symm)
    cases hid : s.find? id with
    | none => simp
    | some r => rw [if_pos (horder.mem_iff.mpr (Table.mem_keys_iff.mpr ⟨r, hid⟩))]

/-! ## An upgrade -/

/-- An upgrade changes all records at once. -/
theorem upgradeJobs_eq (hs : s.available = true) (hne : nodes ≠ []) :
    s.upgradeJobs maxDue nodes =
      .ok (s.records.values.countP (upgradable maxDue),
        { s with records := s.records.map fun _ => dealt maxDue nodes }) := by
  have hsize : (s.records.filter fun _ r => upgradable maxDue r).size =
      s.records.values.countP (upgradable maxDue) := by
    rw [Table.size, Table.values, List.countP_map, List.countP_eq_length_filter]
    rfl
  have hnodes : nodes.isEmpty = false := by simpa using hne
  simp only [upgradeJobs, guarded, hs, hnodes, hsize, if_true, Bool.false_eq_true, if_false]
  rfl

/-- What an upgrade up to a time among some nodes makes of a store, with the number of jobs that it
has dealt out. -/
structure Deals (maxDue : Time) (nodes : List NodeId) (s : JobStore) (number : Nat)
    (t : JobStore) : Prop where
  /-- A pending job up to the time that belongs to nobody goes to the node whose turn it is. -/
  assigned : ∀ id r, s.find? id = some r →
    r.state = .pending → r.owner = none → r.effectiveDue ≤ maxDue →
    ∃ node, nodes[r.effectiveDue % nodes.length]? = some node ∧
      t.find? id = some { r with owner := some node }
  /-- Any other job stays as it is. -/
  kept : ∀ id r, s.find? id = some r →
    r.state ≠ .pending ∨ r.owner ≠ none ∨ maxDue < r.effectiveDue → t.find? id = some r
  /-- No job comes in. -/
  unknown : ∀ id, s.find? id = none → t.find? id = none
  /-- Nothing but records is changed. -/
  others : t = { s with records := t.records }
  counted : number = s.records.values.countP (upgradable maxDue)
  /-- The jobs may be visited in any order. -/
  anyOrder : ∀ order : List JobId, order.Perm s.records.keys →
    order.foldl (visit maxDue nodes) (0, s) = (number, t)
  /-- The same upgrade once more deals nothing out. -/
  settled : t.upgradeJobs maxDue nodes = .ok (0, t)

/-- An upgrade deals the jobs out. -/
theorem deals_upgradeJobs {number : Nat} {t : JobStore} (hne : nodes ≠ [])
    (h : s.upgradeJobs maxDue nodes = .ok (number, t)) : Deals maxDue nodes s number t := by
  have hs : s.available = true := ((guarded_eq_ok_iff _ _ _).mp h).1
  rw [upgradeJobs_eq hs hne] at h
  cases h
  have hfind : ∀ id, ({ s with records := s.records.map fun _ => dealt maxDue nodes } :
      JobStore).find? id = (s.find? id).map (dealt maxDue nodes) := fun id => find?_map _ _ _
  refine ⟨fun id r hr hpending hfree hdue => ?_, fun id r hr hother => ?_, fun id hr => ?_, rfl,
    rfl, fun order horder => foldl_visit_of_perm horder, ?_⟩
  · obtain ⟨node, hnode⟩ := exists_assignee hne r
    have hup : upgradable maxDue r = true := upgradable_iff.mpr ⟨hpending, hfree, hdue⟩
    exact ⟨node, hnode, by rw [hfind, hr, Option.map_some, dealt_of_upgradable hup hnode]⟩
  · have hup : upgradable maxDue r = false := by
      refine Bool.eq_false_iff.mpr fun hup => ?_
      obtain ⟨hpending, hfree, hdue⟩ := upgradable_iff.mp hup
      rcases hother with hother | hother | hother
      · exact hother hpending
      · exact hother hfree
      · exact Nat.not_le.mpr hother hdue
    rw [hfind, hr, Option.map_some, dealt_of_not_upgradable hup]
  · rw [hfind, hr]
    rfl
  · rw [upgradeJobs_eq (s := { s with records := s.records.map fun _ => dealt maxDue nodes }) hs hne]
    have hnone : (s.records.map fun _ => dealt maxDue nodes).values.countP (upgradable maxDue) =
        0 := by
      refine List.countP_eq_zero.mpr fun r hr => ?_
      obtain ⟨x, hx, rfl⟩ := List.mem_map.mp hr
      obtain ⟨y, -, rfl⟩ := List.mem_map.mp hx
      simp [upgradable_dealt hne]
    have hsame : ((s.records.map fun _ => dealt maxDue nodes).map fun _ => dealt maxDue nodes) =
        s.records.map fun _ => dealt maxDue nodes := by
      refine Table.ext_get? fun id => ?_
      simp only [Table.get?_map, Option.map_map]
      refine congrArg (fun f => (s.records.get? id).map f) (funext fun r => ?_)
      exact dealt_of_not_upgradable (upgradable_dealt hne r)
    simp only [hnone, hsame]

/-! ## What the nodes are handed -/

/-- How the nodes share the due jobs of a store up to a bound, after an upgrade up to a time. -/
structure Shares (maxDue : Time) (nodes : List NodeId) (t : JobStore) (bound : Time) : Prop where
  /-- A node is handed the first of its due jobs. -/
  first : ∀ node limit,
    t.dequeueImmediate node bound limit = .ok ((t.dueJobs node bound).take limit)
  /-- A node that sets no limit below the number of stored jobs is handed all of them. -/
  whole : ∀ node limit, t.size ≤ limit →
    t.dequeueImmediate node bound limit = .ok (t.dueJobs node bound)
  /-- No job is handed out behind one that comes after it, by due time and identifier. -/
  sorted : ∀ node, (t.dueJobs node bound).Pairwise fun a b => b.dueBefore a = false
  /-- No two nodes are handed the same job. -/
  disjoint : nodes.Pairwise fun a b => ∀ r ∈ t.dueJobs a bound, r ∉ t.dueJobs b bound
  /-- A pending job up to both times is handed to one of the nodes, unless it belongs to somebody
  else. -/
  complete : ∀ id r, t.find? id = some r → r.state = .pending → r.effectiveDue ≤ min bound maxDue →
    (∀ owner, r.owner = some owner → owner ∈ nodes) → ∃ node ∈ nodes, r ∈ t.dueJobs node bound
  /-- Where jobs are kept under their identifiers, no two have the same place in a list, and no two
  nodes are handed jobs of one identifier. -/
  apart : t.Filed →
    (∀ node, (t.dueJobs node bound).Pairwise fun a b => a.dueBefore b = true) ∧
      nodes.Pairwise fun a b =>
        ∀ x ∈ t.dueJobs a bound, ∀ y ∈ t.dueJobs b bound, x.id ≠ y.id

/-- There are no more due jobs than jobs. -/
theorem length_dueJobs_le (s : JobStore) (node : NodeId) (bound : Time) :
    (s.dueJobs node bound).length ≤ s.size := by
  rw [dueJobs, (List.mergeSort_perm _ _).length_eq]
  have hvalues : s.records.values.length = s.size := List.length_map ..
  exact hvalues ▸ List.length_filter_le _ _

/-- The due jobs of a node are its own. -/
theorem owner_of_mem_dueJobs {node : NodeId} {bound : Time} (h : r ∈ s.dueJobs node bound) :
    r.owner = some node :=
  (loadable_iff.mp (mem_dueJobs_iff.mp h).1).2.1

/-- After an upgrade the nodes share the due jobs. -/
theorem shares_upgradeJobs {number : Nat} {t : JobStore} (hne : nodes ≠ [])
    (hdistinct : nodes.Nodup) (h : s.upgradeJobs maxDue nodes = .ok (number, t)) (bound : Time) :
    Shares maxDue nodes t bound := by
  have hsettled := (deals_upgradeJobs hne h).settled
  have ht : t.available = true := ((guarded_eq_ok_iff _ _ _).mp hsettled).1
  have hfirst : ∀ node limit,
      t.dequeueImmediate node bound limit = .ok ((t.dueJobs node bound).take limit) :=
    fun node limit => (guarded_eq_ok_iff _ _ _).mpr ⟨ht, rfl⟩
  refine ⟨hfirst, fun node limit hlimit => ?_, fun node => pairwise_dueJobs, ?_, ?_, fun hfiled => ?_⟩
  · rw [hfirst, List.take_of_length_le (Nat.le_trans (length_dueJobs_le t node bound) hlimit)]
  · refine hdistinct.imp fun hab r hr hr' => hab ?_
    exact Option.some.inj ((owner_of_mem_dueJobs hr).symm.trans (owner_of_mem_dueJobs hr'))
  · intro id r hr hpending hdue howner
    obtain ⟨hbound, hmax⟩ := Nat.le_min.mp hdue
    cases hfree : r.owner with
    | some node =>
        exact ⟨node, howner node hfree,
          mem_dueJobs_iff.mpr ⟨loadable_iff.mpr ⟨hpending, hfree, hbound⟩, id, hr⟩⟩
    | none =>
        -- The upgrade would have given it an owner.
        obtain ⟨node, -, hnode⟩ :=
          (deals_upgradeJobs hne hsettled).assigned id r hr hpending hfree hmax
        rw [hr] at hnode
        rw [congrArg JobRecord.owner (Option.some.inj hnode)] at hfree
        cases hfree
  · refine ⟨fun node => hfiled.pairwise_dueBefore, hdistinct.imp fun hab x hx y hy hid => hab ?_⟩
    have hsame : some x = some y := by
      rw [← hfiled.find?_of_mem hx, ← hfiled.find?_of_mem hy, hid]
    cases hsame
    exact Option.some.inj ((owner_of_mem_dueJobs hx).symm.trans (owner_of_mem_dueJobs hy))

/-- An upgrade of any store among some distinct nodes is refused while the store is unavailable.
Otherwise it deals out exactly the pending jobs up to the time that belong to nobody, each to the
node whose turn it is by its due time, and afterwards the nodes share the due jobs up to any
bound. -/
theorem deals_and_shares (s : JobStore) (maxDue : Time) {nodes : List NodeId} (hne : nodes ≠ [])
    (hdistinct : nodes.Nodup) :
    (s.available = false → s.upgradeJobs maxDue nodes = .error .unavailable) ∧
    (s.available = true → ∃ number t, s.upgradeJobs maxDue nodes = .ok (number, t) ∧
      Deals maxDue nodes s number t ∧ ∀ bound, Shares maxDue nodes t bound) := by
  constructor
  · intro hs
    simp [upgradeJobs, guarded, hs]
  · intro hs
    have hupgrade : s.upgradeJobs maxDue nodes = _ := upgradeJobs_eq hs hne
    exact ⟨_, _, hupgrade, deals_upgradeJobs hne hupgrade,
      shares_upgradeJobs hne hdistinct hupgrade⟩

/-- A store with two jobs that belong to nobody, one of a third node, and one that is far off. -/
def mixed : JobStore :=
  holding [.appointed "J" 7 none, .appointed "K" 10 none, .appointed "L" 7 (some ⟨"x"⟩),
    .appointed "M" 11 none]

/-- Of two nodes one gets the job that is due at an odd time, and the other one the job that is due
at the very time of the upgrade. -/
theorem deals_and_shares_two :
    let nodes : List NodeId := [⟨"b"⟩, ⟨"c"⟩]
    (nodes ≠ [] ∧ nodes.Nodup ∧ mixed.available = true) ∧
    ∃ number t, mixed.upgradeJobs 10 nodes = .ok (number, t) ∧ number = 2 ∧
      t.records.values.map JobRecord.owner = [some ⟨"c"⟩, some ⟨"b"⟩, some ⟨"x"⟩, none] ∧
      Deals 10 nodes mixed number t ∧ ∀ bound, Shares 10 nodes t bound := by
  intro nodes
  have hne : nodes ≠ [] := by decide
  have hdistinct : nodes.Nodup := by decide
  obtain ⟨number, t, hupgrade, hdeals, hshares⟩ := (deals_and_shares mixed 10 hne hdistinct).2 rfl
  refine ⟨⟨hne, hdistinct, rfl⟩, number, t, hupgrade, ?_, ?_, hdeals, hshares⟩
  · rw [hdeals.counted]
    decide
  · rw [upgradeJobs_eq rfl hne] at hupgrade
    cases hupgrade
    decide

end JobStore

namespace Housekeeping

/-- There is somebody to whom jobs can be dealt out. -/
theorem candidates_ne_nil (settings : Settings) (view : Heartbeats) :
    candidates settings view ≠ [] := by
  unfold candidates
  split
  · simp
  · next h => simpa using h

/-- No node is dealt with twice. -/
theorem nodup_candidates (settings : Settings) (view : Heartbeats) :
    (candidates settings view).Nodup := by
  unfold candidates
  split
  · exact List.pairwise_singleton _ _
  · exact Table.nodup_keys _

/-- A coordinator deals jobs out among the nodes that it knows of, or to itself if it knows none. -/
theorem deals_of_coordinates (settings : Settings) (now : Time) (view : Heartbeats)
    {store : JobStore} (hs : store.available = true) :
    let maxDue := now + settings.nearFuture.wordMillis
    let nodes := candidates settings view
    let t := (upgradeJobs settings now true view store).2
    (∃ number, JobStore.Deals maxDue nodes store number t) ∧
      ∀ bound, JobStore.Shares maxDue nodes t bound := by
  intro maxDue nodes t
  have hne : nodes ≠ [] := candidates_ne_nil settings view
  have hupgrade : store.upgradeJobs maxDue nodes = _ := JobStore.upgradeJobs_eq hs hne
  have ht : t = { store with records := store.records.map fun _ => JobStore.dealt maxDue nodes } := by
    simp only [t, upgradeJobs, Bool.not_true, Bool.false_eq_true, if_false, maxDue, nodes] at *
    rw [hupgrade]
  rw [ht]
  exact ⟨⟨_, JobStore.deals_upgradeJobs hne hupgrade⟩,
    JobStore.shares_upgradeJobs hne (nodup_candidates settings view) hupgrade⟩

end Housekeeping

end JobCluster
