import JobCluster.Proofs.Job.StoreCall
/-!
# The jobs of a node that are due

What a node is handed when it asks the store for its jobs: the pending ones that it owns, in the
order of their due times and, where those agree, of their identifiers. In a store that was only
ever used by its calls every job is listed once.

Main results:

- `JobStore.mem_dueJobs_iff`: which jobs are listed;
- `JobStore.pairwise_dueJobs`: the order in which they are listed;
- `JobStore.Filed`, `StoreCall.filed_apply`: every record is kept under the identifier of its job;
- `JobStore.Filed.pairwise_dueBefore`: no two jobs have the same place in the list.
-/

namespace JobCluster

/-! ## Orders -/

namespace KeyOrder

variable {κ : Type} [KeyOrder κ] {a b c : κ}

/-- No two different entries come before each other. -/
theorem asymm (h : before a b = true) : before b a = false := by
  refine Bool.eq_false_iff.mpr fun hback => ?_
  have hself := trans h hback
  rw [irrefl] at hself
  cases hself

/-- What does not come after a key does not come after a later one. -/
theorem not_before_trans (hab : before b a = false) (hbc : before c b = false) :
    before c a = false := by
  refine Bool.eq_false_iff.mpr fun hca => ?_
  cases hba : before a b with
  | true =>
      rw [trans hca hba] at hbc
      cases hbc
  | false =>
      -- Neither comes before the other, so they are the same key.
      rw [total hab hba, hca] at hbc
      cases hbc

end KeyOrder

namespace JobStore

variable {s : JobStore} {node : NodeId} {maxDue : Time} {r : JobRecord}

/-! ## Which jobs are due -/

/-- The values of a store are the records that are found. -/
theorem mem_values_iff : r ∈ s.records.values ↔ ∃ id, s.find? id = some r := by
  simp [Table.values, Table.mem_entries_iff, find?]

/-- The pending jobs of the node up to the given time are listed. -/
theorem mem_dueJobs_iff :
    r ∈ s.dueJobs node maxDue ↔ loadable node maxDue r = true ∧ ∃ id, s.find? id = some r := by
  rw [dueJobs, List.mem_mergeSort, List.mem_filter, mem_values_iff, and_comm]

/-- A load pass takes the pending jobs of its node that are due by then. -/
theorem loadable_iff :
    loadable node maxDue r = true ↔
      r.state = .pending ∧ r.owner = some node ∧ r.effectiveDue ≤ maxDue := by
  simp [loadable, JobRecord.isPending, and_assoc]

/-- No job is listed behind one that is to be handed out later. -/
theorem pairwise_dueJobs :
    (s.dueJobs node maxDue).Pairwise fun a b => b.dueBefore a = false := by
  have htrans : ∀ a b c : JobRecord, (!b.dueBefore a) = true → (!c.dueBefore b) = true →
      (!c.dueBefore a) = true := by
    intro a b c hab hbc
    simp only [Bool.not_eq_eq_eq_not, Bool.not_true, JobRecord.dueBefore] at *
    exact KeyOrder.not_before_trans hab hbc
  have htotal : ∀ a b : JobRecord, ((!b.dueBefore a) || !a.dueBefore b) = true := by
    intro a b
    cases hab : a.dueBefore b with
    | true =>
        have hba : b.dueBefore a = false := KeyOrder.asymm hab
        simp [hba]
    | false => simp
  have hsorted := List.pairwise_mergeSort htrans htotal
    (s.records.values.filter (loadable node maxDue))
  exact hsorted.imp fun h => by simpa using h

/-- Jobs whose identifiers are in the order of their due times are listed as they are stored. -/
theorem dueJobs_of_pairwise
    (h : (s.records.values.filter (loadable node maxDue)).Pairwise
      fun a b => b.dueBefore a = false) :
    s.dueJobs node maxDue = s.records.values.filter (loadable node maxDue) :=
  List.mergeSort_of_pairwise (h.imp fun hlater => by simp [hlater])

/-! ## Jobs under their identifiers -/

/-- Whether every record is kept under the identifier of its job. -/
def Filed (s : JobStore) : Prop := ∀ id r, s.find? id = some r → r.id = id

/-- An empty store keeps every record under its identifier. -/
theorem filed_empty : ({} : JobStore).Filed := by
  intro id r h
  cases h

/-- A due job is found under its identifier. -/
theorem Filed.find?_of_mem (h : s.Filed) (hr : r ∈ s.dueJobs node maxDue) :
    s.find? r.id = some r := by
  obtain ⟨-, id, hid⟩ := mem_dueJobs_iff.mp hr
  rwa [h id r hid]

/-- No job is listed twice. -/
theorem Filed.pairwise_id (h : s.Filed) :
    (s.dueJobs node maxDue).Pairwise fun a b => a.id ≠ b.id := by
  have hkeys : s.records.entries.Pairwise fun x y => x.1 ≠ y.1 :=
    s.records.sorted.imp fun hbefore => KeyOrder.ne_of_before hbefore
  have hvalues : s.records.values.Pairwise fun a b => a.id ≠ b.id := by
    refine List.pairwise_map.mpr (hkeys.imp_of_mem fun {x y} hx hy hne => ?_)
    rwa [h x.1 x.2 ((Table.mem_entries_iff _ _ _).mp hx),
      h y.1 y.2 ((Table.mem_entries_iff _ _ _).mp hy)]
  exact ((List.mergeSort_perm _ _).pairwise_iff fun hne => Ne.symm hne).mpr
    (hvalues.sublist List.filter_sublist)

/-- Every job is listed before those that are to be handed out later. -/
theorem Filed.pairwise_dueBefore (h : s.Filed) :
    (s.dueJobs node maxDue).Pairwise fun a b => a.dueBefore b = true := by
  refine (pairwise_dueJobs.and h.pairwise_id).imp fun {a b} ⟨hlater, hne⟩ => ?_
  refine Bool.of_not_eq_false fun hbefore => hne ?_
  exact congrArg Prod.snd (KeyOrder.total hbefore hlater)

end JobStore

namespace StoreCall

/-- No call changes the identifier of a job. -/
theorem Revises.same_id {a : StoreCall} {x r : JobRecord} (h : a.Revises x r) : r.id = x.id := by
  cases h <;> rfl

/-- Every call keeps the records under the identifiers of their jobs. -/
theorem filed_apply {s : JobStore} (h : s.Filed) (a : StoreCall) : (a.apply s).Filed := by
  intro id r hr
  rcases revises_or_staged hr with ⟨x, hx, hrevises⟩ | ⟨x, _, _, _, hid, rfl⟩
  · exact hrevises.same_id.trans (h id x hx)
  · exact hid

theorem filed_foldl_apply {s : JobStore} (h : s.Filed) (calls : List StoreCall) :
    (calls.foldl apply s).Filed :=
  List.foldlRecOn calls apply (motive := JobStore.Filed) h fun _ hs a _ => filed_apply hs a

end StoreCall

/-! ## Stores that hold given jobs -/

/-- A job that is due at a time. -/
def JobRecord.appointed (name : String) (time : Time) (owner : Option NodeId) : JobRecord :=
  { id := ⟨name⟩, details := ⟨"", ∅⟩, dueAt := some time, owner }

/-- The job once it is visible. -/
def JobRecord.published (r : JobRecord) : JobRecord := { r with state := .pending }

/-- The calls that stage some jobs and publish them, one after the other. -/
def StoreCall.scheduling (jobs : List JobRecord) : List StoreCall :=
  jobs.flatMap fun r => [.stage r, .publish r.id]

namespace JobStore

/-- A new store once some jobs were staged and published. -/
def holding (jobs : List JobRecord) : JobStore := (StoreCall.scheduling jobs).foldl StoreCall.apply {}

/-- A store that holds given jobs keeps each under its identifier. -/
theorem filed_holding (jobs : List JobRecord) : (holding jobs).Filed :=
  StoreCall.filed_foldl_apply filed_empty _

/-- A new job is in the store once it is staged and published. -/
theorem publish_stage {s : JobStore} {r : JobRecord} (hs : s.available = true)
    (hnew : s.find? r.id = none) :
    (StoreCall.publish r.id).apply ((StoreCall.stage r).apply s) = s.put r.published := by
  have hstage : s.stage r = .ok (s.put { r with state := .staged }) :=
    (stage_eq_ok_iff s _ r).mpr ⟨hs, hnew, rfl⟩
  have hrecords : (s.put { r with state := .staged }).records.insert r.id r.published =
      s.records.insert r.id r.published :=
    Table.insert_insert s.records r.id _ _
  have hpublish : (s.put { r with state := .staged }).publish r.id = .ok (s.put r.published) := by
    have hs : (s.put { r with state := .staged }).available = true := hs
    rw [publish, guarded, if_pos hs, find?_put, if_pos rfl]
    exact congrArg (fun records => Except.ok { s with records }) hrecords
  simp only [StoreCall.apply, hstage, orSelf, hpublish]

/-- A new job leaves the others new. -/
theorem find?_put_of_new {s : JobStore} {r : JobRecord} {rest : List JobRecord}
    (hr : ∀ x ∈ rest, r.id ≠ x.id) (hnew : ∀ x ∈ rest, s.find? x.id = none) :
    ∀ x ∈ rest, (s.put r).find? x.id = none := by
  intro x hx
  rw [find?_put, if_neg (hr x hx)]
  exact hnew x hx

/-- New jobs of different identifiers are in the store once they are staged and published. -/
theorem foldl_scheduling {jobs : List JobRecord} {s : JobStore} (hs : s.available = true)
    (hnew : ∀ r ∈ jobs, s.find? r.id = none) (hdistinct : jobs.Pairwise fun a b => a.id ≠ b.id) :
    (StoreCall.scheduling jobs).foldl StoreCall.apply s =
      (jobs.map JobRecord.published).foldl put s := by
  induction jobs generalizing s with
  | nil => rfl
  | cons r rest ih =>
      obtain ⟨hr, hrest⟩ := List.pairwise_cons.mp hdistinct
      obtain ⟨hfirst, hlater⟩ := List.forall_mem_cons.mp hnew
      have hothers : ∀ x ∈ rest, (s.put r.published).find? x.id = none :=
        find?_put_of_new hr hlater
      rw [StoreCall.scheduling, List.flatMap_cons, List.foldl_append, List.foldl_cons,
        List.foldl_cons, List.foldl_nil, publish_stage hs hfirst]
      exact ih hs hothers hrest

/-- Jobs that are new and different enlarge a store by as many. -/
theorem size_foldl_put {jobs : List JobRecord} {s : JobStore}
    (hnew : ∀ r ∈ jobs, s.find? r.id = none) (hdistinct : jobs.Pairwise fun a b => a.id ≠ b.id) :
    (jobs.foldl put s).size = s.size + jobs.length := by
  induction jobs generalizing s with
  | nil => rfl
  | cons r rest ih =>
      obtain ⟨hr, hrest⟩ := List.pairwise_cons.mp hdistinct
      obtain ⟨hfirst, hlater⟩ := List.forall_mem_cons.mp hnew
      have hone : (s.put r).size = s.size + 1 := Table.size_insert hfirst _
      rw [List.foldl_cons, ih (find?_put_of_new hr hlater) hrest, hone, List.length_cons]
      omega

/-- A record in a store with more jobs was there before, or is one of them. -/
theorem mem_values_foldl_put {jobs : List JobRecord} {s : JobStore} {x : JobRecord}
    (h : x ∈ (jobs.foldl put s).records.values) : x ∈ s.records.values ∨ x ∈ jobs := by
  induction jobs generalizing s with
  | nil => exact .inl h
  | cons r rest ih =>
      rcases ih h with hx | hx
      · obtain ⟨id, hid⟩ := mem_values_iff.mp hx
        rw [find?_put] at hid
        split at hid
        · exact .inr (List.mem_cons.mpr (.inl (Option.some.inj hid).symm))
        · exact .inl (mem_values_iff.mpr ⟨id, hid⟩)
      · exact .inr (List.mem_cons_of_mem _ hx)

/-- To put jobs into a store makes it neither available nor unavailable. -/
theorem available_foldl_put (jobs : List JobRecord) (s : JobStore) :
    (jobs.foldl put s).available = s.available := by
  induction jobs generalizing s with
  | nil => rfl
  | cons r rest ih => exact ih (s.put r)

/-- A store that holds different jobs holds them as published. -/
theorem holding_eq {jobs : List JobRecord} (hdistinct : jobs.Pairwise fun a b => a.id ≠ b.id) :
    holding jobs = (jobs.map JobRecord.published).foldl put {} :=
  foldl_scheduling rfl (fun _ _ => rfl) hdistinct

/-- A node is handed all jobs of its own that are due. -/
theorem length_dueJobs_holding {jobs : List JobRecord} {node : NodeId} {maxDue : Time}
    (hdistinct : jobs.Pairwise fun a b => a.id ≠ b.id)
    (h : ∀ r ∈ jobs, r.owner = some node ∧ r.effectiveDue ≤ maxDue) :
    ((holding jobs).dueJobs node maxDue).length = jobs.length := by
  have hholding := holding_eq hdistinct
  have hsize : (holding jobs).size = jobs.length := by
    have hpublished : (jobs.map JobRecord.published).Pairwise fun a b => a.id ≠ b.id :=
      List.pairwise_map.mpr hdistinct
    rw [hholding, size_foldl_put (fun _ _ => rfl) hpublished, List.length_map]
    exact Nat.zero_add _
  have hall : ∀ x ∈ (holding jobs).records.values, loadable node maxDue x = true := by
    intro x hx
    rw [hholding] at hx
    rcases mem_values_foldl_put hx with hx | hx
    · cases hx
    · obtain ⟨r, hr, rfl⟩ := List.mem_map.mp hx
      exact loadable_iff.mpr ⟨rfl, h r hr⟩
  rw [dueJobs, (List.mergeSort_perm _ _).length_eq, List.filter_eq_self.mpr hall, ← hsize]
  exact List.length_map ..

end JobStore

end JobCluster
