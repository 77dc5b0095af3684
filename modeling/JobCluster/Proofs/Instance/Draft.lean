import JobCluster.Proofs.Cluster.Bookkeeping
/-!
# Drafts of process instances

A transaction writes process instances in a draft of its own, and the draft is committed as a whole.
Whatever the transaction writes next is checked against its draft, so the draft agrees with the
instance as it was when the transaction first wrote it, not with what has become of it since.

Main results:

- `InstanceStore.get?_complete`: a commit makes of an instance what the transaction sees in its
  draft;
- `Interplay.Drafted.step`, `Interplay.Drafted.play`: how drafts agree with what they began with.
-/

namespace JobCluster

variable {η ω : Type}

/-! ## Writes in turn -/

namespace InstanceStore

variable {id : InstanceId} {base : Option ProcessInstance} {ws : List InstanceWrite}

/-- What is seen after a write is seen over what the write leaves. -/
theorem seen_cons (id : InstanceId) (base : Option ProcessInstance) (w : InstanceWrite)
    (ws : List InstanceWrite) :
    seen id base (w :: ws) = seen id (if w.id = id then w.result else base) ws :=
  rfl

/-- The last write of an instance is the one that is seen. -/
theorem seen_append_singleton (id : InstanceId) (base : Option ProcessInstance)
    (ws : List InstanceWrite) (w : InstanceWrite) :
    seen id base (ws ++ [w]) = if w.id = id then w.result else seen id base ws := by
  simp [seen]

/-- Once an instance is written, it does not matter what it was before. -/
theorem seen_of_mem {w : InstanceWrite} (hw : w ∈ ws) (hid : w.id = id)
    (base other : Option ProcessInstance) : seen id base ws = seen id other ws := by
  induction ws generalizing base other with
  | nil => exact absurd hw List.not_mem_nil
  | cons x rest ih =>
      rw [seen_cons, seen_cons]
      rcases List.mem_cons.mp hw with rfl | hw
      · rw [if_pos hid, if_pos hid]
      · exact ih hw _ _

/-- What nobody has written is seen as it was. -/
theorem seen_of_forall_ne (h : ∀ w ∈ ws, w.id ≠ id) : seen id base ws = base := by
  induction ws generalizing base with
  | nil => rfl
  | cons x rest ih =>
      rw [seen_cons, if_neg (h x List.mem_cons_self)]
      exact ih fun w hw => h w (List.mem_cons_of_mem x hw)

/-- An instance that is there at first and gone at last was deleted. -/
theorem delete_mem_of_seen (hbase : base ≠ none) (h : seen id base ws = none) :
    .delete id ∈ ws := by
  induction ws generalizing base with
  | nil => exact absurd h hbase
  | cons x rest ih =>
      rw [seen_cons] at h
      cases x with
      | put p =>
          refine List.mem_cons_of_mem _ (ih ?_ h)
          by_cases hp : p.id = id <;> simp [InstanceWrite.id, InstanceWrite.result, hp, hbase]
      | delete other =>
          by_cases hother : other = id
          · rw [hother]
            exact List.mem_cons_self
          · refine List.mem_cons_of_mem _ (ih ?_ h)
            simp [InstanceWrite.id, hother, hbase]

/-- Writes are seen under their own identifiers. -/
theorem seen_id (hbase : ∀ p, base = some p → p.id = id) {p : ProcessInstance}
    (h : seen id base ws = some p) : p.id = id := by
  induction ws generalizing base with
  | nil => exact hbase p h
  | cons x rest ih =>
      rw [seen_cons] at h
      refine ih (fun q hq => ?_) h
      by_cases hx : x.id = id
      · rw [if_pos hx] at hq
        cases x with
        | put r =>
            cases hq
            exact hx
        | delete other => cases hq
      · rw [if_neg hx] at hq
        exact hbase q hq

/-- A write that is applied changes its own instance only. -/
theorem get?_apply (instances : Table InstanceId ProcessInstance) (w : InstanceWrite)
    (id : InstanceId) :
    (apply instances w).2.get? id = if w.id = id then w.result else instances.get? id := by
  cases w with
  | put p => exact Table.get?_insert ..
  | delete other =>
      show (instances.erase other).get? id = if other = id then none else instances.get? id
      rw [Table.get?_erase]
      by_cases h : other = id
      · rw [if_pos h, if_pos h.symm]
      · rw [if_neg h, if_neg (Ne.symm h)]

/-- Writes that are applied in order leave what is seen over them. -/
theorem get?_applyAll (ws : List InstanceWrite) (instances : Table InstanceId ProcessInstance)
    (id : InstanceId) : (applyAll ws instances).2.get? id = seen id (instances.get? id) ws := by
  induction ws generalizing instances with
  | nil => rfl
  | cons w rest ih =>
      rw [seen_cons, ← get?_apply]
      exact ih _

/-- A commit makes of an instance what its transaction sees of it. -/
theorem get?_complete (s : InstanceStore) (tx : TxId) (committed : Bool) (id : InstanceId) :
    (s.complete tx committed).2.get? id = if committed then s.view tx id else s.get? id := by
  cases committed with
  | true => exact (get?_applyAll (s.writes tx) s.committed id).trans (s.view_eq_seen tx id).symm
  | false => rfl

/-- A transaction that is completed has no writes left, and the others have theirs. -/
theorem writes_complete (s : InstanceStore) (tx : TxId) (committed : Bool) (other : TxId) :
    (s.complete tx committed).2.writes other = if other = tx then [] else s.writes other := by
  have hstaged : (s.complete tx committed).2.staged = s.staged.erase tx := by
    cases committed <;> rfl
  unfold writes
  rw [hstaged, Table.get?_erase]
  by_cases h : other = tx
  · rw [if_pos h, if_pos h]
    rfl
  · rw [if_neg h, if_neg h]

/-- Whether the committed instances stand under their identifiers. -/
def Keyed (s : InstanceStore) : Prop :=
  ∀ id p, s.get? id = some p → p.id = id

/-- A store that keeps every instance under its identifier shows it under its identifier. -/
theorem Keyed.view {s : InstanceStore} (h : s.Keyed) {tx : TxId} {p : ProcessInstance}
    (hp : s.view tx id = some p) : p.id = id :=
  seen_id (h id) (s.view_eq_seen tx id ▸ hp)

/-- An instance is current if the transaction sees it. -/
theorem current_eq_ok {s : InstanceStore} {tx : TxId} {p : ProcessInstance} :
    s.current tx id = .ok p ↔ s.view tx id = some p := by
  unfold current
  cases s.view tx id <;> simp

end InstanceStore

/-! ## What a call writes -/

namespace WorkCall

variable {a : WorkCall η} {tx : TxId} {s : InstanceStore}

/-- Whether a call creates an instance. -/
def creates (id : InstanceId) : WorkCall η → Bool
  | .createInstance p => decide (p.id = id)
  | _ => false

/-- A call that leaves an instance behind has created it, or it has found one and does not change
the state of an instance that has come to its end. -/
theorem write?_put (hkeyed : s.Keyed) {q : ProcessInstance} (h : a.write? tx s = some (.put q)) :
    (a.creates q.id = true ∧ s.view tx q.id = none) ∨
      ∃ p, s.view tx q.id = some p ∧ (p.isFinished = true → q.state = p.state) := by
  cases a with
  | createInstance p =>
      unfold write? InstanceStore.creation at h
      cases hview : s.view tx p.id with
      | some x => simp [hview, Except.toOption] at h
      | none =>
          simp only [hview, Except.toOption, Option.some.injEq, InstanceWrite.put.injEq] at h
          subst h
          exact .inl ⟨by simp [creates], hview⟩
  | setInstanceState id state now =>
      right
      unfold write? InstanceStore.stateChange at h
      cases hcurrent : s.current tx id with
      | error e => simp [hcurrent, Except.map, Except.toOption] at h
      | ok p =>
          have hview := InstanceStore.current_eq_ok.mp hcurrent
          have hid := hkeyed.view hview
          simp only [hcurrent] at h
          split at h
          · simp [Except.map, Except.toOption] at h
          · next hallowed =>
            simp only [Except.map, Except.toOption, Option.some.injEq,
              InstanceWrite.put.injEq] at h
            subst h
            refine ⟨p, by rw [← hview, ← hid]; rfl, fun hfinished => ?_⟩
            exact Decidable.byContradiction fun hne => hallowed ⟨hfinished, Ne.symm hne⟩
  | setInstanceKey id set value =>
      right
      unfold write? InstanceStore.keyChange at h
      cases hcurrent : s.current tx id with
      | error e => simp [hcurrent, Except.toOption] at h
      | ok p =>
          have hview := InstanceStore.current_eq_ok.mp hcurrent
          have hid := hkeyed.view hview
          simp only [hcurrent, Except.toOption, Option.some.injEq, InstanceWrite.put.injEq] at h
          subst h
          exact ⟨p, by rw [← hview, ← hid]; rfl, fun _ => rfl⟩
  | deleteInstance id =>
      unfold write? InstanceStore.deletion at h
      cases hcurrent : s.current tx id <;> simp [hcurrent, Except.toOption] at h
  | schedulePersisted | scheduleVolatile | createExchange | claim | release | register | mark
  | setStoreAvailable | refuseNext => simp [write?] at h

/-- A call that deletes an instance has found one. -/
theorem write?_delete {id : InstanceId} (h : a.write? tx s = some (.delete id)) :
    s.view tx id ≠ none := by
  cases a with
  | createInstance p =>
      unfold write? InstanceStore.creation at h
      cases hview : s.view tx p.id <;> simp [hview, Except.toOption] at h
  | setInstanceState other state now =>
      unfold write? InstanceStore.stateChange at h
      cases hcurrent : s.current tx other with
      | error e => simp [hcurrent, Except.map, Except.toOption] at h
      | ok p =>
          simp only [hcurrent] at h
          split at h <;> simp [Except.map, Except.toOption] at h
  | setInstanceKey other set value =>
      unfold write? InstanceStore.keyChange at h
      cases hcurrent : s.current tx other <;> simp [hcurrent, Except.toOption] at h
  | deleteInstance other =>
      unfold write? InstanceStore.deletion at h
      cases hcurrent : s.current tx other with
      | error e => simp [hcurrent, Except.toOption] at h
      | ok p =>
          simp only [hcurrent, Except.toOption, Option.some.injEq,
            InstanceWrite.delete.injEq] at h
          subst h
          rw [InstanceStore.current_eq_ok.mp hcurrent]
          exact Option.some_ne_none p
  | schedulePersisted | scheduleVolatile | createExchange | claim | release | register | mark
  | setStoreAvailable | refuseNext => simp [write?] at h

end WorkCall

/-! ## The draft of a transaction -/

namespace WorkEntry

/-- The write that the call staged, if it staged any. -/
def write? (e : WorkEntry η ω) : Option InstanceWrite := e.call.write? e.tx e.found.instances

/-- Whether the call wrote an instance. -/
def writes (id : InstanceId) (e : WorkEntry η ω) : Bool := e.write?.any fun w => decide (w.id = id)

/-- An entry writes an instance if that is the instance of its write. -/
theorem writes_eq_true {id : InstanceId} {e : WorkEntry η ω} :
    e.writes id = true ↔ ∃ w, e.write? = some w ∧ w.id = id := by
  simp [writes, Option.any_eq_true]

/-- An entry that does not write an instance shows it as it was seen before. -/
theorem seen_of_not_writes {id : InstanceId} {e : WorkEntry η ω} (h : e.writes id ≠ true)
    (base : Option ProcessInstance) (writes : List InstanceWrite) :
    InstanceStore.seen id base (writes ++ e.write?.toList) = InstanceStore.seen id base writes := by
  cases hwrite : e.write? with
  | none => simp
  | some w =>
      have hne : w.id ≠ id := fun hid => h (writes_eq_true.mpr ⟨w, hwrite, hid⟩)
      rw [Option.toList_some, InstanceStore.seen_append_singleton, if_neg hne]

end WorkEntry

namespace Interplay

/-- The committed record of an instance. -/
def instance? (o : Interplay η ω) (id : InstanceId) : Option ProcessInstance :=
  o.cluster.instances.get? id

/-- What a transaction has written, oldest first. -/
def writes (o : Interplay η ω) (tx : TxId) : List InstanceWrite :=
  (o.entries tx).filterMap WorkEntry.write?

/-- The committed record of an instance at the time at which a transaction first wrote it, if the
transaction has. -/
def base? (o : Interplay η ω) (tx : TxId) (id : InstanceId) : Option (Option ProcessInstance) :=
  ((o.entries tx).find? (WorkEntry.writes id)).map fun e => e.found.instances.get? id

/-- Whether a transaction has created an instance. -/
def creates (o : Interplay η ω) (tx : TxId) (id : InstanceId) : Bool :=
  (o.entries tx).any fun e => e.writes id && e.call.creates id

/-- Whether a transaction has deleted an instance. -/
def deletes (o : Interplay η ω) (tx : TxId) (id : InstanceId) : Bool :=
  decide (.delete id ∈ o.writes tx)

/-- The writes of a transaction are those of its entries. -/
theorem mem_writes {o : Interplay η ω} {tx : TxId} {w : InstanceWrite} :
    w ∈ o.writes tx ↔ ∃ e ∈ o.entries tx, e.write? = some w := by
  simp [writes, List.mem_filterMap]

/-- A transaction has no base for an instance that it has not written. -/
theorem base?_eq_none {o : Interplay η ω} {tx : TxId} {id : InstanceId} :
    o.base? tx id = none ↔ ∀ w ∈ o.writes tx, w.id ≠ id := by
  unfold base?
  rw [Option.map_eq_none_iff, List.find?_eq_none]
  constructor
  · intro h w hw hid
    obtain ⟨e, he, hwrite⟩ := mem_writes.mp hw
    exact h e he (WorkEntry.writes_eq_true.mpr ⟨w, hwrite, hid⟩)
  · intro h e he hwrites
    obtain ⟨w, hwrite, hid⟩ := WorkEntry.writes_eq_true.mp hwrites
    exact h w (mem_writes.mpr ⟨e, he, hwrite⟩) hid

/-- In the draft of an instance that is written, it does not matter what has become of it. -/
theorem seen_of_base? {o : Interplay η ω} {tx : TxId} {id : InstanceId}
    {base : Option ProcessInstance} (h : o.base? tx id = some base)
    (b b' : Option ProcessInstance) :
    InstanceStore.seen id b (o.writes tx) = InstanceStore.seen id b' (o.writes tx) := by
  obtain ⟨e, hfind, _⟩ := Option.map_eq_some_iff.mp h
  obtain ⟨w, hwrite, hid⟩ := WorkEntry.writes_eq_true.mp (List.find?_some hfind)
  have hw : w ∈ o.writes tx := mem_writes.mpr ⟨e, List.mem_of_find?_eq_some hfind, hwrite⟩
  exact InstanceStore.seen_of_mem hw hid b b'

/-! ## One more call -/

/-- An entry adds its own write to those of its transaction. -/
theorem writes_append (o : Interplay η ω) (e : WorkEntry η ω) (c : Cluster η ω) :
    ({ o with cluster := c, log := o.log ++ [e] } : Interplay η ω).writes e.tx =
      o.writes e.tx ++ e.write?.toList := by
  unfold writes
  rw [entries_append, if_pos rfl, List.filterMap_append]
  cases h : e.write? <;> simp [h]

/-- The base of a transaction is what it saw before it wrote the instance for the first time. -/
theorem base?_append (o : Interplay η ω) (e : WorkEntry η ω) (c : Cluster η ω)
    (id : InstanceId) :
    ({ o with cluster := c, log := o.log ++ [e] } : Interplay η ω).base? e.tx id =
      (o.base? e.tx id).or (if e.writes id then some (e.found.instances.get? id) else none) := by
  unfold base?
  rw [entries_append, if_pos rfl, List.find?_append]
  cases hold : (o.entries e.tx).find? (WorkEntry.writes id) with
  | some f => rfl
  | none => cases hwrites : e.writes id <;> simp [hwrites]

theorem creates_append (o : Interplay η ω) (e : WorkEntry η ω) (c : Cluster η ω)
    (id : InstanceId) :
    ({ o with cluster := c, log := o.log ++ [e] } : Interplay η ω).creates e.tx id =
      (o.creates e.tx id || (e.writes id && e.call.creates id)) := by
  unfold creates
  rw [entries_append, if_pos rfl]
  simp

/-- A transaction deletes what one of its entries deletes. -/
theorem deletes_append (o : Interplay η ω) (e : WorkEntry η ω) (c : Cluster η ω)
    (id : InstanceId) :
    ({ o with cluster := c, log := o.log ++ [e] } : Interplay η ω).deletes e.tx id =
      (o.deletes e.tx id || decide (e.write? = some (.delete id))) := by
  unfold deletes
  rw [writes_append]
  simp [eq_comm]

/-! ## Drafts agree with what they began with -/

/-- How the drafts of a history agree with its log and with the committed instances. -/
structure Drafted (o : Interplay η ω) : Prop where
  keyed : o.cluster.instances.Keyed
  /-- A transaction has in its draft what its calls have written, until its end. -/
  drafts : ∀ tx, o.cluster.instances.writes tx = o.writes tx ∨
    (o.cluster.instances.writes tx = [] ∧ o.cluster.transaction? tx = none)
  /-- An instance that had come to its end when the transaction first wrote it has the same state in
  the draft, unless the transaction has deleted it. -/
  kept : ∀ tx id p, o.base? tx id = some (some p) → p.isFinished = true →
    o.deletes tx id = false →
    ∃ q, InstanceStore.seen id (some p) (o.writes tx) = some q ∧ q.state = p.state
  /-- An instance that was not there when the transaction first wrote it was created by it. -/
  created : ∀ tx id, o.base? tx id = some none → o.creates tx id = true

namespace Drafted

variable {o : Interplay η ω} {c : Cluster η ω}

/-- Before the first move nothing is drafted. -/
theorem start (h : c.AtRest) : Drafted ⟨c, [], []⟩ where
  keyed := h.instances
  drafts tx := .inl (h.writes tx)
  kept _ _ _ hbase := nomatch hbase
  created _ _ hbase := nomatch hbase

/-- A change that leaves the instances alone, and opens at most transactions that have written
nothing. -/
theorem of_instances (h : Drafted o) (hinstances : c.instances = o.cluster.instances)
    (hopen : ∀ tx, o.cluster.transaction? tx = none →
      c.transaction? tx = none ∨ o.writes tx = [])
    (departures : List (Departure η)) : Drafted { o with cluster := c, departures } := by
  refine ⟨?_, fun tx => ?_, h.kept, h.created⟩
  · show c.instances.Keyed
    rw [hinstances]
    exact h.keyed
  · show c.instances.writes tx = o.writes tx ∨
      (c.instances.writes tx = [] ∧ c.transaction? tx = none)
    rw [hinstances]
    rcases h.drafts tx with hsame | ⟨hnil, hclosed⟩
    · exact .inl hsame
    · rcases hopen tx hclosed with hnone | hempty
      · exact .inr ⟨hnil, hnone⟩
      · exact .inl (hnil.trans hempty.symm)

/-- The writes of a transaction that is open no longer are applied or forgotten. -/
theorem complete (h : Drafted o) {tx : TxId} (hclosed : o.cluster.transaction? tx = none)
    (committed : Bool) (hinstances : c.instances = (o.cluster.instances.complete tx committed).2)
    (htransactions : c.transactions = o.cluster.transactions) (departures : List (Departure η)) :
    Drafted { o with cluster := c, departures } := by
  have htransaction : ∀ other, c.transaction? other = o.cluster.transaction? other := by
    intro other
    rw [Cluster.transaction?, htransactions]
    rfl
  refine ⟨?_, fun other => ?_, h.kept, h.created⟩
  · show c.instances.Keyed
    intro id p hp
    rw [hinstances, InstanceStore.get?_complete] at hp
    split at hp
    · exact h.keyed.view hp
    · exact h.keyed id p hp
  · show c.instances.writes other = o.writes other ∨
      (c.instances.writes other = [] ∧ c.transaction? other = none)
    rw [hinstances, InstanceStore.writes_complete, htransaction]
    by_cases hother : other = tx
    · rw [if_pos hother, hother]
      exact .inr ⟨rfl, hclosed⟩
    · rw [if_neg hother]
      exact h.drafts other

section Worked

variable {tx : TxId} {t : Transaction (Callback η)} {a : WorkCall η} {id : InstanceId}

/-- The draft of an open transaction is what its calls have written. -/
theorem writes_of_open (h : Drafted o) (ht : o.cluster.transaction? tx = some t) :
    o.cluster.instances.writes tx = o.writes tx := by
  rcases h.drafts tx with hsame | ⟨_, hclosed⟩
  · exact hsame
  · rw [ht] at hclosed
    cases hclosed

/-- What an open transaction sees of an instance that had come to its end when the transaction first
wrote it, or that it has not written. -/
theorem view_of_finished (h : Drafted o) (ht : o.cluster.transaction? tx = some t)
    {p : ProcessInstance} (hp : p.isFinished = true)
    (hbase : o.base? tx id = some (some p) ∨
      (o.base? tx id = none ∧ o.cluster.instances.get? id = some p))
    (hdeletes : o.deletes tx id = false) :
    ∃ q, o.cluster.instances.view tx id = some q ∧ q.state = p.state := by
  rw [InstanceStore.view_eq_seen]
  rw [h.writes_of_open ht]
  rcases hbase with hbase | ⟨hbase, hget⟩
  · obtain ⟨q, hq, hstate⟩ := h.kept tx id p hbase hp hdeletes
    exact ⟨q, (seen_of_base? hbase _ _).trans hq, hstate⟩
  · exact ⟨p, (InstanceStore.seen_of_forall_ne (base?_eq_none.mp hbase)).trans hget, rfl⟩

/-- A call keeps the state of an instance that had come to its end, unless it deletes it. -/
theorem kept_worked (h : Drafted o) (ht : o.cluster.transaction? tx = some t)
    {e : WorkEntry η ω} (he : e = ⟨tx, a, o.cluster⟩) {p : ProcessInstance}
    (hbase : ({ o with cluster := c, log := o.log ++ [e] } : Interplay η ω).base? tx id =
      some (some p))
    (hp : p.isFinished = true)
    (hdeletes : ({ o with cluster := c, log := o.log ++ [e] } : Interplay η ω).deletes tx id =
      false) :
    ∃ q, InstanceStore.seen id (some p)
        (({ o with cluster := c, log := o.log ++ [e] } : Interplay η ω).writes tx) = some q ∧
      q.state = p.state := by
  have htx : e.tx = tx := by rw [he]
  rw [← htx] at hbase hdeletes ⊢
  rw [base?_append] at hbase
  rw [deletes_append, Bool.or_eq_false_iff, decide_eq_false_iff_not] at hdeletes
  rw [writes_append]
  rw [htx] at hbase hdeletes ⊢
  by_cases hwrites : e.writes id = true
  · obtain ⟨w, hwrite, hid⟩ := WorkEntry.writes_eq_true.mp hwrites
    have hview : ∃ q, o.cluster.instances.view tx id = some q ∧ q.state = p.state := by
      refine h.view_of_finished ht hp ?_ hdeletes.1
      cases hold : o.base? tx id with
      | some b =>
          rw [hold, Option.some_or] at hbase
          exact .inl hbase
      | none =>
          rw [hold, if_pos hwrites, he] at hbase
          exact .inr ⟨rfl, Option.some.inj hbase⟩
    obtain ⟨q, hq, hstate⟩ := hview
    have hcall : a.write? tx o.cluster.instances = some w := by
      rw [he] at hwrite
      exact hwrite
    rw [hwrite, Option.toList_some, InstanceStore.seen_append_singleton, if_pos hid]
    cases w with
    | delete other =>
        have hother : other = id := hid
        rw [hwrite, hother] at hdeletes
        exact absurd rfl hdeletes.2
    | put r =>
        have hr : r.id = id := hid
        refine ⟨r, rfl, ?_⟩
        rcases WorkCall.write?_put h.keyed hcall with ⟨_, hnone⟩ | ⟨p', hp', hsame⟩
        · rw [hr, hq] at hnone
          cases hnone
        · rw [hr, hq] at hp'
          cases hp'
          refine (hsame ?_).trans hstate
          rw [ProcessInstance.isFinished, hstate]
          exact hp
  · rw [WorkEntry.seen_of_not_writes hwrites]
    refine h.kept tx id p ?_ hp hdeletes.1
    rwa [if_neg hwrites, Option.or_none] at hbase

/-- A call that is the first to write an instance, and does not find it, creates it. -/
theorem created_worked (h : Drafted o) (ht : o.cluster.transaction? tx = some t)
    {e : WorkEntry η ω} (he : e = ⟨tx, a, o.cluster⟩)
    (hbase : ({ o with cluster := c, log := o.log ++ [e] } : Interplay η ω).base? tx id =
      some none) :
    ({ o with cluster := c, log := o.log ++ [e] } : Interplay η ω).creates tx id = true := by
  have htx : e.tx = tx := by rw [he]
  rw [← htx] at hbase ⊢
  rw [base?_append] at hbase
  rw [creates_append]
  rw [htx] at hbase ⊢
  cases hold : o.base? tx id with
  | some b =>
      rw [hold] at hbase
      cases hbase
      rw [h.created tx id hold]
      rfl
  | none =>
      rw [hold] at hbase
      by_cases hwrites : e.writes id = true
      · rw [if_pos hwrites, he] at hbase
        have hget : o.cluster.instances.get? id = none := Option.some.inj hbase
        have hview : o.cluster.instances.view tx id = none := by
          rw [InstanceStore.view_eq_seen]
          rw [h.writes_of_open ht]
          exact (InstanceStore.seen_of_forall_ne (base?_eq_none.mp hold)).trans hget
        obtain ⟨w, hwrite, hid⟩ := WorkEntry.writes_eq_true.mp hwrites
        have hcall : a.write? tx o.cluster.instances = some w := by
          rw [he] at hwrite
          exact hwrite
        rw [hwrites]
        cases w with
        | delete other =>
            have hother : other = id := hid
            exact absurd hview (hother ▸ WorkCall.write?_delete hcall)
        | put r =>
            have hr : r.id = id := hid
            rcases WorkCall.write?_put h.keyed hcall with ⟨hcreates, _⟩ | ⟨p', hp', _⟩
            · have hown : e.call.creates id = true := by
                rw [he, ← hr]
                exact hcreates
              simp [hown]
            · rw [hr, hview] at hp'
              cases hp'
      · rw [if_neg hwrites] at hbase
        cases hbase

/-- A write is drafted over what the transaction has seen. -/
theorem worked (h : Drafted o) (a : WorkCall η) (ht : o.cluster.transaction? tx = some t) :
    Drafted { o with
      cluster := (a.perform tx o.cluster).2
      log := o.log ++ [⟨tx, a, o.cluster⟩] } := by
  obtain ⟨e, he⟩ : ∃ e : WorkEntry η ω, e = ⟨tx, a, o.cluster⟩ := ⟨_, rfl⟩
  have htx : e.tx = tx := by rw [he]
  have heffect := a.effect_perform tx o.cluster
  have hinstances : (a.perform tx o.cluster).2.instances =
      e.write?.elim o.cluster.instances fun w => o.cluster.instances.stage tx w := by
    rw [he, heffect.instances]
    show _ = (a.write? tx o.cluster.instances).elim _ _
    cases a.write? tx o.cluster.instances <;> rfl
  have hothers : ∀ other, tx ≠ other →
      ({ o with
          cluster := (a.perform tx o.cluster).2
          log := o.log ++ [e] } : Interplay η ω).entries other = o.entries other := by
    intro other hother
    rw [entries_append, htx, if_neg hother]
  rw [← he]
  refine ⟨?_, fun other => ?_, fun other id p hbase hp hdeletes => ?_, fun other id hbase => ?_⟩
  · show (a.perform tx o.cluster).2.instances.Keyed
    rw [hinstances]
    cases e.write? <;> exact h.keyed
  · show (a.perform tx o.cluster).2.instances.writes other = _ ∨
      ((a.perform tx o.cluster).2.instances.writes other = [] ∧
        (a.perform tx o.cluster).2.transaction? other = none)
    by_cases hother : tx = other
    · left
      rw [← hother, ← htx, writes_append, htx, hinstances, ← h.writes_of_open ht]
      cases e.write? <;> simp
    · have hsame : (a.perform tx o.cluster).2.instances.writes other =
          o.cluster.instances.writes other := by
        rw [hinstances]
        cases e.write? <;> simp [hother]
      rw [hsame, heffect.others (Ne.symm hother), writes, hothers other hother]
      exact h.drafts other
  · by_cases hother : tx = other
    · subst hother
      exact h.kept_worked ht he hbase hp hdeletes
    · rw [base?, hothers other hother] at hbase
      rw [deletes, writes, hothers other hother] at hdeletes
      rw [writes, hothers other hother]
      exact h.kept other id p hbase hp hdeletes
  · by_cases hother : tx = other
    · subst hother
      exact h.created_worked ht he hbase
    · rw [base?, hothers other hother] at hbase
      rw [creates, hothers other hother]
      exact h.created other id hbase

end Worked

variable {app : Application η ω}

/-- A callback leaves the drafts as they are, or applies them, or forgets them. -/
theorem carryOut (h : Drafted o) (ho : Orderly o) {d : Departure η} (hd : d ∈ o.departures)
    {phase : Phase} {callback : Callback η} (hmem : callback ∈ d.transaction.callbacks phase)
    (departures : List (Departure η)) :
    Drafted { o with cluster := o.cluster.carryOut app d.thread phase callback, departures } := by
  have htransactions := (o.cluster.carryOut_frame app d.thread phase callback).1
  have hinstances := Cluster.carryOut_instances app d.thread phase o.cluster callback
  cases callback with
  | applyWrites tx =>
      have hclosed : o.cluster.transaction? tx = none := by
        rw [ho.applyWrites_own hd hmem]
        exact ho.closed d hd
      exact h.complete hclosed _ hinstances htransactions departures
  | publish n plan | queue n info | drop n j armed | withdraw n id | custom script =>
      refine h.of_instances hinstances (fun tx htx => .inl ?_) departures
      rwa [Cluster.transaction?, htransactions]

/-- The drafts agree with the log after every move. -/
theorem step (h : Drafted o) (ho : Orderly o) (m : Move η ω) : Drafted (o.step app m) := by
  have houtcome := outcome_step app o m
  generalize o.step app m = p at houtcome
  cases houtcome with
  | idle => exact h
  | refused n thread resource =>
      refine h.of_instances ?_ (fun _ htx => .inl ?_) _
      · rfl
      · exact htx
  | @begun n thread tx c hbegin =>
      have hbegun := Cluster.begin_eq_ok hbegin
      obtain ⟨_, _, htransaction⟩ := hbegun.transaction
      refine h.of_instances hbegun.instances (fun other hother => ?_) _
      rw [htransaction]
      by_cases hnew : other = tx
      · have hnumber : o.cluster.nextTx ≤ other.serial :=
          Nat.le_of_eq (congrArg TxId.serial (hnew.trans hbegun.number)).symm
        exact .inr (by rw [writes, ho.entries_of_number hnumber]; rfl)
      · rw [if_neg hnew]
        exact .inl hother
  | worked a ht => exact h.worked a ht
  | @departed tx thread request t round c ht hround hc htransactions =>
      refine h.of_instances hc.instances (fun other hother => .inl ?_) _
      rw [Cluster.transaction?, htransactions, Table.get?_erase]
      split
      · rfl
      · exact hother
  | @before i d callback rest hd hround =>
      have hin := List.mem_of_getElem? hd
      exact h.carryOut ho hin (ho.mem_before hin hround) _
  | decided i committed hd hround hc htransactions =>
      refine h.of_instances hc.instances (fun other hother => .inl ?_) _
      rwa [Cluster.transaction?, htransactions]
  | @after i committed d callback rest hd hround =>
      have hin := List.mem_of_getElem? hd
      exact h.carryOut ho hin (ho.mem_after hin hround) _
  | store a | registry n a =>
      refine h.of_instances ?_ (fun _ htx => .inl ?_) _
      · rfl
      · exact htx
  | elsewhere what =>
      refine h.of_instances (what.instances o.cluster) (fun other hother => .inl ?_) _
      rwa [Cluster.transaction?, what.transactions]

/-- The drafts agree with the log after every history. -/
theorem play (h : c.AtRest) (moves : List (Move η ω)) :
    Drafted ((⟨c, [], []⟩ : Interplay η ω).play app moves) := by
  have hstep : ∀ (o : Interplay η ω) m, Orderly o ∧ Drafted o →
      Orderly (o.step app m) ∧ Drafted (o.step app m) :=
    fun o m ho => ⟨ho.1.step m, ho.2.step ho.1 m⟩
  exact (play_induction hstep ⟨.start h, .start h⟩ moves).2

end Drafted

end Interplay

end JobCluster
