import JobCluster.Proofs.Cluster.Bookkeeping
/-!
# The books of a registry

A registry finds its exchanges by their identifiers, lists them in the order of their creation, and
counts how many have come and how many have left, and how. An exchange can be released, swept out or
withdrawn, its identifier can be used again, and the order is cut down by sweeps alone; still the
books agree with each other after every step, wherever the clock goes.

Main results:

- `Registry.Books`: what it means that the books agree;
- `Registry.Books.leave`: an exchange leaves the registry, whichever way;
- `Registry.books_register`, `Registry.books_sweepOrder`, `RegistryChange.books_apply`: the
  operations of a registry;
- `Interplay.books_play`: the books agree at every moment of a history that starts with empty
  registries.
-/

namespace JobCluster

variable {η ω : Type}

namespace Registry

variable {r s : Registry} {order : List CreationEntry}

/-! ## Books -/

/-- The entries of a slot in an order of creation. -/
def entriesOf (order : List CreationEntry) (slot : Nat) : List CreationEntry :=
  order.filter fun x => decide (x.slot = slot)

/-- Whether the books of a registry agree with each other, with a list as the order of creation. -/
structure Books (r : Registry) (order : List CreationEntry) : Prop where
  /-- An exchange is registered, under its own identifier, exactly while it is not detached. -/
  faithful : ∀ id slot, r.slots.get? id = some slot ↔ r.mark? slot = some (id, false)
  /-- A registered exchange has one entry, and the entry has its time. -/
  once : ∀ id slot e, r.slots.get? id = some slot → r.exchange? slot = some e →
    entriesOf order slot = [⟨e.createdAt, slot⟩]
  known : ∀ x ∈ order, x.slot < r.exchanges.length
  sorted : order.Pairwise fun x y => x.createdAt ≤ y.createdAt
  drawn : r.created = r.exchanges.length
  balance : r.created = r.size + (r.evicted + r.released + r.rolledBack)

/-- Whether nothing was ever created in a registry. -/
structure Unused (r : Registry) : Prop where
  exchanges : r.exchanges = []
  slots : r.slots = ∅
  order : r.order = []
  created : r.created = 0
  left : r.evicted = 0 ∧ r.released = 0 ∧ r.rolledBack = 0

/-- The books of an unused registry agree. -/
theorem Unused.books (h : r.Unused) : r.Books r.order where
  faithful id slot := by simp [mark?, exchange?, h.exchanges, h.slots]
  once id slot e hslot := by simp [h.slots] at hslot
  known x hx := by simp [h.order] at hx
  sorted := by simp [h.order]
  drawn := by rw [h.created, h.exchanges, List.length_nil]
  balance := by
    obtain ⟨hevicted, hreleased, hrolledBack⟩ := h.left
    rw [h.created, hevicted, hreleased, hrolledBack, size, h.slots]
    rfl

namespace Books

/-- A registry whose books agree is tidy. -/
theorem tidy (h : r.Books order) : r.Tidy :=
  fun id slot hslot => (h.faithful id slot).mp hslot

/-- A slot is not registered if its exchange is not registered under its own identifier. -/
theorem unregistered (h : r.Books order) {slot : Nat}
    (hslot : ∀ e, r.exchange? slot = some e → r.slots.get? e.id ≠ some slot) (id : ExchangeId) :
    r.slots.get? id ≠ some slot := by
  intro hid
  obtain ⟨e, he, heid, _⟩ := mark?_eq_some.mp (h.tidy id slot hid)
  exact hslot e he (heid ▸ hid)

/-- The first entry of the order may go if its exchange is not registered. -/
theorem tail {entry : CreationEntry} (h : r.Books (entry :: order))
    (hentry : ∀ id, r.slots.get? id ≠ some entry.slot) : r.Books order where
  faithful := h.faithful
  once id slot e hslot he := by
    have hne : entry.slot ≠ slot := fun heq => hentry id (heq ▸ hslot)
    have honce : entriesOf (entry :: order) slot = [⟨e.createdAt, slot⟩] :=
      h.once id slot e hslot he
    rwa [entriesOf, List.filter_cons_of_neg (by simpa using hne)] at honce
  known x hx := h.known x (List.mem_cons_of_mem _ hx)
  sorted := (List.pairwise_cons.mp h.sorted).2
  drawn := h.drawn
  balance := h.balance

end Books

/-! ## Leaving the registry -/

/-- To withdraw an exchange detaches it and takes its slot away. -/
theorem withdraw_eq {id : ExchangeId} {slot : Nat} (h : r.slots.get? id = some slot) :
    r.withdraw id = { r with slots := r.slots.erase id }.modifyExchange slot Exchange.detach := by
  simp only [withdraw, h]

/-- An exchange leaves the registry, and it is counted in one way or another. -/
theorem Books.leave (h : r.Books order) {id : ExchangeId} {slot : Nat}
    (hslot : r.slots.get? id = some slot) (hslots : s.slots = r.slots.erase id)
    (hexchanges : s.exchanges = r.exchanges.modify slot Exchange.detach)
    (hcreated : s.created = r.created)
    (hleft : s.evicted + s.released + s.rolledBack =
      r.evicted + r.released + r.rolledBack + 1) : s.Books order := by
  have hget : ∀ other, s.slots.get? other = (r.withdraw id).slots.get? other := fun other => by
    rw [hslots, withdraw_eq hslot]
    rfl
  have hexchange : ∀ i, s.exchange? i = (r.withdraw id).exchange? i := fun i => by
    rw [exchange?, hexchanges, withdraw_eq hslot]
    rfl
  have hlength : s.exchanges.length = r.exchanges.length := by
    rw [hexchanges, List.length_modify]
  have htidy : (r.withdraw id).Tidy := tidy_withdraw h.tidy id
  refine ⟨fun other i => ⟨fun hi => ?_, fun hmark => ?_⟩, fun other i e hi he => ?_, fun x hx => ?_,
    h.sorted, ?_, ?_⟩
  · rw [hget] at hi
    rw [mark?, hexchange]
    exact htidy other i hi
  · rw [mark?, hexchange, ← mark?, mark?_withdraw] at hmark
    rw [hget, slots_withdraw]
    by_cases hid : r.slots.get? id = some i
    · rw [if_pos hid, h.tidy id i hid] at hmark
      simp at hmark
    · rw [if_neg hid, ← h.faithful] at hmark
      have hne : other ≠ id := by
        rintro rfl
        exact hid hmark
      rw [if_neg hne, hmark]
  · rw [hget] at hi
    obtain ⟨hne, hother⟩ := get?_of_withdraw hi
    have hid : r.slots.get? id ≠ some i := fun hid => hne (h.tidy.id_eq hother hid)
    rw [hexchange, exchange?_withdraw, if_neg hid] at he
    exact h.once other i e hother he
  · rw [hlength]
    exact h.known x hx
  · rw [hcreated, hlength, h.drawn]
  · have hsize : s.size + 1 = r.size := by
      rw [size, hslots]
      exact Table.size_erase hslot
    have hbalance := h.balance
    omega

/-- The books still agree once an exchange is released. -/
theorem books_release (h : r.Books r.order) (id : ExchangeId) :
    (r.release id).2.Books (r.release id).2.order := by
  unfold release
  split
  · next hid =>
    obtain ⟨slot, hslot⟩ := Option.isSome_iff_exists.mp hid
    simp only [withdraw_eq hslot]
    refine h.leave hslot rfl rfl rfl ?_
    show r.evicted + (r.released + 1) + r.rolledBack = _
    omega
  · exact h

theorem books_rollBack (h : r.Books r.order) (id : ExchangeId) :
    (r.rollBack id).Books (r.rollBack id).order := by
  unfold rollBack
  split
  · next hid =>
    obtain ⟨slot, hslot⟩ := Option.isSome_iff_exists.mp hid
    simp only [withdraw_eq hslot]
    exact h.leave hslot rfl rfl rfl rfl
  · exact h

theorem books_releaseInstance (h : r.Books r.order) (id : InstanceId) :
    (r.releaseInstance id).2.Books (r.releaseInstance id).2.order :=
  releaseInstance_induction (P := fun r => r.Books r.order)
    (fun _ x hr => books_release hr x) r id h

/-- The routes mean nothing to the books. -/
theorem Books.setRoutes (h : r.Books order) (routes : Routes) : { r with routes }.Books order :=
  ⟨h.faithful, h.once, h.known, h.sorted, h.drawn, h.balance⟩

theorem books_cleanUp (h : r.Books r.order) (id : InstanceId) :
    (r.cleanUp id).Books (r.cleanUp id).order :=
  books_releaseInstance (r := { r with routes := r.routes.release id }) (h.setRoutes _) id

/-! ## Sweeping -/

/-- The exchange of the first entry is swept out, unless it has left before; the entry may go. -/
theorem books_sweepEntry {entry : CreationEntry} (h : r.Books (entry :: order)) :
    (r.sweepEntry entry).2.Books order := by
  unfold sweepEntry
  split
  · next hnone => exact h.tail (h.unregistered fun e he => by simp [hnone] at he)
  · next e he =>
    split
    · next hslot =>
      refine h.tail (h.unregistered fun f hf => ?_)
      rw [he] at hf
      exact Option.some.inj hf ▸ hslot
    · next hslot =>
      have hslot : r.slots.get? e.id = some entry.slot := Decidable.not_not.mp hslot
      have hgone : ∀ id, (r.slots.erase e.id).get? id ≠ some entry.slot := by
        intro id hid
        rw [Table.get?_erase] at hid
        split at hid
        · cases hid
        · next hne => exact hne (h.tidy.id_eq hid hslot)
      simp only [withdraw_eq hslot]
      split
      · refine Books.tail (h.leave hslot rfl rfl rfl ?_) hgone
        show r.evicted + (r.released + 1) + r.rolledBack = _
        omega
      · refine Books.tail (h.leave hslot rfl rfl rfl ?_) hgone
        show r.evicted + 1 + r.released + r.rolledBack = _
        omega

/-- A sweep goes through the order of creation and keeps what is left of it. -/
theorem books_sweepOrder (now : Time) {entries : List CreationEntry} (h : r.Books entries) :
    (sweepOrder now entries r).2.Books (sweepOrder now entries r).2.order := by
  induction entries generalizing r with
  | nil => exact ⟨h.faithful, h.once, h.known, h.sorted, h.drawn, h.balance⟩
  | cons entry rest ih =>
      unfold sweepOrder
      split
      · exact ih (books_sweepEntry h)
      · exact ⟨h.faithful, h.once, h.known, h.sorted, h.drawn, h.balance⟩

/-- The books still agree after a forced sweep. -/
theorem books_forceSweep (h : r.Books r.order) (now : Time) :
    (r.forceSweep now).2.Books (r.forceSweep now).2.order :=
  books_sweepOrder now (r := { r with lastSweep := now })
    ⟨h.faithful, h.once, h.known, h.sorted, h.drawn, h.balance⟩

theorem books_sweep (h : r.Books r.order) (now : Time) :
    (r.sweep now).2.Books (r.sweep now).2.order := by
  unfold sweep
  split
  · exact books_forceSweep h now
  · exact h

/-! ## Creation -/

/-- No entry is later than the last one. -/
theorem Books.le_lastCreated (h : r.Books r.order) {x : CreationEntry} (hx : x ∈ r.order) :
    x.createdAt ≤ r.lastCreated := by
  unfold lastCreated
  cases hlast : r.order.getLast? with
  | none => simp [List.getLast?_eq_none_iff.mp hlast] at hx
  | some last =>
      obtain ⟨init, hinit⟩ := List.getLast?_eq_some_iff.mp hlast
      have hsorted := h.sorted
      rw [hinit] at hx hsorted
      rcases List.mem_append.mp hx with hx | hx
      · exact (List.pairwise_append.mp hsorted).2.2 x hx last (List.mem_singleton_self _)
      · exact Nat.le_of_eq (congrArg CreationEntry.createdAt (List.mem_singleton.mp hx))

/-- The exchange in a slot after one more was put behind the others. -/
theorem getElem?_exchanges_append (r : Registry) (e : Exchange) (i : Nat) :
    (r.exchanges ++ [e])[i]? = if i = r.exchanges.length then some e else r.exchange? i := by
  by_cases hi : i = r.exchanges.length
  · rw [if_pos hi, hi, List.getElem?_concat_length]
  · rw [if_neg hi, exchange?]
    rcases Nat.lt_or_gt_of_ne hi with hi | hi
    · exact List.getElem?_append_left hi
    · rw [List.getElem?_eq_none (Nat.le_of_lt hi), List.getElem?_eq_none]
      rwa [List.length_append]

/-- A new exchange comes last in the order of creation, even if the clock was set back. -/
theorem books_register {id : ExchangeId} {direction : Direction} {now : Time} {slot : Nat}
    (hr : r.Books r.order) (h : r.register id direction now = .ok (slot, s)) :
    s.Books s.order := by
  simp only [register] at h
  split at h
  · simp at h
  · next hfree =>
    obtain ⟨rfl, rfl⟩ := Prod.mk.inj (Except.ok.inj h)
    have hfree : r.slots.get? id = none := by simpa [Table.contains] using hfree
    have hbound : ∀ other i, r.slots.get? other = some i → i ≠ r.exchanges.length := by
      intro other i hi
      refine Nat.ne_of_lt ((isSome_mark? r i).mp ?_)
      rw [hr.tidy other i hi]
      rfl
    have hunlisted : entriesOf r.order r.exchanges.length = [] :=
      List.filter_eq_nil_iff.mpr fun x hx => by simpa using Nat.ne_of_lt (hr.known x hx)
    refine ⟨fun other i => ?_, fun other i e hi he => ?_, fun x hx => ?_, ?_, ?_, ?_⟩
    · simp only [Table.get?_insert, mark?, exchange?, getElem?_exchanges_append]
      by_cases hi : i = r.exchanges.length
      · rw [if_pos hi]
        by_cases hother : id = other
        · simp [hother, hi]
        · have hnone : r.slots.get? other ≠ some i := fun hget => hbound other i hget hi
          simp [hother, hnone]
      · rw [if_neg hi, ← exchange?, ← mark?, ← hr.faithful]
        by_cases hother : id = other
        · simp [← hother, hfree, Ne.symm hi]
        · rw [if_neg hother]
    · simp only [Table.get?_insert] at hi
      simp only [exchange?, getElem?_exchanges_append] at he
      rw [entriesOf, List.filter_append, ← entriesOf]
      split at hi
      · obtain rfl := Option.some.inj hi
        rw [if_pos rfl] at he
        obtain rfl := Option.some.inj he
        simp [hunlisted]
      · have hne : i ≠ r.exchanges.length := hbound other i hi
        rw [if_neg hne] at he
        simp [hr.once other i e hi he, Ne.symm hne]
    · rw [List.length_append, List.length_singleton]
      rcases List.mem_append.mp hx with hx | hx
      · exact Nat.lt_add_right _ (hr.known x hx)
      · rw [List.mem_singleton.mp hx]
        exact Nat.lt_add_one _
    · refine List.pairwise_append.mpr ⟨hr.sorted, List.pairwise_singleton _ _, fun x hx y hy => ?_⟩
      rw [List.mem_singleton.mp hy]
      exact Nat.le_trans (hr.le_lastCreated hx) (Nat.le_max_right _ _)
    · simp [hr.drawn]
    · have hbalance := hr.balance
      have hsize := Table.size_insert hfree r.exchanges.length
      simp only [size] at *
      omega

theorem books_create {id : ExchangeId} {direction : Direction} {now : Time} {slot : Nat}
    (hr : r.Books r.order) (h : r.create id direction now = .ok (slot, s)) : s.Books s.order := by
  obtain ⟨t, hregister, rfl⟩ := create_eq_ok h
  exact books_sweep (books_register hr hregister) now

/-! ## Conversations -/

/-- Exchanges that keep what they were created with do not disturb the books. -/
theorem Books.of_amends (h : r.Books order) (hs : r.Amends s)
    (hdates : ∀ slot f, s.exchange? slot = some f →
      ∃ e, r.exchange? slot = some e ∧ f.createdAt = e.createdAt)
    (hcreated : s.created = r.created) (hleft : s.evicted + s.released + s.rolledBack =
      r.evicted + r.released + r.rolledBack) : s.Books order where
  faithful id slot := by rw [hs.slots, hs.marks, h.faithful]
  once id slot f hslot hf := by
    obtain ⟨e, he, hdate⟩ := hdates slot f hf
    rw [hdate]
    exact h.once id slot e (hs.slots ▸ hslot) he
  known x hx := by
    rw [hs.length]
    exact h.known x hx
  sorted := h.sorted
  drawn := by rw [hcreated, hs.length, h.drawn]
  balance := by
    rw [hcreated, hleft, size, hs.slots]
    exact h.balance

theorem Books.converses (h : r.Books r.order) (hs : r.Converses s) : s.Books s.order := by
  induction hs with
  | refl => exact h
  | @set s _ slot e f he hf ih =>
      refine ih.of_amends (amends_setExchange he hf.id hf.detached) (fun i g hg => ?_) rfl rfl
      rw [exchange?_setExchange he] at hg
      by_cases hi : slot = i
      · subst hi
        rw [if_pos rfl] at hg
        obtain rfl := Option.some.inj hg
        exact ⟨e, he, hf.createdAt⟩
      · rw [if_neg hi] at hg
        exact ⟨g, hg, rfl⟩

end Registry

/-! ## What happens apart from transactions -/

namespace RegistryChange

/-- Whether a change of a registry leaves the times alone at which exchanges were created. -/
def KeepsDates : RegistryChange → Prop
  | .amend _ amendment => ∀ e, (amendment.change e).createdAt = e.createdAt
  | .advance _ _ | .complete _ _ | .fail _ _ _ | .bind _ _ _ | .release _ | .releaseInstance _
  | .cleanUp _ | .sweep _ | .forceSweep _ | .setRoutes _ => True

/-- The books still agree after every change of a registry that leaves the dates alone. -/
theorem books_apply {r : Registry} (h : r.Books r.order) {a : RegistryChange} (ha : a.KeepsDates) :
    (a.apply r).Books (a.apply r).order := by
  cases a with
  | advance id target => exact h.converses (r.converses_advance id target)
  | complete id status => exact h.converses (r.converses_complete id status)
  | fail id failure explanation => exact h.converses (r.converses_fail id failure explanation)
  | bind catalog id key => exact h.converses (r.converses_bind catalog id key)
  | amend slot amendment =>
      refine h.of_amends (amends_modifyExchange r slot amendment) (fun i f hf => ?_) rfl rfl
      simp only [apply, Registry.exchange?, Registry.modifyExchange, List.getElem?_modify,
        Option.map_eq_map, Option.map_eq_some_iff] at hf
      obtain ⟨e, he, rfl⟩ := hf
      refine ⟨e, he, ?_⟩
      split
      · exact ha e
      · rfl
  | release id => exact Registry.books_release h id
  | releaseInstance id => exact Registry.books_releaseInstance h id
  | cleanUp id => exact Registry.books_cleanUp h id
  | sweep now => exact Registry.books_sweep h now
  | forceSweep now => exact Registry.books_forceSweep h now
  | setRoutes routes => exact h.setRoutes routes

end RegistryChange

/-! ## Histories -/

/-- Whether a move leaves the times alone at which exchanges were created. -/
def Move.KeepsDates : Move η ω → Prop
  | .registry _ a => a.KeepsDates
  | .begin _ _ | .work _ _ | .depart _ _ _ | .advance _ | .store _ | .elsewhere _ => True

namespace Cluster

/-- Whether the books of every node agree. -/
def Books (c : Cluster η ω) : Prop :=
  ∀ n, (c.node n).registry.Books (c.node n).registry.order

/-- The books still agree if nothing has become of what transactions work on. -/
theorem Books.unmoved {c d : Cluster η ω} (h : c.Books) (hd : c.Unmoved d) : d.Books := by
  intro n
  rw [hd.registry n]
  exact h n

theorem Books.carryOut {c : Cluster η ω} (h : c.Books) (app : Application η ω) (thread : Thread)
    (phase : Phase) (callback : Callback η) : (c.carryOut app thread phase callback).Books :=
  fun n => carryOut_registry (P := fun r => r.Books r.order)
    (fun _ id hr => Registry.books_rollBack hr id) (fun _ id hr => Registry.books_cleanUp hr id)
    app thread phase c callback n (h n)

theorem Books.registry {c : Cluster η ω} (h : c.Books) (n : NodeName) {a : RegistryChange}
    (ha : a.KeepsDates) : (c.modifyRegistry n fun r => a.apply r).Books := by
  intro m
  rw [registry_modifyRegistry]
  by_cases hnm : n = m
  · subst hnm
    rw [if_pos rfl]
    exact RegistryChange.books_apply (h n) ha
  · rw [if_neg hnm]
    exact h m

theorem Books.perform {c : Cluster η ω} (h : c.Books) (tx : TxId) (a : WorkCall η) :
    (a.perform tx c).2.Books := by
  intro n
  rcases (a.effect_perform tx c).registry n with hsame | ⟨id, direction, slot, _, _, hcreate⟩
  · rw [hsame]
    exact h n
  · exact Registry.books_create (h n) hcreate

end Cluster

namespace Interplay

/-- The books agree after every move. -/
theorem books_step {app : Application η ω} {o : Interplay η ω} (h : o.cluster.Books)
    {m : Move η ω} (hm : m.KeepsDates) : (o.step app m).cluster.Books := by
  have hbegun : ∀ n thread, (o.cluster.begin n thread).2.Books := by
    intro n thread i
    rw [Cluster.registry_begin]
    exact h i
  have hout := outcome_step app o m
  generalize o.step app m = next at hout
  cases hout with
  | idle _ => exact h
  | refused n thread resource => exact h
  | begun n thread hbegin =>
      have hnext := hbegun n thread
      rwa [hbegin] at hnext
  | worked a _ => exact h.perform _ a
  | departed _ _ _ _ hc _ => exact h.unmoved hc
  | before i _ _ => exact h.carryOut app _ _ _
  | decided i committed _ _ hc _ => exact h.unmoved hc
  | after i _ _ => exact h.carryOut app _ _ _
  | store a => exact h
  | registry n a => exact h.registry n hm
  | elsewhere what => exact h.unmoved (o.cluster.unmoved_elsewhere what)

/-- The books agree after every history, if they agree when it begins. -/
theorem books_play_of_books {app : Application η ω} {o : Interplay η ω} (h : o.cluster.Books)
    {moves : List (Move η ω)} (hmoves : ∀ m ∈ moves, m.KeepsDates) :
    (o.play app moves).cluster.Books := by
  induction moves generalizing o with
  | nil => exact h
  | cons m rest ih =>
      exact ih (books_step h (hmoves m List.mem_cons_self)) fun x hx =>
        hmoves x (List.mem_cons_of_mem _ hx)

/-- In a history that starts with empty registries, the books of every node agree at every moment.
An exchange that was ever created is registered under its identifier exactly while it is not
detached, and nothing else is registered. A registered exchange has exactly one entry in the order
of creation, and the entry has the time of its creation. The order of creation never goes back in
time. As many exchanges were created as are registered, were swept out, released and rolled back. -/
theorem books_play (app : Application η ω) {c : Cluster η ω}
    (hc : ∀ n, (c.node n).registry.Unused) {moves : List (Move η ω)}
    (hmoves : ∀ m ∈ moves, m.KeepsDates) (n : NodeName) :
    let r := (((⟨c, [], []⟩ : Interplay η ω).play app moves).cluster.node n).registry
    (r.stats.created = r.exchanges.length ∧ ∀ slot e, r.exchange? slot = some e →
      (r.slots.get? e.id = some slot ↔ e.detached = false)) ∧
    (∀ id slot, r.slots.get? id = some slot → ∃ e, r.exchange? slot = some e ∧ e.id = id ∧
      r.order.filter (fun x => decide (x.slot = slot)) = [⟨e.createdAt, slot⟩]) ∧
    r.order.Pairwise (fun x y => x.createdAt ≤ y.createdAt) ∧
    r.stats.created = r.stats.live + r.stats.evicted + r.stats.released + r.stats.rolledBack := by
  intro r
  have hbooks : r.Books r.order :=
    books_play_of_books (o := ⟨c, [], []⟩) (fun m => (hc m).books) hmoves n
  refine ⟨⟨hbooks.drawn, fun slot e he => ?_⟩, fun id slot hslot => ?_, hbooks.sorted, ?_⟩
  · rw [hbooks.faithful, Registry.mark?_of_exchange? he]
    simp
  · obtain ⟨e, he, hid, _⟩ := Registry.mark?_eq_some.mp (hbooks.tidy id slot hslot)
    exact ⟨e, he, hid, hbooks.once id slot e hslot he⟩
  · show r.created = r.size + r.evicted + r.released + r.rolledBack
    rw [hbooks.balance]
    omega

/-- The registries of the blank cluster are unused. -/
theorem Cluster.unused_blank (n : NodeName) : (Cluster.blank.node n).registry.Unused :=
  ⟨rfl, rfl, rfl, rfl, rfl, rfl, rfl⟩

/-- An exchange is released and its identifier used again; the new exchange is swept out, and a
later one is withdrawn with the transaction that has created all three. -/
def clearance : List (Move Unit Unit) :=
  [.begin "a" .main, .work ⟨0⟩ (.createExchange "a" ⟨"x"⟩ .myRole),
    .registry "a" (.release ⟨"x"⟩), .work ⟨0⟩ (.createExchange "a" ⟨"x"⟩ .myRole),
    .registry "a" (.forceSweep 200000), .work ⟨0⟩ (.createExchange "a" ⟨"y"⟩ .myRole),
    .depart ⟨0⟩ .main .rollback, .advance 0, .advance 0, .advance 0]

/-- All three exchanges have left, each in a way of its own. -/
theorem books_play_clearance :
    let r := ((playBlank clearance).cluster.node "a").registry
    r.stats.created = 3 ∧
      r.stats.live + r.stats.evicted + r.stats.released + r.stats.rolledBack = 3 ∧
      r.stats.evicted = 1 ∧ r.stats.released = 1 ∧ r.stats.rolledBack = 1 ∧
      ∀ slot e, r.exchange? slot = some e →
        (r.slots.get? e.id = some slot ↔ e.detached = false) := by
  have hmoves : ∀ m ∈ clearance, m.KeepsDates := by
    simp [clearance, Move.KeepsDates, RegistryChange.KeepsDates]
  have hbooks := books_play .silent Cluster.unused_blank hmoves "a"
  exact ⟨rfl, hbooks.2.2.2.symm, rfl, rfl, rfl, hbooks.1.2⟩

end Interplay

end JobCluster
