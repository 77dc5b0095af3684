import JobCluster.Exchange.Registry
/-!
# The places of exchanges

An exchange keeps its slot for good, but it is registered only for a while. What happens to a
registry afterwards can take it out, and then it is detached; but nothing registers it again, under
its own identifier or under another.

Main results:

- `Registry.Sheds`: how exchanges leave a registry, whichever operation takes them out;
- `Registry.Sheds.follows`, `Registry.follows_sweep`, `Registry.follows_create`: what the operations
  of a registry mean to the exchanges that were created before;
- `Registry.left_rollBack`: an exchange whose creation is rolled back has left the registry;
- `Registry.places_create`: where a new exchange stands.
-/

namespace JobCluster.Registry

/-! ## Places -/

/-- Whether every registered slot holds an exchange. -/
def Sound (r : Registry) : Prop :=
  ∀ id slot, r.slots.get? id = some slot → slot < r.exchanges.length

/-- Whether a slot holds an exchange that is registered under the identifier, or else detached. -/
structure Places (r : Registry) (id : ExchangeId) (slot : Nat) : Prop where
  alone : ∀ other, r.slots.get? other = some slot → other = id
  here : ∃ e, r.exchange? slot = some e ∧ (r.slots.get? id = some slot ∨ e.detached = true)

/-- Whether a slot holds an exchange that is detached and not registered. -/
structure Left (r : Registry) (slot : Nat) : Prop where
  unregistered : ∀ id, r.slots.get? id ≠ some slot
  detached : ∃ e, r.exchange? slot = some e ∧ e.detached = true

/-- An exchange that is not registered under its identifier has left the registry. -/
theorem Places.left {r : Registry} {id : ExchangeId} {slot : Nat} (h : r.Places id slot)
    (hid : r.slots.get? id ≠ some slot) : r.Left slot := by
  obtain ⟨e, he, hreg | hdetached⟩ := h.here
  · exact absurd hreg hid
  · refine ⟨fun other hother => ?_, e, he, hdetached⟩
    have heq := h.alone other hother
    subst heq
    exact hid hother

/-- Whether a registry may come of another one, as far as the exchanges created before go. -/
structure Follows (r s : Registry) : Prop where
  sound : r.Sound → s.Sound
  places : ∀ id slot, r.Places id slot → s.Places id slot
  left : ∀ slot, r.Left slot → s.Left slot

theorem Follows.refl (r : Registry) : r.Follows r :=
  ⟨id, fun _ _ h => h, fun _ h => h⟩

/-- What follows a registry that follows another one follows that one. -/
theorem Follows.trans {r s t : Registry} (h : r.Follows s) (h' : s.Follows t) : r.Follows t where
  sound hr := h'.sound (h.sound hr)
  places id slot hr := h'.places id slot (h.places id slot hr)
  left slot hr := h'.left slot (h.left slot hr)

/-- The counts and the order of creation mean nothing to the places of exchanges. -/
theorem Follows.of_eq {r s : Registry} (hexchanges : s.exchanges = r.exchanges)
    (hslots : s.slots = r.slots) : r.Follows s := by
  have hexchange : ∀ slot, s.exchange? slot = r.exchange? slot := fun slot => by
    rw [exchange?, hexchanges, exchange?]
  refine ⟨fun h => ?_, fun id slot h => ⟨?_, ?_⟩, fun slot h => ⟨?_, ?_⟩⟩
  · unfold Sound
    rw [hexchanges, hslots]
    exact h
  · rw [hslots]
    exact h.alone
  · rw [hslots, hexchange]
    exact h.here
  · rw [hslots]
    exact h.unregistered
  · rw [hexchange]
    exact h.detached

/-! ## Leaving the registry -/

/-- To withdraw an exchange detaches the one in its slot, and no other. -/
theorem exchange?_withdraw (r : Registry) (id : ExchangeId) (slot : Nat) :
    (r.withdraw id).exchange? slot =
      if r.slots.get? id = some slot then (r.exchange? slot).map Exchange.detach
      else r.exchange? slot := by
  rw [withdraw]
  split
  · next s h =>
    by_cases hs : s = slot
    · simp [modifyExchange, exchange?, h, hs]
    · simp [modifyExchange, exchange?, h, hs]
  · next h => simp [h]

@[simp]
theorem length_exchanges_withdraw (r : Registry) (id : ExchangeId) :
    (r.withdraw id).exchanges.length = r.exchanges.length := by
  rw [withdraw]
  split
  · simp [modifyExchange]
  · rfl

@[simp]
theorem routes_withdraw (r : Registry) (id : ExchangeId) : (r.withdraw id).routes = r.routes := by
  rw [withdraw]
  split <;> rfl

/-- What is registered after a withdrawal was registered before. -/
theorem get?_of_withdraw {r : Registry} {id other : ExchangeId} {slot : Nat}
    (h : (r.withdraw id).slots.get? other = some slot) :
    other ≠ id ∧ r.slots.get? other = some slot := by
  rw [slots_withdraw] at h
  by_cases hother : other = id
  · simp [hother] at h
  · rw [if_neg hother] at h
    exact ⟨hother, h⟩

/-- A registry follows the one that an exchange has been withdrawn from. -/
theorem follows_withdraw (r : Registry) (id : ExchangeId) : r.Follows (r.withdraw id) := by
  refine ⟨fun h other slot hslot => ?_, fun x slot h => ⟨fun other hother => ?_, ?_⟩,
    fun slot h => ⟨fun other hother => ?_, ?_⟩⟩
  · rw [length_exchanges_withdraw]
    exact h other slot (get?_of_withdraw hslot).2
  · exact h.alone other (get?_of_withdraw hother).2
  · obtain ⟨e, he, hplace⟩ := h.here
    by_cases hid : r.slots.get? id = some slot
    · refine ⟨e.detach, ?_, .inr rfl⟩
      rw [exchange?_withdraw, if_pos hid, he]
      rfl
    · refine ⟨e, ?_, hplace.imp_left fun hx => ?_⟩
      · rw [exchange?_withdraw, if_neg hid, he]
      · have hne : x ≠ id := fun heq => hid (heq ▸ hx)
        rw [slots_withdraw, if_neg hne, hx]
  · exact h.unregistered other (get?_of_withdraw hother).2
  · obtain ⟨e, he, hdetached⟩ := h.detached
    refine ⟨e, ?_, hdetached⟩
    rw [exchange?_withdraw, if_neg (h.unregistered id), he]

/-- What stands under an identifier has left the registry once that is withdrawn. -/
theorem left_withdraw {r : Registry} {id : ExchangeId} {slot : Nat} (h : r.Places id slot) :
    (r.withdraw id).Left slot := by
  refine ((follows_withdraw r id).places id slot h).left ?_
  rw [slots_withdraw, if_pos rfl]
  simp

/-- Whether one registry comes of another one as exchanges are withdrawn, one after another, with the
counts and the order of creation brought up to date. -/
inductive Sheds (r : Registry) : Registry → Prop
  | refl : Sheds r r
  | withdraw {s : Registry} (h : Sheds r s) (id : ExchangeId) : Sheds r (s.withdraw id)
  | count {s : Registry} (h : Sheds r s) (order : List CreationEntry)
      (created evicted released rolledBack : Nat) :
      Sheds r { s with order, created, evicted, released, rolledBack }

namespace Sheds

variable {r s t : Registry}

/-- Exchanges may leave in two parts. -/
theorem trans (h : r.Sheds s) (h' : s.Sheds t) : r.Sheds t := by
  induction h' with
  | refl => exact h
  | withdraw _ id ih => exact ih.withdraw id
  | count _ order created evicted released rolledBack ih =>
      exact ih.count order created evicted released rolledBack

theorem follows (h : r.Sheds s) : r.Follows s := by
  induction h with
  | refl => exact .refl r
  | @withdraw s _ id ih => exact ih.trans (s.follows_withdraw id)
  | count _ _ _ _ _ _ ih => exact ih.trans (.of_eq rfl rfl)

/-- Exchanges that leave take no route with them. -/
theorem routes (h : r.Sheds s) : s.routes = r.routes := by
  induction h with
  | refl => rfl
  | @withdraw s _ id ih => exact (s.routes_withdraw id).trans ih
  | count _ _ _ _ _ _ ih => exact ih

end Sheds

/-- A release lets one exchange leave. -/
theorem sheds_release (r : Registry) (id : ExchangeId) : r.Sheds (r.release id).2 := by
  unfold release
  split
  · exact (Sheds.refl.withdraw id).count _ _ _ _ _
  · exact .refl

theorem sheds_rollBack (r : Registry) (id : ExchangeId) : r.Sheds (r.rollBack id) := by
  unfold rollBack
  split
  · exact (Sheds.refl.withdraw id).count _ _ _ _ _
  · exact .refl

/-- What every release keeps is kept by the release of an instance. -/
theorem releaseInstance_induction {P : Registry → Prop} (h : ∀ r id, P r → P (r.release id).2)
    (r : Registry) (id : InstanceId) (hr : P r) : P (r.releaseInstance id).2 :=
  List.foldlRecOn (r.boundTo id) _ hr fun s hs x _ => h s x hs

/-- The exchanges of an instance leave one after another. -/
theorem sheds_releaseInstance (r : Registry) (id : InstanceId) :
    r.Sheds (r.releaseInstance id).2 :=
  releaseInstance_induction (P := fun s => r.Sheds s)
    (fun s x hs => hs.trans (s.sheds_release x)) r id .refl

/-- Once the routes of an instance are out, its exchanges are withdrawn. -/
theorem sheds_cleanUp (r : Registry) (id : InstanceId) :
    { r with routes := r.routes.release id }.Sheds (r.cleanUp id) :=
  sheds_releaseInstance _ id

/-- An exchange whose creation is rolled back has left. -/
theorem left_rollBack {r : Registry} {id : ExchangeId} {slot : Nat} (h : r.Places id slot) :
    (r.rollBack id).Left slot := by
  unfold rollBack
  split
  · have hleft : (r.withdraw id).Left slot := left_withdraw h
    exact ⟨hleft.unregistered, hleft.detached⟩
  · next hid =>
    refine h.left fun hslot => hid ?_
    simp [Table.contains, hslot]

/-! ## Sweeping -/

/-- The sweeping of an entry lets its exchange leave, if its time is over. -/
theorem sheds_sweepEntry (r : Registry) (entry : CreationEntry) :
    r.Sheds (r.sweepEntry entry).2 := by
  unfold sweepEntry
  split
  · exact .refl
  · split
    · exact .refl
    · split <;> exact (Sheds.refl.withdraw _).count _ _ _ _ _

theorem sheds_sweepOrder (now : Time) (entries : List CreationEntry) (r : Registry) :
    r.Sheds (sweepOrder now entries r).2 := by
  induction entries generalizing r with
  | nil => exact Sheds.refl.count _ _ _ _ _
  | cons entry rest ih =>
      unfold sweepOrder
      split
      · exact (r.sheds_sweepEntry entry).trans (ih _)
      · exact Sheds.refl.count _ _ _ _ _

/-- Once its time is noted, a sweep withdraws exchanges. -/
theorem sheds_forceSweep (r : Registry) (now : Time) :
    { r with lastSweep := now }.Sheds (r.forceSweep now).2 :=
  sheds_sweepOrder now _ _

/-- A registry follows the one that was swept by force. -/
theorem follows_forceSweep (r : Registry) (now : Time) : r.Follows (r.forceSweep now).2 := by
  have hstart : r.Follows { r with lastSweep := now } := .of_eq rfl rfl
  exact hstart.trans (r.sheds_forceSweep now).follows

theorem follows_sweep (r : Registry) (now : Time) : r.Follows (r.sweep now).2 := by
  unfold sweep
  split
  · exact r.follows_forceSweep now
  · exact .refl r

@[simp]
theorem routes_sweep (r : Registry) (now : Time) : (r.sweep now).2.routes = r.routes := by
  unfold sweep
  split
  · exact (r.sheds_forceSweep now).routes
  · rfl

/-! ## Creation -/

/-- What a registration does to the exchanges and the slots. -/
theorem register_eq_ok {r s : Registry} {id : ExchangeId} {direction : Direction} {now : Time}
    {slot : Nat} (h : r.register id direction now = .ok (slot, s)) :
    slot = r.exchanges.length ∧ s.routes = r.routes ∧ s.slots = r.slots.insert id slot ∧
      ∃ e, s.exchanges = r.exchanges ++ [e] := by
  simp only [register] at h
  split at h
  · simp at h
  · obtain ⟨rfl, rfl⟩ := Prod.mk.inj (Except.ok.inj h)
    exact ⟨rfl, rfl, rfl, _, rfl⟩

theorem follows_register {r s : Registry} {id : ExchangeId} {direction : Direction} {now : Time}
    {slot : Nat} (h : r.register id direction now = .ok (slot, s)) : r.Follows s := by
  obtain ⟨hslot, _, hslots, e, hexchanges⟩ := register_eq_ok h
  have hold : ∀ {i x}, r.exchange? i = some x → i < slot ∧ s.exchange? i = some x := by
    intro i x hx
    obtain ⟨hi, _⟩ := List.getElem?_eq_some_iff.mp hx
    refine ⟨hslot ▸ hi, ?_⟩
    rw [exchange?, hexchanges, List.getElem?_append_left hi]
    exact hx
  have hget : ∀ {i other}, i < slot →
      (s.slots.get? other = some i ↔ id ≠ other ∧ r.slots.get? other = some i) := by
    intro i other hi
    rw [hslots, Table.get?_insert]
    by_cases hother : id = other
    · simp [hother, Nat.ne_of_gt hi]
    · simp [hother]
  refine ⟨fun hr other i hi => ?_, fun x i hx => ?_, fun i hx => ?_⟩
  · rw [hexchanges, List.length_append]
    rw [hslots, Table.get?_insert] at hi
    by_cases hother : id = other
    · rw [if_pos hother] at hi
      obtain rfl := Option.some.inj hi
      simp [hslot]
    · rw [if_neg hother] at hi
      exact Nat.lt_add_right _ (hr other i hi)
  · obtain ⟨y, hy, hplace⟩ := hx.here
    obtain ⟨hi, hy'⟩ := hold hy
    refine ⟨fun other hother => hx.alone other ((hget hi).mp hother).2, y, hy', ?_⟩
    rcases hplace with hreg | hdetached
    · by_cases hid : id = x
      · subst hid
        have hcontains : r.slots.contains id = true := by simp [Table.contains, hreg]
        simp [register, hcontains] at h
      · exact .inl ((hget hi).mpr ⟨hid, hreg⟩)
    · exact .inr hdetached
  · obtain ⟨y, hy, hdetached⟩ := hx.detached
    obtain ⟨hi, hy'⟩ := hold hy
    exact ⟨fun other hother => hx.unregistered other ((hget hi).mp hother).2, y, hy', hdetached⟩

/-- A registered exchange is in its place. -/
theorem places_register {r s : Registry} {id : ExchangeId} {direction : Direction} {now : Time}
    {slot : Nat} (hr : r.Sound) (h : r.register id direction now = .ok (slot, s)) :
    s.Places id slot := by
  obtain ⟨hslot, _, hslots, e, hexchanges⟩ := register_eq_ok h
  refine ⟨fun other hother => ?_, e, ?_, .inl ?_⟩
  · by_cases hne : id = other
    · exact hne.symm
    · rw [hslots, Table.get?_insert, if_neg hne] at hother
      have hlt := hr other slot hother
      omega
  · rw [exchange?, hexchanges, hslot, List.getElem?_concat_length]
  · rw [hslots, Table.get?_insert, if_pos rfl]

/-- A creation is a registration with a sweep behind it. -/
theorem create_eq_ok {r s : Registry} {id : ExchangeId} {direction : Direction} {now : Time}
    {slot : Nat} (h : r.create id direction now = .ok (slot, s)) :
    ∃ t, r.register id direction now = .ok (slot, t) ∧ s = (t.sweep now).2 := by
  unfold create at h
  split at h
  · next hregister =>
    obtain ⟨rfl, rfl⟩ := Prod.mk.inj (Except.ok.inj h)
    exact ⟨_, hregister, rfl⟩
  · simp at h

theorem follows_create {r s : Registry} {id : ExchangeId} {direction : Direction} {now : Time}
    {slot : Nat} (h : r.create id direction now = .ok (slot, s)) : r.Follows s := by
  obtain ⟨t, hregister, rfl⟩ := create_eq_ok h
  exact (follows_register hregister).trans (t.follows_sweep now)

/-- A creation adds no route and takes none away. -/
theorem routes_create {r s : Registry} {id : ExchangeId} {direction : Direction} {now : Time}
    {slot : Nat} (h : r.create id direction now = .ok (slot, s)) : s.routes = r.routes := by
  obtain ⟨t, hregister, rfl⟩ := create_eq_ok h
  rw [routes_sweep]
  exact (register_eq_ok hregister).2.1

/-- A new exchange is registered, unless the sweep has taken it out at once. -/
theorem places_create {r s : Registry} {id : ExchangeId} {direction : Direction} {now : Time}
    {slot : Nat} (hr : r.Sound) (h : r.create id direction now = .ok (slot, s)) :
    s.Places id slot := by
  obtain ⟨t, hregister, rfl⟩ := create_eq_ok h
  exact (t.follows_sweep now).places id slot (places_register hr hregister)

end JobCluster.Registry
