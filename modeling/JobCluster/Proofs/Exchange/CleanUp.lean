import JobCluster.Proofs.Exchange.Standing
/-!
# Clearing up after process instances

When a process instance has come to its end, a registry lets go of everything that belongs to it:
its routes, and its registered exchanges. What belongs to others stays as it is, and what belongs to
nobody, too.

Main results:

- `Registry.clear_cleanUp`: nothing of the instance is left;
- `Registry.losesOnly_cleanUp`: nothing else is lost or changed;
- `Registry.Clear.cleanUp`: what was cleared up stays so when other instances follow.
-/

namespace JobCluster

/-- Whether an exchange belongs to one of some instances. -/
def Exchange.IsOf (gone : InstanceId → Prop) (e : Exchange) : Prop :=
  ∃ id, e.boundTo = some id ∧ gone id

namespace Registry

variable {r s t : Registry} {gone : InstanceId → Prop} {id other : InstanceId} {x : ExchangeId}

/-- Whether a registry holds nothing that belongs to an instance. -/
structure Clear (id : InstanceId) (r : Registry) : Prop where
  routes : ∀ key route, r.routes.get? key = some route → route.instanceId ≠ id
  exchanges : ∀ x e, r.get? x = some e → e.boundTo ≠ some id

/-- Whether a registry has lost nothing but what belonged to some instances: the other routes and
registered exchanges are still there, and the other exchanges are what they were, whether registered
or not; nothing has been added, and no exchange belongs to anyone else than before. -/
structure LosesOnly (gone : InstanceId → Prop) (r s : Registry) : Prop where
  keptRoutes : ∀ key route, r.routes.get? key = some route → ¬ gone route.instanceId →
    s.routes.get? key = some route
  keptSlots : ∀ x slot e, r.slots.get? x = some slot → r.exchange? slot = some e →
    ¬ e.IsOf gone → s.slots.get? x = some slot
  keptExchanges : ∀ slot e, r.exchange? slot = some e → ¬ e.IsOf gone → s.exchange? slot = some e
  routes : ∀ key route, s.routes.get? key = some route → r.routes.get? key = some route
  slots : ∀ x slot, s.slots.get? x = some slot → r.slots.get? x = some slot
  boundTo : ∀ slot f, s.exchange? slot = some f →
    ∃ e, r.exchange? slot = some e ∧ e.boundTo = f.boundTo

namespace LosesOnly

theorem refl (gone : InstanceId → Prop) (r : Registry) : LosesOnly gone r r :=
  ⟨fun _ _ h _ => h, fun _ _ _ h _ _ => h, fun _ _ h _ => h, fun _ _ h => h, fun _ _ h => h,
    fun _ f hf => ⟨f, hf, rfl⟩⟩

/-- What is lost in two steps is lost for the same reason. -/
theorem trans (h : LosesOnly gone r s) (h' : LosesOnly gone s t) : LosesOnly gone r t where
  keptRoutes key route hroute hkept :=
    h'.keptRoutes key route (h.keptRoutes key route hroute hkept) hkept
  keptSlots x slot e hslot he hkept :=
    h'.keptSlots x slot e (h.keptSlots x slot e hslot he hkept) (h.keptExchanges slot e he hkept)
      hkept
  keptExchanges slot e he hkept := h'.keptExchanges slot e (h.keptExchanges slot e he hkept) hkept
  routes key route hroute := h.routes key route (h'.routes key route hroute)
  slots x slot hslot := h.slots x slot (h'.slots x slot hslot)
  boundTo := by
    intro slot g hg
    obtain ⟨f, hf, hbound'⟩ := h'.boundTo slot g hg
    obtain ⟨e, he, hbound⟩ := h.boundTo slot f hf
    exact ⟨e, he, hbound.trans hbound'⟩

/-- Who is still registered was registered before, as belonging to the same instance. -/
theorem get?_eq_some (h : LosesOnly gone r s) {f : Exchange} (hf : s.get? x = some f) :
    ∃ e, r.get? x = some e ∧ e.boundTo = f.boundTo := by
  obtain ⟨slot, hslot, hf⟩ := Registry.get?_eq_some.mp hf
  obtain ⟨e, he, hbound⟩ := h.boundTo slot f hf
  exact ⟨e, Registry.get?_eq_some.mpr ⟨slot, h.slots x slot hslot, he⟩, hbound⟩

/-- A registry that is clear of an instance stays clear. -/
theorem clear (h : LosesOnly gone r s) (hr : r.Clear id) : s.Clear id where
  routes key route hroute := hr.routes key route (h.routes key route hroute)
  exchanges x f hf := by
    obtain ⟨e, he, hbound⟩ := h.get?_eq_some hf
    rw [← hbound]
    exact hr.exchanges x e he

end LosesOnly

/-! ## Releases -/

/-- To withdraw an exchange of what is gone loses nothing else. -/
theorem losesOnly_withdraw (h : ∀ e, r.get? x = some e → e.IsOf gone) :
    LosesOnly gone r (r.withdraw x) := by
  have hroutes : (r.withdraw x).routes = r.routes := by
    rw [withdraw]
    split <;> rfl
  -- only the exchange that stood under the identifier is detached, and it belongs to the instances
  have hkept : ∀ slot e, r.exchange? slot = some e → ¬ e.IsOf gone →
      r.slots.get? x ≠ some slot := by
    intro slot e he hkept hslot
    exact hkept (h e (get?_eq_some.mpr ⟨slot, hslot, he⟩))
  refine ⟨?_, fun y slot e hslot he hnot => ?_, fun slot e he hnot => ?_, ?_, ?_, ?_⟩
  · rw [hroutes]
    exact fun _ _ hroute _ => hroute
  · rw [slots_withdraw, if_neg, hslot]
    rintro rfl
    exact hkept slot e he hnot hslot
  · rw [exchange?_withdraw, if_neg (hkept slot e he hnot), he]
  · rw [hroutes]
    exact fun _ _ hroute => hroute
  · exact fun y slot hslot => (get?_of_withdraw hslot).2
  · intro slot f hf
    rw [exchange?_withdraw] at hf
    split at hf
    · obtain ⟨e, he, rfl⟩ := Option.map_eq_some_iff.mp hf
      exact ⟨e, he, rfl⟩
    · exact ⟨f, hf, rfl⟩

/-- The counts mean nothing to routes and exchanges. -/
theorem LosesOnly.of_eq (h : LosesOnly gone r s) (hroutes : t.routes = s.routes)
    (hslots : t.slots = s.slots) (hexchanges : t.exchanges = s.exchanges) :
    LosesOnly gone r t := by
  have hexchange : ∀ slot, t.exchange? slot = s.exchange? slot := fun slot => by
    rw [exchange?, hexchanges, exchange?]
  constructor
  · simpa only [hroutes] using h.keptRoutes
  · simpa only [hslots] using h.keptSlots
  · simpa only [hexchange] using h.keptExchanges
  · simpa only [hroutes] using h.routes
  · simpa only [hslots] using h.slots
  · simpa only [hexchange] using h.boundTo

theorem losesOnly_release (h : ∀ e, r.get? x = some e → e.IsOf gone) :
    LosesOnly gone r (r.release x).2 := by
  unfold release
  split
  · exact (losesOnly_withdraw h).of_eq rfl rfl rfl
  · exact .refl gone r

/-- A released exchange has no slot, and all others keep theirs. -/
theorem slots_release (r : Registry) (x y : ExchangeId) :
    (r.release x).2.slots.get? y = if y = x then none else r.slots.get? y := by
  unfold release
  split
  · exact r.slots_withdraw x y
  · next hx =>
    split
    · next hy => simpa [Table.contains, hy] using hx
    · rfl

/-- Releases in turn of exchanges that belong to some instances. -/
theorem losesOnly_releases {xs : List ExchangeId}
    (h : ∀ x ∈ xs, ∀ e, r.get? x = some e → e.IsOf gone) :
    LosesOnly gone r (xs.foldl (fun r x => (r.release x).2) r) := by
  induction xs generalizing r with
  | nil => exact .refl gone r
  | cons x rest ih =>
      have hfirst : LosesOnly gone r (r.release x).2 :=
        losesOnly_release (h x List.mem_cons_self)
      refine hfirst.trans (ih fun y hy f hf => ?_)
      obtain ⟨e, he, hbound⟩ := hfirst.get?_eq_some hf
      obtain ⟨id, hid, hgone⟩ := h y (List.mem_cons_of_mem x hy) e he
      exact ⟨id, hbound ▸ hid, hgone⟩

/-- Exchanges that are released one after another have no slots, and all others keep theirs. -/
theorem slots_releases (r : Registry) (xs : List ExchangeId) (y : ExchangeId) :
    (xs.foldl (fun r x => (r.release x).2) r).slots.get? y =
      if y ∈ xs then none else r.slots.get? y := by
  induction xs generalizing r with
  | nil => simp
  | cons x rest ih =>
      rw [List.foldl_cons, ih, slots_release]
      by_cases hrest : y ∈ rest
      · rw [if_pos hrest, if_pos (List.mem_cons_of_mem x hrest)]
      · by_cases hx : y = x <;> simp [hrest, hx]

/-! ## Instances that are gone -/

/-- The exchanges bound to an instance are those in the registry whose binding names it. -/
theorem mem_boundTo : x ∈ r.boundTo id ↔ ∃ e, r.get? x = some e ∧ e.boundTo = some id := by
  have hkeys : ∀ slot, r.slots.get? x = some slot → x ∈ r.slots.keys := fun slot hslot =>
    List.mem_map.mpr ⟨(x, slot), (r.slots.mem_entries_iff x slot).mpr hslot, rfl⟩
  rw [boundTo, List.mem_filter]
  cases hget : r.get? x with
  | none => simp
  | some e =>
      obtain ⟨slot, hslot, _⟩ := get?_eq_some.mp hget
      simp [hkeys slot hslot]

theorem losesOnly_releaseInstance (h : gone id) : LosesOnly gone r (r.releaseInstance id).2 := by
  refine losesOnly_releases fun x hx e he => ?_
  obtain ⟨f, hf, hbound⟩ := mem_boundTo.mp hx
  rw [hf] at he
  exact Option.some.inj he ▸ ⟨id, hbound, h⟩

/-- A registry loses the routes and the exchanges of an instance, and nothing else. -/
theorem losesOnly_cleanUp (h : gone id) : LosesOnly gone r (r.cleanUp id) := by
  have hroutes : LosesOnly gone r { r with routes := r.routes.release id } := by
    refine ⟨fun key route hroute hkept => ?_, fun _ _ _ hslot _ _ => hslot, fun _ _ he _ => he,
      fun key route hroute => ?_, fun _ _ hslot => hslot, fun _ f hf => ⟨f, hf, rfl⟩⟩
    · have hne : route.instanceId ≠ id := fun heq => hkept (heq ▸ h)
      rw [Routes.get?_release, hroute]
      simp [hne]
    · rw [Routes.get?_release] at hroute
      exact (Option.filter_eq_some_iff.mp hroute).1
  exact hroutes.trans (losesOnly_releaseInstance h)

/-- Nothing of the instance is left. -/
theorem clear_cleanUp (r : Registry) (id : InstanceId) : (r.cleanUp id).Clear id := by
  have hreleases : LosesOnly (· = id) { r with routes := r.routes.release id } (r.cleanUp id) :=
    losesOnly_releaseInstance rfl
  refine ⟨fun key route hroute => ?_, fun x f hf hbound => ?_⟩
  · have hkept : (r.routes.release id).get? key = some route := hreleases.routes key route hroute
    rw [Routes.get?_release] at hkept
    simpa using (Option.filter_eq_some_iff.mp hkept).2
  · obtain ⟨e, he, hsame⟩ := hreleases.get?_eq_some hf
    obtain ⟨slot, hslot, _⟩ := get?_eq_some.mp hf
    have hmem := mem_boundTo.mpr ⟨e, he, hsame.trans hbound⟩
    rw [cleanUp, releaseInstance, slots_releases, if_pos hmem] at hslot
    cases hslot

/-- What was cleared up stays so when other instances follow. -/
theorem Clear.cleanUp (h : r.Clear id) (other : InstanceId) : (r.cleanUp other).Clear id := by
  have hloses : LosesOnly (· = other) r (r.cleanUp other) := losesOnly_cleanUp rfl
  exact hloses.clear h

end Registry

end JobCluster
