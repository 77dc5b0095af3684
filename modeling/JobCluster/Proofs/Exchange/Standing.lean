import JobCluster.Proofs.Exchange.Placement
/-!
# Registered exchanges

An exchange that is registered stands under its own identifier and is not detached. Nothing that
happens to a registry changes this: conversations go on in their slots, and whoever takes an
exchange out detaches it.

Main results:

- `Registry.Amends`: what the progress of conversations leaves alone;
- `RegistryChange.tidy_apply`, `RegistryChange.follows_apply`: what may happen to a registry apart
  from transactions;
- `Registry.tidy_create`, `Registry.Sheds.tidy`: the part of transactions.
-/

namespace JobCluster

namespace Registry

variable {r s t : Registry}

/-! ## Marks -/

/-- The identifier of the exchange in a slot, and whether the exchange is detached. -/
def mark? (r : Registry) (slot : Nat) : Option (ExchangeId × Bool) :=
  (r.exchange? slot).map fun e => (e.id, e.detached)

/-- Whether every registered slot holds an exchange with that identifier that is not detached. -/
def Tidy (r : Registry) : Prop :=
  ∀ id slot, r.slots.get? id = some slot → r.mark? slot = some (id, false)

/-- The mark of a slot is the identifier of its exchange, with whether it is detached. -/
theorem mark?_eq_some {slot : Nat} {id : ExchangeId} {detached : Bool} :
    r.mark? slot = some (id, detached) ↔
      ∃ e, r.exchange? slot = some e ∧ e.id = id ∧ e.detached = detached := by
  simp [mark?]

theorem mark?_of_exchange? {slot : Nat} {e : Exchange} (h : r.exchange? slot = some e) :
    r.mark? slot = some (e.id, e.detached) := by
  simp [mark?, h]

/-- A slot has a mark if there is an exchange in it. -/
theorem isSome_mark? (r : Registry) (slot : Nat) :
    (r.mark? slot).isSome = true ↔ slot < r.exchanges.length := by
  simp [mark?, exchange?]

/-- A slot stands under one identifier at most. -/
theorem Tidy.id_eq (h : r.Tidy) {id other : ExchangeId} {slot : Nat}
    (hid : r.slots.get? id = some slot) (hother : r.slots.get? other = some slot) : id = other := by
  have hmark := h id slot hid
  rw [h other slot hother] at hmark
  simpa using hmark.symm

/-! ## Conversations -/

/-- Whether one registry comes of another while conversations go on: exchanges keep their
identifiers, and none is registered or leaves. -/
structure Amends (r s : Registry) : Prop where
  slots : s.slots = r.slots
  marks : ∀ slot, s.mark? slot = r.mark? slot

theorem Amends.refl (r : Registry) : r.Amends r :=
  ⟨rfl, fun _ => rfl⟩

/-- A registry may be amended twice. -/
theorem Amends.trans (h : r.Amends s) (h' : s.Amends t) : r.Amends t :=
  ⟨h'.slots.trans h.slots, fun slot => (h'.marks slot).trans (h.marks slot)⟩

theorem Amends.tidy (h : r.Amends s) (hr : r.Tidy) : s.Tidy := by
  intro id slot hslot
  rw [h.slots] at hslot
  rw [h.marks, hr id slot hslot]

/-- No exchange is added as a registry is amended. -/
theorem Amends.length (h : r.Amends s) : s.exchanges.length = r.exchanges.length := by
  have hlt : ∀ slot, slot < s.exchanges.length ↔ slot < r.exchanges.length := fun slot => by
    rw [← isSome_mark?, ← isSome_mark?, h.marks]
  have hle := hlt r.exchanges.length
  have hge := hlt s.exchanges.length
  omega

/-- An exchange that goes on in its slot is as detached as before. -/
theorem Amends.exchange? (h : r.Amends s) {slot : Nat} {e : Exchange}
    (he : r.exchange? slot = some e) :
    ∃ e', s.exchange? slot = some e' ∧ e'.detached = e.detached := by
  have hmark := h.marks slot
  rw [mark?_of_exchange? he] at hmark
  obtain ⟨e', he', _, hdetached⟩ := mark?_eq_some.mp hmark
  exact ⟨e', he', hdetached⟩

/-- An amended registry follows the one before. -/
theorem Amends.follows (h : r.Amends s) : r.Follows s where
  sound hr id slot hslot := by
    rw [h.slots] at hslot
    rw [h.length]
    exact hr id slot hslot
  places id slot hr := by
    obtain ⟨e, he, hplace⟩ := hr.here
    obtain ⟨e', he', hdetached⟩ := h.exchange? he
    refine ⟨fun other hother => hr.alone other (h.slots ▸ hother), e', he', ?_⟩
    rw [h.slots, hdetached]
    exact hplace
  left slot hr := by
    obtain ⟨e, he, hdetached⟩ := hr.detached
    obtain ⟨e', he', hsame⟩ := h.exchange? he
    exact ⟨fun id hid => hr.unregistered id (h.slots ▸ hid), e', he', hsame.trans hdetached⟩

/-- To set an exchange changes its own slot only. -/
theorem exchange?_setExchange {slot : Nat} {e : Exchange} (he : r.exchange? slot = some e)
    (f : Exchange) (other : Nat) :
    (r.setExchange slot f).exchange? other =
      if slot = other then some f else r.exchange? other := by
  obtain ⟨hlt, _⟩ := List.getElem?_eq_some_iff.mp he
  by_cases hother : slot = other
  · subst hother
    simp [Registry.exchange?, setExchange, hlt]
  · simp [Registry.exchange?, setExchange, hother]

/-- To set an exchange under its own identifier, detached as before, amends a registry. -/
theorem amends_setExchange {slot : Nat} {e f : Exchange} (he : r.exchange? slot = some e)
    (hid : f.id = e.id) (hdetached : f.detached = e.detached) :
    r.Amends (r.setExchange slot f) := by
  refine ⟨rfl, fun other => ?_⟩
  unfold mark?
  rw [exchange?_setExchange he]
  by_cases hother : slot = other
  · subst hother
    rw [if_pos rfl, he]
    simp [hid, hdetached]
  · rw [if_neg hother]

/-- Whether an exchange is another one later in its conversation, with what it was created with. -/
structure Continues (e f : Exchange) : Prop where
  id : f.id = e.id
  createdAt : f.createdAt = e.createdAt
  detached : f.detached = e.detached

/-- Whether one registry comes of another by steps of conversations, each of one exchange. -/
inductive Converses (r : Registry) : Registry → Prop
  | refl : r.Converses r
  | set {s : Registry} (h : r.Converses s) {slot : Nat} {e f : Exchange}
      (he : s.exchange? slot = some e) (hf : Continues e f) : r.Converses (s.setExchange slot f)

/-- Conversations go on step by step. -/
theorem Converses.trans (h : r.Converses s) (h' : s.Converses t) : r.Converses t := by
  induction h' with
  | refl => exact h
  | set _ he hf ih => exact .set ih he hf

/-- To set an exchange to a later moment of its conversation is a step of it. -/
theorem converses_setExchange {slot : Nat} {e f : Exchange} (he : r.exchange? slot = some e)
    (hf : Continues e f) : r.Converses (r.setExchange slot f) :=
  .set .refl he hf

/-- Conversations keep the identifiers of exchanges and register none. -/
theorem Converses.amends (h : r.Converses s) : r.Amends s := by
  induction h with
  | refl => exact .refl r
  | set _ he hf ih => exact ih.trans (amends_setExchange he hf.id hf.detached)

/-- An exchange is found under an identifier if it is in the slot of that identifier. -/
theorem get?_eq_some {id : ExchangeId} {e : Exchange} :
    r.get? id = some e ↔ ∃ slot, r.slots.get? id = some slot ∧ r.exchange? slot = some e := by
  simp [get?, find?, Option.bind_eq_some_iff]

theorem exchange?_of_lookup {id : ExchangeId} {slot : Nat} {e : Exchange}
    (h : r.lookup id = .ok (slot, e)) :
    r.slots.get? id = some slot ∧ r.exchange? slot = some e := by
  unfold lookup at h
  cases hfind : r.find? id with
  | none => simp [hfind] at h
  | some found =>
      simp only [hfind, Except.ok.injEq] at h
      subst h
      simp only [find?, Option.bind_eq_bind, Option.bind_eq_some_iff] at hfind
      obtain ⟨slot', hslot, e', he, heq⟩ := hfind
      cases heq
      exact ⟨hslot, he⟩

/-- What a step of a registry that succeeds leaves of it; one that fails leaves all. -/
def orSelf (r : Registry) : Except RegistryError Registry → Registry
  | .ok s => s
  | .error _ => r

/-- To advance an exchange is a step of a conversation. -/
theorem converses_advance (r : Registry) (id : ExchangeId) (target : ExchangeStatus) :
    r.Converses (r.orSelf (r.advance id target)) := by
  unfold advance
  cases hlookup : r.lookup id with
  | error e => exact .refl
  | ok found =>
      have hfound := (exchange?_of_lookup hlookup).2
      simp only [Bind.bind, Except.bind]
      cases hadvance : found.2.advance target with
      | error e => exact .refl
      | ok e =>
          obtain ⟨rfl, _⟩ := Exchange.advance_eq_ok hadvance
          exact converses_setExchange hfound ⟨rfl, rfl, rfl⟩

/-- An outcome is handed on from one conversation to another, as far as the pipes go. -/
theorem converses_forward (status : ExchangeStatus) (steps slot : Nat) (r : Registry) :
    r.Converses (forward status steps slot r) := by
  induction steps generalizing slot r with
  | zero => exact .refl
  | succ steps ih =>
      unfold forward
      split
      · exact .refl
      · next source hsource =>
        split
        · exact .refl
        · exact .refl
        · split
          · exact .refl
          · next targetSlot target hfind =>
            have htarget : r.exchange? targetSlot = some target := by
              simp only [find?, Option.bind_eq_bind, Option.bind_eq_some_iff] at hfind
              obtain ⟨slot', _, e', he, heq⟩ := hfind
              cases heq
              exact he
            have hinformed : r.Converses (r.setExchange targetSlot (target.takeOutcome source)) :=
              converses_setExchange htarget ⟨rfl, rfl, rfl⟩
            split
            · exact .refl
            · simp only
              split
              · next finished hcomplete =>
                obtain ⟨rfl, _⟩ := Exchange.complete_eq_completed hcomplete
                refine Converses.trans ?_ (ih targetSlot _)
                exact converses_setExchange htarget ⟨rfl, rfl, rfl⟩
              · exact hinformed

theorem converses_complete (r : Registry) (id : ExchangeId) (status : ExchangeStatus) :
    r.Converses (r.orSelf ((r.complete id status).map Prod.snd)) := by
  unfold complete
  cases hlookup : r.lookup id with
  | error e => exact .refl
  | ok found =>
      have hfound := (exchange?_of_lookup hlookup).2
      simp only [Bind.bind, Except.bind]
      rcases hcomplete : found.2.complete status with e | ⟨_ | status', finished⟩
      · exact .refl
      · obtain ⟨rfl, _⟩ := Exchange.complete_eq_completed hcomplete
        have hset : r.Converses (r.setExchange found.1 { found.2 with status }) :=
          converses_setExchange hfound ⟨rfl, rfl, rfl⟩
        exact hset.trans (converses_forward _ _ _ _)
      · exact .refl

theorem converses_fail (r : Registry) (id : ExchangeId) (failure : FailureType)
    (explanation : Option String) :
    r.Converses (r.orSelf ((r.fail id failure explanation).map Prod.snd)) := by
  unfold fail
  cases hlookup : r.lookup id with
  | error e => exact .refl
  | ok found =>
      have hfound := (exchange?_of_lookup hlookup).2
      simp only [Bind.bind, Except.bind]
      split
      · exact .refl
      · have hset : r.Converses
            (r.setExchange found.1 (found.2.setFailure failure explanation)) :=
          converses_setExchange hfound ⟨rfl, rfl, rfl⟩
        have hcomplete := converses_complete
          (r.setExchange found.1 (found.2.setFailure failure explanation)) id .failed
        revert hcomplete
        cases (r.setExchange found.1 (found.2.setFailure failure explanation)).complete id
            .failed with
        | error e => exact fun _ => .refl
        | ok answer => exact fun hcomplete => hset.trans hcomplete

theorem converses_bind (r : Registry) (catalog : Option Catalog) (id : ExchangeId)
    (key : OperationKey) :
    r.Converses (r.orSelf ((r.bind catalog id key).map Prod.snd)) := by
  unfold Registry.bind
  cases hlookup : r.lookup id with
  | error e => exact .refl
  | ok found => exact converses_setExchange (exchange?_of_lookup hlookup).2 ⟨rfl, rfl, rfl⟩

/-! ## Leaving the registry -/

/-- To withdraw an exchange marks the one in its slot as detached, and no other. -/
theorem mark?_withdraw (r : Registry) (id : ExchangeId) (slot : Nat) :
    (r.withdraw id).mark? slot =
      if r.slots.get? id = some slot then (r.mark? slot).map fun m => (m.1, true)
      else r.mark? slot := by
  unfold mark?
  rw [exchange?_withdraw]
  by_cases h : r.slots.get? id = some slot
  · rw [if_pos h, if_pos h]
    cases r.exchange? slot <;> rfl
  · rw [if_neg h, if_neg h]

/-- Who is withdrawn takes nobody else along. -/
theorem tidy_withdraw (h : r.Tidy) (id : ExchangeId) : (r.withdraw id).Tidy := by
  intro other slot hslot
  obtain ⟨hne, hother⟩ := get?_of_withdraw hslot
  have hid : r.slots.get? id ≠ some slot := fun hid => hne (h.id_eq hother hid)
  rw [mark?_withdraw, if_neg hid]
  exact h other slot hother

/-- The counts and the order of creation mean nothing to the registered exchanges. -/
theorem Tidy.of_eq (h : r.Tidy) (hexchanges : s.exchanges = r.exchanges)
    (hslots : s.slots = r.slots) : s.Tidy := by
  unfold Tidy mark? Registry.exchange? at *
  rw [hexchanges, hslots]
  exact h

/-- A registry stays tidy as exchanges leave. -/
theorem Sheds.tidy (h : r.Sheds s) (hr : r.Tidy) : s.Tidy := by
  induction h with
  | refl => exact hr
  | withdraw _ id ih => exact tidy_withdraw ih id
  | count _ _ _ _ _ _ ih => exact ih.of_eq rfl rfl

theorem tidy_cleanUp (h : r.Tidy) (id : InstanceId) : (r.cleanUp id).Tidy :=
  (r.sheds_cleanUp id).tidy (h.of_eq rfl rfl)

/-- A registry follows the one in which an instance was cleaned up. -/
theorem follows_cleanUp (r : Registry) (id : InstanceId) : r.Follows (r.cleanUp id) := by
  have hroutes : r.Follows { r with routes := r.routes.release id } := .of_eq rfl rfl
  exact hroutes.trans (r.sheds_cleanUp id).follows

/-- A registry stays tidy under a forced sweep. -/
theorem tidy_forceSweep (h : r.Tidy) (now : Time) : (r.forceSweep now).2.Tidy :=
  (r.sheds_forceSweep now).tidy (h.of_eq rfl rfl)

theorem tidy_sweep (h : r.Tidy) (now : Time) : (r.sweep now).2.Tidy := by
  unfold sweep
  split
  · exact tidy_forceSweep h now
  · exact h

/-! ## Creation -/

theorem tidy_register {id : ExchangeId} {direction : Direction} {now : Time} {slot : Nat}
    (hr : r.Tidy) (h : r.register id direction now = .ok (slot, s)) : s.Tidy := by
  simp only [register] at h
  split at h
  · simp at h
  · obtain ⟨rfl, rfl⟩ := Prod.mk.inj (Except.ok.inj h)
    intro other i hi
    simp only [Table.get?_insert] at hi
    by_cases hother : id = other
    · rw [if_pos hother] at hi
      obtain rfl := Option.some.inj hi
      simp [mark?, Registry.exchange?, hother]
    · rw [if_neg hother] at hi
      have hmark := hr other i hi
      obtain ⟨e, he, _⟩ := mark?_eq_some.mp hmark
      obtain ⟨hlt, _⟩ := List.getElem?_eq_some_iff.mp he
      rw [← hmark]
      simp [mark?, Registry.exchange?, List.getElem?_append_left hlt]

theorem tidy_create {id : ExchangeId} {direction : Direction} {now : Time} {slot : Nat}
    (hr : r.Tidy) (h : r.create id direction now = .ok (slot, s)) : s.Tidy := by
  obtain ⟨t, hregister, rfl⟩ := create_eq_ok h
  exact tidy_sweep (tidy_register hr hregister) now

end Registry

/-! ## What happens apart from transactions -/

/-- A change of an exchange that leaves its identifier alone and does not take it out of the
registry. -/
structure Amendment where
  change : Exchange → Exchange
  id : ∀ e, (change e).id = e.id
  detached : ∀ e, (change e).detached = e.detached

/-- What may happen to a registry apart from transactions. -/
inductive RegistryChange
  | advance (id : ExchangeId) (target : ExchangeStatus)
  | complete (id : ExchangeId) (status : ExchangeStatus)
  | fail (id : ExchangeId) (failure : FailureType) (explanation : Option String)
  | bind (catalog : Option Catalog) (id : ExchangeId) (key : OperationKey)
  /-- Somebody who holds an exchange changes it, whether or not it is registered. -/
  | amend (slot : Nat) (amendment : Amendment)
  | release (id : ExchangeId)
  | releaseInstance (id : InstanceId)
  | cleanUp (id : InstanceId)
  | sweep (now : Time)
  | forceSweep (now : Time)
  | setRoutes (routes : Routes)

namespace RegistryChange

/-- The registry after a change. One that fails leaves the registry as it was. -/
def apply (r : Registry) : RegistryChange → Registry
  | advance id target => r.orSelf (r.advance id target)
  | complete id status => r.orSelf ((r.complete id status).map Prod.snd)
  | fail id failure explanation => r.orSelf ((r.fail id failure explanation).map Prod.snd)
  | bind catalog id key => r.orSelf ((r.bind catalog id key).map Prod.snd)
  | amend slot amendment => r.modifyExchange slot amendment.change
  | release id => (r.release id).2
  | releaseInstance id => (r.releaseInstance id).2
  | cleanUp id => r.cleanUp id
  | sweep now => (r.sweep now).2
  | forceSweep now => (r.forceSweep now).2
  | setRoutes routes => { r with routes }

/-- An amendment of one exchange amends the registry. -/
theorem amends_modifyExchange (r : Registry) (slot : Nat) (amendment : Amendment) :
    r.Amends (r.modifyExchange slot amendment.change) := by
  refine ⟨rfl, fun other => ?_⟩
  unfold Registry.mark? Registry.exchange? Registry.modifyExchange
  rw [List.getElem?_modify]
  cases r.exchanges[other]? with
  | none => simp
  | some e =>
      by_cases h : slot = other
      · simp [h, amendment.id, amendment.detached]
      · simp [h]

/-- The registered exchanges stand as they should after every change. -/
theorem tidy_apply {r : Registry} (h : r.Tidy) (a : RegistryChange) : (a.apply r).Tidy := by
  cases a with
  | advance id target => exact (r.converses_advance id target).amends.tidy h
  | complete id status => exact (r.converses_complete id status).amends.tidy h
  | fail id failure explanation => exact (r.converses_fail id failure explanation).amends.tidy h
  | bind catalog id key => exact (r.converses_bind catalog id key).amends.tidy h
  | amend slot amendment => exact (amends_modifyExchange r slot amendment).tidy h
  | release id => exact (r.sheds_release id).tidy h
  | releaseInstance id => exact (r.sheds_releaseInstance id).tidy h
  | cleanUp id => exact Registry.tidy_cleanUp h id
  | sweep now => exact Registry.tidy_sweep h now
  | forceSweep now => exact Registry.tidy_forceSweep h now
  | setRoutes routes => exact h.of_eq rfl rfl

/-- No change registers an exchange that has left the registry. -/
theorem follows_apply (r : Registry) (a : RegistryChange) : r.Follows (a.apply r) := by
  cases a with
  | advance id target => exact (r.converses_advance id target).amends.follows
  | complete id status => exact (r.converses_complete id status).amends.follows
  | fail id failure explanation => exact (r.converses_fail id failure explanation).amends.follows
  | bind catalog id key => exact (r.converses_bind catalog id key).amends.follows
  | amend slot amendment => exact (amends_modifyExchange r slot amendment).follows
  | release id => exact (r.sheds_release id).follows
  | releaseInstance id => exact (r.sheds_releaseInstance id).follows
  | cleanUp id => exact r.follows_cleanUp id
  | sweep now => exact r.follows_sweep now
  | forceSweep now => exact r.follows_forceSweep now
  | setRoutes routes => exact .of_eq rfl rfl

end RegistryChange

end JobCluster
