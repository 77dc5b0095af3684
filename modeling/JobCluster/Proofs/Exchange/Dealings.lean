import JobCluster.Proofs.Exchange.Books
import JobCluster.Session.Exchange
/-!
# Dealings with a registry

A registry is dealt with in many ways, at one time after another: exchanges are created and their
creation is rolled back, the registry is called and swept, and whoever has a handle on an exchange
calls the exchange itself, whether or not it is still registered.

Main results:

- `Dealing.perform`, `Registry.play`: what a dealing does, and a history of them;
- `Session.ExchangeCall.effect_run`: what a call by a handle comes to;
- `Dealing.books_perform`, `Registry.books_history`: the books agree after every dealing.
-/

namespace JobCluster

/-! ## Handles -/

namespace Session

/-- A change of some fields leaves what an exchange was created with, and its status. -/
theorem ExchangeChange.keeps_apply (change : ExchangeChange) (e : Exchange) :
    Registry.Continues e (change.apply e) ∧ (change.apply e).status = e.status := by
  unfold apply applyFailure applyFault
  split <;> split <;> exact ⟨⟨rfl, rfl, rfl⟩, rfl⟩

namespace ExchangeCall

/-- Whether a call completes the exchange, by its own answer. -/
def completes (call : ExchangeCall) (e : Exchange) : Bool :=
  match (call.run e).1 with
  | .done (.completion .completed) => true
  | _ => false

/-- What a call can come to: whether it completes the exchange, and what it leaves of it. -/
inductive Effect (e : Exchange) : ExchangeCall → Bool → Exchange → Prop
  | changed (change : ExchangeChange) : Effect e (.set change) false (change.apply e)
  | same (call : ExchangeCall) (hcall : ∀ change, call ≠ .set change) : Effect e call false e
  | advanced (target : ExchangeStatus) (htarget : target.isTerminal = false)
      (hunfinished : e.isTerminal = false) (hattached : e.detached = false)
      (hrank : e.status.rank ≤ target.rank) :
      Effect e (.advance target) false { e with status := target }
  | completed (status : ExchangeStatus) (hstatus : status.isTerminal = true)
      (hunfinished : e.isTerminal = false) (hattached : e.detached = false) :
      Effect e (.complete status) true { e with status }

/-- A call on an exchange has the effect that it says. -/
theorem effect_run (call : ExchangeCall) (e : Exchange) :
    Effect e call (call.completes e) (call.run e).2 := by
  cases call with
  | set change => exact .changed change
  | info keys => exact .same _ (by simp)
  | advance target =>
      cases hadvance : e.advance target with
      | error error =>
          simp only [completes, run, hadvance]
          exact .same _ (by simp)
      | ok f =>
          obtain ⟨rfl, htarget, hunfinished, hattached, hrank⟩ := Exchange.advance_eq_ok hadvance
          simp only [completes, run, hadvance]
          exact .advanced target htarget hunfinished hattached hrank
  | complete status =>
      rcases hcomplete : e.complete status with error | ⟨_ | earlier, f⟩
      · simp only [completes, run, hcomplete]
        exact .same _ (by simp)
      · obtain ⟨rfl, hstatus, hunfinished, hattached⟩ := Exchange.complete_eq_completed hcomplete
        simp only [completes, run, hcomplete]
        exact .completed status hstatus hunfinished hattached
      · obtain ⟨_, rfl⟩ := Exchange.complete_eq_alreadyCompleted hcomplete
        simp only [completes, run, hcomplete]
        exact .same _ (by simp)

/-- A call leaves what the exchange was created with, and does not take it out of the registry. -/
theorem continues_run (call : ExchangeCall) (e : Exchange) :
    Registry.Continues e (call.run e).2 := by
  have heffect := call.effect_run e
  generalize call.completes e = completed, (call.run e).2 = f at heffect
  cases heffect with
  | changed change => exact (change.keeps_apply e).1
  | same _ _ => exact ⟨rfl, rfl, rfl⟩
  | advanced _ _ _ _ _ => exact ⟨rfl, rfl, rfl⟩
  | completed _ _ _ _ => exact ⟨rfl, rfl, rfl⟩

end ExchangeCall

end Session

namespace Registry

variable {r s : Registry}

/-- Makes a call on the exchange in a slot. -/
def hold (r : Registry) (slot : Nat) (call : Session.ExchangeCall) : Registry :=
  match r.exchange? slot with
  | some e => r.setExchange slot (call.run e).2
  | none => r

/-- A call by handle changes the exchange of the handle, if there is one. -/
theorem hold_eq_self_or (r : Registry) (slot : Nat) (call : Session.ExchangeCall) :
    (r.exchange? slot = none ∧ r.hold slot call = r) ∨
      ∃ e, r.exchange? slot = some e ∧ r.hold slot call = r.setExchange slot (call.run e).2 := by
  unfold hold
  cases he : r.exchange? slot with
  | none => exact .inl ⟨rfl, rfl⟩
  | some e => exact .inr ⟨e, rfl, rfl⟩

/-- What is done by a handle is a step of a conversation. -/
theorem converses_hold (r : Registry) (slot : Nat) (call : Session.ExchangeCall) :
    r.Converses (r.hold slot call) := by
  rcases r.hold_eq_self_or slot call with ⟨_, hhold⟩ | ⟨e, he, hhold⟩
  · rw [hhold]
    exact .refl
  · rw [hhold]
    exact converses_setExchange he (call.continues_run e)

theorem exchange?_length (r : Registry) : r.exchange? r.exchanges.length = none :=
  List.getElem?_eq_none (Nat.le_refl _)

/-- A registration puts the new exchange behind all others, no earlier than the last one. -/
theorem exchange?_register {id : ExchangeId} {direction : Direction} {now : Time} {slot : Nat}
    (h : r.register id direction now = .ok (slot, s)) (i : Nat) :
    s.exchange? i =
      if i = r.exchanges.length then some { id, direction, createdAt := max now r.lastCreated }
      else r.exchange? i := by
  simp only [register] at h
  split at h
  · simp at h
  · obtain ⟨_, rfl⟩ := Prod.mk.inj (Except.ok.inj h)
    exact getElem?_exchanges_append r _ i

/-- What a creation that may be refused leaves: the registry itself, or the registration of a new
exchange with a sweep behind it. -/
theorem orSelf_create (r : Registry) (id : ExchangeId) (direction : Direction) (now : Time) :
    (r.slots.contains id = true ∧ r.orSelf ((r.create id direction now).map Prod.snd) = r) ∨
      ∃ slot t, r.slots.contains id = false ∧ r.register id direction now = .ok (slot, t) ∧
        r.orSelf ((r.create id direction now).map Prod.snd) = (t.sweep now).2 := by
  unfold create
  cases hid : r.slots.contains id with
  | true =>
      have hregister : r.register id direction now = .error (.duplicateExchange id) := by
        simp [register, hid]
      rw [hregister]
      exact .inl ⟨rfl, rfl⟩
  | false =>
      have hregister : ∃ found, r.register id direction now = .ok found := by
        simp [register, hid]
      obtain ⟨⟨slot, t⟩, hregister⟩ := hregister
      rw [hregister]
      exact .inr ⟨slot, t, rfl, rfl, rfl⟩

end Registry

/-! ## Dealings -/

/-- Whether a change of a registry neither asks for the time nor reaches into an exchange. -/
def RegistryChange.Timeless : RegistryChange → Prop
  | .amend _ _ | .sweep _ | .forceSweep _ => False
  | .advance _ _ | .complete _ _ | .fail _ _ _ | .bind _ _ _ | .release _ | .releaseInstance _
  | .cleanUp _ | .setRoutes _ => True

/-- A change of a registry that has no time of its own leaves the dates of exchanges alone. -/
theorem RegistryChange.Timeless.keepsDates {a : RegistryChange} (h : a.Timeless) :
    a.KeepsDates := by
  cases a with
  | amend slot amendment => exact h.elim
  | advance id target => trivial
  | complete id status => trivial
  | fail id failure explanation => trivial
  | bind catalog id key => trivial
  | release id => trivial
  | releaseInstance id => trivial
  | cleanUp id => trivial
  | sweep now => trivial
  | forceSweep now => trivial
  | setRoutes routes => trivial

/-- What is done with a registry or with one of its exchanges. -/
inductive Dealing
  | create (id : ExchangeId) (direction : Direction)
  /-- The transaction that created an exchange under the identifier is rolled back. -/
  | rollBack (id : ExchangeId)
  | sweep
  | forceSweep
  /-- Somebody who has a handle on the exchange in a slot makes a call on it. -/
  | hold (slot : Nat) (call : Session.ExchangeCall)
  | change (a : RegistryChange) (timeless : a.Timeless)

/-- The registry after a dealing at a time. A creation that is refused leaves it as it was. -/
def Dealing.perform (now : Time) (r : Registry) : Dealing → Registry
  | create id direction => r.orSelf ((r.create id direction now).map Prod.snd)
  | rollBack id => r.rollBack id
  | sweep => (r.sweep now).2
  | forceSweep => (r.forceSweep now).2
  | hold slot call => r.hold slot call
  | change a _ => a.apply r

/-- The registry after a history, in which every dealing has its time. -/
def Registry.play (r : Registry) (history : List (Time × Dealing)) : Registry :=
  history.foldl (fun r x => x.2.perform x.1 r) r

namespace Registry

variable {r : Registry}

@[simp]
theorem play_nil : r.play [] = r :=
  rfl

@[simp]
theorem play_cons (x : Time × Dealing) (history : List (Time × Dealing)) :
    r.play (x :: history) = (x.2.perform x.1 r).play history :=
  rfl

/-- What every dealing keeps is kept by a history. -/
theorem play_induction {P : Registry → Prop} (hr : P r)
    (hstep : ∀ r now (d : Dealing), P r → P (d.perform now r)) (history : List (Time × Dealing)) :
    P (r.play history) := by
  induction history generalizing r with
  | nil => exact hr
  | cons x rest ih => exact ih (hstep r x.1 x.2 hr)

end Registry

/-- The books agree after every dealing. -/
theorem Dealing.books_perform {r : Registry} (h : r.Books r.order) (now : Time) (d : Dealing) :
    (d.perform now r).Books (d.perform now r).order := by
  cases d with
  | create id direction =>
      simp only [perform]
      rcases r.orSelf_create id direction now with ⟨_, hself⟩ | ⟨slot, t, _, hregister, hsweep⟩
      · rw [hself]
        exact h
      · rw [hsweep]
        exact Registry.books_sweep (Registry.books_register h hregister) now
  | rollBack id => exact Registry.books_rollBack h id
  | sweep => exact Registry.books_sweep h now
  | forceSweep => exact Registry.books_forceSweep h now
  | hold slot call => exact h.converses (r.converses_hold slot call)
  | change a timeless => exact RegistryChange.books_apply h timeless.keepsDates

/-- The books agree after every history of calls and dealings with handles. -/
theorem Registry.books_history {r : Registry} (hr : r.Books r.order)
    (history : List (Time × Dealing)) : (r.play history).Books (r.play history).order :=
  play_induction (P := fun r => r.Books r.order) hr (fun _ now d h => d.books_perform h now) history

end JobCluster
