import JobCluster.Proofs.Exchange.Dealings
/-!
# The time of an exchange

An exchange may stay registered for a time to live, and a sweep takes out those that have stayed
longer. As a sweep is put off while the last one is too recent, an exchange can outstay its time,
though not by more than the interval between two sweeps. Nobody is swept out before the time is
over.

Main results:

- `Registry.Thins`: what a registry keeps while nothing is registered and no sweep begins;
- `Registry.within_forceSweep`, `Registry.spares_forceSweep`: whom a sweep leaves, and whom it takes
  out;
- `Dealing.timely_perform`: the invariant of every dealing while the clock goes forward;
- `Registry.swept_in_time`: how long an exchange stays at most and at least.
-/

namespace JobCluster

namespace Registry

variable {r s t : Registry} {order : List CreationEntry} {clock now : Time}

/-! ## While no sweep begins -/

/-- Whether one registry comes of another without a new exchange and without the begin of a sweep:
its settings are the same, and whoever is registered has been registered since the same time. -/
structure Thins (r s : Registry) : Prop where
  ttl : s.ttl = r.ttl
  sweepInterval : s.sweepInterval = r.sweepInterval
  lastSweep : s.lastSweep = r.lastSweep
  slots : ∀ id slot, s.slots.get? id = some slot → r.slots.get? id = some slot
  dates : ∀ slot f, s.exchange? slot = some f →
    ∃ e, r.exchange? slot = some e ∧ e.createdAt = f.createdAt

theorem Thins.refl (r : Registry) : r.Thins r :=
  ⟨rfl, rfl, rfl, fun _ _ h => h, fun _ f hf => ⟨f, hf, rfl⟩⟩

/-- A registry may thin twice. -/
theorem Thins.trans (h : r.Thins s) (h' : s.Thins t) : r.Thins t where
  ttl := h'.ttl.trans h.ttl
  sweepInterval := h'.sweepInterval.trans h.sweepInterval
  lastSweep := h'.lastSweep.trans h.lastSweep
  slots id slot hslot := h.slots id slot (h'.slots id slot hslot)
  dates := by
    intro slot g hg
    obtain ⟨f, hf, hdate'⟩ := h'.dates slot g hg
    obtain ⟨e, he, hdate⟩ := h.dates slot f hf
    exact ⟨e, he, hdate.trans hdate'⟩

/-- Steps of conversations thin a registry, if only in a trivial way. -/
theorem Converses.thins (h : r.Converses s) : r.Thins s := by
  induction h with
  | refl => exact .refl r
  | @set s _ slot e f he hf ih =>
      refine ih.trans ⟨rfl, rfl, rfl, fun _ _ h => h, ?_⟩
      intro i g hg
      rw [exchange?_setExchange he] at hg
      by_cases hi : slot = i
      · subst hi
        rw [if_pos rfl] at hg
        obtain rfl := Option.some.inj hg
        exact ⟨e, he, hf.createdAt.symm⟩
      · rw [if_neg hi] at hg
        exact ⟨g, hg, rfl⟩

/-- To withdraw an exchange thins a registry. -/
theorem thins_withdraw (r : Registry) (id : ExchangeId) : r.Thins (r.withdraw id) := by
  have hsettings : (r.withdraw id).ttl = r.ttl ∧ (r.withdraw id).sweepInterval = r.sweepInterval ∧
      (r.withdraw id).lastSweep = r.lastSweep := by
    rw [withdraw]
    split <;> exact ⟨rfl, rfl, rfl⟩
  refine ⟨hsettings.1, hsettings.2.1, hsettings.2.2, fun other slot h => (get?_of_withdraw h).2, ?_⟩
  intro slot f hf
  rw [exchange?_withdraw] at hf
  split at hf
  · obtain ⟨e, he, rfl⟩ := Option.map_eq_some_iff.mp hf
    exact ⟨e, he, rfl⟩
  · exact ⟨f, hf, rfl⟩

/-- The counts, the order of creation and the routes mean nothing to the time. -/
theorem Thins.of_eq (h : r.Thins s)
    (hsettings : t.ttl = s.ttl ∧ t.sweepInterval = s.sweepInterval ∧ t.lastSweep = s.lastSweep)
    (hslots : t.slots = s.slots) (hexchanges : t.exchanges = s.exchanges) : r.Thins t := by
  refine h.trans ⟨hsettings.1, hsettings.2.1, hsettings.2.2, fun id slot => ?_, fun slot f hf => ?_⟩
  · rw [hslots]
    exact fun h => h
  · rw [exchange?, hexchanges] at hf
    exact ⟨f, hf, rfl⟩

/-- A registry thins as exchanges leave. -/
theorem Sheds.thins (h : r.Sheds s) : r.Thins s := by
  induction h with
  | refl => exact .refl r
  | @withdraw s _ id ih => exact ih.trans (s.thins_withdraw id)
  | count _ _ _ _ _ _ ih => exact ih.of_eq ⟨rfl, rfl, rfl⟩ rfl rfl

end Registry

/-- A change of a registry that has no time of its own thins it. -/
theorem RegistryChange.Timeless.thins {a : RegistryChange} (h : a.Timeless) (r : Registry) :
    r.Thins (a.apply r) := by
  cases a with
  | advance id target => exact (r.converses_advance id target).thins
  | complete id status => exact (r.converses_complete id status).thins
  | fail id failure explanation => exact (r.converses_fail id failure explanation).thins
  | bind catalog id key => exact (r.converses_bind catalog id key).thins
  | amend slot amendment => exact h.elim
  | release id => exact (r.sheds_release id).thins
  | releaseInstance id => exact (r.sheds_releaseInstance id).thins
  | cleanUp id =>
      have hroutes : r.Thins { r with routes := r.routes.release id } :=
        (Registry.Thins.refl r).of_eq ⟨rfl, rfl, rfl⟩ rfl rfl
      exact hroutes.trans (r.sheds_cleanUp id).thins
  | sweep now => exact h.elim
  | forceSweep now => exact h.elim
  | setRoutes routes => exact (Registry.Thins.refl r).of_eq ⟨rfl, rfl, rfl⟩ rfl rfl

namespace Registry

variable {r s t : Registry} {order : List CreationEntry} {clock now : Time}

/-! ## Whom a sweep leaves -/

/-- Whether the time of no registered exchange is over. -/
def Within (r : Registry) (now : Time) : Prop :=
  ∀ id slot e, r.slots.get? id = some slot → r.exchange? slot = some e → now ≤ e.createdAt + r.ttl

/-- If nobody was out of time, nobody is in a registry that has thinned. -/
theorem Thins.within (h : r.Thins s) (hr : r.Within now) : s.Within now := by
  intro id slot f hslot hf
  obtain ⟨e, he, hdate⟩ := h.dates slot f hf
  rw [h.ttl, ← hdate]
  exact hr id slot e (h.slots id slot hslot) he

/-- An exchange is in time until the span after its creation is over. -/
theorem isExpired_eq_false {ttl createdAt : Time} :
    isExpired ttl now createdAt = false ↔ now ≤ createdAt + ttl := by
  rw [isExpired, decide_eq_false_iff_not, Nat.not_lt]
  exact Nat.sub_le_iff_le_add'

/-- The entries that a sweep keeps are not too old, as they come in the order of their times. -/
theorem le_of_mem_sweepOrder {entries : List CreationEntry}
    (hsorted : entries.Pairwise fun x y => x.createdAt ≤ y.createdAt) (r : Registry) :
    ∀ x ∈ (sweepOrder now entries r).2.order, now ≤ x.createdAt + r.ttl := by
  induction entries generalizing r with
  | nil => simp [sweepOrder]
  | cons entry rest ih =>
      obtain ⟨hfirst, hrest⟩ := List.pairwise_cons.mp hsorted
      unfold sweepOrder
      split
      · intro x hx
        have hle := ih hrest (r.sweepEntry entry).2 x hx
        rwa [(r.sheds_sweepEntry entry).thins.ttl] at hle
      · next hfresh =>
        have hfresh := isExpired_eq_false.mp (by simpa using hfresh)
        intro x hx
        rcases List.mem_cons.mp hx with rfl | hx
        · exact hfresh
        · exact Nat.le_trans hfresh (Nat.add_le_add_right (hfirst x hx) r.ttl)

/-- If the books agree, the order has an entry for every registered exchange. -/
theorem Books.entry_mem (h : r.Books order) {id : ExchangeId} {slot : Nat} {e : Exchange}
    (hslot : r.slots.get? id = some slot) (he : r.exchange? slot = some e) :
    ⟨e.createdAt, slot⟩ ∈ order := by
  have hmem : (⟨e.createdAt, slot⟩ : CreationEntry) ∈ entriesOf order slot := by
    rw [h.once id slot e hslot he]
    exact List.mem_singleton_self _
  exact (List.mem_filter.mp hmem).1

/-- A forced sweep keeps the settings, and is the last one from then on. -/
theorem settings_forceSweep (r : Registry) (now : Time) :
    (r.forceSweep now).2.ttl = r.ttl ∧ (r.forceSweep now).2.sweepInterval = r.sweepInterval ∧
      (r.forceSweep now).2.lastSweep = now :=
  have hthins := (r.sheds_forceSweep now).thins
  ⟨hthins.ttl, hthins.sweepInterval, hthins.lastSweep⟩

/-- After a sweep the time of nobody who is registered is over. -/
theorem within_forceSweep (h : r.Books r.order) (now : Time) : (r.forceSweep now).2.Within now := by
  intro id slot e hslot he
  rw [(r.settings_forceSweep now).1]
  exact le_of_mem_sweepOrder h.sorted { r with lastSweep := now } _
    ((books_forceSweep h now).entry_mem hslot he)

/-- A sweep takes place, or it is put off because the last one is too recent. -/
theorem sweep_cases (r : Registry) (now : Time) :
    (r.sweep now).2 = (r.forceSweep now).2 ∨
      ((r.sweep now).2 = r ∧ now < r.lastSweep + r.sweepInterval) := by
  unfold sweep
  split
  · exact .inl rfl
  · next hdue =>
    refine .inr ⟨rfl, ?_⟩
    simp only [sweepDue, Bool.or_eq_true, beq_iff_eq, decide_eq_true_eq, not_or] at hdue
    exact Nat.lt_of_not_le fun hle => hdue.2 (Nat.le_sub_of_add_le' hle)

/-- A sweep keeps the settings of a registry. -/
theorem settings_sweep (r : Registry) (now : Time) :
    (r.sweep now).2.ttl = r.ttl ∧ (r.sweep now).2.sweepInterval = r.sweepInterval := by
  rcases r.sweep_cases now with hsweep | ⟨hsweep, _⟩
  · rw [hsweep]
    exact ⟨(r.settings_forceSweep now).1, (r.settings_forceSweep now).2.1⟩
  · rw [hsweep]
    exact ⟨rfl, rfl⟩

/-! ## Whom a sweep takes out -/

/-- Whether everybody who has left one registry in another one was out of time, apart from those
who had left before. -/
def Spares (now : Time) (r s : Registry) : Prop :=
  ∀ slot f, s.exchange? slot = some f → f.detached = true → f.createdAt + r.ttl < now ∨
    ∃ e, r.exchange? slot = some e ∧ e.detached = true ∧ e.createdAt = f.createdAt

/-- If the exchanges stay, nobody has left. -/
theorem spares_of_exchanges_eq (h : s.exchanges = r.exchanges) : r.Spares now s := by
  intro slot f hf hdetached
  rw [exchange?, h] at hf
  exact .inr ⟨f, hf, hdetached, rfl⟩

/-- What spares those in time in two steps spares them. -/
theorem Spares.trans (h : Spares now r s) (h' : Spares now s t) (httl : s.ttl = r.ttl) :
    Spares now r t := by
  intro slot g hg hdetached
  rcases h' slot g hg hdetached with hover | ⟨f, hf, hdetached', hdate⟩
  · exact .inl (httl ▸ hover)
  · rw [← hdate]
    exact h slot f hf hdetached'

/-- The exchange of an entry that is too old is out of time itself. -/
theorem spares_sweepEntry {entry : CreationEntry} (h : r.Books (entry :: order))
    (hexpired : isExpired r.ttl now entry.createdAt = true) :
    Spares now r (r.sweepEntry entry).2 := by
  have hwithdraw : ∀ e, r.exchange? entry.slot = some e → r.slots.get? e.id = some entry.slot →
      Spares now r (r.withdraw e.id) := by
    intro e he hslot slot f hf hdetached
    rw [exchange?_withdraw, hslot] at hf
    split at hf
    · next hi =>
      obtain rfl := Option.some.inj hi
      rw [he] at hf
      obtain rfl := Option.some.inj hf
      have honce : entry ∈ entriesOf (entry :: order) entry.slot :=
        List.mem_filter.mpr ⟨List.mem_cons_self, by simp⟩
      rw [h.once e.id entry.slot e hslot he, List.mem_singleton] at honce
      have hdate : entry.createdAt = e.detach.createdAt := congrArg CreationEntry.createdAt honce
      rw [isExpired, decide_eq_true_eq, hdate] at hexpired
      exact .inl (Nat.add_lt_of_lt_sub' hexpired)
    · exact .inr ⟨f, hf, hdetached, rfl⟩
  unfold sweepEntry
  split
  · exact spares_of_exchanges_eq rfl
  · next e he =>
    split
    · exact spares_of_exchanges_eq rfl
    · next hslot =>
      have hslot := Decidable.not_not.mp hslot
      split <;> exact hwithdraw e he hslot

/-- The sweeping of the order spares those who are in time. -/
theorem spares_sweepOrder {entries : List CreationEntry} (h : r.Books entries) :
    Spares now r (sweepOrder now entries r).2 := by
  induction entries generalizing r with
  | nil => exact spares_of_exchanges_eq rfl
  | cons entry rest ih =>
      unfold sweepOrder
      split
      · next hexpired =>
        exact (spares_sweepEntry h hexpired).trans (ih (books_sweepEntry h))
          (r.sheds_sweepEntry entry).thins.ttl
      · exact spares_of_exchanges_eq rfl

theorem spares_forceSweep (h : r.Books r.order) (now : Time) :
    Spares now r (r.forceSweep now).2 :=
  spares_sweepOrder (r := { r with lastSweep := now })
    ⟨h.faithful, h.once, h.known, h.sorted, h.drawn, h.balance⟩

theorem spares_sweep (h : r.Books r.order) (now : Time) : Spares now r (r.sweep now).2 := by
  rcases r.sweep_cases now with hsweep | ⟨hsweep, _⟩
  · rw [hsweep]
    exact spares_forceSweep h now
  · rw [hsweep]
    exact spares_of_exchanges_eq rfl

/-! ## Creation -/

/-- A registration keeps the settings and the time of the last sweep. -/
theorem settings_register {id : ExchangeId} {direction : Direction} {slot : Nat}
    (h : r.register id direction now = .ok (slot, s)) :
    s.ttl = r.ttl ∧ s.sweepInterval = r.sweepInterval ∧ s.lastSweep = r.lastSweep := by
  simp only [register] at h
  split at h
  · simp at h
  · obtain ⟨_, rfl⟩ := Prod.mk.inj (Except.ok.inj h)
    exact ⟨rfl, rfl, rfl⟩

/-- A registration spares everybody. -/
theorem spares_register {id : ExchangeId} {direction : Direction} {slot : Nat}
    (h : r.register id direction now = .ok (slot, s)) : Spares now r s := by
  intro i f hf hdetached
  rw [exchange?_register h] at hf
  split at hf
  · obtain rfl := Option.some.inj hf
    simp at hdetached
  · exact .inr ⟨f, hf, hdetached, rfl⟩

/-- The time of a new exchange begins now or later. -/
theorem within_register {id : ExchangeId} {direction : Direction} {slot : Nat} (hr : r.Within clock)
    (hle : clock ≤ now) (h : r.register id direction now = .ok (slot, s)) : s.Within clock := by
  intro other i e hi he
  obtain ⟨hslot, _, hslots, _⟩ := register_eq_ok h
  rw [exchange?_register h] at he
  rw [(settings_register h).1]
  by_cases hnew : i = r.exchanges.length
  · rw [if_pos hnew] at he
    obtain rfl := Option.some.inj he
    exact Nat.le_trans (Nat.le_trans hle (Nat.le_max_left now _)) (Nat.le_add_right _ _)
  · rw [if_neg hnew] at he
    rw [hslots, Table.get?_insert] at hi
    split at hi
    · exact absurd ((Option.some.inj hi).symm.trans hslot) hnew
    · exact hr other i e hi he

/-! ## Dealings -/

/-- Whether the books of a registry agree at a time, and the time of nobody who is registered was
over when the last sweep took place. -/
structure Timely (r : Registry) (clock : Time) : Prop where
  books : r.Books r.order
  swept : r.lastSweep ≤ clock
  within : r.Within r.lastSweep

namespace Timely

/-- A registry that is timely stays so as time goes by. -/
theorem mono (h : r.Timely clock) (hle : clock ≤ now) : r.Timely now :=
  ⟨h.books, Nat.le_trans h.swept hle, h.within⟩

/-- A registry that thins stays timely. -/
theorem thins (h : r.Timely clock) (hs : r.Thins s) (hbooks : s.Books s.order) :
    s.Timely clock where
  books := hbooks
  swept := hs.lastSweep ▸ h.swept
  within := hs.lastSweep ▸ hs.within h.within

/-- A forced sweep leaves a registry timely. -/
theorem forceSweep (h : r.Timely clock) (now : Time) : (r.forceSweep now).2.Timely now := by
  have hlast := (r.settings_forceSweep now).2.2
  refine ⟨books_forceSweep h.books now, Nat.le_of_eq hlast, ?_⟩
  rw [hlast]
  exact within_forceSweep h.books now

/-- A sweep leaves a registry timely: it sweeps out all that are overdue, or was not due itself. -/
theorem sweep (h : r.Timely clock) (hle : clock ≤ now) : (r.sweep now).2.Timely now := by
  rcases r.sweep_cases now with hsweep | ⟨hsweep, _⟩
  · rw [hsweep]
    exact h.forceSweep now
  · rw [hsweep]
    exact h.mono hle

theorem register {id : ExchangeId} {direction : Direction} {slot : Nat} (h : r.Timely clock)
    (hle : clock ≤ now) (hregister : r.register id direction now = .ok (slot, s)) :
    s.Timely now := by
  have hlast := (settings_register hregister).2.2
  have hswept := Nat.le_trans h.swept hle
  refine ⟨books_register h.books hregister, hlast ▸ hswept, ?_⟩
  rw [hlast]
  exact within_register h.within hswept hregister

/-- A sweep that is put off leaves nobody who has outstayed the time by the interval of sweeps. -/
theorem le_of_sweep (h : r.Timely clock) {id : ExchangeId} {slot : Nat} {e : Exchange}
    (hslot : (r.sweep now).2.slots.get? id = some slot)
    (he : (r.sweep now).2.exchange? slot = some e) :
    now ≤ e.createdAt + r.ttl + r.sweepInterval := by
  rcases r.sweep_cases now with hsweep | ⟨hsweep, hnow⟩
  · rw [hsweep] at hslot he
    have hwithin := within_forceSweep h.books now id slot e hslot he
    rw [(r.settings_forceSweep now).1] at hwithin
    exact Nat.le_add_right_of_le hwithin
  · rw [hsweep] at hslot he
    have hwithin := h.within id slot e hslot he
    exact Nat.le_trans (Nat.le_of_lt hnow) (Nat.add_le_add_right hwithin r.sweepInterval)

end Timely

end Registry

namespace Dealing

variable {r : Registry} {clock now : Time}

/-- Whether a dealing gives a sweep a chance. -/
def Sweeps : Dealing → Prop
  | create _ _ | sweep | forceSweep => True
  | rollBack _ | hold _ _ | change _ _ => False

/-- Whether a dealing is a creation that is refused because its identifier is taken. -/
def isRefused (r : Registry) : Dealing → Bool
  | create id _ => r.slots.contains id
  | rollBack _ | sweep | forceSweep | hold _ _ | change _ _ => false

theorem timely_perform (h : r.Timely clock) (hle : clock ≤ now) (d : Dealing) :
    (d.perform now r).Timely now := by
  cases d with
  | create id direction =>
      simp only [perform]
      rcases r.orSelf_create id direction now with ⟨_, hself⟩ | ⟨slot, t, _, hregister, hsweep⟩
      · rw [hself]
        exact h.mono hle
      · rw [hsweep]
        exact (h.register hle hregister).sweep (Nat.le_refl now)
  | rollBack id =>
      exact (h.mono hle).thins (r.sheds_rollBack id).thins (Registry.books_rollBack h.books id)
  | sweep => exact h.sweep hle
  | forceSweep => exact h.forceSweep now
  | hold slot call =>
      have hconverses := r.converses_hold slot call
      exact (h.mono hle).thins hconverses.thins (h.books.converses hconverses)
  | change a timeless =>
      exact (h.mono hle).thins (timeless.thins r)
        (RegistryChange.books_apply h.books timeless.keepsDates)

/-- No dealing changes the settings of a registry. -/
theorem settings_perform (r : Registry) (now : Time) (d : Dealing) :
    (d.perform now r).ttl = r.ttl ∧ (d.perform now r).sweepInterval = r.sweepInterval := by
  cases d with
  | create id direction =>
      simp only [perform]
      rcases r.orSelf_create id direction now with ⟨_, hself⟩ | ⟨slot, t, _, hregister, hsweep⟩
      · rw [hself]
        exact ⟨rfl, rfl⟩
      · obtain ⟨httl, hinterval, _⟩ := Registry.settings_register hregister
        obtain ⟨httl', hinterval'⟩ := t.settings_sweep now
        rw [hsweep]
        exact ⟨httl'.trans httl, hinterval'.trans hinterval⟩
  | rollBack id =>
      have hthins := (r.sheds_rollBack id).thins
      exact ⟨hthins.ttl, hthins.sweepInterval⟩
  | sweep => exact r.settings_sweep now
  | forceSweep => exact ⟨(r.settings_forceSweep now).1, (r.settings_forceSweep now).2.1⟩
  | hold slot call =>
      have hthins := (r.converses_hold slot call).thins
      exact ⟨hthins.ttl, hthins.sweepInterval⟩
  | change a timeless => exact ⟨(timeless.thins r).ttl, (timeless.thins r).sweepInterval⟩

/-- Whoever is registered after a dealing that was to sweep, and was not refused, has not outstayed
the time by more than the interval of sweeps. -/
theorem le_of_perform (h : r.Timely clock) (hle : clock ≤ now) {d : Dealing} (hsweeps : d.Sweeps)
    (hrefused : d.isRefused r = false) {id : ExchangeId} {slot : Nat} {e : Exchange}
    (hslot : (d.perform now r).slots.get? id = some slot)
    (he : (d.perform now r).exchange? slot = some e) :
    now ≤ e.createdAt + r.ttl + r.sweepInterval := by
  cases d with
  | create other direction =>
      simp only [perform] at hslot he
      rcases r.orSelf_create other direction now with
        ⟨htaken, _⟩ | ⟨i, t, _, hregister, hsweep⟩
      · rw [isRefused, htaken] at hrefused
        cases hrefused
      · rw [hsweep] at hslot he
        obtain ⟨httl, hinterval, _⟩ := Registry.settings_register hregister
        rw [← httl, ← hinterval]
        exact (h.register hle hregister).le_of_sweep hslot he
  | sweep => exact h.le_of_sweep hslot he
  | forceSweep =>
      have hwithin := Registry.within_forceSweep h.books now id slot e hslot he
      rw [(r.settings_forceSweep now).1] at hwithin
      exact Nat.le_add_right_of_le hwithin
  | rollBack _ => exact hsweeps.elim
  | hold _ _ => exact hsweeps.elim
  | change _ _ => exact hsweeps.elim

/-- A dealing that sweeps takes out nobody whose time is not over. -/
theorem spares_perform (h : r.Books r.order) {d : Dealing} (hsweeps : d.Sweeps) :
    Registry.Spares now r (d.perform now r) := by
  cases d with
  | create id direction =>
      simp only [perform]
      rcases r.orSelf_create id direction now with ⟨_, hself⟩ | ⟨slot, t, _, hregister, hsweep⟩
      · rw [hself]
        exact Registry.spares_of_exchanges_eq rfl
      · rw [hsweep]
        exact (Registry.spares_register hregister).trans
          (Registry.spares_sweep (Registry.books_register h hregister) now)
          (Registry.settings_register hregister).1
  | sweep => exact Registry.spares_sweep h now
  | forceSweep => exact Registry.spares_forceSweep h now
  | rollBack _ => exact hsweeps.elim
  | hold _ _ => exact hsweeps.elim
  | change _ _ => exact hsweeps.elim

end Dealing

/-! ## Histories -/

namespace Registry

variable {r : Registry} {clock now : Time} {history : List (Time × Dealing)}

/-- No history changes the settings of a registry. -/
theorem settings_play (r : Registry) (history : List (Time × Dealing)) :
    (r.play history).ttl = r.ttl ∧ (r.play history).sweepInterval = r.sweepInterval :=
  play_induction (P := fun s => s.ttl = r.ttl ∧ s.sweepInterval = r.sweepInterval) ⟨rfl, rfl⟩
    (fun s now d hs =>
      have hstep := d.settings_perform s now
      ⟨hstep.1.trans hs.1, hstep.2.trans hs.2⟩) history

/-- As long as the clock does not go back, everything is in time. -/
theorem Timely.play (h : r.Timely clock) (hfirst : ∀ x ∈ history, clock ≤ x.1)
    (hforward : history.Pairwise fun x y => x.1 ≤ y.1) (hle : clock ≤ now)
    (hlast : ∀ x ∈ history, x.1 ≤ now) : (r.play history).Timely now := by
  induction history generalizing r clock with
  | nil => exact h.mono hle
  | cons x rest ih =>
      obtain ⟨hnext, hrest⟩ := List.pairwise_cons.mp hforward
      exact ih (Dealing.timely_perform h (hfirst x List.mem_cons_self) x.2) hnext hrest
        (hlast x List.mem_cons_self) fun y hy => hlast y (List.mem_cons_of_mem _ hy)

theorem Unused.timely (h : r.Unused) (hlast : r.lastSweep = 0) : r.Timely 0 where
  books := h.books
  swept := Nat.le_of_eq hlast
  within := by
    intro id slot e hslot
    simp [h.slots] at hslot

/-- In a history in which the clock does not go back, from a registry in which nothing was ever
created and swept: once a sweep was called for, or a new exchange was created, no registered
exchange has outstayed the time to live by more than the interval of sweeps, whether or not the
sweep was put off. Nobody is swept out before the time to live is over. -/
theorem swept_in_time (hr : r.Unused) (hlast : r.lastSweep = 0) {d : Dealing}
    (hforward : ((history ++ [(now, d)]).map Prod.fst).Pairwise (· ≤ ·)) (hsweeps : d.Sweeps) :
    let s := r.play history
    let t := d.perform now s
    (d.isRefused s = false → ∀ id e, t.get? id = some e →
      now ≤ e.createdAt + r.ttl + r.sweepInterval) ∧
    ∀ slot f, t.exchange? slot = some f → f.detached = true →
      f.createdAt + r.ttl < now ∨ ∃ e, s.exchange? slot = some e ∧ e.detached = true := by
  intro s t
  rw [List.pairwise_map, List.pairwise_append] at hforward
  obtain ⟨hhistory, _, hnow⟩ := hforward
  have htimely : s.Timely now :=
    (hr.timely hlast).play (fun x _ => Nat.zero_le x.1) hhistory (Nat.zero_le now) fun x hx =>
      hnow x hx (now, d) (List.mem_singleton_self _)
  obtain ⟨httl, hinterval⟩ := r.settings_play history
  refine ⟨fun hrefused id e he => ?_, fun slot f hf hdetached => ?_⟩
  · obtain ⟨slot, hslot, he⟩ := get?_eq_some.mp he
    rw [← httl, ← hinterval]
    exact Dealing.le_of_perform htimely (Nat.le_refl now) hsweeps hrefused hslot he
  · rw [← httl]
    rcases Dealing.spares_perform htimely.books hsweeps slot f hf hdetached with
      hover | ⟨e, he, hdetached', _⟩
    · exact .inl hover
    · exact .inr ⟨e, he, hdetached'⟩

/-- A new registry. Its exchanges may stay for four intervals of sweeps. -/
def vacant : Registry := { ttl := 120000, sweepInterval := 30000 }

theorem unused_vacant : vacant.Unused :=
  ⟨rfl, rfl, rfl, rfl, rfl, rfl, rfl⟩

/-- Two exchanges are created, and swept for before the time of the first one is over. -/
def punctual : List (Time × Dealing) :=
  [(1000000, .create ⟨"x"⟩ .myRole), (1060000, .create ⟨"y"⟩ .partnerRole), (1100000, .sweep)]

/-- The next sweep is put off, so the first exchange stays for longer than its time to live. -/
theorem swept_in_time_throttled :
    ((vacant.play punctual).sweep 1125000).1.throttled = true ∧
      ∃ e, (Dealing.sweep.perform 1125000 (vacant.play punctual)).get? ⟨"x"⟩ = some e ∧
        e.createdAt + vacant.ttl < 1125000 ∧
        1125000 ≤ e.createdAt + vacant.ttl + vacant.sweepInterval := by
  have hforward : ((punctual ++ [(1125000, Dealing.sweep)]).map Prod.fst).Pairwise (· ≤ ·) := by
    decide
  have hget : (Dealing.sweep.perform 1125000 (vacant.play punctual)).get? ⟨"x"⟩ =
      some { id := ⟨"x"⟩, direction := .myRole, createdAt := 1000000 } := by decide +kernel
  have hbound := (swept_in_time unused_vacant rfl hforward trivial).1 rfl ⟨"x"⟩ _ hget
  exact ⟨by decide +kernel, _, hget, by decide, hbound⟩

/-- A creation that is refused sweeps nobody out: an exchange that has outstayed its time by far is
still registered. -/
theorem outstays_refused_create :
    let history : List (Time × Dealing) :=
      [(1000000, .create ⟨"X"⟩ .myRole), (2000000, .create ⟨"X"⟩ .partnerRole)]
    vacant.Unused ∧ vacant.lastSweep = 0 ∧ (history.map Prod.fst).Pairwise (· ≤ ·) ∧
      ∃ e, (vacant.play history).get? ⟨"X"⟩ = some e ∧
        ¬ 2000000 ≤ e.createdAt + vacant.ttl + vacant.sweepInterval := by
  refine ⟨unused_vacant, rfl, by decide, ?_⟩
  exact ⟨{ id := ⟨"X"⟩, direction := .myRole, createdAt := 1000000 }, by decide +kernel, by decide⟩

end Registry

end JobCluster
