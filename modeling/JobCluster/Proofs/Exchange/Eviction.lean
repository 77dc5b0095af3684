import JobCluster.Proofs.Exchange.Outcome
import JobCluster.Proofs.Exchange.Timeliness
/-!
# Eviction

A sweep goes through the exchanges in the order of their creation, skips those that have left the
registry before, and stops at the first one that is young. That is enough to take out all those
that have outstayed their time, and nobody else: the order never goes back in time although the
clock does, it has every registered exchange in it, and an entry stands for a slot and not for an
identifier, so that it is of no concern to a later exchange with the same identifier.

Main results:

- `Registry.Evicts`: what it means that a sweep takes out the overdue exchanges and counts them;
- `Registry.evicts_of_within`: there is nothing to do behind a young entry;
- `Registry.Evicts.behind`: one overdue exchange, and those in the entries behind it;
- `Registry.evicts_sweepOrder`: the run through the order of creation;
- `Registry.evicts_play`: a sweep at any time after any history.
-/

namespace JobCluster

/-! ## Counting in tables -/

namespace Table

variable {κ α : Type} [DecidableEq κ] [KeyOrder κ] {t : Table κ α} {p q : κ → α → Bool}

/-- Two conditions that agree on the entries of a table filter it alike. -/
theorem filter_congr (h : ∀ k a, t.get? k = some a → p k a = q k a) : t.filter p = t.filter q := by
  refine ext_get? fun k => ?_
  rw [get?_filter, get?_filter]
  cases hk : t.get? k with
  | none => rfl
  | some a => simp only [Option.filter_some, h k a hk]

/-- A table none of whose entries meets a condition is empty when it is filtered. -/
theorem filter_eq_empty (h : ∀ k a, t.get? k = some a → p k a = false) : t.filter p = ∅ := by
  refine ext_get? fun k => ?_
  rw [get?_filter, get?_empty]
  cases hk : t.get? k with
  | none => rfl
  | some a => simp only [Option.filter_some, h k a hk, Bool.false_eq_true, if_false]

/-- It does not matter whether a key is erased before or after a table is filtered. -/
theorem filter_erase (t : Table κ α) (p : κ → α → Bool) (k : κ) :
    (t.erase k).filter p = (t.filter p).erase k := by
  refine ext_get? fun j => ?_
  by_cases hj : j = k <;> simp [hj]

/-- A pair that is taken out is missing from a selection that it was in, and from no other. -/
theorem size_filter_erase {k : κ} {a : α} (h : t.get? k = some a) :
    ((t.erase k).filter p).size + (p k a).toNat = (t.filter p).size := by
  rw [filter_erase]
  have hget : (t.filter p).get? k = if p k a then some a else none := by
    rw [get?_filter, h, Option.filter_some]
  cases hp : p k a with
  | true => exact size_erase (hget.trans (if_pos hp))
  | false =>
      rw [erase_eq_self_iff.mpr (hget.trans (if_neg (by simp [hp])))]
      rfl

end Table

namespace Registry

variable {r s t : Registry} {order : List CreationEntry} {now : Time} {report : SweepReport}

/-! ## Overdue exchanges -/

/-- Whether the exchange in a slot has outstayed its time. -/
def overdue (r : Registry) (now : Time) (slot : Nat) : Bool :=
  (r.exchange? slot).any fun e => isExpired r.ttl now e.createdAt

/-- How many registered exchanges have outstayed their time, of the finished or of the others. -/
def overdueCount (r : Registry) (now : Time) (finished : Bool) : Nat :=
  (r.slots.filter fun _ slot => r.overdue now slot && r.isOver slot == finished).size

theorem overdue_of_exchange? {slot : Nat} {e : Exchange} (he : r.exchange? slot = some e) :
    r.overdue now slot = isExpired r.ttl now e.createdAt := by
  rw [overdue, he, Option.any_some]

/-- Whether a registry comes of another one as the overdue exchanges are swept out, with a report
that tells how many of them were not finished, and how many were. Whoever is swept out is detached,
and apart from that every exchange stays as it is. -/
structure Evicts (now : Time) (r : Registry) (report : SweepReport) (s : Registry) : Prop where
  slots : s.slots = r.slots.filter fun _ slot => !r.overdue now slot
  exchanges : ∀ slot e, r.exchange? slot = some e → s.exchange? slot =
    some (if r.slots.get? e.id = some slot ∧ r.overdue now slot = true then e.detach else e)
  evicted : s.evicted = r.evicted + report.evicted
  released : s.released = r.released + report.released
  counts : report = { evicted := r.overdueCount now false, released := r.overdueCount now true }

/-! ## Through the order of creation -/

/-- If nobody is out of time, no registered exchange is overdue. -/
theorem Within.overdue (h : r.Within now) {id : ExchangeId} {slot : Nat}
    (hslot : r.slots.get? id = some slot) : r.overdue now slot = false := by
  rw [Registry.overdue, Option.any_eq_false]
  intro e he
  simpa using isExpired_eq_false.mpr (h id slot e hslot he)

/-- Nobody is swept out while the time of nobody is over. -/
theorem evicts_of_within (h : r.Within now) (order : List CreationEntry) :
    Evicts now r {} { r with order } where
  slots := by
    refine Table.ext_get? fun id => ?_
    rw [Table.get?_filter]
    cases hslot : r.slots.get? id with
    | none => rfl
    | some slot =>
        rw [Option.filter_some, h.overdue hslot]
        rfl
  exchanges := by
    intro slot e he
    have hkept : ¬(r.slots.get? e.id = some slot ∧ r.overdue now slot = true) := by
      rintro ⟨hslot, hoverdue⟩
      rw [h.overdue hslot] at hoverdue
      cases hoverdue
    rw [if_neg hkept]
    exact he
  evicted := rfl
  released := rfl
  counts := by
    have hnone : ∀ finished, r.overdueCount now finished = 0 := by
      intro finished
      rw [overdueCount, Table.filter_eq_empty fun id slot hslot => by rw [h.overdue hslot]; rfl]
      rfl
    rw [hnone, hnone]

/-- Behind an entry that is young nobody is too old. -/
theorem Books.within {entry : CreationEntry} (h : r.Books (entry :: order))
    (hyoung : isExpired r.ttl now entry.createdAt = false) : r.Within now := by
  intro id slot e hslot he
  refine Nat.le_trans (isExpired_eq_false.mp hyoung) (Nat.add_le_add_right ?_ r.ttl)
  rcases List.mem_cons.mp (h.entry_mem hslot he) with heq | hrest
  · exact Nat.le_of_eq (congrArg CreationEntry.createdAt heq).symm
  · exact (List.pairwise_cons.mp h.sorted).1 _ hrest

/-- What is left once one exchange has left the registry. -/
structure Without (r : Registry) (id : ExchangeId) (slot : Nat) (s : Registry) : Prop where
  slots : s.slots = r.slots.erase id
  exchanges : s.exchanges = r.exchanges.modify slot Exchange.detach
  ttl : s.ttl = r.ttl

/-- Once an exchange has left, it is detached, and all others stay as they are. -/
theorem Without.exchange? {id : ExchangeId} {slot : Nat} (h : r.Without id slot s) (i : Nat) :
    s.exchange? i = if slot = i then (r.exchange? i).map Exchange.detach else r.exchange? i := by
  rw [Registry.exchange?, h.exchanges, List.getElem?_modify, Registry.exchange?]
  split <;> simp

/-- Exchanges are overdue as before once one has left. -/
theorem Without.overdue {id : ExchangeId} {slot : Nat} (h : r.Without id slot s) (i : Nat) :
    s.overdue now i = r.overdue now i := by
  rw [Registry.overdue, Registry.overdue, h.exchange?, h.ttl]
  split
  · cases r.exchange? i <;> rfl
  · rfl

theorem Without.isOver {id : ExchangeId} {slot : Nat} (h : r.Without id slot s) (i : Nat) :
    s.isOver i = r.isOver i := by
  rw [Registry.isOver, Registry.isOver, h.exchange?]
  split
  · cases r.exchange? i <;> rfl
  · rfl

/-- One overdue exchange less is to be counted. -/
theorem Without.overdueCount {slot : Nat} {e : Exchange} (h : r.Without e.id slot s)
    (hslot : r.slots.get? e.id = some slot) (he : r.exchange? slot = some e)
    (hexpired : isExpired r.ttl now e.createdAt = true) (finished : Bool) :
    s.overdueCount now finished + (e.isTerminal == finished).toNat =
      r.overdueCount now finished := by
  have hsame : s.overdueCount now finished = ((r.slots.erase e.id).filter fun _ i =>
      r.overdue now i && r.isOver i == finished).size := by
    rw [Registry.overdueCount, h.slots]
    exact congrArg Table.size (Table.filter_congr fun _ i _ => by rw [h.overdue, h.isOver])
  have hcounted : (r.overdue now slot && r.isOver slot == finished) =
      (e.isTerminal == finished) := by
    rw [overdue_of_exchange? he, hexpired, isOver_of_exchange? he, Bool.true_and]
  rw [hsame, ← hcounted]
  exact Table.size_filter_erase (p := fun _ i => r.overdue now i && r.isOver i == finished) hslot

/-- An overdue exchange is swept out, and then all the others. -/
theorem Evicts.behind {slot : Nat} {e : Exchange} (hs : Evicts now s report t)
    (h : r.Without e.id slot s) (hslot : r.slots.get? e.id = some slot)
    (he : r.exchange? slot = some e) (hexpired : isExpired r.ttl now e.createdAt = true)
    (hevicted : s.evicted = r.evicted + (!e.isTerminal).toNat)
    (hreleased : s.released = r.released + e.isTerminal.toNat) :
    Evicts now r { evicted := (!e.isTerminal).toNat + report.evicted
                   released := e.isTerminal.toNat + report.released } t where
  slots := by
    have hover : r.overdue now slot = true := (overdue_of_exchange? he).trans hexpired
    rw [hs.slots, h.slots, Table.filter_congr fun _ i _ => by rw [h.overdue], Table.filter_erase]
    refine Table.erase_eq_self_iff.mpr ?_
    rw [Table.get?_filter, hslot, Option.filter_some, hover]
    rfl
  exchanges := by
    intro i f hf
    by_cases hi : slot = i
    · subst hi
      rw [he] at hf
      obtain rfl := Option.some.inj hf
      have hdetached : s.exchange? slot = some e.detach := by
        rw [h.exchange?, if_pos rfl, he]
        rfl
      rw [hs.exchanges slot _ hdetached, overdue_of_exchange? he]
      simp only [hslot, hexpired, and_self, if_true]
      split <;> rfl
    · have hsame : s.exchange? i = some f := by rw [h.exchange?, if_neg hi, hf]
      have hregistered : s.slots.get? f.id = some i ↔ r.slots.get? f.id = some i := by
        rw [h.slots, Table.get?_erase]
        split
        · next hid => simp [hid, hslot, hi]
        · rfl
      rw [hs.exchanges i f hsame, h.overdue]
      simp only [hregistered]
  evicted := by rw [hs.evicted, hevicted, Nat.add_assoc]
  released := by rw [hs.released, hreleased, Nat.add_assoc]
  counts := by
    have hunfinished := h.overdueCount hslot he hexpired false
    have hfinished := h.overdueCount hslot he hexpired true
    rw [hs.counts]
    simp only [SweepReport.mk.injEq, and_true]
    constructor
    · rw [← hunfinished, Nat.add_comm, beq_false]
    · rw [← hfinished, Nat.add_comm, beq_true]

/-- A registered exchange has the time of its entry. -/
theorem Books.createdAt_eq {entry : CreationEntry} (h : r.Books (entry :: order))
    {id : ExchangeId} {e : Exchange} (hslot : r.slots.get? id = some entry.slot)
    (he : r.exchange? entry.slot = some e) : entry.createdAt = e.createdAt := by
  have honce : entry ∈ entriesOf (entry :: order) entry.slot :=
    List.mem_filter.mpr ⟨List.mem_cons_self, by simp⟩
  rw [h.once id entry.slot e hslot he, List.mem_singleton] at honce
  exact congrArg CreationEntry.createdAt honce

/-- An entry whose exchange has left is passed over; else the exchange leaves, and is counted by
whether it is finished. -/
theorem Tidy.sweepEntry_cases (h : r.Tidy) (entry : CreationEntry) :
    r.sweepEntry entry = ({}, r) ∨
      ∃ e, r.exchange? entry.slot = some e ∧ r.slots.get? e.id = some entry.slot ∧
        r.sweepEntry entry =
          ({ evicted := (!e.isTerminal).toNat, released := e.isTerminal.toNat },
            { r.withdraw e.id with
              evicted := r.evicted + (!e.isTerminal).toNat
              released := r.released + e.isTerminal.toNat }) := by
  unfold sweepEntry
  split
  · exact .inl rfl
  · next e he =>
    split
    · exact .inl rfl
    · next hslot =>
      have hslot := Decidable.not_not.mp hslot
      obtain ⟨f, hf, _, hattached⟩ := mark?_eq_some.mp (h e.id entry.slot hslot)
      rw [he] at hf
      obtain rfl := Option.some.inj hf
      refine .inr ⟨e, he, hslot, ?_⟩
      rw [hattached, Bool.or_false]
      cases e.isTerminal <;> simp [withdraw_eq hslot, modifyExchange]

/-- A sweep stops at the first entry that is young, and everybody who is overdue comes before. -/
theorem evicts_sweepOrder {entries : List CreationEntry} (h : r.Books entries) :
    Evicts now r (sweepOrder now entries r).1 (sweepOrder now entries r).2 := by
  induction entries generalizing r with
  | nil =>
      refine evicts_of_within (fun id slot e hslot he => ?_) []
      cases h.entry_mem hslot he
  | cons entry rest ih =>
      rw [sweepOrder]
      split
      · next hexpired =>
        have hrest := ih (books_sweepEntry h)
        rcases h.tidy.sweepEntry_cases entry with hsweep | ⟨e, he, hslot, hsweep⟩
        · rw [hsweep] at hrest ⊢
          simpa only [Nat.zero_add, hrest.counts] using hrest
        · rw [h.createdAt_eq hslot he] at hexpired
          rw [hsweep] at hrest ⊢
          exact hrest.behind ⟨by rw [withdraw_eq hslot]; rfl, by rw [withdraw_eq hslot]; rfl,
            by rw [withdraw_eq hslot]; rfl⟩ hslot he hexpired rfl rfl
      · next hyoung =>
        exact evicts_of_within (h.within (by simpa using hyoung)) (entry :: rest)

/-- A forced sweep sweeps out the overdue exchanges, and no others. -/
theorem evicts_forceSweep (h : r.Books r.order) (now : Time) :
    Evicts now r (r.forceSweep now).1 (r.forceSweep now).2 := by
  have hbooks : { r with lastSweep := now }.Books r.order :=
    ⟨h.faithful, h.once, h.known, h.sorted, h.drawn, h.balance⟩
  have hsweep : Evicts now { r with lastSweep := now } (r.forceSweep now).1 (r.forceSweep now).2 :=
    evicts_sweepOrder hbooks
  exact ⟨hsweep.slots, hsweep.exchanges, hsweep.evicted, hsweep.released, hsweep.counts⟩

/-- A sweep that is not put off does what a forced one does. -/
theorem sweep_of_not_throttled (h : (r.sweep now).1.throttled = false) :
    r.sweep now = r.forceSweep now := by
  unfold sweep at h ⊢
  split at h
  · next hdue => rw [if_pos hdue]
  · cases h

/-! ## After any history -/

/-- After a sweep an exchange is found exactly if its time was not over. -/
theorem Evicts.get? (h : Evicts now r report s) {id : ExchangeId} {e : Exchange}
    (he : r.get? id = some e) :
    s.get? id = if r.ttl < now - e.createdAt then none else some e := by
  obtain ⟨slot, hslot, he⟩ := get?_eq_some.mp he
  have hover : r.overdue now slot = decide (r.ttl < now - e.createdAt) := overdue_of_exchange? he
  have hs : s.slots.get? id = if r.ttl < now - e.createdAt then none else some slot := by
    rw [h.slots, Table.get?_filter, hslot, Option.filter_some, hover]
    split <;> simp_all
  split
  · next hold =>
    rw [if_pos hold] at hs
    simp [Registry.get?, find?, hs]
  · next hyoung =>
    rw [if_neg hyoung] at hs
    refine get?_eq_some.mpr ⟨slot, hs, ?_⟩
    rw [h.exchanges slot e he, hover]
    simp [hyoung]

/-- A sweep changes the status of no exchange. -/
theorem Evicts.status (h : Evicts now r report s) {slot : Nat} {e : Exchange}
    (he : r.exchange? slot = some e) :
    ∃ f, s.exchange? slot = some f ∧ f.status = e.status := by
  refine ⟨_, h.exchanges slot e he, ?_⟩
  split <;> rfl

/-- Whoever is registered no longer is detached. -/
theorem Evicts.detached (h : Evicts now r report s) (htidy : r.Tidy) {id : ExchangeId} {slot : Nat}
    (hslot : r.slots.get? id = some slot) (hgone : s.slots.get? id = none) :
    ∃ f, s.exchange? slot = some f ∧ f.detached = true := by
  obtain ⟨e, he, rfl, _⟩ := mark?_eq_some.mp (htidy id slot hslot)
  have hover : r.overdue now slot = true := by
    rw [h.slots, Table.get?_filter, hslot, Option.filter_some] at hgone
    simpa using hgone
  refine ⟨_, h.exchanges slot e he, ?_⟩
  rw [if_pos ⟨hslot, hover⟩]
  rfl

/-- After any history, and with the clock at any time, a sweep that is forced or is not put off
takes out the registered exchanges whose age is above the time to live, and nobody else. The report
tells how many of them were not finished, and how many were. No status changes, and everybody who
is taken out is detached. -/
theorem evicts_play (hr : r.Unused) (history : List (Time × Dealing)) (now : Time)
    {swept : SweepReport × Registry}
    (hswept : swept = (r.play history).forceSweep now ∨
      swept = (r.play history).sweep now ∧ swept.1.throttled = false) :
    let s := r.play history
    let t := swept.2
    (∀ id e, s.get? id = some e →
      t.get? id = if s.ttl < now - e.createdAt then none else some e) ∧
    t.slots = s.slots.filter (fun _ slot => !s.overdue now slot) ∧
    swept.1 =
      { evicted := (s.slots.filter fun _ slot => s.overdue now slot && !s.isOver slot).size
        released := (s.slots.filter fun _ slot => s.overdue now slot && s.isOver slot).size
        throttled := false } ∧
    (∀ slot e, s.exchange? slot = some e → ∃ f, t.exchange? slot = some f ∧ f.status = e.status) ∧
    ∀ id slot, s.slots.get? id = some slot → t.slots.get? id = none →
      ∃ f, t.exchange? slot = some f ∧ f.detached = true := by
  intro s t
  have hbooks : s.Books s.order := books_history hr.books history
  have hevicts : Evicts now s swept.1 t := by
    have hforce : swept = s.forceSweep now := by
      rcases hswept with hforce | ⟨hsweep, hdue⟩
      · exact hforce
      · rw [hsweep] at hdue
        exact hsweep.trans (sweep_of_not_throttled hdue)
    simp only [t, hforce]
    exact evicts_forceSweep hbooks now
  refine ⟨fun id e he => hevicts.get? he, hevicts.slots, ?_, fun slot e he => hevicts.status he,
    fun id slot => hevicts.detached hbooks.tidy⟩
  simpa only [overdueCount, beq_false, beq_true] using hevicts.counts

/-- Three exchanges are created, the second and the third as the clock was set back; the third is
finished, and the identifier of the first is used again. -/
def aged : List (Time × Dealing) :=
  [(1000000, .create ⟨"x"⟩ .myRole), (400000, .create ⟨"y"⟩ .partnerRole),
    (500000, .create ⟨"z"⟩ .partnerRole), (1010000, .change (.complete ⟨"z"⟩ .completedOk) trivial),
    (1020000, .change (.release ⟨"x"⟩) trivial), (1060000, .create ⟨"x"⟩ .myRole)]

/-- The entry of the first exchange does not take the later one out that has its identifier. -/
theorem evicts_play_aged :
    ((vacant.play aged).sweep 1125000).1 = { evicted := 1, released := 1 } ∧
      ((vacant.play aged).sweep 1125000).2.get? ⟨"y"⟩ = none ∧
      ((vacant.play aged).sweep 1125000).2.get? ⟨"x"⟩ =
        some { id := ⟨"x"⟩, direction := .myRole, createdAt := 1060000 } := by
  have hdue : ((vacant.play aged).sweep 1125000).1.throttled = false := by decide +kernel
  obtain ⟨hget, _, hreport, _, _⟩ := evicts_play unused_vacant aged 1125000 (.inr ⟨rfl, hdue⟩)
  have hy : (vacant.play aged).get? ⟨"y"⟩ =
      some { id := ⟨"y"⟩, direction := .partnerRole, createdAt := 1000000 } := by decide +kernel
  have hx : (vacant.play aged).get? ⟨"x"⟩ =
      some { id := ⟨"x"⟩, direction := .myRole, createdAt := 1060000 } := by decide +kernel
  refine ⟨hreport.trans (by decide +kernel), (hget _ _ hy).trans ?_, (hget _ _ hx).trans ?_⟩
  · exact if_pos (by decide +kernel)
  · exact if_neg (by decide +kernel)

end Registry

end JobCluster
