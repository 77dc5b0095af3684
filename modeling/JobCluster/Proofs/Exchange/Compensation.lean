import JobCluster.Proofs.Cluster.Bookkeeping
/-!
# Exchanges and the rollback of other transactions

A transaction that creates an exchange has it withdrawn when it is rolled back. By then the exchange
may have left its registry, and another transaction may have created a new one under the same
identifier. The withdrawal goes by the identifier, so this file tells when it finds an exchange of
somebody else.

Main results:

- `Cluster.registry_carryOut_rollback`: what a callback does to the exchanges after a rollback;
- `Interplay.Orderly.withdraws_iff`: a transaction withdraws what it has created;
- `Interplay.stands_rollback_iff`: a rollback leaves an exchange alone exactly if the transaction
  has created none under that identifier;
- `Interplay.withdrawn_by_another`: a rollback that withdraws an exchange of another transaction.
-/

namespace JobCluster

variable {η ω : Type}

/-! ## Registered exchanges -/

namespace Registry

variable {r : Registry} {id : ExchangeId} {slot : Nat}

/-- Whether the exchange in a slot is registered under an identifier and not detached. -/
def Stands (r : Registry) (id : ExchangeId) (slot : Nat) : Prop :=
  r.slots.get? id = some slot ∧ r.mark? slot = some (id, false)

/-- In a tidy registry, an exchange that has a slot stands in it. -/
theorem Tidy.stands (h : r.Tidy) (hslot : r.slots.get? id = some slot) : r.Stands id slot :=
  ⟨hslot, h id slot hslot⟩

/-- A creation that is rolled back leaves no slot, and all others keep theirs. -/
theorem slots_rollBack (r : Registry) (id other : ExchangeId) :
    (r.rollBack id).slots.get? other = if other = id then none else r.slots.get? other := by
  unfold rollBack
  by_cases h : r.slots.contains id = true
  · rw [if_pos h]
    exact r.slots_withdraw id other
  · rw [if_neg h]
    by_cases hother : other = id
    · rw [if_pos hother, hother]
      simpa [Table.contains] using h
    · rw [if_neg hother]

end Registry

namespace Cluster

/-- Whether the exchange in a slot of a node is registered under an identifier and not detached. -/
def Stands (c : Cluster η ω) (n : NodeName) (id : ExchangeId) (slot : Nat) : Prop :=
  (c.node n).registry.Stands id slot

/-- After a rollback, a callback withdraws an exchange, or leaves the registries alone. -/
theorem registry_carryOut_rollback (app : Application η ω) (thread : Thread) (c : Cluster η ω)
    (callback : Callback η) (n : NodeName) :
    ((c.carryOut app thread (.after false) callback).node n).registry =
      match callback with
      | .withdraw m id =>
        if m = n then (c.node n).registry.rollBack id else (c.node n).registry
      | _ => (c.node n).registry := by
  cases callback with
  | publish m plan => rfl
  | queue m info => exact registry_modifyNode rfl n
  | drop m j armed =>
      cases armed with
      | false => rfl
      | true =>
          show ((c.dropClaimed m j).2.node n).registry = (c.node n).registry
          rw [c.dropClaimed_snd m j]
          rfl
  | applyWrites tx => rfl
  | withdraw m id =>
      refine (registry_modifyRegistry c m n fun r => r.rollBack id).trans ?_
      show (if m = n then (c.node m).registry.rollBack id else _) = if m = n then _ else _
      by_cases hmn : m = n
      · rw [if_pos hmn, if_pos hmn, hmn]
      · rw [if_neg hmn, if_neg hmn]
  | custom script => rfl

/-- The callback that withdraws an exchange leaves no slot of it. -/
theorem slots_carryOut_withdraw (app : Application η ω) (thread : Thread) (c : Cluster η ω)
    (n : NodeName) (id : ExchangeId) :
    ((c.carryOut app thread (.after false) (.withdraw n id)).node n).registry.slots.get? id =
      none := by
  rw [registry_carryOut_rollback]
  simp [Registry.slots_rollBack]

/-- After a rollback, a callback changes nothing about an identifier that it does not withdraw. -/
theorem slots_carryOut_rollback (app : Application η ω) (thread : Thread) (c : Cluster η ω)
    {callback : Callback η} {n : NodeName} {id : ExchangeId} (h : callback ≠ .withdraw n id) :
    ((c.carryOut app thread (.after false) callback).node n).registry.slots.get? id =
      (c.node n).registry.slots.get? id := by
  rw [registry_carryOut_rollback]
  cases callback with
  | withdraw m j =>
      by_cases hmn : m = n
      · subst hmn
        have hid : id ≠ j := by
          rintro rfl
          exact h rfl
        simp [Registry.slots_rollBack, hid]
      · simp [hmn]
  | publish m plan | queue m info | drop m j armed | applyWrites tx | custom script => rfl

end Cluster

namespace Interplay

variable {app : Application η ω} {o : Interplay η ω} {n : NodeName} {id : ExchangeId}
  {slot : Nat}

/-! ## Withdrawals -/

namespace Orderly

/-- A transaction withdraws after a rollback what it has created. -/
theorem withdraws_iff {tx : TxId} {t : Transaction (Callback η)}
    (ht : t.lasting = o.registered tx) (n : NodeName) (id : ExchangeId) :
    .withdraw n id ∈ t.callbacks (.after false) ↔ ∃ own, .exchange n id own ∈ o.deeds tx := by
  constructor
  · intro hmem
    obtain ⟨x, hx, _, hcallback⟩ := Transaction.mem_callbacks_iff.mp hmem
    have hlasts : x.lasts = true := by rw [Synchronizer.lasts, hcallback]
    obtain ⟨e, he, htx, hcall⟩ := exists_entry ht hx hlasts
    have hdeed := e.effect.of_registered hcall
    rw [hcallback] at hdeed
    obtain ⟨_, own, hown⟩ := hdeed
    exact ⟨own, mem_deeds.mpr ⟨e, he, htx, hown⟩⟩
  · rintro ⟨own, hown⟩
    obtain ⟨e, he, htx, hdeed⟩ := mem_deeds.mp hown
    have hregisters := e.effect.registers_exchange hdeed
    have hcall : (⟨.onRollback, .withdraw n id⟩ : Synchronizer (Callback η)) ∈ e.registered := by
      refine WorkEntry.mem_registered.mpr ⟨?_, rfl⟩
      rw [hregisters]
      exact List.mem_singleton_self _
    have hlasting : (⟨.onRollback, .withdraw n id⟩ : Synchronizer (Callback η)) ∈ t.lasting :=
      ht ▸ mem_registered.mpr ⟨e, he, htx, hcall⟩
    exact Transaction.mem_callbacks_iff.mpr ⟨_, (Transaction.mem_lasting.mp hlasting).1, rfl, rfl⟩

/-- An exchange that was created under an identifier under which another one is registered has left
the registry. -/
theorem left_of_stands (h : Orderly o) {tx other : TxId} {own : Nat} (hother : other ≠ tx)
    (hslot : .exchange n id slot ∈ o.deeds other) (hown : .exchange n id own ∈ o.deeds tx)
    (hstands : o.cluster.Stands n id slot) : (o.cluster.node n).registry.Left own := by
  have hne : own ≠ slot := by
    rintro rfl
    exact hother (h.slot_unique hslot hown)
  obtain ⟨e, he, _, hdeed⟩ := mem_deeds.mp hown
  have hplaces : (o.cluster.node n).registry.Places id own := h.done e he _ hdeed
  refine hplaces.left fun hregistered => hne ?_
  rw [hstands.1] at hregistered
  exact (Option.some.inj hregistered).symm

end Orderly

/-! ## A step of a rollback -/

section Steps

variable {i : Nat} {d : Departure η} {callback : Callback η} {rest : List (Callback η)}

/-- A step of a rollback leaves a registered exchange alone unless it withdraws the identifier. -/
theorem stands_rollback_step (h : Orderly o) (hd : o.departures[i]? = some d)
    (hround : d.round = .concluding false (callback :: rest))
    (hstands : o.cluster.Stands n id slot) :
    (o.step app (.advance i)).cluster.Stands n id slot ↔ callback ≠ .withdraw n id := by
  have hnext : Orderly (o.step app (.advance i)) := h.step (.advance i)
  have htidy := hnext.tidy n
  rw [step_concluding hd hround] at htidy ⊢
  constructor
  · rintro hnext rfl
    have hgone := hnext.1
    rw [Cluster.slots_carryOut_withdraw] at hgone
    cases hgone
  · intro hne
    have hslots := Cluster.slots_carryOut_rollback app d.thread o.cluster hne
    exact htidy.stands (hslots.trans hstands.1)

/-- A departure that concludes goes on with its next callback. -/
theorem departures_step_concluding {committed : Bool} (hd : o.departures[i]? = some d)
    (hround : d.round = .concluding committed (callback :: rest)) :
    (o.step app (.advance i)).departures[i]? = some (d.moveTo (.concluding committed rest)) := by
  obtain ⟨hi, _⟩ := List.getElem?_eq_some_iff.mp hd
  rw [step_concluding hd hround]
  exact List.getElem?_set_self hi

end Steps

/-! ## A whole rollback -/

section Whole

variable {i : Nat} {d : Departure η} {rest : List (Callback η)}

/-- An identifier that is not registered is not registered by a rollback either. -/
theorem gone_rollback (hd : o.departures[i]? = some d) (hround : d.round = .concluding false rest)
    (hgone : (o.cluster.node n).registry.slots.get? id = none) :
    ((o.play app (List.replicate rest.length (.advance i))).cluster.node n).registry.slots.get?
      id = none := by
  induction rest generalizing o d with
  | nil => exact hgone
  | cons callback rest ih =>
      refine ih (departures_step_concluding hd hround) rfl ?_
      rw [step_concluding hd hround]
      by_cases hcallback : callback = .withdraw n id
      · rw [hcallback]
        exact Cluster.slots_carryOut_withdraw app d.thread o.cluster n id
      · exact (Cluster.slots_carryOut_rollback app d.thread o.cluster hcallback).trans hgone

/-- A rollback leaves a registered exchange alone unless one of its callbacks withdraws the
identifier. -/
theorem stands_rollback (h : Orderly o) (hd : o.departures[i]? = some d)
    (hround : d.round = .concluding false rest) (hstands : o.cluster.Stands n id slot) :
    (o.play app (List.replicate rest.length (.advance i))).cluster.Stands n id slot ↔
      .withdraw n id ∉ rest := by
  induction rest generalizing o d with
  | nil => exact iff_of_true hstands List.not_mem_nil
  | cons callback rest ih =>
      have hnext : (o.step app (.advance i)).departures[i]? = _ :=
        departures_step_concluding hd hround
      have hstep : (o.step app (.advance i)).cluster.Stands n id slot ↔ _ :=
        stands_rollback_step h hd hround hstands
      rw [List.length_cons, List.replicate_succ, play_cons, List.mem_cons, not_or]
      by_cases hcallback : callback = .withdraw n id
      · have hgone : ((o.step app (.advance i)).cluster.node n).registry.slots.get? id = none := by
          rw [step_concluding hd hround, hcallback]
          exact Cluster.slots_carryOut_withdraw app d.thread o.cluster n id
        refine iff_of_false (fun hs => ?_) fun hs => hs.1 hcallback.symm
        cases (gone_rollback hnext rfl hgone).symm.trans hs.1
      · rw [ih (h.step (.advance i)) hnext rfl (hstep.mpr hcallback)]
        exact (and_iff_right (Ne.symm hcallback)).symm

end Whole

/-- In a history of overlapping transactions, a transaction that is rolled back meets a registered
exchange that another transaction has created. Each callback leaves the exchange registered and not
detached exactly if it does not withdraw the identifier. So the whole rollback does exactly if the
transaction itself has created no exchange under the identifier; one that it has created has left
the registry by then. -/
theorem stands_rollback_iff (app : Application η ω) {c : Cluster η ω} (hc : c.AtRest)
    (moves : List (Move η ω)) :
    let o := (⟨c, [], []⟩ : Interplay η ω).play app moves
    ∀ i d, o.departures[i]? = some d → ∀ n id slot other, other ≠ d.tx →
      .exchange n id slot ∈ o.deeds other → o.cluster.Stands n id slot →
      (∀ callback rest, d.round = .concluding false (callback :: rest) →
        ((o.step app (.advance i)).cluster.Stands n id slot ↔ callback ≠ .withdraw n id)) ∧
      (d.round = .concluding false (d.transaction.callbacks (.after false)) →
        ((o.play app (List.replicate (d.transaction.callbacks (.after false)).length
            (.advance i))).cluster.Stands n id slot ↔ ∀ own, .exchange n id own ∉ o.deeds d.tx)) ∧
      ∀ own, .exchange n id own ∈ o.deeds d.tx → (o.cluster.node n).registry.Left own := by
  intro o i d hd n id slot other hother hslot hstands
  have horderly : Orderly o := .play hc moves
  have hdeparted := horderly.departed d (List.mem_of_getElem? hd)
  refine ⟨fun callback rest hround => stands_rollback_step horderly hd hround hstands,
    fun hround => ?_, fun own hown => horderly.left_of_stands hother hslot hown hstands⟩
  rw [stands_rollback horderly hd hround hstands, Orderly.withdraws_iff hdeparted n id, not_exists]

/-- Two transactions create exchanges under identifiers of their own, and the first is rolled
back. -/
def neighbours : List (Move Unit Unit) :=
  [.begin "a" .main, .begin "a" (.named "t"), .work ⟨0⟩ (.createExchange "a" ⟨"x"⟩ .myRole),
    .work ⟨1⟩ (.createExchange "a" ⟨"y"⟩ .myRole), .depart ⟨0⟩ .main .rollback]

/-- The exchange of the second transaction outlasts the rollback of the first. -/
theorem stands_rollback_iff_neighbours :
    ((playBlank neighbours).play .silent
      (List.replicate 1 (.advance 0))).cluster.Stands "a" ⟨"y"⟩ 1 := by
  have hrollback := stands_rollback_iff .silent Cluster.atRest_blank neighbours 0
    ((playBlank neighbours).departures.get ⟨0, by decide⟩) rfl "a" ⟨"y"⟩ 1 ⟨1⟩ (by decide)
    (List.mem_singleton_self _) ⟨rfl, rfl⟩
  refine (hrollback.2.1 rfl).mpr fun own hown => ?_
  have hdeeds : (playBlank neighbours).deeds ⟨0⟩ = [.exchange "a" ⟨"x"⟩ 0] := rfl
  have hfirst : Deed.exchange "a" ⟨"y"⟩ own ∈ [Deed.exchange "a" ⟨"x"⟩ 0] := hdeeds ▸ hown
  simp at hfirst

/-- A transaction creates an exchange, which is released, and a second transaction creates another
one under its identifier. Then the first transaction is rolled back. -/
def successor : List (Move Unit Unit) :=
  [.begin "a" .main, .begin "a" (.named "t"), .work ⟨0⟩ (.createExchange "a" ⟨"x"⟩ .myRole),
    .registry "a" (.release ⟨"x"⟩), .work ⟨1⟩ (.createExchange "a" ⟨"x"⟩ .myRole),
    .depart ⟨0⟩ .main .rollback]

/-- The rollback takes the exchange of the second transaction, still open, out of the registry. -/
theorem withdrawn_by_another :
    let o := playBlank successor
    o.deeds ⟨0⟩ = [.exchange "a" ⟨"x"⟩ 0] ∧ o.deeds ⟨1⟩ = [.exchange "a" ⟨"x"⟩ 1] ∧
      (o.cluster.transaction? ⟨1⟩).isSome = true ∧
      (o.cluster.node "a").registry.slots.get? ⟨"x"⟩ = some 1 ∧
      (o.cluster.node "a").registry.mark? 1 = some (⟨"x"⟩, false) ∧
      o.departures.map Departure.tx = [⟨0⟩] ∧
      ((o.step .silent (.advance 0)).cluster.node "a").registry.slots.get? ⟨"x"⟩ = none ∧
      ((o.step .silent (.advance 0)).cluster.node "a").registry.mark? 1 = some (⟨"x"⟩, true) := by
  refine ⟨?_, ?_, ?_, ?_, ?_, ?_, ?_, ?_⟩
  · rfl
  · rfl
  · rfl
  · rfl
  · rfl
  · rfl
  · rfl
  · rfl

end Interplay

end JobCluster
