import JobCluster.Proofs.Instance.Finished
/-!
# What the committed instances consist of

The first write of a transaction registers the callback that applies all of its writes. So the
writes of a transaction that commits are applied once and together, in their order, when its turn
comes among the callbacks; and the committed instances are what these writes have made of those that
were there at first.

Main results:

- `Interplay.Pledged.step`: what a transaction has written is applied once, by its callback;
- `Interplay.committed`: the transactions whose writes have been applied, in this order;
- `Interplay.Chronicle.step`: what every move keeps;
- `Interplay.Chronicle.play`: the committed instances are what the writes of those transactions have
  made of them.
-/

namespace JobCluster

variable {η ω : Type}

/-! ## The callback that applies writes -/

/-- Whether a callback applies the writes of a transaction. -/
def Callback.applies : Callback η → Bool
  | .applyWrites _ => true
  | .publish _ _ | .queue _ _ | .drop _ _ _ | .withdraw _ _ | .custom _ => false

/-- The callbacks that apply writes are those of one kind. -/
theorem Callback.applies_eq_true {f : Callback η} :
    f.applies = true ↔ ∃ tx, f = .applyWrites tx := by
  cases f <;> simp [applies]

/-- A callback that applies writes is never taken back. -/
theorem lasts_of_applies {x : Synchronizer (Callback η)} (h : x.callback.applies = true) :
    x.lasts = true := by
  obtain ⟨tx, hx⟩ := Callback.applies_eq_true.mp h
  rw [Synchronizer.lasts, hx]

/-- A callback that applies no writes leaves the instances alone. -/
theorem Cluster.instances_carryOut (app : Application η ω) (thread : Thread) (phase : Phase)
    (c : Cluster η ω) {callback : Callback η} (h : callback.applies = false) :
    (c.carryOut app thread phase callback).instances = c.instances := by
  rw [carryOut_instances]
  cases callback with
  | applyWrites tx => cases h
  | publish n plan | queue n info | drop n j armed | withdraw n j | custom script => rfl

/-- A call registers the callback that applies the writes of its transaction exactly if it is the
first one to write. -/
theorem WorkCall.Effect.any_applies {tx : TxId} {c d : Cluster η ω} {a : WorkCall η}
    {answer : WorkAnswer} {registered : List (Synchronizer (Callback η))}
    (h : Effect tx c a answer registered d) :
    (registered.any fun x => x.callback.applies) =
      ((a.write? tx c.instances).isSome && !c.instances.isOpen tx) := by
  cases h with
  | written answer hwrite _ =>
      rw [hwrite, applying]
      cases hopen : c.instances.isOpen tx <;> simp [Callback.applies]
  | failed answer hwrite _ => simp [hwrite]
  | staged | unstaged | planned | created | claimed | released | registered | marked | availability
  | refusal => simp [write?, Callback.applies]

namespace WorkEntry

/-- Whether the call wrote an instance. -/
def wrote (e : WorkEntry η ω) : Bool := e.write?.isSome

/-- A call is logged with the callback that applies writes exactly if it was the first one to
write. -/
theorem any_applies_registered (e : WorkEntry η ω) :
    (e.registered.any fun x => x.callback.applies) =
      (e.wrote && !e.found.instances.isOpen e.tx) := by
  rw [wrote, write?, ← e.effect.any_applies, registered, List.any_filter]
  congr 1
  funext x
  cases hx : x.callback <;> simp [Callback.applies, Synchronizer.lasts, hx]

end WorkEntry

/-! ## What is staged -/

namespace InstanceStore

/-- Whether something is staged for every transaction that has writes staged. -/
def Tight (s : InstanceStore) : Prop := ∀ tx, s.isOpen tx = true → s.writes tx ≠ []

/-- Only a transaction that has written something is open in the store. -/
theorem Tight.isOpen_eq {s : InstanceStore} (h : s.Tight) (tx : TxId) :
    s.isOpen tx = !(s.writes tx).isEmpty := by
  cases hopen : s.isOpen tx with
  | true =>
      have hwrites : s.writes tx ≠ [] := h tx hopen
      simp [hwrites]
  | false =>
      have hnone : s.staged.get? tx = none := by simpa [isOpen, Table.contains] using hopen
      simp [writes, hnone]

/-- A write leaves the store tight. -/
theorem Tight.stage {s : InstanceStore} (h : s.Tight) (tx : TxId) (w : InstanceWrite) :
    (s.stage tx w).Tight := by
  intro other hopen
  rw [writes_stage]
  by_cases hother : tx = other
  · simp [hother]
  · rw [if_neg hother]
    refine h other ?_
    simpa [isOpen, Table.contains, InstanceStore.stage, hother] using hopen

theorem Tight.complete {s : InstanceStore} (h : s.Tight) (tx : TxId) (committed : Bool) :
    (s.complete tx committed).2.Tight := by
  have hstaged : (s.complete tx committed).2.staged = s.staged.erase tx := by
    cases committed <;> rfl
  intro other hopen
  rw [writes_complete]
  by_cases hother : other = tx
  · simp [isOpen, Table.contains, hstaged, hother] at hopen
  · rw [if_neg hother]
    refine h other ?_
    simpa [isOpen, Table.contains, hstaged, hother] using hopen

/-- Writes are seen in order. -/
theorem seen_append (id : InstanceId) (base : Option ProcessInstance) (ws vs : List InstanceWrite) :
    seen id base (ws ++ vs) = seen id (seen id base ws) vs :=
  List.foldl_append

end InstanceStore

namespace Departure

/-- Whether the callback that applies the writes of the transaction may still run. -/
def willApply (d : Departure η) : Bool :=
  match d.round with
  | .preparing _ => true
  | .concluding _ rest => rest.any Callback.applies

/-- Whether the transaction has committed, and the callback that applies its writes has run. -/
def hasApplied (d : Departure η) : Bool :=
  match d.round with
  | .concluding true rest =>
    (d.transaction.callbacks (.after true)).any Callback.applies && !rest.any Callback.applies
  | .preparing _ | .concluding false _ => false

/-- A departing transaction has applied its writes once the callback that does so is behind it. -/
theorem hasApplied_moveTo (d : Departure η) (rest : List (Callback η)) :
    (d.moveTo (.concluding true rest)).hasApplied =
      ((d.transaction.callbacks (.after true)).any Callback.applies &&
        !rest.any Callback.applies) :=
  rfl

end Departure

namespace Interplay

variable {app : Application η ω} {o : Interplay η ω} {m : Move η ω} {tx : TxId}

/-! ## Commits in turn -/

/-- The transactions whose writes are applied in a history, in this order. -/
def committed (app : Application η ω) : Interplay η ω → List (Move η ω) → List TxId
  | _, [] => []
  | o, m :: rest => (o.commits? m).toList ++ committed app (o.step app m) rest

/-- A move commits a transaction exactly if it lets a departure advance that has committed, and
whose next callback applies the writes of the transaction. -/
theorem commits?_eq_some :
    o.commits? m = some tx ↔ ∃ i d rest, m = .advance i ∧ o.departures[i]? = some d ∧
      d.round = .concluding true (.applyWrites tx :: rest) := by
  constructor
  · intro h
    unfold commits? at h
    split at h
    · next d other hcarries =>
      cases h
      obtain ⟨i, rest, hm, hd, hround⟩ := carries?_after_eq_some.mp hcarries
      exact ⟨i, d, rest, hm, hd, hround⟩
    · cases h
  · rintro ⟨i, d, rest, hm, hd, hround⟩
    have hcarries := carries?_after_eq_some.mpr ⟨i, rest, hm, hd, hround⟩
    simp [commits?, hcarries]

/-- A transaction that is open no longer writes nothing more. -/
theorem writes_step (hclosed : o.cluster.transaction? tx = none) (m : Move η ω) :
    (o.step app m).writes tx = o.writes tx := by
  have houtcome := outcome_step app o m
  generalize o.step app m = p at houtcome
  cases houtcome with
  | @worked own a t ht =>
      have hne : own ≠ tx := by
        rintro rfl
        rw [hclosed] at ht
        cases ht
      unfold writes
      rw [entries_append, if_neg hne]
  | idle | refused | begun | departed | before | decided | after | store | registry | elsewhere =>
      rfl

/-! ## Pledges -/

theorem writes_eq_nil_iff {tx : TxId} :
    o.writes tx = [] ↔ (o.entries tx).any WorkEntry.wrote = false := by
  simp [writes, WorkEntry.wrote, List.filterMap_eq_nil_iff]

/-- How what transactions have written agrees with the callbacks that apply it. -/
structure Pledged (o : Interplay η ω) : Prop where
  tight : o.cluster.instances.Tight
  /-- A transaction that has written anything has registered the callback for it, once. -/
  registers : ∀ tx, ((o.registered tx).any fun x => x.callback.applies) =
    (o.entries tx).any WorkEntry.wrote
  once : ∀ tx, (o.entries tx).Pairwise fun e f =>
    e.wrote = true → ∀ x ∈ f.registered, x.callback.applies = false
  /-- The writes of a transaction are all there as long as they may have to be applied. -/
  pending : ∀ tx, (∃ d ∈ o.departures, d.tx = tx ∧ d.willApply = true) →
    o.cluster.instances.writes tx = o.writes tx

namespace Orderly

variable {t : Transaction (Callback η)} {d : Departure η}

/-- A callback that applies writes is registered for the time after the end, with the transaction
whose writes it applies. -/
theorem of_applies (ht : t.lasting = o.registered tx) {x : Synchronizer (Callback η)}
    (hx : x ∈ t.synchronizers) (happlies : x.callback.applies = true) :
    x.moment = .after ∧ x.callback = .applyWrites tx := by
  obtain ⟨own, hcallback⟩ := Callback.applies_eq_true.mp happlies
  obtain ⟨e, _, htx, hregisters⟩ := exists_entry ht hx (lasts_of_applies happlies)
  have hown := e.effect.of_registered hregisters
  rw [hcallback] at hown
  exact ⟨hown.1, by rw [hcallback, hown.2, htx]⟩

/-- No callback before the commit applies writes. -/
theorem applies_eq_false (h : Orderly o) (hd : d ∈ o.departures) {callback : Callback η}
    (hmem : callback ∈ d.transaction.callbacks .before) : callback.applies = false := by
  obtain ⟨x, hx, htakes, rfl⟩ := Transaction.mem_callbacks_iff.mp hmem
  refine Bool.eq_false_iff.mpr fun happlies => ?_
  rw [(of_applies (h.departed d hd) hx happlies).1] at htakes
  cases htakes

end Orderly

namespace Pledged

variable {c : Cluster η ω}

/-- If nothing is staged, nothing is pledged. -/
theorem start (hstaged : ∀ tx, c.instances.isOpen tx = false) : Pledged ⟨c, [], []⟩ where
  tight tx hopen := by
    rw [hstaged] at hopen
    cases hopen
  registers _ := rfl
  once _ := .nil
  pending := fun _ ⟨_, hd, _⟩ => absurd hd List.not_mem_nil

/-- A callback of a transaction after its end applies the writes of the transaction exactly if there
are any. -/
theorem any_applies (h : Pledged o) {t : Transaction (Callback η)}
    (ht : t.lasting = o.registered tx) (committed : Bool) :
    (t.callbacks (.after committed)).any Callback.applies = true ↔ o.writes tx ≠ [] := by
  rw [Ne, writes_eq_nil_iff, ← h.registers, Bool.not_eq_false, ← ht, List.any_eq_true,
    List.any_eq_true]
  constructor
  · rintro ⟨f, hf, happlies⟩
    obtain ⟨x, hx, _, rfl⟩ := Transaction.mem_callbacks_iff.mp hf
    exact ⟨x, Transaction.mem_lasting.mpr ⟨hx, lasts_of_applies happlies⟩, happlies⟩
  · rintro ⟨x, hx, happlies⟩
    have hmem := (Transaction.mem_lasting.mp hx).1
    have hmoment := (Orderly.of_applies ht hmem happlies).1
    exact ⟨x.callback, Transaction.mem_callbacks_iff.mpr ⟨x, hmem, by rw [hmoment]; rfl, rfl⟩,
      happlies⟩

/-- A transaction applies its writes once. -/
theorem applies_pairwise (h : Pledged o) {t : Transaction (Callback η)}
    (ht : t.lasting = o.registered tx) (phase : Phase) :
    (t.callbacks phase).Pairwise fun f g => f.applies = true → ¬ g.applies = true := by
  have hlasts : ∀ x : Synchronizer (Callback η), x.callback.applies = true → x.lasts = true :=
    fun x hx => lasts_of_applies hx
  refine Transaction.pairwise_callbacks hlasts hlasts ?_ phase
  rw [ht]
  refine List.pairwise_flatMap.mpr ⟨fun e _ => e.pairwise_registered _, ?_⟩
  refine (h.once tx).imp fun {e f} hef x hx y hy hxapplies => ?_
  have hany : (e.registered.any fun x => x.callback.applies) = true :=
    List.any_eq_true.mpr ⟨x, hx, hxapplies⟩
  rw [e.any_applies_registered, Bool.and_eq_true] at hany
  exact Bool.eq_false_iff.mp (hef hany.1 y hy)

/-- The rest of the callbacks, once the writes are applied, apply nothing more. -/
theorem any_applies_rest (h : Pledged o) (ho : Orderly o) {d : Departure η}
    (hd : d ∈ o.departures) {committed : Bool} {callback : Callback η} {rest : List (Callback η)}
    (hround : d.round = .concluding committed (callback :: rest))
    (happlies : callback.applies = true) : rest.any Callback.applies = false := by
  have hsuffix := ho.suffix_after hd hround
  have hpair := (h.applies_pairwise (ho.departed d hd) (.after committed)).sublist hsuffix.sublist
  rw [List.any_eq_false]
  exact fun f hf => (List.pairwise_cons.mp hpair).1 f hf happlies

/-- A change of the cluster that leaves the instances alone. -/
theorem of_instances (h : Pledged o) (hinstances : c.instances = o.cluster.instances) :
    Pledged { o with cluster := c } where
  tight := by
    show c.instances.Tight
    rw [hinstances]
    exact h.tight
  registers := h.registers
  once := h.once
  pending tx htx := by
    show c.instances.writes tx = o.writes tx
    rw [hinstances]
    exact h.pending tx htx

/-- A departure that moves on without applying anything. -/
theorem moveTo (h : Pledged o) (ho : Orderly o) {i : Nat} {d : Departure η} {round : Round η}
    (hd : o.departures[i]? = some d) (hinstances : c.instances = o.cluster.instances)
    (hwill : (d.moveTo round).willApply = true → d.willApply = true) :
    Pledged { o with cluster := c, departures := o.departures.set i (d.moveTo round) } where
  tight := (h.of_instances hinstances).tight
  registers := h.registers
  once := h.once
  pending tx htx := by
    refine (h.of_instances hinstances).pending tx ?_
    rw [ho.exists_departure_set_iff hd] at htx
    split at htx
    · next heq => exact ⟨d, List.mem_of_getElem? hd, heq.symm, hwill htx⟩
    · exact htx

/-- A departure whose callback applies, or forgets, the writes of its transaction. -/
theorem applied (h : Pledged o) (ho : Orderly o) {i : Nat} {d : Departure η} {committed : Bool}
    {callback : Callback η} {rest : List (Callback η)} (hd : o.departures[i]? = some d)
    (hround : d.round = .concluding committed (callback :: rest))
    (happlies : callback.applies = true) :
    Pledged { o with
      cluster := o.cluster.carryOut app d.thread (.after committed) callback
      departures := o.departures.set i (d.moveTo (.concluding committed rest)) } := by
  have hin := List.mem_of_getElem? hd
  have hrest := h.any_applies_rest ho hin hround happlies
  obtain ⟨own, rfl⟩ := Callback.applies_eq_true.mp happlies
  obtain rfl := ho.applyWrites_own hin (ho.mem_after hin hround)
  have hinstances := Cluster.carryOut_instances app d.thread (.after committed) o.cluster
    (.applyWrites d.tx)
  refine ⟨?_, h.registers, h.once, fun tx htx => ?_⟩
  · exact hinstances.symm ▸ h.tight.complete d.tx _
  · rw [ho.exists_departure_set_iff hd] at htx
    show (o.cluster.carryOut ..).instances.writes tx = o.writes tx
    rw [hinstances, InstanceStore.writes_complete]
    by_cases hown : tx = d.tx
    · rw [if_pos hown, Departure.willApply, Departure.round_moveTo] at htx
      exact absurd htx (Bool.eq_false_iff.mp hrest)
    · rw [if_neg hown] at htx ⊢
      exact h.pending tx htx

section Worked

variable {t : Transaction (Callback η)}

/-- The transaction of a call has writes staged exactly if it has written anything. -/
theorem isOpen_eq (h : Pledged o) (hdrafted : Drafted o) (ht : o.cluster.transaction? tx = some t) :
    o.cluster.instances.isOpen tx = (o.entries tx).any WorkEntry.wrote := by
  rw [h.tight.isOpen_eq, hdrafted.writes_of_open ht, Bool.eq_iff_iff]
  have hnil : o.writes tx = [] ↔ _ := writes_eq_nil_iff
  cases hany : (o.entries tx).any WorkEntry.wrote <;> simp_all

/-- What a transaction writes is pledged to be applied when it ends. -/
theorem worked (h : Pledged o) (ho : Orderly o) (hdrafted : Drafted o) (a : WorkCall η)
    (ht : o.cluster.transaction? tx = some t) :
    Pledged { o with
      cluster := (a.perform tx o.cluster).2
      log := o.log ++ [⟨tx, a, o.cluster⟩] } := by
  obtain ⟨e, he⟩ : ∃ e : WorkEntry η ω, e = ⟨tx, a, o.cluster⟩ := ⟨_, rfl⟩
  have htx : e.tx = tx := by rw [he]
  have hinstances := (a.effect_perform tx o.cluster).instances
  have hregistered : (e.registered.any fun x => x.callback.applies) =
      (e.wrote && !(o.entries tx).any WorkEntry.wrote) := by
    rw [e.any_applies_registered, ← h.isOpen_eq hdrafted ht, he]
  rw [← he]
  refine ⟨?_, fun other => ?_, fun other => ?_, fun other hother => ?_⟩
  · show (a.perform tx o.cluster).2.instances.Tight
    rw [hinstances]
    cases a.write? tx o.cluster.instances with
    | some w => exact h.tight.stage tx w
    | none => exact h.tight
  · rw [Orderly.registered_append, entries_append, htx]
    by_cases hother : tx = other
    · subst hother
      rw [if_pos rfl, if_pos rfl, List.any_append, List.any_append, h.registers, hregistered]
      cases (o.entries tx).any WorkEntry.wrote <;> simp
    · rw [if_neg hother, if_neg hother]
      exact h.registers other
  · rw [entries_append, htx]
    by_cases hother : tx = other
    · subst hother
      rw [if_pos rfl]
      refine List.pairwise_append.mpr ⟨h.once tx, List.pairwise_singleton _ e, ?_⟩
      intro f hf g hg hwrote x hx
      rw [List.mem_singleton.mp hg] at hx
      have hany : (o.entries tx).any WorkEntry.wrote = true := List.any_eq_true.mpr ⟨f, hf, hwrote⟩
      rw [hany, Bool.not_true, Bool.and_false, List.any_eq_false] at hregistered
      exact Bool.eq_false_iff.mpr (hregistered x hx)
    · rw [if_neg hother]
      exact h.once other
  · have hne : tx ≠ other := by
      obtain ⟨d, hd, rfl, _⟩ := hother
      exact (ho.tx_ne_of_open ht hd).symm
    show (a.perform tx o.cluster).2.instances.writes other = _
    rw [writes, entries_append, htx, if_neg hne]
    refine Eq.trans ?_ (h.pending other hother)
    rw [hinstances]
    cases a.write? tx o.cluster.instances with
    | some w => exact (InstanceStore.writes_stage ..).trans (if_neg hne)
    | none => rfl

end Worked

/-- What a transaction has written is applied by its callback, after every move. -/
theorem step (h : Pledged o) (ho : Orderly o) (hdrafted : Drafted o) (m : Move η ω) :
    Pledged (o.step app m) := by
  have houtcome := outcome_step app o m
  generalize o.step app m = p at houtcome
  cases houtcome with
  | idle => exact h
  | refused | store a | registry n a => exact h.of_instances rfl
  | begun n thread hbegin => exact h.of_instances (Cluster.begin_eq_ok hbegin).instances
  | worked a ht => exact h.worked ho hdrafted a ht
  | @departed tx thread request t round c ht hround hc htransactions =>
      have hkept := h.of_instances hc.instances
      refine ⟨hkept.tight, h.registers, h.once, fun other hother => ?_⟩
      obtain ⟨d, hd, rfl, hwill⟩ := hother
      rcases List.mem_append.mp hd with hd | hd
      · exact hkept.pending d.tx ⟨d, hd, rfl, hwill⟩
      · rw [List.mem_singleton.mp hd]
        show c.instances.writes tx = o.writes tx
        rw [hc.instances]
        exact hdrafted.writes_of_open ht
  | @before i d callback rest hd hround =>
      have hin := List.mem_of_getElem? hd
      have hnone := ho.applies_eq_false hin (ho.mem_before hin hround)
      exact h.moveTo ho hd (Cluster.instances_carryOut app d.thread .before _ hnone) fun _ => by
        rw [Departure.willApply, hround]
  | decided i committed hd hround hc htransactions =>
      exact h.moveTo ho hd hc.instances fun _ => by rw [Departure.willApply, hround]
  | @after i committed d callback rest hd hround =>
      cases happlies : callback.applies with
      | false =>
          have hsame :=
            Cluster.instances_carryOut app d.thread (.after committed) o.cluster happlies
          refine h.moveTo ho hd hsame fun hwill => ?_
          rw [Departure.willApply, Departure.round_moveTo] at hwill
          rw [Departure.willApply, hround]
          simpa [happlies] using hwill
      | true => exact h.applied ho hd hround happlies
  | elsewhere what => exact h.of_instances (what.instances o.cluster)

/-- What a transaction has written is applied by its callback, after every history. -/
theorem play (h : Pledged o) (ho : Orderly o) (hdrafted : Drafted o) (moves : List (Move η ω)) :
    Pledged (o.play app moves) := by
  have hstep : ∀ (o : Interplay η ω) m, Orderly o ∧ Drafted o ∧ Pledged o →
      Orderly (o.step app m) ∧ Drafted (o.step app m) ∧ Pledged (o.step app m) :=
    fun o m ⟨ho, hdrafted, h⟩ => ⟨ho.step m, hdrafted.step ho m, h.step ho hdrafted m⟩
  exact (play_induction hstep ⟨ho, hdrafted, h⟩ moves).2.2

end Pledged

/-! ## The chronicle -/

/-- How a history agrees with the list of the transactions whose writes have been applied, in the
order in which they were, since the instances were those of a store. -/
structure Chronicle (start : InstanceStore) (txs : List TxId) (o : Interplay η ω) : Prop where
  applied : ∀ tx, tx ∈ txs ↔ ∃ d ∈ o.departures, d.tx = tx ∧ d.hasApplied = true
  instances : ∀ id, o.instance? id =
    InstanceStore.seen id (start.get? id) (txs.flatMap o.writes)

namespace Chronicle

variable {start : InstanceStore} {txs : List TxId}

/-- Before the first move the chronicle is empty. -/
theorem initial (c : Cluster η ω) : Chronicle c.instances [] (⟨c, [], []⟩ : Interplay η ω) where
  applied tx := by simp
  instances _ := rfl

/-- The transactions of the chronicle are open no longer. -/
theorem closed (h : Chronicle start txs o) (ho : Orderly o) (htx : tx ∈ txs) :
    o.cluster.transaction? tx = none := by
  obtain ⟨d, hd, rfl, _⟩ := (h.applied tx).mp htx
  exact ho.closed d hd

/-- A departure that moves on is noted if it has applied the writes of its transaction. -/
theorem applied_set (h : Chronicle start txs o) (ho : Orderly o) {i : Nat} {d : Departure η}
    {round : Round η} (hd : o.departures[i]? = some d) {new : List TxId}
    (hnew : ∀ tx, tx ∈ new → tx = d.tx)
    (hround : (d.moveTo round).hasApplied = true ↔ d.hasApplied = true ∨ d.tx ∈ new) (tx : TxId) :
    tx ∈ txs ++ new ↔
      ∃ e ∈ o.departures.set i (d.moveTo round), e.tx = tx ∧ e.hasApplied = true := by
  rw [ho.exists_departure_set_iff hd, List.mem_append, h.applied]
  by_cases htx : tx = d.tx
  · rw [if_pos htx, htx, hround, ho.exists_departure_iff (List.mem_of_getElem? hd)]
  · rw [if_neg htx]
    exact or_iff_left fun hmem => htx (hnew tx hmem)

/-- The transactions whose writes have been applied, after a move. -/
theorem applied_step (h : Chronicle start txs o) (ho : Orderly o) (hpledged : Pledged o)
    (m : Move η ω) (tx : TxId) :
    tx ∈ txs ++ (o.commits? m).toList ↔
      ∃ d ∈ (o.step app m).departures, d.tx = tx ∧ d.hasApplied = true := by
  have houtcome := outcome_step app o m
  generalize o.step app m = p at houtcome
  cases houtcome with
  | idle hidle => simpa [commits?, hidle] using h.applied tx
  | refused | begun | worked | store | registry | elsewhere =>
      simpa [commits?, carries?] using h.applied tx
  | @departed own thread request t round c ht hround hc htransactions =>
      have hnew : ∀ d : Departure η, d = ⟨own, thread, t, round⟩ → d.hasApplied = false := by
        rintro d rfl
        rcases hround with rfl | rfl <;> rfl
      have hnone : o.commits? (.depart own thread request) = none := rfl
      rw [hnone, Option.toList_none, List.append_nil, h.applied]
      constructor
      · rintro ⟨d, hd, hrest⟩
        exact ⟨d, List.mem_append_left _ hd, hrest⟩
      · rintro ⟨d, hd, htx, happlied⟩
        rcases List.mem_append.mp hd with hd | hd
        · exact ⟨d, hd, htx, happlied⟩
        · rw [hnew d (List.mem_singleton.mp hd)] at happlied
          cases happlied
  | @before i d callback rest hd hround =>
      have hcarries : o.carries? (.advance i) = some (d, .before, callback) :=
        carries?_eq_some.mpr ⟨i, rfl, hd, by simp [Departure.upcoming?, hround]⟩
      simp only [commits?, hcarries]
      exact h.applied_set ho hd (by simp) (by simp [Departure.hasApplied, hround]) tx
  | decided i committed hd hround hc htransactions =>
      have hnone : o.carries? (.advance i) = none := by
        simp [carries?, hd, Departure.upcoming?, hround]
      simp only [commits?, hnone]
      refine h.applied_set ho hd (by simp) ?_ tx
      cases committed <;> simp [Departure.hasApplied, hround]
  | @after i committed d callback rest hd hround =>
      have hcarries := carries?_after_eq_some.mpr ⟨i, rest, rfl, hd, hround⟩
      have hin := List.mem_of_getElem? hd
      have hmem := ho.mem_after hin hround
      simp only [commits?, hcarries]
      cases committed with
      | false => exact h.applied_set ho hd (by simp) (by simp [Departure.hasApplied, hround]) tx
      | true =>
          cases callback with
          | applyWrites own =>
              obtain rfl := ho.applyWrites_own hin hmem
              have hrest := hpledged.any_applies_rest ho hin hround rfl
              have hany : (d.transaction.callbacks (.after true)).any Callback.applies = true :=
                List.any_eq_true.mpr ⟨_, hmem, rfl⟩
              exact h.applied_set ho hd (by simp) (by simp [Departure.hasApplied, hany, hrest]) tx
          | publish n plan | queue n info | drop n j armed | withdraw n j | custom script =>
              exact h.applied_set ho hd (by simp)
                (by simp [Departure.hasApplied, hround, Callback.applies]) tx

/-- The committed instances are what the writes applied so far have made of those at first, after
every move. -/
theorem step (h : Chronicle start txs o) (ho : Orderly o) (hpledged : Pledged o) (m : Move η ω) :
    Chronicle start (txs ++ (o.commits? m).toList) (o.step app m) := by
  refine ⟨h.applied_step ho hpledged m, fun id => ?_⟩
  have hold : txs.flatMap (o.step app m).writes = txs.flatMap o.writes := by
    rw [List.flatMap_def, List.flatMap_def]
    exact congrArg _ (List.map_congr_left fun tx htx => writes_step (h.closed ho htx) m)
  rw [instance?_step, List.flatMap_append, hold, InstanceStore.seen_append, ← h.instances]
  cases hcommits : o.commits? m with
  | none => rfl
  | some tx =>
      obtain ⟨i, d, rest, rfl, hd, hround⟩ := commits?_eq_some.mp hcommits
      have hin := List.mem_of_getElem? hd
      have hown := ho.applyWrites_own hin (ho.mem_after hin hround)
      have hwill : d.willApply = true := by
        rw [Departure.willApply, hround]
        rfl
      have hclosed : o.cluster.transaction? tx = none := hown ▸ ho.closed d hin
      rw [Option.toList_some, List.flatMap_singleton, writes_step hclosed,
        ← hpledged.pending tx ⟨d, hin, hown.symm, hwill⟩]
      exact o.cluster.instances.view_eq_seen tx id

/-- The committed instances are what the writes applied in a history have made of those at first. -/
theorem play (h : Chronicle start txs o) (ho : Orderly o) (hdrafted : Drafted o)
    (hpledged : Pledged o) (moves : List (Move η ω)) :
    Chronicle start (txs ++ o.committed app moves) (o.play app moves) := by
  induction moves generalizing o txs with
  | nil =>
      rw [committed, List.append_nil]
      exact h
  | cons m rest ih =>
      rw [committed, ← List.append_assoc]
      exact ih (h.step ho hpledged m) (ho.step m) (hdrafted.step ho m)
        (hpledged.step ho hdrafted m)

end Chronicle

end Interplay

end JobCluster
