import JobCluster.Proofs.Cluster.Interplay
import JobCluster.Proofs.Counting
import JobCluster.Proofs.Job.Interleaving
/-!
# The books of overlapping transactions

In a history of overlapping transactions, every transaction carries the callbacks that its own calls
have registered, and nobody else's: while it is open and while it is on its way out. What two calls
bring into the world is never the same, as identifiers of jobs and slots of exchanges are given
once.

Main results:

- `Interplay.Orderly`: how the transactions agree with the log;
- `Interplay.onward_step`: what a move may make of the cluster;
- `Interplay.Orderly.step`, `Interplay.Orderly.play`: they agree after every history;
- `Interplay.Orderly.job_unique`, `Interplay.Orderly.slot_unique`: each deed has one doer.
-/

namespace JobCluster

variable {η ω : Type}

/-! ## Deeds, one after another -/

namespace Deed

/-- Whether a deed was done before: the identifier of a job is drawn, and an exchange has its
place. -/
def Done (c : Cluster η ω) : Deed → Prop
  | .job id => ∃ k, k < c.nextJob ∧ id = .drawn k
  | .exchange n id slot => (c.node n).registry.Places id slot

/-- Whether two deeds are about the same job or the same slot. -/
def Same : Deed → Deed → Prop
  | .job id, .job j => id = j
  | .exchange n _ slot, .exchange m _ i => n = m ∧ slot = i
  | .job _, .exchange _ _ _ => False
  | .exchange _ _ _, .job _ => False

end Deed

namespace Cluster

/-- What may become of a cluster in a move: identifiers are drawn, and exchanges are created or
leave. -/
structure Onward (c d : Cluster η ω) : Prop where
  nextTx : c.nextTx ≤ d.nextTx
  nextJob : c.nextJob ≤ d.nextJob
  follows : ∀ n, (c.node n).registry.Follows (d.node n).registry
  tidy : ∀ n, (c.node n).registry.Tidy → (d.node n).registry.Tidy

/-- What has been done stays done as the cluster goes on. -/
theorem Onward.done {c d : Cluster η ω} (h : c.Onward d) {x : Deed} (hx : x.Done c) : x.Done d := by
  cases x with
  | job id =>
      obtain ⟨k, hk, hid⟩ := hx
      exact ⟨k, Nat.lt_of_lt_of_le hk h.nextJob, hid⟩
  | exchange n id slot => exact (h.follows n).places id slot hx

/-- A cluster that has not moved has gone on. -/
theorem Unmoved.onward {c d : Cluster η ω} (h : c.Unmoved d) : c.Onward d where
  nextTx := Nat.le_of_eq h.nextTx.symm
  nextJob := Nat.le_of_eq h.nextJob.symm
  follows n := by
    rw [h.registry n]
    exact .refl _
  tidy n hn := by rwa [h.registry n]

theorem Onward.of_jobs (c : Cluster η ω) (jobs : JobStore) : c.Onward { c with jobs } :=
  ⟨Nat.le_refl _, Nat.le_refl _, fun _ => .refl _, fun _ h => h⟩

/-- A transaction that begins, or is refused, has created no exchange yet. -/
theorem registry_begin (c : Cluster η ω) (n m : NodeName) (thread : Thread) :
    ((c.begin n thread).2.node m).registry = (c.node m).registry := by
  unfold begin
  simp only
  split
  · rfl
  · split
    · rfl
    · exact registry_modifyNode rfl m

/-- A cluster goes on as a transaction begins. -/
theorem onward_begin (c : Cluster η ω) (n : NodeName) (thread : Thread) :
    c.Onward (c.begin n thread).2 := by
  have hnumbers : (c.begin n thread).2.nextTx = c.nextTx + 1 ∧
      (c.begin n thread).2.nextJob = c.nextJob := by
    unfold begin
    simp only
    split
    · exact ⟨rfl, rfl⟩
    · split <;> exact ⟨rfl, rfl⟩
  refine ⟨by omega, by omega, fun m => ?_, fun m hm => ?_⟩
  · rw [registry_begin]
    exact .refl _
  · rwa [registry_begin]

/-- A cluster goes on as a callback is carried out. -/
theorem onward_carryOut (app : Application η ω) (thread : Thread) (phase : Phase)
    (c : Cluster η ω) (callback : Callback η) :
    c.Onward (c.carryOut app thread phase callback) where
  nextTx := Nat.le_of_eq (c.carryOut_frame app thread phase callback).2.1.symm
  nextJob := Nat.le_of_eq (nextJob_carryOut app thread phase c callback).symm
  follows n := carryOut_registry (P := fun r => (c.node n).registry.Follows r)
    (fun r id hr => hr.trans (r.sheds_rollBack id).follows)
    (fun r id hr => hr.trans (r.follows_cleanUp id))
    app thread phase c callback n (.refl _)
  tidy n h := carryOut_registry (P := Registry.Tidy) (fun r id hr => (r.sheds_rollBack id).tidy hr)
    (fun _ id hr => Registry.tidy_cleanUp hr id) app thread phase c callback n h

theorem onward_registry (c : Cluster η ω) (n : NodeName) (a : RegistryChange) :
    c.Onward (c.modifyRegistry n fun r => a.apply r) := by
  refine ⟨Nat.le_refl _, Nat.le_refl _, fun m => ?_, fun m h => ?_⟩
  · rw [registry_modifyRegistry]
    by_cases hnm : n = m
    · subst hnm
      rw [if_pos rfl]
      exact RegistryChange.follows_apply _ a
    · rw [if_neg hnm]
      exact .refl _
  · rw [registry_modifyRegistry]
    by_cases hnm : n = m
    · subst hnm
      rw [if_pos rfl]
      exact RegistryChange.tidy_apply h a
    · rwa [if_neg hnm]

end Cluster

/-! ## What a call registers and brings into the world -/

namespace WorkCall.Effect

variable {tx : TxId} {c d : Cluster η ω} {a : WorkCall η} {answer : WorkAnswer}
  {registered : List (Synchronizer (Callback η))}

/-- A cluster goes on with every call of a unit of work. -/
theorem onward (h : Effect tx c a answer registered d) : c.Onward d where
  nextTx := Nat.le_of_eq h.numbers.1.symm
  nextJob := h.numbers.2
  follows n := by
    rcases h.registry n with hsame | ⟨id, direction, slot, _, _, hcreate⟩
    · rw [hsame]
      exact .refl _
    · exact Registry.follows_create hcreate
  tidy n hn := by
    rcases h.registry n with hsame | ⟨id, direction, slot, _, _, hcreate⟩
    · rwa [hsame]
    · exact Registry.tidy_create hn hcreate

/-- A call registers one callback at most. -/
theorem length_registered (h : Effect tx c a answer registered d) : registered.length ≤ 1 := by
  cases h with
  | written _ _ _ =>
      unfold applying
      split <;> simp
  | staged | unstaged | planned | created | claimed | released | registered | marked | availability
  | refusal | failed => simp

/-- What a lasting callback was registered for: a callback of the parts comes with its deed. -/
theorem of_registered (h : Effect tx c a answer registered d) {x : Synchronizer (Callback η)}
    (hx : x ∈ registered) :
    match x.callback with
    | .publish _ plan => x.moment = .after ∧ .job plan.record.id ∈ a.deeds answer
    | .queue _ info => x.moment = .onCommit ∧ .job info.jobId ∈ a.deeds answer
    | .applyWrites other => x.moment = .after ∧ other = tx
    | .withdraw n id => x.moment = .onRollback ∧ ∃ slot, .exchange n id slot ∈ a.deeds answer
    | .drop _ _ _ => x.moment = .onRollback
    | .custom _ => True := by
  cases h with
  | staged | planned | claimed =>
      cases List.mem_singleton.mp hx
      simp [deeds, Cluster.planOf, PersistedPlan.make]
  | @created n id direction slot _ _ =>
      cases List.mem_singleton.mp hx
      exact ⟨rfl, slot, List.mem_singleton_self _⟩
  | written _ _ _ =>
      unfold applying at hx
      split at hx
      · simp at hx
      · cases List.mem_singleton.mp hx
        exact ⟨rfl, rfl⟩
  | registered moment script =>
      cases List.mem_singleton.mp hx
      trivial
  | unstaged | released | marked | availability | refusal | failed => simp at hx

/-- An exchange that was created is withdrawn after a rollback. -/
theorem registers_exchange (h : Effect tx c a answer registered d) {n : NodeName}
    {id : ExchangeId} {slot : Nat} (hid : .exchange n id slot ∈ a.deeds answer) :
    registered = [⟨.onRollback, .withdraw n id⟩] := by
  cases h with
  | created m j direction _ =>
      cases List.mem_singleton.mp hid
      rfl
  | staged | planned => simp [deeds] at hid
  | written _ _ hdeeds | failed _ _ hdeeds => simp [hdeeds] at hid
  | unstaged | claimed | released | registered | marked | availability | refusal =>
      simp [deeds] at hid

/-- What a call brings into the world is new. -/
theorem deeds_new (h : Effect tx c a answer registered d) (htidy : ∀ n, (c.node n).registry.Tidy)
    {x : Deed} (hx : x ∈ a.deeds answer) : x.Done d ∧ ∀ y : Deed, y.Done c → ¬ y.Same x := by
  cases h with
  | staged n details dueAt | planned n transacted details dueAt =>
      cases List.mem_singleton.mp hx
      refine ⟨⟨c.nextJob, Nat.lt_succ_self _, rfl⟩, fun y hy hsame => ?_⟩
      cases y with
      | job id =>
          obtain ⟨k, hk, rfl⟩ := hy
          have heq : k = c.nextJob := JobId.drawn_injective hsame
          omega
      | exchange m id slot => exact hsame
  | @created n id direction slot registry hcreate =>
      cases List.mem_singleton.mp hx
      have hsound : (c.node n).registry.Sound := by
        intro other i hi
        rw [← Registry.isSome_mark?, htidy n other i hi]
        rfl
      constructor
      · have hnode : (((c.modifyRegistry n fun _ => registry).register tx .onRollback
            (.withdraw n id)).node n).registry = registry :=
          (c.registry_modifyRegistry n n fun _ => registry).trans (if_pos rfl)
        show (((c.modifyRegistry n fun _ => registry).register tx .onRollback
            (.withdraw n id)).node n).registry.Places id slot
        rw [hnode]
        exact Registry.places_create hsound hcreate
      · intro y hy hsame
        cases y with
        | job j => exact hsame
        | exchange m j i =>
            obtain ⟨rfl, rfl⟩ : m = n ∧ i = slot := hsame
            obtain ⟨t, hregister, _⟩ := Registry.create_eq_ok hcreate
            obtain ⟨e, he, _⟩ := hy.here
            obtain ⟨hi, _⟩ := List.getElem?_eq_some_iff.mp he
            have hslot := (Registry.register_eq_ok hregister).1
            omega
  | written _ _ hdeeds | failed _ _ hdeeds => simp [hdeeds] at hx
  | unstaged | claimed | released | registered | marked | availability | refusal =>
      simp [deeds] at hx

end WorkCall.Effect

namespace WorkEntry

/-- What the call came to. -/
theorem effect (e : WorkEntry η ω) :
    WorkCall.Effect e.tx e.found e.call e.answer (e.call.registers e.tx e.found e.answer)
      (e.call.perform e.tx e.found).2 :=
  e.call.effect_perform e.tx e.found

/-- What an entry has registered is what its call registers and what lasts beyond its callback. -/
theorem mem_registered {e : WorkEntry η ω} {x : Synchronizer (Callback η)} :
    x ∈ e.registered ↔ x ∈ e.call.registers e.tx e.found e.answer ∧ x.lasts = true :=
  List.mem_filter

/-- Among the callbacks that one call registers, none comes before another. -/
theorem pairwise_registered (e : WorkEntry η ω)
    (R : Synchronizer (Callback η) → Synchronizer (Callback η) → Prop) :
    e.registered.Pairwise R := by
  have hlength : e.registered.length ≤ 1 :=
    Nat.le_trans (List.length_filter_le _ _) e.effect.length_registered
  generalize e.registered = callbacks at hlength ⊢
  cases callbacks with
  | nil => exact .nil
  | cons x rest =>
      have hzero : rest.length = 0 := Nat.le_zero.mp (Nat.le_of_succ_le_succ hlength)
      rw [List.length_eq_zero_iff.mp hzero]
      exact List.pairwise_singleton R x

end WorkEntry

/-- Callbacks of two kinds that stay as they are, and that were never registered one after the
other, never run one after the other. -/
theorem Transaction.pairwise_callbacks {t : Transaction (Callback η)} {P Q : Callback η → Prop}
    (hP : ∀ x : Synchronizer (Callback η), P x.callback → x.lasts = true)
    (hQ : ∀ x : Synchronizer (Callback η), Q x.callback → x.lasts = true)
    (h : t.lasting.Pairwise fun x y => P x.callback → ¬ Q y.callback) (phase : Phase) :
    (t.callbacks phase).Pairwise fun f g => P f → ¬ Q g := by
  unfold callbacks
  refine List.pairwise_map.mpr (List.Pairwise.filter _ ?_)
  exact (List.pairwise_filter.mp h).imp fun {x y} hxy hx hy => hxy (hP x hx) (hQ y hy) hx hy

/-! ## Order -/

/-- Whether the callbacks that are still to run are among those of the round, the last ones. -/
def Departure.Within (d : Departure η) : Prop :=
  match d.round with
  | .preparing rest => rest <:+ d.transaction.callbacks .before
  | .concluding committed rest => rest <:+ d.transaction.callbacks (.after committed)

/-- A cluster at rest: no transaction is open, and nothing of one is left to be ended. -/
structure Cluster.AtRest (c : Cluster η ω) : Prop where
  transactions : ∀ tx, c.transaction? tx = none
  writes : ∀ tx, c.instances.writes tx = []
  instances : ∀ id p, c.instances.get? id = some p → p.id = id
  jobs : ∀ id r, c.jobs.find? id = some r → r.state ≠ .staged
  registries : ∀ n, (c.node n).registry.Tidy

/-- A cluster that nothing has happened in. -/
def Cluster.blank : Cluster Unit Unit := { clock := 0, outside := () }

/-- Nothing is open in the blank cluster. -/
theorem Cluster.atRest_blank : blank.AtRest where
  transactions _ := rfl
  writes _ := rfl
  instances _ _ h := nomatch h
  jobs _ _ h := nomatch h
  registries _ _ _ h := nomatch h

theorem Cluster.fresh_blank : blank.Fresh where
  stored _ _ := rfl
  queued := fun _ _ ⟨_, _, he, _⟩ => nomatch he
  opened _ _ := rfl
  staged _ _ := rfl
  slots _ _ _ h := nomatch h

namespace Interplay

/-- Makes moves in a cluster that nothing has happened in. -/
def playBlank (moves : List (Move Unit Unit)) : Interplay Unit Unit :=
  (⟨.blank, [], []⟩ : Interplay Unit Unit).play .silent moves

/-- How the transactions of a history agree with its log. -/
structure Orderly (o : Interplay η ω) : Prop where
  tidy : ∀ n, (o.cluster.node n).registry.Tidy
  /-- A transaction carries the callbacks that its calls have registered. -/
  opened : ∀ tx t, o.cluster.transaction? tx = some t → t.lasting = o.registered tx
  departed : ∀ d ∈ o.departures, d.transaction.lasting = o.registered d.tx
  within : ∀ d ∈ o.departures, d.Within
  /-- A transaction on its way out is open no longer, and on its way out once. -/
  closed : ∀ d ∈ o.departures, o.cluster.transaction? d.tx = none
  distinct : o.departures.Pairwise fun d e => d.tx ≠ e.tx
  /-- Transactions are numbered in the order in which they begin. -/
  openedNumber : ∀ tx t, o.cluster.transaction? tx = some t → tx.serial < o.cluster.nextTx
  departedNumber : ∀ d ∈ o.departures, d.tx.serial < o.cluster.nextTx
  loggedNumber : ∀ e ∈ o.log, e.tx.serial < o.cluster.nextTx
  done : ∀ e ∈ o.log, ∀ x ∈ e.deeds, x.Done o.cluster
  /-- Nothing is brought into the world twice. -/
  apart : o.log.Pairwise fun e f => ∀ x ∈ e.deeds, ∀ y ∈ f.deeds, ¬ x.Same y

/-- Whether a transaction is open and has one property, or is on its way out and has another one. -/
def InPlay (o : Interplay η ω) (tx : TxId) (P : Transaction (Callback η) → Prop)
    (Q : Departure η → Prop) : Prop :=
  (∃ t, o.cluster.transaction? tx = some t ∧ P t) ∨ ∃ d ∈ o.departures, d.tx = tx ∧ Q d

/-- A call is logged with the other calls of its transaction. -/
theorem entries_append (o : Interplay η ω) (e : WorkEntry η ω) (c : Cluster η ω) (tx : TxId) :
    ({ o with cluster := c, log := o.log ++ [e] } : Interplay η ω).entries tx =
      if e.tx = tx then o.entries tx ++ [e] else o.entries tx := by
  unfold entries
  rw [List.filter_append]
  by_cases h : e.tx = tx <;> simp [h]

/-- What a move may make of the cluster. -/
theorem onward_step (app : Application η ω) (o : Interplay η ω) (m : Move η ω) :
    o.cluster.Onward (o.step app m).cluster := by
  have houtcome := outcome_step app o m
  generalize o.step app m = p at houtcome
  cases houtcome with
  | idle => exact (Cluster.Unmoved.refl _).onward
  | refused n thread resource =>
      exact ⟨Nat.le_succ _, Nat.le_refl _, fun _ => .refl _, fun _ hn => hn⟩
  | begun n thread hbegin =>
      have hbegun := o.cluster.onward_begin n thread
      rwa [hbegin] at hbegun
  | @worked tx a _ ht => exact (a.effect_perform tx o.cluster).onward
  | departed thread request ht hround hc htransactions => exact hc.onward
  | @before i d callback rest hd hround =>
      exact o.cluster.onward_carryOut app d.thread .before callback
  | decided i committed hd hround hc htransactions => exact hc.onward
  | @after i committed d callback rest hd hround =>
      exact o.cluster.onward_carryOut app d.thread (.after committed) callback
  | store a => exact .of_jobs _ _
  | registry n a => exact o.cluster.onward_registry n a
  | elsewhere what => exact (o.cluster.unmoved_elsewhere what).onward

namespace Orderly

variable {o : Interplay η ω} {c : Cluster η ω}

/-- A transaction that is open has not departed. -/
theorem tx_ne_of_open (h : Orderly o) {tx : TxId} {t : Transaction (Callback η)}
    (ht : o.cluster.transaction? tx = some t) {d : Departure η} (hd : d ∈ o.departures) :
    d.tx ≠ tx := by
  rintro rfl
  rw [h.closed d hd] at ht
  cases ht

/-- A history begins in order if nothing is open. -/
theorem start (h : c.AtRest) : Orderly ⟨c, [], []⟩ where
  tidy := h.registries
  opened tx t ht := by
    rw [h.transactions tx] at ht
    cases ht
  departed := fun _ h => absurd h List.not_mem_nil
  within := fun _ h => absurd h List.not_mem_nil
  closed := fun _ h => absurd h List.not_mem_nil
  distinct := .nil
  openedNumber tx t ht := by
    rw [h.transactions tx] at ht
    cases ht
  departedNumber := fun _ h => absurd h List.not_mem_nil
  loggedNumber := fun _ h => absurd h List.not_mem_nil
  done := fun _ h => absurd h List.not_mem_nil
  apart := .nil

/-- A change of the cluster that leaves the open transactions alone. -/
theorem onward (h : Orderly o) (hc : o.cluster.Onward c)
    (htransactions : c.transactions = o.cluster.transactions) :
    Orderly { o with cluster := c } := by
  have htransaction : ∀ tx, c.transaction? tx = o.cluster.transaction? tx := fun tx => by
    rw [Cluster.transaction?, htransactions]
    rfl
  exact { h with
    tidy := fun n => hc.tidy n (h.tidy n)
    opened := fun tx t ht => h.opened tx t (htransaction tx ▸ ht)
    closed := fun d hd => (htransaction d.tx).trans (h.closed d hd)
    openedNumber := fun tx t ht =>
      Nat.lt_of_lt_of_le (h.openedNumber tx t (htransaction tx ▸ ht)) hc.nextTx
    departedNumber := fun d hd => Nat.lt_of_lt_of_le (h.departedNumber d hd) hc.nextTx
    loggedNumber := fun e he => Nat.lt_of_lt_of_le (h.loggedNumber e he) hc.nextTx
    done := fun e he x hx => hc.done (h.done e he x hx) }

/-- A departure that moves on stays the departure of its transaction. -/
theorem mem_set_moveTo {i : Nat} {d e : Departure η} {round : Round η}
    (hd : o.departures[i]? = some d) (he : e ∈ o.departures.set i (d.moveTo round)) :
    e ∈ o.departures ∨ d ∈ o.departures ∧ e = d.moveTo round := by
  rcases List.mem_or_eq_of_mem_set he with he | he
  · exact .inl he
  · exact .inr ⟨List.mem_of_getElem? hd, he⟩

/-- A departure keeps its transaction as it moves on. -/
theorem map_tx_set_moveTo {i : Nat} {d : Departure η} {round : Round η}
    (hd : o.departures[i]? = some d) :
    (o.departures.set i (d.moveTo round)).map Departure.tx = o.departures.map Departure.tx := by
  obtain ⟨hi, hget⟩ := List.getElem?_eq_some_iff.mp hd
  rw [List.map_set, Departure.tx_moveTo, ← hget, ← List.getElem_map Departure.tx]
  · exact List.set_getElem_self _
  · simpa using hi

/-- Order is kept as a departure goes on to its next round. -/
theorem moveTo {i : Nat} {d : Departure η} {round : Round η} (h : Orderly o)
    (hd : o.departures[i]? = some d) (hround : (d.moveTo round).Within) :
    Orderly { o with departures := o.departures.set i (d.moveTo round) } := by
  have hmem : ∀ {P : Departure η → Prop}, (∀ e ∈ o.departures, P e) → P (d.moveTo round) →
      ∀ e ∈ o.departures.set i (d.moveTo round), P e := by
    intro P hold hnew e he
    rcases mem_set_moveTo hd he with he | ⟨_, rfl⟩
    · exact hold e he
    · exact hnew
  have hin : d ∈ o.departures := List.mem_of_getElem? hd
  have hdistinct : (o.departures.map Departure.tx).Pairwise (· ≠ ·) :=
    List.pairwise_map.mpr h.distinct
  exact { h with
    departed := hmem h.departed (h.departed d hin)
    within := hmem h.within hround
    closed := hmem h.closed (h.closed d hin)
    distinct := by
      have hmap : (o.departures.set i (d.moveTo round)).map Departure.tx = _ :=
        map_tx_set_moveTo hd
      rw [← hmap] at hdistinct
      exact List.pairwise_map.mp hdistinct
    departedNumber := hmem h.departedNumber (h.departedNumber d hin) }

/-- A transaction that has not begun has made no calls. -/
theorem entries_of_number (h : Orderly o) {tx : TxId} (htx : o.cluster.nextTx ≤ tx.serial) :
    o.entries tx = [] := by
  unfold entries
  rw [List.filter_eq_nil_iff]
  intro e he
  have hlt := h.loggedNumber e he
  have hne : e.tx ≠ tx := by
    rintro rfl
    omega
  simpa using hne

/-- Order is kept as a transaction begins: its number is new. -/
theorem begun {n : NodeName} {thread : Thread} {tx : TxId} (h : Orderly o)
    (hbegin : o.cluster.begin n thread = (.ok tx, c)) : Orderly { o with cluster := c } := by
  have honward : o.cluster.Onward c := by
    have hbegun := o.cluster.onward_begin n thread
    rwa [hbegin] at hbegun
  have hbegun := Cluster.begin_eq_ok hbegin
  obtain ⟨t, hempty, htransaction⟩ := hbegun.transaction
  have hnumber : tx.serial = o.cluster.nextTx := congrArg TxId.serial hbegun.number
  have hnext := hbegun.nextTx
  refine { h with
    tidy := fun m => honward.tidy m (h.tidy m)
    opened := fun other t' ht' => ?_
    closed := fun d hd => ?_
    openedNumber := fun other t' ht' => ?_
    departedNumber := fun d hd => Nat.lt_of_lt_of_le (h.departedNumber d hd) honward.nextTx
    loggedNumber := fun e he => Nat.lt_of_lt_of_le (h.loggedNumber e he) honward.nextTx
    done := fun e he x hx => honward.done (h.done e he x hx) }
  · rw [htransaction] at ht'
    by_cases hother : other = tx
    · rw [if_pos hother] at ht'
      cases ht'
      have hnone : o.entries other = [] :=
        h.entries_of_number (Nat.le_of_eq (by rw [hother, hnumber]))
      show t.lasting = o.registered other
      rw [registered, hnone, Transaction.lasting, hempty]
      rfl
    · rw [if_neg hother] at ht'
      exact h.opened other t' ht'
  · have hne : d.tx ≠ tx := by
      have hlt := h.departedNumber d hd
      intro heq
      rw [heq] at hlt
      omega
    rw [htransaction, if_neg hne]
    exact h.closed d hd
  · show other.serial < c.nextTx
    rw [htransaction] at ht'
    by_cases hother : other = tx
    · rw [hother]
      omega
    · rw [if_neg hother] at ht'
      exact Nat.lt_of_lt_of_le (h.openedNumber other t' ht') honward.nextTx

/-- A call is logged with the callback that it registers. -/
theorem registered_append (o : Interplay η ω) (e : WorkEntry η ω) (c : Cluster η ω) (tx : TxId) :
    ({ o with cluster := c, log := o.log ++ [e] } : Interplay η ω).registered tx =
      if e.tx = tx then o.registered tx ++ e.registered else o.registered tx := by
  unfold registered
  rw [entries_append]
  by_cases h : e.tx = tx <;> simp [h]

theorem worked {tx : TxId} {t : Transaction (Callback η)} (h : Orderly o) (a : WorkCall η)
    (ht : o.cluster.transaction? tx = some t) :
    Orderly { o with
      cluster := (a.perform tx o.cluster).2
      log := o.log ++ [⟨tx, a, o.cluster⟩] } := by
  obtain ⟨e, he⟩ : ∃ e : WorkEntry η ω, e = ⟨tx, a, o.cluster⟩ := ⟨_, rfl⟩
  have heffect : WorkCall.Effect tx o.cluster a e.answer (a.registers tx o.cluster e.answer)
      (a.perform tx o.cluster).2 := by
    subst he
    exact WorkEntry.effect ⟨tx, a, o.cluster⟩
  have htx : e.tx = tx := by rw [he]
  have honward := heffect.onward
  have hlog : ∀ {P : WorkEntry η ω → Prop}, (∀ f ∈ o.log, P f) → P e → ∀ f ∈ o.log ++ [e], P f :=
    fun hold hnew => List.forall_mem_append.mpr ⟨hold, List.forall_mem_singleton.mpr hnew⟩
  have hnew : ∀ x ∈ e.deeds, x.Done (a.perform tx o.cluster).2 ∧
      ∀ y : Deed, y.Done o.cluster → ¬ y.Same x := by
    intro x hx
    refine heffect.deeds_new h.tidy ?_
    rw [he] at hx ⊢
    exact hx
  rw [← he]
  refine ⟨fun n => honward.tidy n (h.tidy n), fun other t' ht' => ?_, fun d hd => ?_, h.within,
    fun d hd => ?_, h.distinct, fun other t' ht' => ?_,
    fun d hd => Nat.lt_of_lt_of_le (h.departedNumber d hd) honward.nextTx,
    hlog (fun f hf => Nat.lt_of_lt_of_le (h.loggedNumber f hf) honward.nextTx) ?_,
    hlog (fun f hf x hx => honward.done (h.done f hf x hx)) fun x hx => (hnew x hx).1, ?_⟩
  · rw [registered_append, htx]
    by_cases hother : tx = other
    · subst hother
      obtain ⟨t'', ht'', hlasting⟩ := heffect.own ht
      rw [if_pos rfl, ← h.opened tx t ht]
      cases ht''.symm.trans ht'
      rw [hlasting, he]
      rfl
    · rw [if_neg hother]
      exact h.opened other t' (heffect.others (Ne.symm hother) ▸ ht')
  · rw [registered_append, htx, if_neg (h.tx_ne_of_open ht hd).symm]
    exact h.departed d hd
  · exact (heffect.others (h.tx_ne_of_open ht hd)).trans (h.closed d hd)
  · refine Nat.lt_of_lt_of_le ?_ honward.nextTx
    by_cases hother : other = tx
    · rw [hother]
      exact h.openedNumber tx t ht
    · exact h.openedNumber other t' (heffect.others hother ▸ ht')
  · rw [htx]
    exact Nat.lt_of_lt_of_le (h.openedNumber tx t ht) honward.nextTx
  · refine List.pairwise_append.mpr ⟨h.apart, List.pairwise_singleton _ _, fun f hf g hg => ?_⟩
    rw [List.mem_singleton.mp hg]
    exact fun x hx y hy => (hnew y hy).2 x (h.done f hf x hx)

theorem departure {tx : TxId} {t : Transaction (Callback η)} {round : Round η} (h : Orderly o)
    (thread : Thread) (ht : o.cluster.transaction? tx = some t)
    (hround : round = .preparing (t.callbacks .before) ∨
      round = .concluding false (t.callbacks (.after false)))
    (hc : o.cluster.Unmoved c) (htransactions : c.transactions = o.cluster.transactions.erase tx) :
    Orderly { o with cluster := c, departures := o.departures ++ [⟨tx, thread, t, round⟩] } := by
  have htransaction : ∀ other, c.transaction? other =
      if other = tx then none else o.cluster.transaction? other := fun other => by
    rw [Cluster.transaction?, htransactions, Table.get?_erase]
    rfl
  have hmem : ∀ {P : Departure η → Prop}, (∀ e ∈ o.departures, P e) → P ⟨tx, thread, t, round⟩ →
      ∀ e ∈ o.departures ++ [⟨tx, thread, t, round⟩], P e :=
    fun hold hnew => List.forall_mem_append.mpr ⟨hold, List.forall_mem_singleton.mpr hnew⟩
  have hclosed : ∀ d ∈ o.departures, d.tx ≠ tx := fun d hd => h.tx_ne_of_open ht hd
  have honward := hc.onward
  refine ⟨fun n => honward.tidy n (h.tidy n), fun other t' ht' => ?_,
    hmem h.departed (h.opened tx t ht), hmem h.within ?_, hmem (fun d hd => ?_) ?_, ?_,
    fun other t' ht' => ?_,
    hmem (fun d hd => Nat.lt_of_lt_of_le (h.departedNumber d hd) honward.nextTx) ?_,
    fun e he => Nat.lt_of_lt_of_le (h.loggedNumber e he) honward.nextTx,
    fun e he x hx => honward.done (h.done e he x hx), h.apart⟩
  · rw [htransaction] at ht'
    by_cases hother : other = tx
    · rw [if_pos hother] at ht'
      cases ht'
    · rw [if_neg hother] at ht'
      exact h.opened other t' ht'
  · rcases hround with rfl | rfl <;> exact List.suffix_refl _
  · rw [htransaction, if_neg (hclosed d hd)]
    exact h.closed d hd
  · exact (htransaction tx).trans (if_pos rfl)
  · refine List.pairwise_append.mpr ⟨h.distinct, List.pairwise_singleton _ _, fun d hd e he => ?_⟩
    rw [List.mem_singleton.mp he]
    exact hclosed d hd
  · rw [htransaction] at ht'
    by_cases hother : other = tx
    · rw [if_pos hother] at ht'
      cases ht'
    · rw [if_neg hother] at ht'
      exact Nat.lt_of_lt_of_le (h.openedNumber other t' ht') honward.nextTx
  · exact Nat.lt_of_lt_of_le (h.openedNumber tx t ht) honward.nextTx

/-- What is still to run before a commit is the rest of what the transaction has registered. -/
theorem suffix_before (h : Orderly o) {d : Departure η} (hd : d ∈ o.departures)
    {rest : List (Callback η)} (hround : d.round = .preparing rest) :
    rest <:+ d.transaction.callbacks .before := by
  have hwithin := h.within d hd
  rwa [Departure.Within, hround] at hwithin

/-- What is still to run after the end is the rest of what the transaction has registered. -/
theorem suffix_after (h : Orderly o) {d : Departure η} (hd : d ∈ o.departures) {committed : Bool}
    {rest : List (Callback η)} (hround : d.round = .concluding committed rest) :
    rest <:+ d.transaction.callbacks (.after committed) := by
  have hwithin := h.within d hd
  rwa [Departure.Within, hround] at hwithin

/-- The callback that runs next before a commit is one of the transaction. -/
theorem mem_before (h : Orderly o) {d : Departure η} (hd : d ∈ o.departures)
    {callback : Callback η} {rest : List (Callback η)}
    (hround : d.round = .preparing (callback :: rest)) :
    callback ∈ d.transaction.callbacks .before :=
  (h.suffix_before hd hround).mem List.mem_cons_self

/-- The callback that runs next after the end is one of the transaction. -/
theorem mem_after (h : Orderly o) {d : Departure η} (hd : d ∈ o.departures) {committed : Bool}
    {callback : Callback η} {rest : List (Callback η)}
    (hround : d.round = .concluding committed (callback :: rest)) :
    callback ∈ d.transaction.callbacks (.after committed) :=
  (h.suffix_after hd hround).mem List.mem_cons_self

variable {app : Application η ω}

/-- The transactions agree with the log after every move. -/
theorem step (h : Orderly o) (m : Move η ω) : Orderly (o.step app m) := by
  have houtcome := outcome_step app o m
  generalize o.step app m = p at houtcome
  cases houtcome with
  | idle => exact h
  | refused n thread resource =>
      exact h.onward ⟨Nat.le_succ _, Nat.le_refl _, fun _ => .refl _, fun _ hn => hn⟩ rfl
  | begun n thread hbegin => exact h.begun hbegin
  | worked a ht => exact h.worked a ht
  | departed thread request ht hround hc htransactions =>
      exact h.departure thread ht hround hc htransactions
  | @before i d callback rest hd hround =>
      have honward := h.onward (o.cluster.onward_carryOut app d.thread .before callback)
        (o.cluster.carryOut_frame app d.thread .before callback).1
      have hsuffix := h.suffix_before (List.mem_of_getElem? hd) hround
      exact honward.moveTo hd ((List.suffix_cons callback rest).trans hsuffix)
  | decided i committed hd hround hc htransactions =>
      exact (h.onward hc.onward htransactions).moveTo hd (List.suffix_refl _)
  | @after i committed d callback rest hd hround =>
      have honward := h.onward (o.cluster.onward_carryOut app d.thread (.after committed) callback)
        (o.cluster.carryOut_frame app d.thread (.after committed) callback).1
      have hsuffix := h.suffix_after (List.mem_of_getElem? hd) hround
      exact honward.moveTo hd ((List.suffix_cons callback rest).trans hsuffix)
  | store a => exact h.onward (.of_jobs _ _) rfl
  | registry n a => exact h.onward (o.cluster.onward_registry n a) rfl
  | elsewhere what =>
      exact h.onward (o.cluster.unmoved_elsewhere what).onward (what.transactions o.cluster)

/-- The transactions agree with the log after every history. -/
theorem play (h : c.AtRest) (moves : List (Move η ω)) :
    Orderly ((⟨c, [], []⟩ : Interplay η ω).play app moves) :=
  play_induction (fun _ m ho => ho.step m) (start h) moves

/-! ## What follows from the books -/

/-- Two transactions never bring the same thing into the world. -/
theorem deed_unique (h : Orderly o) {tx other : TxId} {x y : Deed} (hx : x ∈ o.deeds tx)
    (hy : y ∈ o.deeds other) (hsame : x.Same y) (hsymm : y.Same x) : tx = other := by
  obtain ⟨e, he, rfl, hex⟩ := mem_deeds.mp hx
  obtain ⟨f, hf, rfl, hfy⟩ := mem_deeds.mp hy
  have hpair : ∀ a ∈ o.log, ∀ b ∈ o.log, x ∈ a.deeds → y ∈ b.deeds → a = b := by
    intro a ha b hb hax hby
    obtain ⟨i, hi, rfl⟩ := List.getElem_of_mem ha
    obtain ⟨j, hj, rfl⟩ := List.getElem_of_mem hb
    have hlog := List.pairwise_iff_getElem.mp h.apart
    rcases Nat.lt_trichotomy i j with hij | hij | hij
    · exact absurd hsame (hlog i j hi hj hij x hax y hby)
    · subst hij
      rfl
    · exact absurd hsymm (hlog j i hj hi hij y hby x hax)
  rw [hpair e he f hf hex hfy]

/-- A lasting callback of a transaction that agrees with the log was registered by one of its
calls. -/
theorem exists_entry {tx : TxId} {t : Transaction (Callback η)} (ht : t.lasting = o.registered tx)
    {x : Synchronizer (Callback η)} (hx : x ∈ t.synchronizers) (hlasts : x.lasts = true) :
    ∃ e ∈ o.log, e.tx = tx ∧ x ∈ e.call.registers e.tx e.found e.answer := by
  have hlasting : x ∈ t.lasting := Transaction.mem_lasting.mpr ⟨hx, hlasts⟩
  rw [ht] at hlasting
  obtain ⟨e, he, htx, hregistered⟩ := mem_registered.mp hlasting
  exact ⟨e, he, htx, (WorkEntry.mem_registered.mp hregistered).1⟩

/-- A transaction applies its own writes, and nobody else's. -/
theorem applyWrites_own (h : Orderly o) {d : Departure η} (hd : d ∈ o.departures) {phase : Phase}
    {tx : TxId} (hmem : .applyWrites tx ∈ d.transaction.callbacks phase) : tx = d.tx := by
  obtain ⟨x, hx, _, hcallback⟩ := Transaction.mem_callbacks_iff.mp hmem
  have hlasts : x.lasts = true := by rw [Synchronizer.lasts, hcallback]
  obtain ⟨e, _, htx, hregisters⟩ := exists_entry (h.departed d hd) hx hlasts
  have hown := e.effect.of_registered hregisters
  rw [hcallback] at hown
  exact hown.2.trans htx

/-- A transaction is on its way out once. -/
theorem departure_unique (h : Orderly o) {d e : Departure η} (hd : d ∈ o.departures)
    (he : e ∈ o.departures) (htx : d.tx = e.tx) : d = e :=
  eq_of_pairwise_ne h.distinct hd he htx

/-- What holds of the departure of a transaction holds of the one departure that it has. -/
theorem exists_departure_iff (h : Orderly o) {d : Departure η} (hd : d ∈ o.departures)
    {P : Departure η → Prop} : (∃ e ∈ o.departures, e.tx = d.tx ∧ P e) ↔ P d := by
  constructor
  · rintro ⟨e, he, htx, hP⟩
    exact h.departure_unique he hd htx ▸ hP
  · exact fun hP => ⟨d, hd, rfl, hP⟩

/-- A departure that moves on is the departure of its transaction from then on, and those of other
transactions stay as they are. -/
theorem exists_departure_set_iff (h : Orderly o) {i : Nat} {d : Departure η} {round : Round η}
    (hd : o.departures[i]? = some d) (tx : TxId) {P : Departure η → Prop} :
    (∃ e ∈ o.departures.set i (d.moveTo round), e.tx = tx ∧ P e) ↔
      if tx = d.tx then P (d.moveTo round) else ∃ e ∈ o.departures, e.tx = tx ∧ P e := by
  obtain ⟨hi, hget⟩ := List.getElem?_eq_some_iff.mp hd
  have hothers : ∀ e, e.tx ≠ d.tx →
      (e ∈ o.departures.set i (d.moveTo round) ↔ e ∈ o.departures) := by
    intro e hne
    constructor
    · intro he
      rcases mem_set_moveTo hd he with he | ⟨_, rfl⟩
      · exact he
      · exact absurd rfl hne
    · intro he
      obtain ⟨j, hj, rfl⟩ := List.getElem_of_mem he
      have hij : i ≠ j := by
        rintro rfl
        exact hne (congrArg Departure.tx hget)
      rw [← List.getElem_set_ne hij (by simpa using hj)]
      exact List.getElem_mem _
  by_cases htx : tx = d.tx
  · rw [if_pos htx, htx]
    constructor
    · rintro ⟨e, he, hetx, hP⟩
      obtain ⟨j, hj, rfl⟩ := List.getElem_of_mem he
      by_cases hij : i = j
      · subst hij
        rwa [List.getElem_set_self] at hP
      · rw [List.getElem_set_ne hij] at hetx
        have hj' : j < o.departures.length := by simpa using hj
        have hpair := List.pairwise_iff_getElem.mp h.distinct
        rcases Nat.lt_or_gt_of_ne hij with hlt | hlt
        · exact absurd (hget ▸ hetx.symm) (hpair i j hi hj' hlt)
        · exact absurd (hget ▸ hetx) (hpair j i hj' hi hlt)
    · exact fun hP => ⟨_, List.mem_set hi _, rfl, hP⟩
  · rw [if_neg htx]
    constructor
    · rintro ⟨e, he, hetx, hP⟩
      exact ⟨e, (hothers e fun heq => htx (hetx.symm.trans heq)).mp he, hetx, hP⟩
    · rintro ⟨e, he, hetx, hP⟩
      exact ⟨e, (hothers e fun heq => htx (hetx.symm.trans heq)).mpr he, hetx, hP⟩

/-- A job was scheduled by one transaction. -/
theorem job_unique (h : Orderly o) {tx other : TxId} {id : JobId} (hx : .job id ∈ o.deeds tx)
    (hy : .job id ∈ o.deeds other) : tx = other :=
  h.deed_unique hx hy rfl rfl

/-- An exchange was created by one transaction. -/
theorem slot_unique (h : Orderly o) {tx other : TxId} {n : NodeName} {id j : ExchangeId}
    {slot : Nat} (hx : .exchange n id slot ∈ o.deeds tx) (hy : .exchange n j slot ∈ o.deeds other) :
    tx = other :=
  h.deed_unique hx hy ⟨rfl, rfl⟩ ⟨rfl, rfl⟩

/-! ## Transactions in play -/

/-- A transaction that is open is not on its way out. -/
theorem inPlay_of_open (h : Orderly o) {tx : TxId} {t : Transaction (Callback η)}
    (ht : o.cluster.transaction? tx = some t) {P : Transaction (Callback η) → Prop}
    {Q : Departure η → Prop} : o.InPlay tx P Q ↔ P t := by
  unfold InPlay
  rw [ht]
  constructor
  · rintro (⟨t', ht', hP⟩ | ⟨d, hd, hdtx, _⟩)
    · cases ht'
      exact hP
    · exact absurd hdtx (h.tx_ne_of_open ht hd)
  · exact fun hP => .inl ⟨t, rfl, hP⟩

/-- A transaction on its way out is open no longer. -/
theorem inPlay_of_departure (h : Orderly o) {d : Departure η} (hd : d ∈ o.departures)
    {P : Transaction (Callback η) → Prop} {Q : Departure η → Prop} :
    o.InPlay d.tx P Q ↔ Q d := by
  unfold InPlay
  rw [h.closed d hd, h.exists_departure_iff hd]
  simp

/-- A transaction that leaves is the only one for which that makes a difference. -/
theorem inPlay_depart (h : Orderly o) {tx : TxId} {t : Transaction (Callback η)}
    (ht : o.cluster.transaction? tx = some t)
    (hc : c.transactions = o.cluster.transactions.erase tx) {d : Departure η} (hd : d.tx = tx)
    (other : TxId) {P : Transaction (Callback η) → Prop} {Q : Departure η → Prop} :
    ({ o with cluster := c, departures := o.departures ++ [d] } : Interplay η ω).InPlay other P Q ↔
      if other = tx then Q d else o.InPlay other P Q := by
  have htransaction : c.transaction? other =
      if other = tx then none else o.cluster.transaction? other := by
    rw [Cluster.transaction?, hc, Table.get?_erase]
    rfl
  unfold InPlay
  simp only [htransaction, List.mem_append, List.mem_singleton]
  by_cases hother : other = tx
  · rw [if_pos hother, if_pos hother, hother]
    constructor
    · rintro (⟨_, hnone, _⟩ | ⟨e, he | rfl, hetx, hQ⟩)
      · cases hnone
      · exact absurd hetx (h.tx_ne_of_open ht he)
      · exact hQ
    · exact fun hQ => .inr ⟨d, .inr rfl, hd, hQ⟩
  · rw [if_neg hother, if_neg hother]
    refine or_congr .rfl ⟨?_, ?_⟩
    · rintro ⟨e, he | rfl, hetx, hQ⟩
      · exact ⟨e, he, hetx, hQ⟩
      · exact absurd (hetx.symm.trans hd) hother
    · rintro ⟨e, he, hetx, hQ⟩
      exact ⟨e, .inl he, hetx, hQ⟩

/-- A transaction that moves on is the only one for which that makes a difference. -/
theorem inPlay_moveTo (h : Orderly o) {i : Nat} {d : Departure η} {round : Round η}
    (hd : o.departures[i]? = some d) (hc : c.transactions = o.cluster.transactions) (tx : TxId)
    {P : Transaction (Callback η) → Prop} {Q : Departure η → Prop} :
    ({ o with
        cluster := c
        departures := o.departures.set i (d.moveTo round) } : Interplay η ω).InPlay tx P Q ↔
      if tx = d.tx then Q (d.moveTo round) else o.InPlay tx P Q := by
  unfold InPlay Cluster.transaction?
  simp only [h.exists_departure_set_iff hd tx, hc]
  by_cases htx : tx = d.tx
  · have hclosed : o.cluster.transactions.get? d.tx = none := h.closed d (List.mem_of_getElem? hd)
    rw [if_pos htx, if_pos htx, htx, hclosed]
    simp
  · rw [if_neg htx, if_neg htx]

end Orderly

end Interplay

end JobCluster
