import JobCluster.Proofs.Instance.Committed
/-!
# Isolation of instance writes

The instance store is a table with drafts over it. The table is what the writes of the committed
transactions have made of the first one, in the order in which they reached the store; a transaction
sees the table with its own writes over it; and nobody else sees anything of them before they are
committed, whatever becomes of the transaction.

Main results:

- `InstanceStore.replay`: the table after some writes, one after another;
- `Interplay.events`: what reaches the instance store in a history;
- `StoreEvent.agreeBut_purge`: without the calls of a transaction that has not committed, the store
  is the same but for what that transaction has staged;
- `Interplay.isolated_play`: the committed instances, what a transaction sees, and what others see.
-/

namespace JobCluster

variable {η ω : Type}

/-! ## Writes in turn -/

namespace InstanceStore

variable {id : InstanceId} {tx other : TxId} {s t : InstanceStore}

/-- The table after some writes, one after another. -/
def replay (ws : List InstanceWrite) (table : Table InstanceId ProcessInstance) :
    Table InstanceId ProcessInstance :=
  ws.foldl (fun table w => table.set w.id w.result) table

/-- What has been replayed is seen over the table that it was replayed on. -/
theorem get?_replay (ws : List InstanceWrite) (table : Table InstanceId ProcessInstance)
    (id : InstanceId) : (replay ws table).get? id = seen id (table.get? id) ws := by
  induction ws generalizing table with
  | nil => rfl
  | cons w rest ih =>
      rw [seen_cons, ← Table.get?_set]
      exact ih _

/-- What a transaction sees is the table with its own writes over it. -/
theorem view_eq_replay (s : InstanceStore) (tx : TxId) (id : InstanceId) :
    s.view tx id = (replay (s.writes tx) s.committed).get? id :=
  (s.view_eq_seen tx id).trans (get?_replay (s.writes tx) s.committed id).symm

/-! ## Stores that differ in one draft -/

/-- Whether two stores are the same but for what a transaction has staged. -/
structure AgreeBut (tx : TxId) (s t : InstanceStore) : Prop where
  committed : t.committed = s.committed
  writes : ∀ other, other ≠ tx → t.writes other = s.writes other

namespace AgreeBut

theorem refl (tx : TxId) (s : InstanceStore) : AgreeBut tx s s :=
  ⟨rfl, fun _ _ => rfl⟩

/-- Stores that agree but for one transaction show the others the same. -/
theorem view (h : AgreeBut tx s t) (hother : other ≠ tx) (id : InstanceId) :
    t.view other id = s.view other id := by
  rw [view_eq_replay, view_eq_replay, h.committed, h.writes other hother]

/-- Calls of other transactions write the same. -/
theorem write? (h : AgreeBut tx s t) (hother : other ≠ tx) (a : WorkCall η) :
    a.write? other t = a.write? other s := by
  have hview := h.view hother
  have hcurrent : ∀ id, t.current other id = s.current other id := by
    intro id
    rw [current, hview, current]
  cases a with
  | createInstance p => simp only [WorkCall.write?, creation, hview]
  | setInstanceState id state now => simp only [WorkCall.write?, stateChange, hcurrent]
  | setInstanceKey id set value => simp only [WorkCall.write?, keyChange, hcurrent]
  | deleteInstance id => simp only [WorkCall.write?, deletion, hcurrent]
  | schedulePersisted | scheduleVolatile | createExchange | claim | release | register | mark
  | setStoreAvailable | refuseNext => rfl

theorem stage (h : AgreeBut tx s t) (hother : other ≠ tx) (w : InstanceWrite) :
    AgreeBut tx (s.stage other w) (t.stage other w) := by
  refine ⟨h.committed, fun third hthird => ?_⟩
  rw [writes_stage, writes_stage, h.writes third hthird, h.writes other hother]

/-- A write shows in the view of its own transaction only. -/
theorem stage_own (tx : TxId) (s : InstanceStore) (w : InstanceWrite) :
    AgreeBut tx s (s.stage tx w) := by
  refine ⟨rfl, fun other hother => ?_⟩
  rw [writes_stage, if_neg (Ne.symm hother)]

theorem complete (h : AgreeBut tx s t) (hother : other ≠ tx) (committed : Bool) :
    AgreeBut tx (s.complete other committed).2 (t.complete other committed).2 := by
  refine ⟨?_, fun third hthird => ?_⟩
  · cases committed with
    | true => simp only [InstanceStore.complete, h.committed, h.writes other hother, if_true]
    | false => exact h.committed
  · rw [writes_complete, writes_complete, h.writes third hthird]

/-- A transaction that is rolled back leaves the table and all other drafts. -/
theorem rollback_own (tx : TxId) (s : InstanceStore) : AgreeBut tx s (s.complete tx false).2 := by
  refine ⟨rfl, fun other hother => ?_⟩
  rw [writes_complete, if_neg hother]

theorem trans {u : InstanceStore} (h : AgreeBut tx s t) (h' : AgreeBut tx t u) :
    AgreeBut tx s u :=
  ⟨h'.committed.trans h.committed, fun other hother =>
    (h'.writes other hother).trans (h.writes other hother)⟩

end AgreeBut

end InstanceStore

/-! ## What reaches the store -/

/-- What reaches the instance store. -/
inductive StoreEvent (η : Type)
  /-- A transaction makes a call, which may write an instance. -/
  | call (tx : TxId) (a : WorkCall η)
  /-- The callback of a transaction runs that applies its writes or forgets them. -/
  | complete (tx : TxId) (committed : Bool)

namespace StoreEvent

/-- The transaction that an event belongs to. -/
def tx : StoreEvent η → TxId
  | call tx _ => tx
  | complete tx _ => tx

/-- The store after an event. -/
def apply (s : InstanceStore) : StoreEvent η → InstanceStore
  | call tx a =>
    match a.write? tx s with
    | some w => s.stage tx w
    | none => s
  | complete tx committed => (s.complete tx committed).2

variable {tx : TxId} {s t : InstanceStore} {e : StoreEvent η}

/-- What a transaction does before its commit makes a difference to itself only. -/
theorem agreeBut_own (he : e.tx = tx) (hcommit : e ≠ complete tx true) (s : InstanceStore) :
    InstanceStore.AgreeBut tx s (e.apply s) := by
  subst he
  cases e with
  | call tx a =>
      simp only [apply, StoreEvent.tx]
      split
      · exact .stage_own tx s _
      · exact .refl tx s
  | complete tx committed =>
      cases committed with
      | true => exact absurd rfl hcommit
      | false => exact .rollback_own tx s

/-- What other transactions do, they do alike in stores that differ in one transaction. -/
theorem agreeBut_other (h : InstanceStore.AgreeBut tx s t) (he : e.tx ≠ tx) :
    InstanceStore.AgreeBut tx (e.apply s) (e.apply t) := by
  cases e with
  | call other a =>
      have hother : other ≠ tx := he
      simp only [apply, h.write? hother]
      split
      · exact h.stage hother _
      · exact h
  | complete other committed => exact h.complete he committed

/-- Without the events of a transaction that does not commit, the store is the same but for what the
transaction has staged: all other calls write what they have written with them. -/
theorem agreeBut_purge (h : InstanceStore.AgreeBut tx s t) {events : List (StoreEvent η)}
    (hcommit : complete tx true ∉ events) :
    InstanceStore.AgreeBut tx ((events.filter fun e => decide (e.tx ≠ tx)).foldl apply s)
      (events.foldl apply t) := by
  induction events generalizing s t with
  | nil => exact h
  | cons e rest ih =>
      rw [List.mem_cons, not_or] at hcommit
      by_cases he : e.tx = tx
      · rw [List.filter_cons_of_neg (by simp [he])]
        exact ih (h.trans (agreeBut_own he (Ne.symm hcommit.1) t)) hcommit.2
      · rw [List.filter_cons_of_pos (by simp [he])]
        exact ih (agreeBut_other h he) hcommit.2

end StoreEvent

namespace Interplay

variable {app : Application η ω} {o : Interplay η ω} {m : Move η ω} {tx : TxId}

/-- What a move brings to the instance store. -/
def event? (o : Interplay η ω) : Move η ω → Option (StoreEvent η)
  | .work tx a => (o.cluster.transaction? tx).map fun _ => .call tx a
  | .advance i =>
    match o.carries? (.advance i) with
    | some (_, phase, .applyWrites tx) => some (.complete tx (Cluster.followsCommit phase))
    | _ => none
  | .begin _ _ | .depart _ _ _ | .store _ | .registry _ _ | .elsewhere _ => none

/-- The instance store changes by the events that reach it alone. -/
theorem instances_step (app : Application η ω) (o : Interplay η ω) (m : Move η ω) :
    (o.step app m).cluster.instances =
      (o.event? m).toList.foldl StoreEvent.apply o.cluster.instances := by
  have houtcome := outcome_step app o m
  cases m with
  | begin n thread =>
      generalize o.step app (.begin n thread) = p at houtcome
      cases houtcome with
      | idle | refused => rfl
      | begun n thread hbegin => exact (Cluster.begin_eq_ok hbegin).instances
  | work tx a =>
      simp only [step, event?]
      cases ht : o.cluster.transaction? tx with
      | none => rfl
      | some t => exact (a.effect_perform tx o.cluster).instances
  | depart tx thread request =>
      generalize o.step app (.depart tx thread request) = p at houtcome
      cases houtcome with
      | idle => rfl
      | departed thread request ht hround hc htransactions => exact hc.instances
  | advance i =>
      generalize o.step app (.advance i) = p at houtcome
      cases houtcome with
      | idle hidle => simp [event?, hidle]
      | @before _ d callback rest hd hround =>
          have hcarries : o.carries? (.advance i) = some (d, .before, callback) :=
            carries?_eq_some.mpr ⟨i, rfl, hd, by simp [Departure.upcoming?, hround]⟩
          simp only [event?, hcarries]
          refine (Cluster.carryOut_instances app d.thread .before o.cluster callback).trans ?_
          cases callback <;> rfl
      | decided _ committed hd hround hc htransactions =>
          have hnone : o.carries? (.advance i) = none := by
            simp [carries?, hd, Departure.upcoming?, hround]
          simp only [event?, hnone]
          exact hc.instances
      | @after _ committed d callback rest hd hround =>
          have hcarries := carries?_after_eq_some.mpr ⟨i, rest, rfl, hd, hround⟩
          simp only [event?, hcarries]
          refine (Cluster.carryOut_instances app d.thread (.after committed) o.cluster
            callback).trans ?_
          cases callback <;> rfl
  | store a | registry n a => rfl
  | elsewhere what => exact what.instances o.cluster

/-- A move brings the commit of a transaction to the store exactly if it commits the transaction. -/
theorem event?_eq_commit : o.event? m = some (.complete tx true) ↔ o.commits? m = some tx := by
  rw [commits?_eq_some]
  constructor
  · intro h
    cases m with
    | advance i =>
        simp only [event?] at h
        split at h
        · next d phase own hcarries =>
          simp only [Option.some.injEq, StoreEvent.complete.injEq] at h
          obtain ⟨rfl, hcommit⟩ := h
          cases phase with
          | before => cases hcommit
          | after committed =>
              cases hcommit
              obtain ⟨j, rest, hj, hd, hround⟩ := carries?_after_eq_some.mp hcarries
              exact ⟨j, d, rest, hj, hd, hround⟩
        · cases h
    | work own a => simp [event?] at h
    | begin n thread | depart own thread request | store a | registry n a | elsewhere what =>
        cases h
  · rintro ⟨i, d, rest, rfl, hd, hround⟩
    have hcarries := carries?_after_eq_some.mpr ⟨i, rest, rfl, hd, hround⟩
    simp only [event?, hcarries]
    rfl

/-- What reaches the instance store in a history. -/
def events (app : Application η ω) : Interplay η ω → List (Move η ω) → List (StoreEvent η)
  | _, [] => []
  | o, m :: rest => (o.event? m).toList ++ events app (o.step app m) rest

/-- The instances after a history are those of its events on the store. -/
theorem instances_play (app : Application η ω) (o : Interplay η ω) (moves : List (Move η ω)) :
    (o.play app moves).cluster.instances =
      (o.events app moves).foldl StoreEvent.apply o.cluster.instances := by
  induction moves generalizing o with
  | nil => rfl
  | cons m rest ih => rw [play_cons, events, List.foldl_append, ← instances_step app o m, ih]

/-- A commit is an event of the store if the transaction is committed in the history. -/
theorem commit_mem_events {moves : List (Move η ω)} :
    .complete tx true ∈ o.events app moves ↔ tx ∈ o.committed app moves := by
  induction moves generalizing o with
  | nil => simp [events, committed]
  | cons m rest ih =>
      rw [events, committed, List.mem_append, List.mem_append, ih, Option.mem_toList,
        Option.mem_toList, event?_eq_commit]

/-- The writes of a transaction are applied once. -/
theorem nodup_committed {start : InstanceStore} {txs : List TxId} (h : Chronicle start txs o)
    (hnodup : txs.Nodup) (ho : Orderly o) (hdrafted : Drafted o) (hpledged : Pledged o)
    (moves : List (Move η ω)) : (txs ++ o.committed app moves).Nodup := by
  induction moves generalizing o txs with
  | nil => rwa [committed, List.append_nil]
  | cons m rest ih =>
      rw [committed, ← List.append_assoc]
      refine ih (h.step ho hpledged m) ?_ (ho.step m) (hdrafted.step ho m)
        (hpledged.step ho hdrafted m)
      cases hcommits : o.commits? m with
      | none => simpa using hnodup
      | some tx =>
          obtain ⟨i, d, rest, rfl, hd, hround⟩ := commits?_eq_some.mp hcommits
          have hin := List.mem_of_getElem? hd
          have hown := ho.applyWrites_own hin (ho.mem_after hin hround)
          have hnew : tx ∉ txs := by
            rw [h.applied, hown, ho.exists_departure_iff hin]
            simp [Departure.hasApplied, hround, Callback.applies]
          rw [Option.toList_some]
          refine List.nodup_append.mpr ⟨hnodup, by simp, fun other hother third hthird => ?_⟩
          rw [List.mem_singleton.mp hthird]
          rintro rfl
          exact hnew hother

/-! ## Isolation -/

/-- Whether a transaction is open, or on its way out with its writes still to be applied or
forgotten. -/
def IsUnsettled (o : Interplay η ω) (tx : TxId) : Prop :=
  (∃ t, o.cluster.transaction? tx = some t) ∨
    ∃ d ∈ o.departures, d.tx = tx ∧ d.willApply = true

/-- What a transaction that is not settled has written is what the log says. -/
theorem Pledged.writes_of_unsettled (h : Pledged o) (hdrafted : Drafted o)
    (htx : o.IsUnsettled tx) : o.cluster.instances.writes tx = o.writes tx := by
  rcases htx with ⟨t, ht⟩ | hdeparts
  · exact hdrafted.writes_of_open ht
  · exact h.pending tx hdeparts

/-- A transaction that has applied its writes has committed. -/
theorem round_of_hasApplied {d : Departure η} (h : d.hasApplied = true) :
    ∃ rest, d.round = .concluding true rest := by
  unfold Departure.hasApplied at h
  split at h
  · next rest hround => exact ⟨rest, hround⟩
  · cases h
  · cases h

/-- A transaction that has committed and is through with its callbacks has applied its writes, if
there are any. -/
theorem Pledged.hasApplied_of_over (h : Pledged o) (ho : Orderly o) {d : Departure η}
    (hd : d ∈ o.departures) (hround : d.round = .concluding true [])
    (hwrites : o.writes d.tx ≠ []) :
    d.hasApplied = true := by
  have hany := (h.any_applies (ho.departed d hd) true).mpr hwrites
  simp [Departure.hasApplied, hround, hany]

/-- In a history of any number of overlapping transactions, the committed instances are at every
moment what the writes of the transactions that have applied theirs, in this order, have made of
those at first. Each of these transactions has committed and applies its writes once, and every
transaction that has committed and run its callbacks is one of them, if it has written anything.

Until its writes are applied or forgotten, a transaction sees the committed instances with its own
writes over them. As long as it has not committed, everything that others can see is the same as if
it had not made its calls: the committed instances, whichever way they are asked for, and what all
other transactions see. -/
theorem isolated_play (app : Application η ω) {c : Cluster η ω} (hc : c.AtRest)
    (hstaged : ∀ tx, c.instances.isOpen tx = false) (moves : List (Move η ω)) :
    let start : Interplay η ω := ⟨c, [], []⟩
    let o := start.play app moves
    let s := o.cluster.instances
    let txs := start.committed app moves
    (s.committed = InstanceStore.replay (txs.flatMap o.writes) c.instances.committed ∧ txs.Nodup ∧
      (∀ tx ∈ txs, ∃ d ∈ o.departures, d.tx = tx ∧ ∃ rest, d.round = .concluding true rest) ∧
      ∀ d ∈ o.departures, d.round = .concluding true [] → o.writes d.tx ≠ [] → d.tx ∈ txs) ∧
    (∀ tx, o.IsUnsettled tx → ∀ id,
      s.view tx id = (InstanceStore.replay (o.writes tx) s.committed).get? id) ∧
    ∀ tx, tx ∉ txs →
      let t := ((start.events app moves).filter fun e => decide (e.tx ≠ tx)).foldl StoreEvent.apply
        c.instances
      (∀ id, s.get? id = t.get? id) ∧
      (∀ set value, s.findByCorrelation set value = t.findByCorrelation set value) ∧
      (∀ state, s.listByState state = t.listByState state) ∧
      ∀ other, other ≠ tx → ∀ id, s.view other id = t.view other id := by
  intro start o s txs
  have hstart : Orderly start := .start hc
  have hdrafted : Drafted start := .start hc
  have hpledged : Pledged start := .start hstaged
  have ho : Orderly o := .play hc moves
  have hchronicle : Chronicle c.instances txs o :=
    (Chronicle.initial c).play hstart hdrafted hpledged moves
  have hnodup : ([] ++ txs).Nodup :=
    nodup_committed (.initial c) .nil hstart hdrafted hpledged moves
  have hpledged' : Pledged o := hpledged.play hstart hdrafted moves
  have hdrafted' : Drafted o := .play hc moves
  refine ⟨⟨?_, hnodup, ?_, ?_⟩, ?_, ?_⟩
  · exact Table.ext_get? fun id =>
      (hchronicle.instances id).trans (InstanceStore.get?_replay _ _ id).symm
  · intro tx htx
    obtain ⟨d, hd, hown, happlied⟩ := (hchronicle.applied tx).mp htx
    exact ⟨d, hd, hown, round_of_hasApplied happlied⟩
  · intro d hd hround hwrites
    exact (hchronicle.applied d.tx).mpr
      ⟨d, hd, rfl, hpledged'.hasApplied_of_over ho hd hround hwrites⟩
  · intro tx htx id
    rw [← hpledged'.writes_of_unsettled hdrafted' htx]
    exact s.view_eq_replay tx id
  · intro tx htx t
    have hagree : InstanceStore.AgreeBut tx t s := by
      have hpurge := StoreEvent.agreeBut_purge (.refl tx c.instances)
        (mt commit_mem_events.mp htx : .complete tx true ∉ start.events app moves)
      rwa [← instances_play app start moves] at hpurge
    refine ⟨fun id => ?_, fun set value => ?_, fun state => ?_, fun other hother id => ?_⟩
    · rw [InstanceStore.get?, hagree.committed, InstanceStore.get?]
    · rw [InstanceStore.findByCorrelation, hagree.committed, InstanceStore.findByCorrelation]
    · rw [InstanceStore.listByState, hagree.committed, InstanceStore.listByState]
    · exact hagree.view hother id

/-- Three transactions overlap. The first one creates an instance and commits it, the second one
creates another instance and is rolled back, and the third one creates the instance of the first one
a second time, which it does not see, and deletes it again. -/
def rivalry : List (Move Unit Unit) :=
  [.begin "a" .main, .begin "a" (.named "s"), .begin "a" (.named "t"),
    .work ⟨0⟩ (.createInstance sample), .work ⟨1⟩ (.createInstance { sample with id := ⟨"q"⟩ }),
    .work ⟨2⟩ (.createInstance sample), .depart ⟨1⟩ (.named "s") .rollback, .advance 0,
    .work ⟨2⟩ (.deleteInstance ⟨"p"⟩), .depart ⟨0⟩ .main .commit, .advance 1, .advance 1]

/-- The instance of the first transaction is there, as if the third one had done nothing, and the
third one does not see it; nothing is left of the second one. -/
theorem isolated_play_rivalry :
    let o := playBlank rivalry
    let s := o.cluster.instances
    let t := (((⟨.blank, [], []⟩ : Interplay Unit Unit).events .silent rivalry).filter
      fun e => decide (e.tx ≠ ⟨2⟩)).foldl StoreEvent.apply {}
    (⟨.blank, [], []⟩ : Interplay Unit Unit).committed .silent rivalry = [⟨0⟩] ∧
      s.committed = InstanceStore.replay (o.writes ⟨0⟩) ∅ ∧ s.get? ⟨"p"⟩ = some sample ∧
      t.get? ⟨"p"⟩ = some sample ∧ s.view ⟨2⟩ ⟨"p"⟩ = none ∧ s.get? ⟨"q"⟩ = none := by
  intro o s t
  have hcommitted : (⟨.blank, [], []⟩ : Interplay Unit Unit).committed .silent rivalry = [⟨0⟩] :=
    rfl
  obtain ⟨⟨htable, _⟩, hviews, hothers⟩ :=
    isolated_play .silent Cluster.atRest_blank (fun _ => rfl) rivalry
  rw [hcommitted, List.flatMap_singleton] at htable
  have hget : s.get? ⟨"p"⟩ = some sample := rfl
  refine ⟨hcommitted, htable, hget, ?_, ?_, rfl⟩
  · exact ((hothers ⟨2⟩ (by simp [hcommitted])).1 ⟨"p"⟩).symm.trans hget
  · exact (hviews ⟨2⟩ (.inl ⟨_, rfl⟩) ⟨"p"⟩).trans rfl

end Interplay

end JobCluster
