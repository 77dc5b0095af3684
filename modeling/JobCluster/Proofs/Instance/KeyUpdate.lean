import Mathlib.Data.List.Induction
import JobCluster.Proofs.Instance.Committed
/-!
# Correlation keys of overlapping transactions

To set the key of a correlation set, a transaction reads the whole record of the instance, changes
the key in it and stages the record; its commit applies the record as it stands. So the record that
is committed has the keys of the transaction over those of the record with which its draft began,
whatever has been committed since. This file says which keys are there after a commit, and so when
the keys of a transaction outlast the commit of another.

Main results:

- `ProcessInstance.get?_setKeys`: the keys of a record after some have been set;
- `Interplay.KeyDrafts.step`: what a transaction sees that has only set keys of an instance;
- `Interplay.keys_outlast_iff`: the keys of two transactions are all there after the second commit
  exactly if the draft of the second one began with those of the first;
- `Interplay.key_lost`: two transactions that leave the key of one of them alone.
-/

namespace JobCluster

variable {η ω : Type}

/-! ## Keys set in turn -/

/-- The key that a correlation set has last been given. -/
def lastKey (keys : List (String × String)) (set : String) : Option String :=
  keys.foldl (fun key k => if k.1 = set then some k.2 else key) none

/-- The key that was set last is the one that counts. -/
theorem lastKey_append_singleton (keys : List (String × String)) (k : String × String)
    (set : String) :
    lastKey (keys ++ [k]) set = if k.1 = set then some k.2 else lastKey keys set := by
  simp [lastKey]

/-- A set that is given no key has none. -/
theorem lastKey_eq_none {keys : List (String × String)} {set : String}
    (h : ∀ k ∈ keys, k.1 ≠ set) : lastKey keys set = none := by
  induction keys using List.reverseRecOn with
  | nil => rfl
  | append_singleton keys k ih =>
    rw [lastKey_append_singleton, if_neg (h k (by simp))]
    exact ih fun j hj => h j (List.mem_append_left _ hj)

/-- A set that has a key has been given one. -/
theorem exists_of_lastKey {keys : List (String × String)} {set key : String}
    (h : lastKey keys set = some key) : ∃ k ∈ keys, k.1 = set := by
  refine Decidable.byContradiction fun hnone => ?_
  rw [lastKey_eq_none fun k hk hset => hnone ⟨k, hk, hset⟩] at h
  cases h

namespace ProcessInstance

/-- The instance with some keys set one after another. -/
def setKeys (p : ProcessInstance) (keys : List (String × String)) : ProcessInstance :=
  keys.foldl (fun p k => p.setKey k.1 k.2) p

/-- Keys are set one after another. -/
theorem setKeys_append_singleton (p : ProcessInstance) (keys : List (String × String))
    (k : String × String) : p.setKeys (keys ++ [k]) = (p.setKeys keys).setKey k.1 k.2 := by
  simp [setKeys]

/-- The last key that a set has been given counts; the other sets keep theirs. -/
theorem get?_setKeys (p : ProcessInstance) (keys : List (String × String)) (set : String) :
    (p.setKeys keys).correlationKeys.get? set =
      (lastKey keys set).or (p.correlationKeys.get? set) := by
  induction keys using List.reverseRecOn with
  | nil => rfl
  | append_singleton keys k ih =>
    rw [setKeys_append_singleton, setKey, Table.get?_insert, lastKey_append_singleton, ih]
    split <;> rfl

/-- Whether the instance carries the keys that some sets have last been given. -/
def Carries (p : ProcessInstance) (keys : List (String × String)) : Prop :=
  ∀ set key, lastKey keys set = some key → p.correlationKeys.get? set = some key

/-- An instance carries the keys that were set on it last. -/
theorem carries_setKeys (p : ProcessInstance) (keys : List (String × String)) :
    (p.setKeys keys).Carries keys := by
  intro set key h
  rw [get?_setKeys, h, Option.some_or]

/-- Keys of other sets make no difference to the keys that an instance carries. -/
theorem carries_setKeys_iff {p : ProcessInstance} {keys own : List (String × String)}
    (hapart : ∀ k ∈ keys, ∀ l ∈ own, k.1 ≠ l.1) : (p.setKeys own).Carries keys ↔ p.Carries keys := by
  have hsame : ∀ set key, lastKey keys set = some key →
      (p.setKeys own).correlationKeys.get? set = p.correlationKeys.get? set := by
    intro set key h
    obtain ⟨k, hk, rfl⟩ := exists_of_lastKey h
    rw [get?_setKeys, lastKey_eq_none fun l hl => (hapart k hk l hl).symm, Option.none_or]
  constructor
  · intro h set key hkey
    rw [← hsame set key hkey]
    exact h set key hkey
  · intro h set key hkey
    rw [hsame set key hkey]
    exact h set key hkey

end ProcessInstance

/-! ## Transactions that set keys -/

/-- The correlation set and the key that a call has written into the record of an instance. -/
def WorkEntry.key? (id : InstanceId) (e : WorkEntry η ω) : Option (String × String) :=
  match e.call with
  | .setInstanceKey _ set value => if e.writes id then some (set, value) else none
  | _ => none

/-- An entry that does not write an instance sets no key on it. -/
theorem WorkEntry.key?_eq_none {id : InstanceId} {e : WorkEntry η ω} (h : e.writes id = false) :
    e.key? id = none := by
  unfold key?
  split
  · rw [h]
    rfl
  · rfl

/-- A call that has written a key has put the record it saw with the key set. -/
theorem WorkEntry.write?_of_key? {id : InstanceId} {e : WorkEntry η ω}
    (hkeyed : e.found.instances.Keyed) {k : String × String} (h : e.key? id = some k) :
    ∃ p, e.found.instances.view e.tx id = some p ∧ e.write? = some (.put (p.setKey k.1 k.2)) ∧
      p.id = id := by
  unfold key? at h
  split at h
  · next j set value hcall =>
    split at h
    · next hwrites =>
      cases h
      obtain ⟨w, hwrite, hid⟩ := writes_eq_true.mp hwrites
      have hchange : (e.found.instances.keyChange e.tx j set value).toOption = some w := by
        rw [write?, hcall] at hwrite
        exact hwrite
      unfold InstanceStore.keyChange at hchange
      cases hcurrent : e.found.instances.current e.tx j with
      | error err => simp [hcurrent, Except.toOption] at hchange
      | ok p =>
        simp only [hcurrent, Except.toOption, Option.some.injEq] at hchange
        subst hchange
        have hp : p.id = id := hid
        have hview := InstanceStore.current_eq_ok.mp hcurrent
        have hj : p.id = j := hkeyed.view hview
        exact ⟨p, by rw [← hp, hj, hview], hwrite, hp⟩
    · cases h
  · cases h

namespace Interplay

variable {app : Application η ω} {o : Interplay η ω} {id : InstanceId}

/-- The keys that a transaction has written into the record of an instance, with their correlation
sets, oldest first. -/
def keys (o : Interplay η ω) (tx : TxId) (id : InstanceId) : List (String × String) :=
  (o.entries tx).filterMap (WorkEntry.key? id)

/-- Whether all that a transaction has written of an instance are keys. -/
def OnlyKeys (o : Interplay η ω) (tx : TxId) (id : InstanceId) : Prop :=
  ∀ e ∈ o.entries tx, e.writes id = true → (e.key? id).isSome = true

instance (o : Interplay η ω) (tx : TxId) (id : InstanceId) : Decidable (o.OnlyKeys tx id) :=
  inferInstanceAs (Decidable (∀ e ∈ o.entries tx, _))

/-- An entry adds the key that it sets to those of its transaction. -/
theorem keys_append (o : Interplay η ω) (e : WorkEntry η ω) (c : Cluster η ω) (id : InstanceId) :
    ({ o with cluster := c, log := o.log ++ [e] } : Interplay η ω).keys e.tx id =
      o.keys e.tx id ++ (e.key? id).toList := by
  unfold keys
  rw [entries_append, if_pos rfl, List.filterMap_append]
  cases h : e.key? id <;> simp [h]

/-- A transaction has set only keys if that is so of every entry. -/
theorem onlyKeys_append {e : WorkEntry η ω} {c : Cluster η ω} :
    ({ o with cluster := c, log := o.log ++ [e] } : Interplay η ω).OnlyKeys e.tx id ↔
      o.OnlyKeys e.tx id ∧ (e.writes id = true → (e.key? id).isSome = true) := by
  unfold OnlyKeys
  rw [entries_append, if_pos rfl]
  simp only [List.forall_mem_append, List.forall_mem_singleton]

/-- A transaction that has not written an instance has set none of its keys. -/
theorem keys_eq_nil {tx : TxId} (h : o.base? tx id = none) : o.keys tx id = [] := by
  unfold base? at h
  rw [Option.map_eq_none_iff, List.find?_eq_none] at h
  rw [keys, List.filterMap_eq_nil_iff]
  intro e he
  exact WorkEntry.key?_eq_none (Bool.eq_false_iff.mpr (h e he))

/-! ## What such a transaction sees -/

/-- In the draft of a transaction that has only set keys of an instance stands the record with which
the draft began, with these keys set in it. -/
def KeyDrafts (o : Interplay η ω) : Prop :=
  ∀ tx id p, o.base? tx id = some (some p) → o.OnlyKeys tx id →
    InstanceStore.seen id (some p) (o.writes tx) = some (p.setKeys (o.keys tx id))

namespace KeyDrafts

variable {tx : TxId} {t : Transaction (Callback η)}

/-- Before the first move no keys are drafted. -/
theorem start (c : Cluster η ω) : KeyDrafts (⟨c, [], []⟩ : Interplay η ω) := by
  intro tx id p hbase
  cases hbase

/-- What an open transaction sees of an instance of which it has only set keys, if it has written it
at all. -/
theorem view (h : KeyDrafts o) (hdrafted : Drafted o) (ht : o.cluster.transaction? tx = some t)
    (honly : o.OnlyKeys tx id) {p : ProcessInstance}
    (hbase : (o.base? tx id).getD (o.instance? id) = some p) :
    o.cluster.instances.view tx id = some (p.setKeys (o.keys tx id)) := by
  rw [InstanceStore.view_eq_seen, hdrafted.writes_of_open ht]
  cases hold : o.base? tx id with
  | some base =>
    rw [hold, Option.getD_some] at hbase
    subst hbase
    rw [seen_of_base? hold _ (some p)]
    exact h tx id p hold honly
  | none =>
    rw [hold, Option.getD_none] at hbase
    rw [InstanceStore.seen_of_forall_ne (base?_eq_none.mp hold), keys_eq_nil hold]
    exact hbase

/-- The draft after one more call of an open transaction. -/
theorem worked_own (h : KeyDrafts o) (hdrafted : Drafted o)
    (ht : o.cluster.transaction? tx = some t) {e : WorkEntry η ω} (htx : e.tx = tx)
    (hfound : e.found = o.cluster) {c : Cluster η ω} {p : ProcessInstance}
    (hbase : ({ o with cluster := c, log := o.log ++ [e] } : Interplay η ω).base? tx id =
      some (some p))
    (honly : ({ o with cluster := c, log := o.log ++ [e] } : Interplay η ω).OnlyKeys tx id) :
    InstanceStore.seen id (some p)
        (({ o with cluster := c, log := o.log ++ [e] } : Interplay η ω).writes tx) =
      some (p.setKeys
        (({ o with cluster := c, log := o.log ++ [e] } : Interplay η ω).keys tx id)) := by
  subst htx
  rw [base?_append] at hbase
  obtain ⟨hbefore, hcall⟩ := onlyKeys_append.mp honly
  rw [writes_append, keys_append]
  cases hwrites : e.writes id with
  | false =>
    rw [hwrites, if_neg Bool.false_ne_true, Option.or_none] at hbase
    rw [WorkEntry.key?_eq_none hwrites, Option.toList_none, List.append_nil]
    rw [← h e.tx id p hbase hbefore]
    cases hwrite : e.write? with
    | none => rw [Option.toList_none, List.append_nil]
    | some w =>
      have hne : w.id ≠ id := by
        intro hid
        rw [WorkEntry.writes_eq_true.mpr ⟨w, hwrite, hid⟩] at hwrites
        cases hwrites
      rw [Option.toList_some, InstanceStore.seen_append_singleton, if_neg hne]
  | true =>
    obtain ⟨k, hk⟩ := Option.isSome_iff_exists.mp (hcall hwrites)
    obtain ⟨q, hview, hwrite, hid⟩ := WorkEntry.write?_of_key? (hfound ▸ hdrafted.keyed) hk
    have hbegan : (o.base? e.tx id).getD (o.instance? id) = some p := by
      cases hold : o.base? e.tx id with
      | some base =>
        rw [hold, Option.some_or] at hbase
        exact Option.some.inj hbase
      | none =>
        rw [hold, hwrites, if_pos rfl, Option.none_or, hfound] at hbase
        exact Option.some.inj hbase
    rw [hfound, h.view hdrafted ht hbefore hbegan] at hview
    have hdraft : p.setKeys (o.keys e.tx id) = q := Option.some.inj hview
    have hput : (InstanceWrite.put (q.setKey k.1 k.2)).id = id := hid
    rw [hwrite, hk, Option.toList_some, Option.toList_some, InstanceStore.seen_append_singleton,
      if_pos hput, ProcessInstance.setKeys_append_singleton, hdraft]
    rfl

/-- Transactions that have only set keys see them in their drafts, after every move. -/
theorem step (h : KeyDrafts o) (hdrafted : Drafted o) (m : Move η ω) :
    KeyDrafts (o.step app m) := by
  have houtcome := outcome_step app o m
  generalize o.step app m = p at houtcome
  cases houtcome with
  | @worked own a t ht =>
    intro tx id p hbase honly
    by_cases htx : own = tx
    · exact h.worked_own hdrafted (htx ▸ ht) htx rfl hbase honly
    · rw [base?, entries_append, if_neg htx] at hbase
      rw [OnlyKeys, entries_append, if_neg htx] at honly
      rw [writes, keys, entries_append, if_neg htx]
      exact h tx id p hbase honly
  | idle | refused | begun | departed | before | decided | after | store | registry | elsewhere =>
    exact h

/-- Keys stay drafted over every history. -/
theorem play (h : KeyDrafts o) (ho : Orderly o) (hdrafted : Drafted o) (moves : List (Move η ω)) :
    KeyDrafts (o.play app moves) := by
  have hstep : ∀ (o : Interplay η ω) m, Orderly o ∧ Drafted o ∧ KeyDrafts o →
      Orderly (o.step app m) ∧ Drafted (o.step app m) ∧ KeyDrafts (o.step app m) :=
    fun o m ⟨ho, hdrafted, h⟩ => ⟨ho.step m, hdrafted.step ho m, h.step hdrafted m⟩
  exact (play_induction hstep ⟨ho, hdrafted, h⟩ moves).2.2

end KeyDrafts

/-! ## With what a draft begins -/

section

variable {m : Move η ω} {tx : TxId}

/-- A move leaves alone what a draft began with, or the draft begins with it, with the committed
record of the moment. -/
theorem base?_step (app : Application η ω) (o : Interplay η ω) (m : Move η ω) (tx : TxId)
    (id : InstanceId) :
    (o.step app m).base? tx id = o.base? tx id ∨
      (o.base? tx id = none ∧ (o.step app m).base? tx id = some (o.instance? id)) := by
  have houtcome := outcome_step app o m
  generalize o.step app m = p at houtcome
  cases houtcome with
  | @worked own a t ht =>
    by_cases htx : own = tx
    · subst htx
      have happend := base?_append o ⟨own, a, o.cluster⟩ (a.perform own o.cluster).2 id
      cases hold : o.base? own id with
      | some b =>
        rw [hold, Option.some_or] at happend
        exact .inl happend
      | none =>
        rw [hold, Option.none_or] at happend
        split at happend
        · exact .inr ⟨rfl, happend⟩
        · exact .inl happend
    · rw [base?, entries_append, if_neg htx]
      exact .inl rfl
  | idle | refused | begun | departed | before | decided | after | store | registry | elsewhere =>
    exact .inl rfl

/-- What a draft began with stays what it began with. -/
theorem base?_step_some {b : Option ProcessInstance} (h : o.base? tx id = some b)
    (m : Move η ω) : (o.step app m).base? tx id = some b := by
  rcases base?_step app o m tx id with hsame | ⟨hnone, _⟩
  · rw [hsame, h]
  · rw [h] at hnone
    cases hnone

/-- The base of a transaction stays what it was once the instance has been written. -/
theorem base?_play_some {b : Option ProcessInstance} (h : o.base? tx id = some b)
    (moves : List (Move η ω)) : (o.play app moves).base? tx id = some b :=
  play_induction (P := fun o => o.base? tx id = some b) (fun _ m h => base?_step_some h m) h moves

/-- Whether a move commits a transaction that has written an instance. -/
def touches (id : InstanceId) (o : Interplay η ω) (m : Move η ω) : Bool :=
  (o.commits? m).any fun tx => (o.base? tx id).isSome

/-- Only the commits of transactions that have written an instance change its committed record. -/
theorem instance?_of_not_touches (hdrafted : Drafted o) (h : o.touches id m = false) :
    (o.step app m).instance? id = o.instance? id := by
  rw [instance?_step]
  cases hcommits : o.commits? m with
  | none => rfl
  | some tx =>
    refine Decidable.byContradiction fun hne => ?_
    obtain ⟨_, base, hbase⟩ := hdrafted.base?_of_view hne
    simp [touches, hcommits, hbase] at h

/-- If no transaction that has written the instance commits meanwhile, a draft that begins later
begins with the record that is there now. -/
theorem base?_play_none (ho : Orderly o) (hdrafted : Drafted o) {moves : List (Move η ω)}
    (hquiet : Throughout app (fun o m => o.touches id m = false) o moves)
    (h : o.base? tx id = none) {b : Option ProcessInstance}
    (hb : (o.play app moves).base? tx id = some b) : b = o.instance? id := by
  induction moves generalizing o with
  | nil =>
    have hnone : o.base? tx id = some b := hb
    rw [h] at hnone
    cases hnone
  | cons m rest ih =>
    rw [play_cons] at hb
    cases hnext : (o.step app m).base? tx id with
    | some b' =>
      rw [base?_play_some hnext] at hb
      cases hb
      rcases base?_step app o m tx id with hsame | ⟨_, hbegins⟩
      · rw [hnext, h] at hsame
        cases hsame
      · rw [hnext] at hbegins
        exact Option.some.inj hbegins
    | none =>
      rw [ih (ho.step m) (hdrafted.step ho m) hquiet.2 hnext hb]
      exact instance?_of_not_touches hdrafted hquiet.1

end

/-! ## Two commits -/

/-- A transaction that has set keys of an instance, and written it in no other way, has found it. -/
theorem Drafted.exists_base? (h : Drafted o) {tx : TxId} (honly : o.OnlyKeys tx id)
    (hkeys : o.keys tx id ≠ []) : ∃ p, o.base? tx id = some (some p) := by
  cases hbase : o.base? tx id with
  | none => exact absurd (keys_eq_nil hbase) hkeys
  | some base =>
    cases base with
    | some p => exact ⟨p, rfl⟩
    | none =>
      obtain ⟨e, he, hcreates⟩ := List.any_eq_true.mp (h.created tx id hbase)
      obtain ⟨hwrites, hcall⟩ := Bool.and_eq_true_iff.mp hcreates
      have hkey := honly e he hwrites
      unfold WorkCall.creates at hcall
      unfold WorkEntry.key? at hkey
      cases hwhich : e.call <;> simp [hwhich] at hcall hkey

/-- The commit of a transaction that has only set keys of an instance leaves the record with which
the draft began, with these keys set in it. -/
theorem KeyDrafts.instance?_of_commits (h : KeyDrafts o) (app : Application η ω) (ho : Orderly o)
    (hpledged : Pledged o) {m : Move η ω} {tx : TxId} (hcommits : o.commits? m = some tx)
    (honly : o.OnlyKeys tx id) {p : ProcessInstance} (hbase : o.base? tx id = some (some p)) :
    (o.step app m).instance? id = some (p.setKeys (o.keys tx id)) := by
  obtain ⟨i, d, rest, rfl, hd, hround⟩ := commits?_eq_some.mp hcommits
  have hin := List.mem_of_getElem? hd
  have hown := ho.applyWrites_own hin (ho.mem_after hin hround)
  have hwill : d.willApply = true := by
    rw [Departure.willApply, hround]
    rfl
  rw [instance?_step, hcommits]
  show o.cluster.instances.view tx id = _
  rw [InstanceStore.view_eq_seen, hpledged.pending tx ⟨d, hin, hown.symm, hwill⟩,
    seen_of_base? hbase _ (some p)]
  exact h tx id p hbase honly

/-- In a history of any number of overlapping transactions, let two that have only set keys of an
instance, in different correlation sets, commit one after the other. After the first commit the
instance carries the keys of the first one, and after the second commit those of the second one.
Those of the first one are still there exactly if the record with which the draft of the second one
began carries them. That record is the one that the second one found when it first wrote the
instance: if it did so before the first commit, one without that commit; if it did so afterwards,
and no other transaction committed a write of the instance in between, the one that the first commit
left, so that all keys are there. -/
theorem keys_outlast_iff (app : Application η ω) {c : Cluster η ω} (hc : c.AtRest)
    (hstaged : ∀ tx, c.instances.isOpen tx = false) (before between : List (Move η ω))
    (m n : Move η ω) (id : InstanceId) (first second : TxId) :
    let o := (⟨c, [], []⟩ : Interplay η ω).play app before
    let o' := (o.step app m).play app between
    o.commits? m = some first → o.OnlyKeys first id → o.keys first id ≠ [] →
    o'.commits? n = some second → o'.OnlyKeys second id → o'.keys second id ≠ [] →
    (∀ k ∈ o.keys first id, ∀ l ∈ o'.keys second id, k.1 ≠ l.1) →
    ∃ p q r, (o.step app m).instance? id = some p ∧ p.Carries (o.keys first id) ∧
      o'.base? second id = some (some q) ∧
      (o'.step app n).instance? id = some r ∧ r.Carries (o'.keys second id) ∧
      (r.Carries (o.keys first id) ↔ q.Carries (o.keys first id)) ∧
      (∀ b, o.base? second id = some b → b = some q) ∧
      (o.base? second id = none →
        Throughout app (fun o m => o.touches id m = false) (o.step app m) between →
        q = p ∧ r.Carries (o.keys first id)) := by
  intro o o' hfirst hfirstOnly hfirstKeys hsecond hsecondOnly hsecondKeys hapart
  have ho : Orderly o := .play hc before
  have hdrafted : Drafted o := .play hc before
  have hpledged : Pledged o := (Pledged.start hstaged).play (.start hc) (.start hc) before
  have hkeys : KeyDrafts o := (KeyDrafts.start c).play (.start hc) (.start hc) before
  have ho₁ : Orderly (o.step app m) := ho.step m
  have hdrafted₁ : Drafted (o.step app m) := hdrafted.step ho m
  have hdrafted' : Drafted o' := (play_induction (P := fun o => Orderly o ∧ Drafted o)
    (fun o m h => ⟨h.1.step m, h.2.step h.1 m⟩) ⟨ho₁, hdrafted₁⟩ between).2
  have ho' : Orderly o' := play_induction (fun _ m h => h.step m) ho₁ between
  have hpledged' : Pledged o' :=
    (hpledged.step ho hdrafted m).play ho₁ hdrafted₁ between
  have hkeys' : KeyDrafts o' := (hkeys.step hdrafted m).play ho₁ hdrafted₁ between
  obtain ⟨b, hb⟩ := hdrafted.exists_base? hfirstOnly hfirstKeys
  obtain ⟨q, hq⟩ := hdrafted'.exists_base? hsecondOnly hsecondKeys
  have hp := hkeys.instance?_of_commits app ho hpledged hfirst hfirstOnly hb
  have hr := hkeys'.instance?_of_commits app ho' hpledged' hsecond hsecondOnly hq
  have houtlast := ProcessInstance.carries_setKeys_iff (p := q) hapart
  refine ⟨_, q, _, hp, b.carries_setKeys _, hq, hr, q.carries_setKeys _, houtlast, ?_, ?_⟩
  · intro base hbase
    have hlater : o'.base? second id = some base :=
      base?_play_some (base?_step_some hbase m) between
    rw [hq] at hlater
    exact (Option.some.inj hlater).symm
  · intro hnone hquiet
    have hstill : (o.step app m).base? second id = none := by
      obtain ⟨i, d, rest, rfl, hd, hround⟩ := commits?_eq_some.mp hfirst
      rw [step_concluding hd hround]
      exact hnone
    have hsame := base?_play_none ho₁ hdrafted₁ hquiet hstill hq
    rw [hp] at hsame
    cases hsame
    exact ⟨rfl, houtlast.mpr (b.carries_setKeys _)⟩

/-- A transaction creates an instance and commits it; then two others begin. The first one sets a
key of the instance and is on the point of committing it; the second one sets a key before that, if
it is told to. -/
def keysSet (early : List (Move Unit Unit)) : List (Move Unit Unit) :=
  [.begin "a" .main, .work ⟨0⟩ (.createInstance sample), .depart ⟨0⟩ .main .commit, .advance 0,
    .advance 0, .begin "a" (.named "s"), .begin "a" (.named "t"),
    .work ⟨1⟩ (.setInstanceKey ⟨"p"⟩ "a" "1")] ++ early ++
    [.depart ⟨1⟩ (.named "s") .commit, .advance 1]

/-- The second transaction sets a key of another set. -/
def otherKey : Move Unit Unit := .work ⟨2⟩ (.setInstanceKey ⟨"p"⟩ "b" "2")

/-- The second transaction is on the point of committing. -/
def secondEnds : List (Move Unit Unit) := [.depart ⟨2⟩ (.named "t") .commit, .advance 2]

/-- If the second transaction sets its key after the first one has committed, both keys are there. -/
theorem keys_outlast_iff_late :
    let o := playBlank (keysSet [])
    let o' := (o.step .silent (.advance 1)).play .silent (otherKey :: secondEnds)
    ∃ r, (o'.step .silent (.advance 2)).instance? ⟨"p"⟩ = some r ∧ r.Carries [("a", "1")] ∧
      r.Carries [("b", "2")] := by
  obtain ⟨p, q, r, _, _, _, hr, hsecond, _, _, hlate⟩ :=
    keys_outlast_iff .silent Cluster.atRest_blank (fun _ => rfl) (keysSet [])
      (otherKey :: secondEnds) (.advance 1) (.advance 2) ⟨"p"⟩ ⟨1⟩ ⟨2⟩ rfl (by decide) (by decide)
      rfl (by decide) (by decide) (by decide)
  exact ⟨r, hr, (hlate rfl (by decide)).2, hsecond⟩

/-- If the second transaction sets its key before the first one commits, both set their keys and
commit, and the key of the first one is lost. -/
theorem key_lost :
    let o := playBlank (keysSet [otherKey])
    let o' := (o.step .silent (.advance 1)).play .silent secondEnds
    o.commits? (.advance 1) = some ⟨1⟩ ∧ o.OnlyKeys ⟨1⟩ ⟨"p"⟩ ∧
      o.keys ⟨1⟩ ⟨"p"⟩ = [("a", "1")] ∧
      o'.commits? (.advance 2) = some ⟨2⟩ ∧ o'.OnlyKeys ⟨2⟩ ⟨"p"⟩ ∧
      o'.keys ⟨2⟩ ⟨"p"⟩ = [("b", "2")] ∧
      (o'.step .silent (.advance 2)).instance? ⟨"p"⟩ =
        some { sample with correlationKeys := (∅ : Table String String).insert "b" "2" } := by
  refine ⟨?_, ?_, ?_, ?_, ?_, ?_, ?_⟩
  · rfl
  · decide
  · rfl
  · rfl
  · decide
  · rfl
  · rfl

end Interplay

end JobCluster
