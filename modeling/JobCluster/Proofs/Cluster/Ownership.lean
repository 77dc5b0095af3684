import JobCluster.Proofs.Cluster.Bookkeeping
/-!
# Owners and outcomes

Every node knows which thread owns which of its transactions, and the resource manager that all
nodes share counts how many transactions begin, commit and roll back. A thread owns a transaction
from its beginning until its outcome is decided, whichever thread calls for the end of it and
whatever else begins and ends meanwhile.

Main results:

- `Interplay.turn_step`: a move begins a transaction, decides the outcome of one, or does neither;
- `Interplay.Accounts.step`, `Interplay.Accounts.play`: owners and counts agree with what has begun
  and what has been decided;
- `Interplay.owned_play`: who owns what after every history, and how the counts add up.
-/

namespace JobCluster

variable {η ω : Type}

/-! ## Owners and counts -/

/-- A transaction with the node and the thread that it began on. -/
@[ext]
structure Tenure where
  node : NodeName
  thread : Thread
  tx : TxId
  deriving DecidableEq, Repr

/-- The node and the thread that a transaction began on. -/
def Transaction.tenure {κ : Type} (t : Transaction κ) : Tenure := ⟨t.node, t.owner, t.id⟩

namespace Cluster

/-- The transaction that a thread owns on a node. -/
def owned? (c : Cluster η ω) (n : NodeName) (thread : Thread) : Option TxId :=
  (c.node n).manager.active? thread

/-- Whether the owners of transactions and the counts of the resource manager are the same. -/
structure SameAccounts (c d : Cluster η ω) : Prop where
  owned : ∀ n thread, d.owned? n thread = c.owned? n thread
  begun : d.resource.begun = c.resource.begun
  committed : d.resource.committed = c.resource.committed
  rolledBack : d.resource.rolledBack = c.resource.rolledBack

/-- A cluster in which no thread owns a transaction, and every transaction that has begun has been
counted a second time at its end. -/
structure Balanced (c : Cluster η ω) : Prop where
  owned : ∀ n thread, c.owned? n thread = none
  counts : c.resource.begun = c.resource.committed + c.resource.rolledBack

/-- The counts of the blank cluster add up. -/
theorem balanced_blank : blank.Balanced where
  owned _ _ := rfl
  counts := rfl

variable {c d e : Cluster η ω}

namespace SameAccounts

theorem refl (c : Cluster η ω) : c.SameAccounts c :=
  ⟨fun _ _ => rfl, rfl, rfl, rfl⟩

/-- Owners and counts that are kept twice are kept. -/
theorem trans (h : c.SameAccounts d) (h' : d.SameAccounts e) : c.SameAccounts e where
  owned n thread := (h'.owned n thread).trans (h.owned n thread)
  begun := h'.begun.trans h.begun
  committed := h'.committed.trans h.committed
  rolledBack := h'.rolledBack.trans h.rolledBack

/-- A change of a node that keeps off its transaction manager. -/
theorem modifyNode (c : Cluster η ω) (n : NodeName) {f : Node η → Node η}
    (hf : (f (c.node n)).manager = (c.node n).manager) : c.SameAccounts (c.modifyNode n f) := by
  refine ⟨fun m thread => ?_, rfl, rfl, rfl⟩
  unfold owned?
  rw [node_modifyNode]
  by_cases hnm : n = m
  · rw [if_pos hnm, hf, hnm]
  · rw [if_neg hnm]

theorem modifyRegistry (c : Cluster η ω) (n : NodeName) (f : Registry → Registry) :
    c.SameAccounts (c.modifyRegistry n f) :=
  modifyNode c n (f := fun x => { x with registry := f x.registry }) rfl

theorem modifyTodo (c : Cluster η ω) (n : NodeName) (f : TodoQueue → TodoQueue) :
    c.SameAccounts (c.modifyTodo n f) :=
  modifyNode c n (f := fun x =>
    { x with scheduler := { x.scheduler with todo := f x.scheduler.todo } }) rfl

/-- What is announced of instances touches neither owners nor counts. -/
theorem announce (app : Application η ω) (events : List InstanceEvent) (c : Cluster η ω) :
    c.SameAccounts (announce app events c) :=
  announce_induction (P := c.SameAccounts) app (fun d n f hd => hd.trans (.modifyRegistry d n f))
    (fun _ _ hd => hd.trans ⟨fun _ _ => rfl, rfl, rfl, rfl⟩) events c (.refl c)

/-- Callbacks of the parts of a cluster begin and end nothing. -/
theorem carryOut (app : Application η ω) (thread : Thread) (phase : Phase) (c : Cluster η ω)
    (callback : Callback η) : c.SameAccounts (c.carryOut app thread phase callback) := by
  cases callback with
  | publish n plan =>
      simp only [Cluster.carryOut, runCallback, settleStaged, enqueuePublished]
      have hjobs : ∀ jobs, c.SameAccounts { c with jobs } :=
        fun _ => ⟨fun _ _ => rfl, rfl, rfl, rfl⟩
      split
      · split
        · exact .refl c
        · split
          · dsimp only
            exact (hjobs _).trans (.modifyTodo _ n _)
          · exact hjobs _
      · exact hjobs _
  | queue n info =>
      simp only [Cluster.carryOut, runCallback, enqueueVolatile]
      exact .modifyTodo c n _
  | drop n j armed =>
      cases armed with
      | false => exact .refl c
      | true =>
          show c.SameAccounts (c.dropClaimed n j).2
          rw [c.dropClaimed_snd n j]
          exact ⟨fun _ _ => rfl, rfl, rfl, rfl⟩
  | applyWrites tx =>
      simp only [Cluster.carryOut, runCallback, completeWrites]
      have hinstances : ∀ instances, c.SameAccounts { c with instances } :=
        fun _ => ⟨fun _ _ => rfl, rfl, rfl, rfl⟩
      exact (hinstances _).trans (.announce app _ _)
  | withdraw n j => exact .modifyRegistry c n _
  | custom script => exact .refl c

end SameAccounts

/-- A transaction that cannot begin leaves the owners, the counts and the open transactions as they
are. -/
theorem begin_refused {n : NodeName} {thread : Thread} {f : TxError}
    (h : c.begin n thread = (.error f, d)) :
    c.SameAccounts d ∧ d.transactions = c.transactions := by
  simp only [begin] at h
  split at h
  · obtain ⟨_, rfl⟩ := Prod.mk.inj h
    exact ⟨⟨fun _ _ => rfl, rfl, rfl, rfl⟩, rfl⟩
  · split at h
    · next resource hbegin =>
      obtain ⟨_, rfl⟩ := Prod.mk.inj h
      have hresource : resource = { c.resource with refusesBegin := false } := by
        unfold ResourceManager.begin at hbegin
        split at hbegin
        · exact (Prod.mk.inj hbegin).2.symm
        · cases hbegin
      subst hresource
      exact ⟨⟨fun _ _ => rfl, rfl, rfl, rfl⟩, rfl⟩
    · cases h

/-- What becomes of owners and counts where a transaction begins: its thread owned none, owns it
from then on, and it is counted. -/
structure Engages (c : Cluster η ω) (x : Tenure) (d : Cluster η ω) : Prop where
  free : c.owned? x.node x.thread = none
  owned : ∀ n thread, d.owned? n thread =
    if n = x.node ∧ thread = x.thread then some x.tx else c.owned? n thread
  begun : d.resource.begun = c.resource.begun + 1
  committed : d.resource.committed = c.resource.committed
  rolledBack : d.resource.rolledBack = c.resource.rolledBack

/-- A transaction that begins belongs to its thread from then on, and is open. -/
theorem begin_accepted {n : NodeName} {thread : Thread} {tx : TxId}
    (h : c.begin n thread = (.ok tx, d)) :
    c.Engages ⟨n, thread, tx⟩ d ∧ ∃ t : Transaction (Callback η), t.tenure = ⟨n, thread, tx⟩ ∧
      ∀ other, d.transaction? other = if other = tx then some t else c.transaction? other := by
  simp only [begin] at h
  split at h
  · cases h
  · next manager hclaim =>
    split at h
    · cases h
    · next resource hbegin =>
      obtain ⟨_, rfl⟩ := (ResourceManager.begin_eq_ok_iff _ _ _).mp hbegin
      obtain ⟨htx, rfl⟩ := Prod.mk.inj h
      obtain rfl := Except.ok.inj htx
      have hfree : c.owned? n thread = none := by
        unfold TxManager.claim at hclaim
        split at hclaim
        · cases hclaim
        · next hnone => exact hnone
      let t : Transaction (Callback η) :=
        { id := ⟨c.nextTx⟩, node := n, owner := thread, timeout := manager.timeout thread }
      refine ⟨⟨hfree, fun m other => ?_, rfl, rfl, rfl⟩, t, rfl, fun other => ?_⟩
      · unfold owned? modifyManager
        rw [node_modifyNode]
        by_cases hnm : n = m
        · subst hnm
          rw [if_pos rfl]
          simp only [true_and, eq_comm (a := other)]
          exact TxManager.active?_claim hclaim other
        · rw [if_neg hnm, if_neg fun hboth => hnm hboth.1.symm]
          rfl
      · simp only [transaction?, transactions_modifyNode, modifyManager, Table.get?_insert]
        by_cases hother : other = ⟨c.nextTx⟩
        · rw [if_pos hother, if_pos hother.symm]
        · rw [if_neg hother, if_neg (Ne.symm hother)]

/-- What becomes of owners and counts where the outcome of a transaction is decided: its thread owns
it no longer, and it is counted once more. -/
structure Settles (c : Cluster η ω) (x : Tenure) (d : Cluster η ω) : Prop where
  owned : ∀ n thread, d.owned? n thread =
    if n = x.node ∧ thread = x.thread ∧ c.owned? n thread = some x.tx then none
    else c.owned? n thread
  begun : d.resource.begun = c.resource.begun
  ended : d.resource.committed + d.resource.rolledBack =
    c.resource.committed + c.resource.rolledBack + 1

/-- A transaction that leaves is counted once, and owned no longer. -/
theorem settles_leave (app : Application η ω) (thread : Thread) (t : Transaction (Callback η))
    {resource : ResourceManager} (hbegun : resource.begun = c.resource.begun)
    (hended : resource.committed + resource.rolledBack =
      c.resource.committed + c.resource.rolledBack + 1) :
    c.Settles t.tenure ((surroundings app thread).leave t { c with resource }) := by
  refine ⟨fun n other => ?_, hbegun, hended⟩
  have hleave : ((surroundings app thread).leave t { c with resource }).owned? n other =
      if t.node = n then ((c.node t.node).manager.release t.owner t.id).active? other
      else c.owned? n other := by
    unfold owned? surroundings modifyManager
    simp only
    rw [node_modifyNode]
    by_cases hnode : t.node = n
    · rw [if_pos hnode, if_pos hnode]
      rfl
    · rw [if_neg hnode, if_neg hnode]
      rfl
  rw [hleave]
  by_cases hnode : t.node = n
  · subst hnode
    rw [if_pos rfl, TxManager.active?_release]
    by_cases howner : other = t.owner
    · subst howner
      simp [Transaction.tenure, owned?]
    · simp [Transaction.tenure, owned?, howner]
  · rw [if_neg hnode, if_neg fun hall => hnode hall.1.symm]

/-- A rollback is counted, and a commit is counted unless it is refused. -/
theorem settles_rollback (app : Application η ω) (thread : Thread) (t : Transaction (Callback η))
    (c : Cluster η ω) :
    c.Settles t.tenure ((surroundings app thread).leave t
      ((surroundings app thread).rollbackResource t.id c).2) := by
  have hcounted : c.resource.rollback.2 =
      { c.resource with rolledBack := c.resource.rolledBack + 1, refusesRollback := false } := by
    unfold ResourceManager.rollback
    split <;> rfl
  have hrolled : ((surroundings app thread).rollbackResource t.id c).2 =
      { c with resource := c.resource.rollback.2 } := rfl
  rw [hrolled, hcounted]
  exact settles_leave app thread t rfl (Nat.add_assoc _ _ _).symm

end Cluster

namespace WorkCall.Effect

variable {tx : TxId} {c d : Cluster η ω} {a : WorkCall η} {answer : WorkAnswer}
  {registered : List (Synchronizer (Callback η))}

/-- The calls of a transaction begin and end nothing. -/
theorem sameAccounts (h : Effect tx c a answer registered d) : c.SameAccounts d := by
  cases h with
  | @created n id direction slot registry _ =>
      have hregistry := Cluster.SameAccounts.modifyRegistry c n fun _ => registry
      exact hregistry.trans ⟨fun _ _ => rfl, rfl, rfl, rfl⟩
  | written _ _ _ =>
      unfold Cluster.stageWrite
      split <;> exact ⟨fun _ _ => rfl, rfl, rfl, rfl⟩
  | refusal what => cases what <;> exact ⟨fun _ _ => rfl, rfl, rfl, rfl⟩
  | staged | unstaged | planned | claimed | released | registered | marked | availability
  | failed => exact ⟨fun _ _ => rfl, rfl, rfl, rfl⟩

/-- A transaction that makes a call is open from then on under the node and the thread that it began
on. -/
theorem tenure (h : Effect tx c a answer registered d) {t : Transaction (Callback η)}
    (ht : c.transaction? tx = some t) :
    ∃ t', d.transaction? tx = some t' ∧ t'.tenure = t.tenure := by
  have hmodify : ∀ (e : Cluster η ω) f, e.transactions = c.transactions →
      (∀ s : Transaction (Callback η), (f s).tenure = s.tenure) →
      ∃ t', (e.modifyTransaction tx f).transaction? tx = some t' ∧ t'.tenure = t.tenure := by
    intro e f he hf
    refine ⟨f t, ?_, hf t⟩
    rw [Cluster.transaction?_modifyTransaction, if_pos rfl, Cluster.transaction?, he]
    exact congrArg _ ht
  cases h with
  | staged | planned | created | claimed | registered => exact hmodify _ _ rfl fun _ => rfl
  | released | marked => exact hmodify _ _ rfl fun _ => rfl
  | written _ _ _ =>
      unfold Cluster.stageWrite
      split
      · exact ⟨t, ht, rfl⟩
      · exact hmodify _ _ rfl fun _ => rfl
  | unstaged | availability | refusal | failed => exact ⟨t, ht, rfl⟩

end WorkCall.Effect

/-! ## What moves begin and decide -/

namespace Departure

/-- Whether the outcome of a transaction on its way out is still to be decided. -/
def isPreparing (d : Departure η) : Bool :=
  match d.round with
  | .preparing _ => true
  | .concluding _ _ => false

/-- A transaction that cannot commit is rolled back when its end is called for. -/
theorem settles_first (app : Application η ω) (thread : Thread) (tx : TxId)
    {request : Transaction.Request} {t : Transaction (Callback η)} (c : Cluster η ω)
    (h : t.reachesCommit request = false) :
    c.Settles t.tenure (first app thread tx request t c).2 ∧
      (first app thread tx request t c).2.transactions = c.transactions.erase tx ∧
      (first app thread tx request t c).1 = .concluding false (t.callbacks (.after false)) := by
  unfold first
  simp only [h, Bool.false_eq_true, if_false]
  have hsettles := Cluster.settles_rollback app thread t
    { c with transactions := c.transactions.erase tx }
  exact ⟨⟨hsettles.owned, hsettles.begun, hsettles.ended⟩, rfl, trivial⟩

/-- A transaction that is ready to commit does so, unless it is refused and rolled back. -/
theorem settles_next (app : Application η ω) {d : Departure η} (c : Cluster η ω)
    (h : d.round = .preparing []) :
    c.Settles d.transaction.tenure (d.next app c).2 ∧
      (d.next app c).2.transactions = c.transactions ∧
      (d.next app c).1 = .concluding (!c.resource.refusesCommit)
        (d.transaction.callbacks (.after (!c.resource.refusesCommit))) := by
  have hcommit : (Cluster.surroundings app d.thread).commitResource d.transaction.id c =
      ((c.resource.commit d.transaction.id).1,
        { c with resource := (c.resource.commit d.transaction.id).2 }) := rfl
  unfold next
  simp only [h, hcommit, ResourceManager.commit]
  cases hrefuses : c.resource.refusesCommit with
  | true =>
      have hsettles := Cluster.settles_rollback app d.thread d.transaction
        { c with resource := { c.resource with refusesCommit := false } }
      exact ⟨⟨hsettles.owned, hsettles.begun, hsettles.ended⟩, rfl, rfl⟩
  | false =>
      exact ⟨Cluster.settles_leave app d.thread d.transaction rfl (Nat.add_right_comm _ _ _), rfl,
        rfl⟩

/-- A transaction that departs is open no longer, and all others stay open. -/
theorem transactions_first (app : Application η ω) (thread : Thread) (tx : TxId)
    (request : Transaction.Request) (t : Transaction (Callback η)) (c : Cluster η ω) :
    (first app thread tx request t c).2.transactions = c.transactions.erase tx := by
  cases hreaches : t.reachesCommit request with
  | true => simp only [first, hreaches, if_true]
  | false => exact (settles_first app thread tx c hreaches).2.1

/-- A transaction on its way out opens none and takes none out. -/
theorem transactions_next (app : Application η ω) (d : Departure η) (c : Cluster η ω) :
    (d.next app c).2.transactions = c.transactions := by
  have hcarried : ∀ phase callback,
      (c.carryOut app d.thread phase callback).transactions = c.transactions :=
    fun phase callback => (c.carryOut_frame app d.thread phase callback).1
  cases hround : d.round with
  | preparing rest =>
      cases rest with
      | nil => exact (settles_next app c hround).2.1
      | cons callback rest =>
          simp only [next, hround]
          exact hcarried .before callback
  | concluding committed rest =>
      simp only [next, hround]
      cases rest with
      | nil => rfl
      | cons callback rest => exact hcarried (.after committed) callback

end Departure

namespace Interplay

variable {app : Application η ω} {o p : Interplay η ω} {m : Move η ω}

/-- The transaction that a move begins. -/
def tenure? (o : Interplay η ω) : Move η ω → Option Tenure
  | .begin n thread => (o.cluster.begin n thread).1.toOption.map fun tx => ⟨n, thread, tx⟩
  | .work _ _ | .depart _ _ _ | .advance _ | .store _ | .registry _ _ | .elsewhere _ => none

/-- The transaction whose outcome a move decides: its end is called for and it cannot commit, or the
resource manager is asked to commit it. -/
def decides? (o : Interplay η ω) : Move η ω → Option TxId
  | .depart tx _ request =>
    (o.cluster.transaction? tx).bind fun t =>
      if t.reachesCommit request then none else some tx
  | .advance i =>
    o.departures[i]?.bind fun d =>
      match d.round with
      | .preparing [] => some d.tx
      | .preparing (_ :: _) | .concluding _ _ => none
  | .begin _ _ | .work _ _ | .store _ | .registry _ _ | .elsewhere _ => none

/-- The transactions that begin in a history. -/
def begun (app : Application η ω) : Interplay η ω → List (Move η ω) → List Tenure
  | _, [] => []
  | o, m :: rest => (o.tenure? m).toList ++ begun app (o.step app m) rest

/-- The transactions whose outcomes are decided in a history. -/
def decided (app : Application η ω) : Interplay η ω → List (Move η ω) → List TxId
  | _, [] => []
  | o, m :: rest => (o.decides? m).toList ++ decided app (o.step app m) rest

/-- Whether a move, as far as it is none of a transaction, leaves owners and counts alone. -/
def LeavesAccounts (o : Interplay η ω) : Move η ω → Prop
  | .elsewhere what => o.cluster.SameAccounts (what.change o.cluster)
  | .begin _ _ | .work _ _ | .depart _ _ _ | .advance _ | .store _ | .registry _ _ => True

/-- Whether a transaction is open or gets ready to commit. -/
def Undecided (o : Interplay η ω) (x : Tenure) : Prop :=
  o.InPlay x.tx (fun t => t.tenure = x)
    fun d => d.isPreparing = true ∧ d.transaction.tenure = x

/-- Whether every transaction is kept under its own identifier. -/
structure Named (o : Interplay η ω) : Prop where
  opened : ∀ tx t, o.cluster.transaction? tx = some t → t.id = tx
  departed : ∀ d ∈ o.departures, d.transaction.id = d.tx

/-- What a move means to the owners of transactions and to the counts. -/
inductive Turn (o : Interplay η ω) (m : Move η ω) (p : Interplay η ω) : Prop
  | kept (htenure : o.tenure? m = none) (hdecides : o.decides? m = none)
      (haccounts : o.cluster.SameAccounts p.cluster)
      (hundecided : ∀ x, p.Undecided x ↔ o.Undecided x)
  | begun (x : Tenure) (htenure : o.tenure? m = some x) (hdecides : o.decides? m = none)
      (hnumber : x.tx = ⟨o.cluster.nextTx⟩) (hnext : p.cluster.nextTx = o.cluster.nextTx + 1)
      (haccounts : o.cluster.Engages x p.cluster)
      (hundecided : ∀ y, p.Undecided y ↔ o.Undecided y ∨ y = x)
  | decided (x : Tenure) (htenure : o.tenure? m = none) (hdecides : o.decides? m = some x.tx)
      (hx : o.Undecided x) (haccounts : o.cluster.Settles x p.cluster)
      (hundecided : ∀ y, p.Undecided y ↔ o.Undecided y ∧ y.tx ≠ x.tx)

/-- What is undecided depends on the open and the departing transactions alone. -/
theorem undecided_congr {c : Cluster η ω} (h : c.transactions = o.cluster.transactions)
    (x : Tenure) : ({ o with cluster := c } : Interplay η ω).Undecided x ↔ o.Undecided x := by
  unfold Undecided InPlay Cluster.transaction?
  rw [h]

/-- A move that reaches no transaction on its way out, and neither opens one nor takes one out. -/
theorem Turn.of_sameAccounts {c : Cluster η ω} (htenure : o.tenure? m = none)
    (hdecides : o.decides? m = none) (haccounts : o.cluster.SameAccounts c)
    (htransactions : c.transactions = o.cluster.transactions) :
    Turn o m { o with cluster := c } :=
  .kept htenure hdecides haccounts (undecided_congr htransactions)

/-- A begin is refused and changes nothing, or a new transaction is undecided from then on. -/
theorem turn_begin (ho : Orderly o) (app : Application η ω) (n : NodeName) (thread : Thread) :
    Turn o (.begin n thread) (o.step app (.begin n thread)) := by
  simp only [step]
  rcases hbegin : o.cluster.begin n thread with ⟨f | tx, c⟩
  · obtain ⟨haccounts, htransactions⟩ := Cluster.begin_refused hbegin
    exact .of_sameAccounts (by simp [tenure?, hbegin, Except.toOption]) rfl haccounts htransactions
  · obtain ⟨hengages, t, ht, htransaction⟩ := Cluster.begin_accepted hbegin
    have hbegun := Cluster.begin_eq_ok hbegin
    have hnumber := hbegun.number
    refine .begun ⟨n, thread, tx⟩ (by simp [tenure?, hbegin, Except.toOption]) rfl hnumber
      hbegun.nextTx hengages fun y => ?_
    have hfresh : o.cluster.transaction? tx = none := by
      cases hopen : o.cluster.transaction? tx with
      | none => rfl
      | some t' =>
          have hlt := ho.openedNumber tx t' hopen
          rw [hnumber] at hlt
          exact absurd hlt (Nat.lt_irrefl _)
    unfold Undecided InPlay
    simp only [htransaction]
    by_cases hy : y.tx = tx
    · rw [if_pos hy, hy, hfresh]
      constructor
      · rintro (⟨t', ht', rfl⟩ | hdeparts)
        · cases ht'
          exact .inr ht
        · exact .inl (.inr hdeparts)
      · rintro ((⟨t', ht', _⟩ | hdeparts) | rfl)
        · cases ht'
        · exact .inr hdeparts
        · exact .inl ⟨t, rfl, ht⟩
    · rw [if_neg hy]
      constructor
      · exact .inl
      · rintro (hold | rfl)
        · exact hold
        · exact absurd rfl hy

/-- Work in a transaction decides nothing, and the transaction keeps its owner. -/
theorem turn_work (app : Application η ω) (o : Interplay η ω) (tx : TxId) (a : WorkCall η) :
    Turn o (.work tx a) (o.step app (.work tx a)) := by
  simp only [step]
  cases ht : o.cluster.transaction? tx with
  | none => exact .kept rfl rfl (.refl _) fun _ => .rfl
  | some t =>
      have heffect := a.effect_perform tx o.cluster
      refine .kept rfl rfl heffect.sameAccounts fun x => ?_
      unfold Undecided InPlay
      simp only
      by_cases hx : x.tx = tx
      · obtain ⟨t', ht', htenure⟩ := heffect.tenure ht
        rw [hx, ht', ht]
        simp [htenure]
      · rw [heffect.others hx]

/-- A transaction that departs without a commit is decided at once; one that asks for a commit is
not yet. -/
theorem turn_depart (ho : Orderly o) (hnamed : Named o) (app : Application η ω) (tx : TxId)
    (thread : Thread) (request : Transaction.Request) :
    Turn o (.depart tx thread request) (o.step app (.depart tx thread request)) := by
  simp only [step]
  cases ht : o.cluster.transaction? tx with
  | none => exact .kept rfl (by simp [decides?, ht]) (.refl _) fun _ => .rfl
  | some t =>
      have hid : t.tenure.tx = tx := hnamed.opened tx t ht
      cases hreaches : t.reachesCommit request with
      | false =>
          obtain ⟨hsettles, herased, hround⟩ :=
            Departure.settles_first app thread tx o.cluster hreaches
          refine .decided t.tenure rfl (by simp [decides?, ht, hreaches, hid])
            (.inl ⟨t, by rw [hid, ht], rfl⟩) hsettles fun x => ?_
          rw [Undecided, ho.inPlay_depart ht herased rfl, hround, hid]
          by_cases hx : x.tx = tx <;> simp [hx, Departure.isPreparing, Undecided]
      | true =>
          have hfirst : Departure.first app thread tx request t o.cluster =
              (.preparing (t.callbacks .before),
                { o.cluster with transactions := o.cluster.transactions.erase tx }) := by
            simp only [Departure.first, hreaches, if_true]
          simp only [hfirst]
          refine .kept rfl (by simp [decides?, ht, hreaches]) ⟨fun _ _ => rfl, rfl, rfl, rfl⟩
            fun x => ?_
          rw [Undecided, ho.inPlay_depart ht rfl rfl]
          by_cases hx : x.tx = tx
          · rw [if_pos hx, Undecided, hx, ho.inPlay_of_open ht]
            simp [Departure.isPreparing]
          · rw [if_neg hx, Undecided]

/-- A step of a transaction on its way out that decides nothing, and neither begins nor ends
anything else. -/
theorem Turn.of_moveTo (ho : Orderly o) {i : Nat} {d : Departure η}
    (hd : o.departures[i]? = some d) {round : Round η} {c : Cluster η ω}
    (haccounts : o.cluster.SameAccounts c) (htransactions : c.transactions = o.cluster.transactions)
    (hne : d.round ≠ .preparing []) (hpreparing : (d.moveTo round).isPreparing = d.isPreparing) :
    Turn o (.advance i) { o with
      cluster := c
      departures := o.departures.set i (d.moveTo round) } := by
  refine .kept rfl ?_ haccounts fun x => ?_
  · simp only [decides?, hd, Option.bind_some]
    split
    · next hround => exact absurd hround hne
    · rfl
    · rfl
  · rw [Undecided, ho.inPlay_moveTo hd htransactions, hpreparing]
    by_cases hx : x.tx = d.tx
    · rw [if_pos hx, Undecided, hx, ho.inPlay_of_departure (List.mem_of_getElem? hd),
        Departure.transaction_moveTo]
    · rw [if_neg hx, Undecided]

/-- The step at which the resource manager is asked to commit decides the outcome. -/
theorem turn_settles (ho : Orderly o) (hnamed : Named o) (app : Application η ω) {i : Nat}
    {d : Departure η} (hd : o.departures[i]? = some d) (hround : d.round = .preparing []) :
    Turn o (.advance i) { o with
      cluster := (d.next app o.cluster).2
      departures := o.departures.set i (d.moveTo (d.next app o.cluster).1) } := by
  have hin : d ∈ o.departures := List.mem_of_getElem? hd
  have hid : d.transaction.tenure.tx = d.tx := hnamed.departed d hin
  have hundecided : o.Undecided d.transaction.tenure := by
    rw [Undecided, hid, ho.inPlay_of_departure hin]
    exact ⟨by simp [Departure.isPreparing, hround], rfl⟩
  obtain ⟨hsettles, htransactions, hnext⟩ := Departure.settles_next app o.cluster hround
  refine .decided d.transaction.tenure rfl (by simp [decides?, hd, hround, hid]) hundecided
    hsettles fun x => ?_
  simp only [hnext]
  rw [Undecided, ho.inPlay_moveTo hd htransactions, hid]
  by_cases hx : x.tx = d.tx <;> simp [hx, Departure.isPreparing, Undecided]

/-- A step on the way out decides nothing, but the one that asks the resource manager to commit. -/
theorem turn_advance (ho : Orderly o) (hnamed : Named o) (app : Application η ω) (i : Nat) :
    Turn o (.advance i) (o.step app (.advance i)) := by
  simp only [step]
  cases hd : o.departures[i]? with
  | none => exact .kept rfl (by simp [decides?, hd]) (.refl _) fun _ => .rfl
  | some d =>
      have hcarried : ∀ phase callback, o.cluster.SameAccounts
          (o.cluster.carryOut app d.thread phase callback) :=
        fun phase callback => .carryOut app d.thread phase o.cluster callback
      cases hround : d.round with
      | preparing rest =>
          cases rest with
          | nil => exact turn_settles ho hnamed app hd hround
          | cons callback rest =>
              have hframe := o.cluster.carryOut_frame app d.thread .before callback
              simp only [Departure.next, hround]
              exact .of_moveTo ho hd (hcarried _ callback) hframe.1 (by simp [hround])
                (by simp [Departure.isPreparing, hround])
      | concluding committed rest =>
          cases rest with
          | nil =>
              simp only [Departure.next, hround]
              exact .of_moveTo ho hd (.refl _) rfl (by simp [hround])
                (by simp [Departure.isPreparing, hround])
          | cons callback rest =>
              have hframe := o.cluster.carryOut_frame app d.thread (.after committed) callback
              simp only [Departure.next, hround]
              exact .of_moveTo ho hd (hcarried _ callback) hframe.1 (by simp [hround])
                (by simp [Departure.isPreparing, hround])

/-- A move begins a transaction, decides the outcome of one, or does neither. -/
theorem turn_step (ho : Orderly o) (hnamed : Named o) (app : Application η ω)
    (h : o.LeavesAccounts m) : Turn o m (o.step app m) := by
  cases m with
  | begin n thread => exact turn_begin ho app n thread
  | work tx a => exact turn_work app o tx a
  | depart tx thread request => exact turn_depart ho hnamed app tx thread request
  | advance i => exact turn_advance ho hnamed app i
  | store a => exact .of_sameAccounts rfl rfl ⟨fun _ _ => rfl, rfl, rfl, rfl⟩ rfl
  | registry n a => exact .of_sameAccounts rfl rfl (.modifyRegistry _ n _) rfl
  | elsewhere what => exact .of_sameAccounts rfl rfl h (what.transactions o.cluster)

namespace Named

/-- If nothing is open, there is nothing that could be kept under a wrong identifier. -/
theorem start {c : Cluster η ω} (hc : c.AtRest) : Named (⟨c, [], []⟩ : Interplay η ω) where
  opened tx t ht := by
    rw [hc.transactions tx] at ht
    cases ht
  departed := fun _ h => absurd h List.not_mem_nil

/-- Every transaction is kept under its own identifier after every move. -/
theorem step (h : Named o) (app : Application η ω) (m : Move η ω) : Named (o.step app m) := by
  have hmoved : ∀ {i : Nat} {d : Departure η} {round : Round η},
      o.departures[i]? = some d →
      ∀ e ∈ o.departures.set i (d.moveTo round), e.transaction.id = e.tx := by
    intro i d round hd e he
    rcases Orderly.mem_set_moveTo hd he with he | ⟨hin, rfl⟩
    · exact h.departed e he
    · exact h.departed d hin
  have hsame : ∀ {c : Cluster η ω}, c.transactions = o.cluster.transactions →
      ∀ tx t, c.transaction? tx = some t → t.id = tx := by
    intro c hc tx t ht
    rw [Cluster.transaction?, hc] at ht
    exact h.opened tx t ht
  have houtcome := outcome_step app o m
  generalize o.step app m = p at houtcome
  cases houtcome with
  | idle => exact h
  | refused n thread resource => exact ⟨h.opened, h.departed⟩
  | begun n thread hbegin =>
      obtain ⟨_, t, htenure, htransaction⟩ := Cluster.begin_accepted hbegin
      refine ⟨fun other t' ht' => ?_, h.departed⟩
      rw [htransaction] at ht'
      split at ht'
      · next hother =>
        cases ht'
        rw [hother]
        exact congrArg Tenure.tx htenure
      · exact h.opened other t' ht'
  | @worked tx a t ht =>
      have heffect := a.effect_perform tx o.cluster
      refine ⟨fun other t' ht' => ?_, h.departed⟩
      by_cases hother : other = tx
      · subst hother
        obtain ⟨t'', ht'', htenure⟩ := heffect.tenure ht
        cases ht''.symm.trans ht'
        exact (congrArg Tenure.tx htenure).trans (h.opened other t ht)
      · exact h.opened other t' (heffect.others hother ▸ ht')
  | @departed tx thread request t round c ht _ _ htransactions =>
      refine ⟨fun other t' ht' => ?_, fun d hd => ?_⟩
      · rw [Cluster.transaction?, htransactions, Table.get?_erase] at ht'
        split at ht'
        · cases ht'
        · exact h.opened other t' ht'
      · rcases List.mem_append.mp hd with hd | hd
        · exact h.departed d hd
        · rw [List.mem_singleton.mp hd]
          exact h.opened tx t ht
  | @before i d callback rest hd _ =>
      exact ⟨hsame (o.cluster.carryOut_frame app d.thread .before callback).1, hmoved hd⟩
  | decided i committed hd _ _ htransactions => exact ⟨hsame htransactions, hmoved hd⟩
  | @after i committed d callback rest hd _ =>
      exact ⟨hsame (o.cluster.carryOut_frame app d.thread (.after committed) callback).1, hmoved hd⟩
  | store | registry => exact ⟨h.opened, h.departed⟩
  | elsewhere what => exact ⟨hsame (what.transactions o.cluster), h.departed⟩

end Named

/-! ## The accounts of a history -/

/-- The transactions among those that have begun whose outcomes are still to be decided. -/
def standing (begun : List Tenure) (decided : List TxId) : List Tenure :=
  begun.filter fun x => decide (x.tx ∉ decided)

/-- What stands has begun and is not decided. -/
theorem mem_standing {begun : List Tenure} {decided : List TxId} {x : Tenure} :
    x ∈ standing begun decided ↔ x ∈ begun ∧ x.tx ∉ decided := by
  simp [standing]

/-- How owners and counts agree with the transactions that have begun and those whose outcomes have
been decided. -/
structure Accounts (o : Interplay η ω) (begun : List Tenure) (decided : List TxId) : Prop where
  undecided : ∀ x, o.Undecided x ↔ x ∈ standing begun decided
  owned : ∀ n thread tx, o.cluster.owned? n thread = some tx ↔
    ⟨n, thread, tx⟩ ∈ standing begun decided
  distinct : begun.Pairwise fun x y => x.tx ≠ y.tx
  begunNumber : ∀ x ∈ begun, x.tx.serial < o.cluster.nextTx
  decidedNumber : ∀ tx ∈ decided, tx.serial < o.cluster.nextTx
  balance : o.cluster.resource.begun =
    o.cluster.resource.committed + o.cluster.resource.rolledBack + (standing begun decided).length

/-- A transaction that is decided stands no longer, and all others do as before. -/
theorem length_standing_append {begun : List Tenure} {decided : List TxId} {x : Tenure}
    (hdistinct : begun.Pairwise fun x y => x.tx ≠ y.tx) (hx : x ∈ standing begun decided) :
    (standing begun (decided ++ [x.tx])).length + 1 = (standing begun decided).length := by
  have hnodup : (standing begun decided).Nodup :=
    (hdistinct.imp fun hne heq => hne (congrArg Tenure.tx heq)).filter _
  have hrest : standing begun (decided ++ [x.tx]) = (standing begun decided).erase x := by
    rw [hnodup.erase_eq_filter]
    unfold standing
    rw [List.filter_filter]
    refine List.filter_congr fun y hy => ?_
    have hsame : y.tx = x.tx ↔ y = x :=
      ⟨eq_of_pairwise_ne hdistinct hy (mem_standing.mp hx).1, congrArg Tenure.tx⟩
    by_cases hyx : y = x <;> simp [hsame, hyx]
  rw [hrest, List.length_erase_of_mem hx]
  have := List.length_pos_of_mem hx
  omega

namespace Accounts

variable {begun : List Tenure} {decided : List TxId}

/-- Before the first move nothing has begun, nothing is decided, and the counts add up. -/
theorem start {c : Cluster η ω} (hc : c.AtRest) (hbalanced : c.Balanced) :
    Accounts (⟨c, [], []⟩ : Interplay η ω) [] [] where
  undecided x := by
    simp [Undecided, InPlay, standing, hc.transactions]
  owned n thread tx := by
    simp [standing, hbalanced.owned]
  distinct := .nil
  begunNumber := fun _ h => absurd h List.not_mem_nil
  decidedNumber := fun _ h => absurd h List.not_mem_nil
  balance := hbalanced.counts

/-- What has begun has a number that was given out by then. -/
theorem onward (h : Accounts o begun decided) {p : Interplay η ω}
    (honward : o.cluster.nextTx ≤ p.cluster.nextTx) :
    (∀ x ∈ begun, x.tx.serial < p.cluster.nextTx) ∧
      ∀ tx ∈ decided, tx.serial < p.cluster.nextTx :=
  ⟨fun x hx => Nat.lt_of_lt_of_le (h.begunNumber x hx) honward,
    fun tx htx => Nat.lt_of_lt_of_le (h.decidedNumber tx htx) honward⟩

/-- A move that begins nothing and decides nothing leaves owners and counts as they are. -/
theorem keep (h : Accounts o begun decided) {p : Interplay η ω}
    (honward : o.cluster.nextTx ≤ p.cluster.nextTx)
    (haccounts : o.cluster.SameAccounts p.cluster)
    (hundecided : ∀ x, p.Undecided x ↔ o.Undecided x) : Accounts p begun decided where
  undecided x := (hundecided x).trans (h.undecided x)
  owned n thread tx := by rw [haccounts.owned, h.owned]
  distinct := h.distinct
  begunNumber := (h.onward honward).1
  decidedNumber := (h.onward honward).2
  balance := by rw [haccounts.begun, haccounts.committed, haccounts.rolledBack, h.balance]

/-- A transaction that begins is counted, and owned by its thread, which has owned none before. -/
theorem engage (h : Accounts o begun decided) {p : Interplay η ω} {x : Tenure}
    (hnumber : x.tx = ⟨o.cluster.nextTx⟩) (hnext : p.cluster.nextTx = o.cluster.nextTx + 1)
    (haccounts : o.cluster.Engages x p.cluster)
    (hundecided : ∀ y, p.Undecided y ↔ o.Undecided y ∨ y = x) :
    Accounts p (begun ++ [x]) decided := by
  have hnew : x.tx.serial = o.cluster.nextTx := congrArg TxId.serial hnumber
  have hundecidedNew : x.tx ∉ decided := by
    intro hmem
    have hlt := h.decidedNumber x.tx hmem
    omega
  have hstanding : standing (begun ++ [x]) decided = standing begun decided ++ [x] := by
    simp [standing, hundecidedNew]
  obtain ⟨hbegunNumber, hdecidedNumber⟩ := h.onward (p := p) (by omega)
  refine ⟨fun y => ?_, fun n thread tx => ?_, ?_, fun y hy => ?_, hdecidedNumber, ?_⟩
  · rw [hundecided, hstanding, h.undecided]
    simp
  · rw [haccounts.owned, hstanding, List.mem_append, List.mem_singleton, ← h.owned]
    split
    · next hx =>
      obtain ⟨rfl, rfl⟩ := hx
      simp [haccounts.free, Tenure.ext_iff, eq_comm]
    · next hx =>
      refine ⟨.inl, ?_⟩
      rintro (hold | rfl)
      · exact hold
      · exact absurd ⟨rfl, rfl⟩ hx
  · refine List.pairwise_append.mpr ⟨h.distinct, List.pairwise_singleton _ _, fun y hy z hz => ?_⟩
    rw [List.mem_singleton.mp hz]
    intro heq
    have hlt := h.begunNumber y hy
    rw [heq] at hlt
    omega
  · rcases List.mem_append.mp hy with hy | hy
    · exact hbegunNumber y hy
    · rw [List.mem_singleton.mp hy]
      omega
  · rw [haccounts.begun, haccounts.committed, haccounts.rolledBack, h.balance, hstanding,
      List.length_append]
    rfl

/-- When one transaction is decided, its thread owns it no longer, and the owners of all others
stay. -/
theorem owned_settle (h : Accounts o begun decided) {p : Interplay η ω} {x : Tenure}
    (hstands : x ∈ standing begun decided) (haccounts : o.cluster.Settles x p.cluster)
    (n : NodeName) (thread : Thread) (tx : TxId) :
    p.cluster.owned? n thread = some tx ↔
      ⟨n, thread, tx⟩ ∈ standing begun (decided ++ [x.tx]) := by
  rw [haccounts.owned, mem_standing]
  split
  · next hfreed =>
    obtain ⟨_, _, hown⟩ := hfreed
    refine ⟨fun hnone => (nomatch hnone), fun ⟨hbegun, hundecided⟩ => ?_⟩
    obtain ⟨hold, hne⟩ : tx ∉ decided ∧ tx ≠ x.tx := by simpa using hundecided
    have hother := (h.owned n thread tx).mpr (mem_standing.mpr ⟨hbegun, hold⟩)
    exact absurd (Option.some.inj (hother.symm.trans hown)) hne
  · next hkept =>
    rw [h.owned, mem_standing]
    have hne : ⟨n, thread, tx⟩ ∈ begun → tx ≠ x.tx := by
      intro hbegun heq
      have hsame := eq_of_pairwise_ne h.distinct hbegun (mem_standing.mp hstands).1 heq
      refine hkept ⟨congrArg Tenure.node hsame, congrArg Tenure.thread hsame, ?_⟩
      rw [h.owned, ← heq, hsame]
      exact hstands
    simp only [List.mem_append, List.mem_singleton, not_or]
    exact and_congr_right fun hbegun => ⟨fun hold => ⟨hold, hne hbegun⟩, And.left⟩

/-- A transaction whose outcome is decided is counted as committed or as rolled back, and stands no
longer. -/
theorem settle (h : Accounts o begun decided) {p : Interplay η ω} {x : Tenure}
    (honward : o.cluster.nextTx ≤ p.cluster.nextTx) (hx : o.Undecided x)
    (haccounts : o.cluster.Settles x p.cluster)
    (hundecided : ∀ y, p.Undecided y ↔ o.Undecided y ∧ y.tx ≠ x.tx) :
    Accounts p begun (decided ++ [x.tx]) := by
  have hstands := (h.undecided x).mp hx
  obtain ⟨hbegunNumber, hdecidedNumber⟩ := h.onward honward
  refine ⟨fun y => ?_, h.owned_settle hstands haccounts, h.distinct, hbegunNumber,
    fun tx htx => ?_, ?_⟩
  · rw [hundecided, h.undecided, mem_standing, mem_standing]
    simp [and_assoc]
  · rcases List.mem_append.mp htx with htx | htx
    · exact hdecidedNumber tx htx
    · rw [List.mem_singleton.mp htx]
      exact hbegunNumber x (mem_standing.mp hstands).1
  · have hlength := length_standing_append h.distinct hstands
    rw [haccounts.begun, haccounts.ended, h.balance]
    omega

/-- A move leaves owners and counts in agreement with what has begun and been decided by then. -/
theorem step (h : Accounts o begun decided) (ho : Orderly o) (hnamed : Named o)
    (app : Application η ω) (hm : o.LeavesAccounts m) :
    Accounts (o.step app m) (begun ++ (o.tenure? m).toList)
      (decided ++ (o.decides? m).toList) := by
  have hturn := turn_step ho hnamed app hm
  have honward : o.cluster.nextTx ≤ (o.step app m).cluster.nextTx := (onward_step app o m).nextTx
  generalize o.step app m = p at hturn honward
  cases hturn with
  | kept htenure hdecides haccounts hundecided =>
      simp only [htenure, hdecides, Option.toList_none, List.append_nil]
      exact h.keep honward haccounts hundecided
  | begun x htenure hdecides hnumber hnext haccounts hundecided =>
      simp only [htenure, hdecides, Option.toList_none, Option.toList_some, List.append_nil]
      exact h.engage hnumber hnext haccounts hundecided
  | decided x htenure hdecides hx haccounts hundecided =>
      simp only [htenure, hdecides, Option.toList_none, Option.toList_some, List.append_nil]
      exact h.settle honward hx haccounts hundecided

/-- Owners and counts agree with what has begun and been decided after every history. -/
theorem play {moves : List (Move η ω)} (h : Accounts o begun decided) (ho : Orderly o)
    (hnamed : Named o) (hmoves : Throughout app LeavesAccounts o moves) :
    Accounts (o.play app moves) (begun ++ o.begun app moves) (decided ++ o.decided app moves) := by
  induction moves generalizing o begun decided with
  | nil => simpa [Interplay.begun, Interplay.decided, Interplay.play] using h
  | cons m rest ih =>
      have hstep := h.step ho hnamed app hmoves.1
      have hrest := ih hstep (ho.step m) (hnamed.step app m) hmoves.2
      rw [List.append_assoc, List.append_assoc] at hrest
      exact hrest

end Accounts

/-! ## Who owns what -/

/-- After every history of any number of overlapping transactions on any number of nodes, whatever
begins and ends between two callbacks of another one and whichever threads call for the ends:
- a thread owns a transaction on a node exactly if it began it there and its outcome has not been
  decided, and this is one transaction at most;
- a transaction that cannot begin changes no owner and no count, and no transaction that is open or
  on its way out;
- the transactions that have begun are those that were committed, those that were rolled back and
  those whose outcome has not been decided. -/
theorem owned_play (app : Application η ω) {c : Cluster η ω} (hc : c.AtRest)
    (hbalanced : c.Balanced) (moves : List (Move η ω))
    (hmoves : Throughout app LeavesAccounts ⟨c, [], []⟩ moves) :
    let start : Interplay η ω := ⟨c, [], []⟩
    let o := start.play app moves
    let begun := start.begun app moves
    let decided := start.decided app moves
    (∀ n thread tx, o.cluster.owned? n thread = some tx ↔
        ⟨n, thread, tx⟩ ∈ begun ∧ tx ∉ decided) ∧
      (∀ x ∈ standing begun decided, ∀ y ∈ standing begun decided,
        x.node = y.node → x.thread = y.thread → x = y) ∧
      (∀ n thread, o.tenure? (.begin n thread) = none →
        let p := o.step app (.begin n thread)
        o.cluster.SameAccounts p.cluster ∧ p.cluster.transactions = o.cluster.transactions ∧
          p.departures = o.departures) ∧
      begun.Pairwise (fun x y => x.tx ≠ y.tx) ∧
      o.cluster.resource.begun = o.cluster.resource.committed + o.cluster.resource.rolledBack +
        (standing begun decided).length := by
  intro start o begun decided
  have haccounts : Accounts o begun decided :=
    (Accounts.start hc hbalanced).play (.start hc) (.start hc) hmoves
  refine ⟨fun n thread tx => ?_, fun x hx y hy hnode hthread => ?_, fun n thread hrefused => ?_,
    haccounts.distinct, haccounts.balance⟩
  · rw [haccounts.owned, mem_standing]
  · have hownX := (haccounts.owned x.node x.thread x.tx).mpr hx
    have hownY := (haccounts.owned y.node y.thread y.tx).mpr hy
    rw [← hnode, ← hthread, hownX] at hownY
    exact Tenure.ext hnode hthread (Option.some.inj hownY)
  · rcases hbegin : o.cluster.begin n thread with ⟨f | tx, d⟩
    · obtain ⟨hsame, htransactions⟩ := Cluster.begin_refused hbegin
      simp only [step, hbegin]
      exact ⟨hsame, htransactions, trivial⟩
    · simp [tenure?, hbegin, Except.toOption] at hrefused

/-- A transaction begins, and its thread cannot begin another one on the node; on another node the
resource manager refuses the first time. Another thread calls for a commit, which is refused, and
begins and drops a transaction of its own before the first callback runs. When the outcome of the
first transaction is decided, its thread begins the next one. -/
def entangled : List (Move Unit Unit) :=
  [.begin "a" .main, .begin "a" .main, .work ⟨0⟩ (.refuseNext .begin), .begin "b" .main,
    .begin "b" .main, .work ⟨0⟩ (.register .both ()), .work ⟨0⟩ (.refuseNext .commit),
    .depart ⟨0⟩ (.named "t") .commit, .begin "a" (.named "t"), .depart ⟨4⟩ (.named "t") .drop,
    .advance 0, .advance 0, .begin "a" .main]

/-- The thread owns its second transaction on one node and one on the other node, the other thread
owns none, and of four transactions two were rolled back. -/
theorem owned_play_entangled :
    Cluster.blank.Balanced ∧
      Throughout .silent LeavesAccounts ⟨.blank, [], []⟩ entangled ∧
      (playBlank entangled).cluster.owned? "a" .main = some ⟨5⟩ ∧
      (playBlank entangled).cluster.owned? "b" .main = some ⟨3⟩ ∧
      (playBlank entangled).cluster.owned? "a" (.named "t") ≠ some ⟨4⟩ ∧
      (playBlank entangled).cluster.resource.begun = 0 + 2 + 2 := by
  have hmoves : Throughout .silent LeavesAccounts ⟨.blank, [], []⟩ entangled := by
    simp [Throughout, entangled, LeavesAccounts]
  have hbegun : (⟨.blank, [], []⟩ : Interplay Unit Unit).begun .silent entangled =
      [⟨"a", .main, ⟨0⟩⟩, ⟨"b", .main, ⟨3⟩⟩, ⟨"a", .named "t", ⟨4⟩⟩, ⟨"a", .main, ⟨5⟩⟩] := by
    decide +kernel
  have hdecided : (⟨.blank, [], []⟩ : Interplay Unit Unit).decided .silent entangled =
      [⟨4⟩, ⟨0⟩] := by
    decide +kernel
  have hcommitted : (playBlank entangled).cluster.resource.committed = 0 := by decide +kernel
  have hrolled : (playBlank entangled).cluster.resource.rolledBack = 2 := by decide +kernel
  obtain ⟨howned, _, _, _, hcounts⟩ :=
    owned_play .silent Cluster.atRest_blank Cluster.balanced_blank entangled hmoves
  rw [hbegun, hdecided] at howned hcounts
  refine ⟨Cluster.balanced_blank, hmoves, (howned "a" .main ⟨5⟩).mpr (by decide),
    (howned "b" .main ⟨3⟩).mpr (by decide), fun h => ?_, ?_⟩
  · exact absurd ((howned "a" (.named "t") ⟨4⟩).mp h) (by decide)
  · have hall : (playBlank entangled).cluster.resource.begun =
        (playBlank entangled).cluster.resource.committed +
          (playBlank entangled).cluster.resource.rolledBack + 2 := hcounts
    rw [hall, hcommitted, hrolled]

end Interplay

end JobCluster
