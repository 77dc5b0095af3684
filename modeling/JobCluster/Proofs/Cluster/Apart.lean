import JobCluster.Proofs.Cluster.Frame
import JobCluster.Proofs.Exchange.Placement
/-!
# What happens apart from a unit of work

A unit of work that comes to nothing has to take back what it did, while other things happen in the
same cluster: callbacks of the application, for one. This file says what may happen without getting
in the way. Jobs that are gone stay away, and staged jobs are neither published nor queued;
exchanges that have left a registry stay out of it; the committed instances stay as they are, and so
does whatever listeners leave behind.

Main results:

- `Cluster.Apart.trans`: such changes add up;
- `Cluster.apart_call`: calls on the job store that publish and stage nothing;
- `Cluster.apart_runCallback`: the callbacks of a transaction that does not commit.
-/

namespace JobCluster

variable {η ω ν : Type}

namespace Cluster

/-! ## Identifiers still to be given -/

/-- Whether a job waits in a todo queue. -/
def Queued (c : Cluster η ω) (id : JobId) : Prop :=
  ∃ n, ∃ e ∈ (c.node n).scheduler.todo.entries, e.task.runs id = true

/-- The routes of the nodes. -/
def routes (c : Cluster η ω) (n : NodeName) : Routes := (c.node n).registry.routes

/-- Whether the identifiers that are still to be given to jobs, transactions and exchanges are in
use nowhere. -/
structure Fresh (c : Cluster η ω) : Prop where
  stored : ∀ k, c.nextJob ≤ k → c.jobs.find? (.drawn k) = none
  queued : ∀ k, c.nextJob ≤ k → ¬ c.Queued (.drawn k)
  opened : ∀ k, c.nextTx ≤ k → c.transaction? ⟨k⟩ = none
  staged : ∀ k, c.nextTx ≤ k → c.instances.staged.get? ⟨k⟩ = none
  slots : ∀ n, (c.node n).registry.Sound

/-! ## Apartness -/

/-- What may become of a cluster apart from a unit of work. Of the world outside and of the routes,
both of which listeners change, it keeps what is looked at. -/
structure Apart (heard : ω → (NodeName → Routes) → ν) (c d : Cluster η ω) : Prop where
  fresh : c.Fresh → d.Fresh
  nextJob : c.nextJob ≤ d.nextJob
  nextTx : c.nextTx ≤ d.nextTx
  /-- A staged job is not published. -/
  hidden : ∀ k, k < c.nextJob → c.jobs.Hides (.drawn k) → d.jobs.Hides (.drawn k)
  /-- A job that is gone stays away. -/
  gone : ∀ k, k < c.nextJob → c.jobs.find? (.drawn k) = none → d.jobs.find? (.drawn k) = none
  /-- A job that is not published is not queued. -/
  queued : ∀ k, k < c.nextJob → c.jobs.Hides (.drawn k) → d.Queued (.drawn k) →
    c.Queued (.drawn k)
  exchanges : ∀ n, (c.node n).registry.Follows (d.node n).registry
  committed : d.instances.committed = c.instances.committed
  /-- A transaction that is over is not opened again. -/
  closed : ∀ tx : TxId, tx.serial < c.nextTx → c.transaction? tx = none → d.transaction? tx = none
  /-- Nothing is written for a transaction that is over. -/
  unwritten : ∀ tx : TxId, tx.serial < c.nextTx → c.transaction? tx = none →
    c.instances.staged.get? tx = none → d.instances.staged.get? tx = none
  heard : heard d.outside d.routes = heard c.outside c.routes

variable {heard : ω → (NodeName → Routes) → ν}

namespace Apart

theorem refl (heard : ω → (NodeName → Routes) → ν) (c : Cluster η ω) : c.Apart heard c where
  fresh h := h
  nextJob := Nat.le_refl _
  nextTx := Nat.le_refl _
  hidden _ _ h := h
  gone _ _ h := h
  queued _ _ _ h := h
  exchanges _ := .refl _
  committed := rfl
  closed _ _ h := h
  unwritten _ _ _ h := h
  heard := rfl

/-- What may happen apart from a unit of work may happen twice. -/
theorem trans {c d e : Cluster η ω} (h : c.Apart heard d) (h' : d.Apart heard e) :
    c.Apart heard e where
  fresh hc := h'.fresh (h.fresh hc)
  nextJob := Nat.le_trans h.nextJob h'.nextJob
  nextTx := Nat.le_trans h.nextTx h'.nextTx
  hidden k hk hc := h'.hidden k (Nat.lt_of_lt_of_le hk h.nextJob) (h.hidden k hk hc)
  gone k hk hc := h'.gone k (Nat.lt_of_lt_of_le hk h.nextJob) (h.gone k hk hc)
  queued k hk hc he := h.queued k hk hc
    (h'.queued k (Nat.lt_of_lt_of_le hk h.nextJob) (h.hidden k hk hc) he)
  exchanges n := (h.exchanges n).trans (h'.exchanges n)
  committed := h'.committed.trans h.committed
  closed tx htx hc := h'.closed tx (Nat.lt_of_lt_of_le htx h.nextTx) (h.closed tx htx hc)
  unwritten tx htx hc hs := h'.unwritten tx (Nat.lt_of_lt_of_le htx h.nextTx) (h.closed tx htx hc)
    (h.unwritten tx htx hc hs)
  heard := h'.heard.trans h.heard

end Apart

/-! ## Nodes -/

/-- A change of a node that leaves its queue alone leaves the queued jobs as they are. -/
theorem queued_modifyNode {c : Cluster η ω} {n : NodeName} {f : Node η → Node η}
    (htodo : (f (c.node n)).scheduler.todo.entries = (c.node n).scheduler.todo.entries)
    (id : JobId) : (c.modifyNode n f).Queued id ↔ c.Queued id := by
  have hentries : ∀ m, ((c.modifyNode n f).node m).scheduler.todo.entries =
      (c.node m).scheduler.todo.entries := by
    intro m
    rw [node_modifyNode]
    by_cases hnm : n = m
    · rw [if_pos hnm, htodo, hnm]
    · rw [if_neg hnm]
  unfold Queued
  simp only [hentries]

/-- A node may change apart from a unit of work, if its queue and routes stay and its registry goes
on. -/
theorem apart_modifyNode (c : Cluster η ω) (n : NodeName) (f : Node η → Node η)
    (hregistry : (c.node n).registry.Follows (f (c.node n)).registry)
    (hroutes : (f (c.node n)).registry.routes = (c.node n).registry.routes)
    (htodo : (f (c.node n)).scheduler.todo.entries = (c.node n).scheduler.todo.entries) :
    c.Apart heard (c.modifyNode n f) := by
  have hfollows : ∀ m, (c.node m).registry.Follows ((c.modifyNode n f).node m).registry := by
    intro m
    rw [node_modifyNode]
    by_cases hnm : n = m
    · rw [if_pos hnm, ← hnm]
      exact hregistry
    · rw [if_neg hnm]
      exact .refl _
  have hsame : (c.modifyNode n f).routes = c.routes := by
    funext m
    unfold routes
    rw [node_modifyNode]
    by_cases hnm : n = m
    · rw [if_pos hnm, hroutes, hnm]
    · rw [if_neg hnm]
  have hqueued := queued_modifyNode htodo
  refine { Apart.refl heard c with
    fresh := fun h => ⟨h.stored, fun k hk hq => ?_, h.opened, h.staged, fun m => ?_⟩
    queued := fun k _ _ hq => (hqueued _).mp hq
    exchanges := hfollows
    heard := ?_ }
  · exact h.queued k hk ((hqueued _).mp hq)
  · exact (hfollows m).sound (h.slots m)
  · rw [hsame]
    rfl

theorem apart_modifyManager (c : Cluster η ω) (n : NodeName) (f : TxManager → TxManager) :
    c.Apart heard (c.modifyManager n f) :=
  c.apart_modifyNode n _ (.refl _) rfl rfl

theorem apart_modifyRegistry (c : Cluster η ω) (n : NodeName) (f : Registry → Registry)
    (hregistry : (c.node n).registry.Follows (f (c.node n).registry))
    (hroutes : (f (c.node n).registry).routes = (c.node n).registry.routes) :
    c.Apart heard (c.modifyRegistry n f) :=
  c.apart_modifyNode n _ hregistry hroutes rfl

theorem apart_modifyScheduler (c : Cluster η ω) (n : NodeName) (f : Scheduler → Scheduler)
    (htodo : (f (c.node n).scheduler).todo.entries = (c.node n).scheduler.todo.entries) :
    c.Apart heard (c.modifyScheduler n f) :=
  c.apart_modifyNode n _ (.refl _) rfl htodo

/-! ## Transactions -/

theorem apart_resource (c : Cluster η ω) (resource : ResourceManager) :
    c.Apart heard { c with resource } :=
  { Apart.refl heard c with
    fresh := fun h => ⟨h.stored, h.queued, h.opened, h.staged, h.slots⟩ }

/-- A change of the open transactions that opens none. -/
theorem apart_transactions (c : Cluster η ω) (transactions : Table TxId (Transaction (Callback η)))
    (h : ∀ tx, c.transactions.get? tx = none → transactions.get? tx = none) :
    c.Apart heard { c with transactions } :=
  { Apart.refl heard c with
    fresh := fun hc => ⟨hc.stored, hc.queued, fun k hk => h ⟨k⟩ (hc.opened k hk), hc.staged,
      hc.slots⟩
    closed := fun tx _ hc => h tx hc }

theorem apart_modifyTransaction (c : Cluster η ω) (id : TxId)
    (f : Transaction (Callback η) → Transaction (Callback η)) :
    c.Apart heard (c.modifyTransaction id f) := by
  refine c.apart_transactions _ fun tx h => ?_
  rw [Table.get?_modify, h]
  simp

theorem apart_erase (c : Cluster η ω) (id : TxId) :
    c.Apart heard { c with transactions := c.transactions.erase id } := by
  refine c.apart_transactions _ fun tx h => ?_
  rw [Table.get?_erase, h]
  simp

/-- A number that is given to a transaction. -/
theorem apart_nextTx (c : Cluster η ω) : c.Apart heard { c with nextTx := c.nextTx + 1 } :=
  { Apart.refl heard c with
    fresh := fun h => ⟨h.stored, h.queued, fun k hk => h.opened k (Nat.le_of_succ_le hk),
      fun k hk => h.staged k (Nat.le_of_succ_le hk), h.slots⟩
    nextTx := Nat.le_succ _ }

theorem apart_begin (c : Cluster η ω) (n : NodeName) (thread : Thread) :
    c.Apart heard (c.begin n thread).2 := by
  have hnext : c.Apart heard { c with nextTx := c.nextTx + 1 } := c.apart_nextTx
  simp only [begin]
  split
  · exact hnext
  · next manager hclaim =>
    split
    · exact hnext.trans (apart_resource _ _)
    · next resource _ =>
      let t : Transaction (Callback η) :=
        { id := ⟨c.nextTx⟩, node := n, owner := thread, timeout := manager.timeout thread }
      -- The transaction that begins has a number of its own, so none that is over is opened again.
      have hinsert : c.Apart heard { c with
          nextTx := c.nextTx + 1, transactions := c.transactions.insert ⟨c.nextTx⟩ t } := by
        have hget : ∀ tx : TxId, tx.serial ≠ c.nextTx → c.transaction? tx = none →
            (c.transactions.insert ⟨c.nextTx⟩ t).get? tx = none := by
          intro tx htx hc
          have hne : (⟨c.nextTx⟩ : TxId) ≠ tx := fun heq => htx (congrArg TxId.serial heq.symm)
          rw [Table.get?_insert, if_neg hne]
          exact hc
        exact { hnext with
          fresh := fun h => ⟨h.stored, h.queued,
            fun k hk => hget ⟨k⟩ (Nat.ne_of_gt hk) (h.opened k (Nat.le_of_succ_le hk)),
            fun k hk => h.staged k (Nat.le_of_succ_le hk), h.slots⟩
          closed := fun tx htx hc => hget tx (Nat.ne_of_lt htx) hc }
      exact (hinsert.trans (apart_resource _ resource)).trans
        (apart_modifyManager _ n fun _ => manager)

/-! ## Jobs -/

/-- A change of the job store that publishes and stages nothing. -/
theorem apart_jobs (c : Cluster η ω) (jobs : JobStore)
    (hhidden : ∀ id, c.jobs.Hides id → jobs.Hides id)
    (hgone : ∀ id, c.jobs.find? id = none → jobs.find? id = none) :
    c.Apart heard { c with jobs } :=
  { Apart.refl heard c with
    fresh := fun h => ⟨fun k hk => hgone _ (h.stored k hk), h.queued, h.opened, h.staged, h.slots⟩
    hidden := fun _ _ hc => hhidden _ hc
    gone := fun _ _ hc => hgone _ hc }

/-- Calls on the store that neither publish nor stage a job may come apart from a unit of work. -/
theorem apart_call (c : Cluster η ω) (a : StoreCall) (hpublish : ∀ id, a ≠ .publish id)
    (hstage : ∀ id, a.stages id = false) : c.Apart heard { c with jobs := a.apply c.jobs } :=
  c.apart_jobs _ (fun _ h => StoreCall.hides_apply hpublish h)
    fun id h => StoreCall.find?_apply_eq_none (hstage id) h

/-- An identifier is drawn for a job, and the job is staged under it. -/
theorem apart_stage (c : Cluster η ω) (r : JobRecord) (hid : r.id = .drawn c.nextJob) :
    c.Apart heard { c with nextJob := c.nextJob + 1, jobs := c.jobs.put r } := by
  have hfind : ∀ k, k ≠ c.nextJob → (c.jobs.put r).find? (.drawn k) = c.jobs.find? (.drawn k) := by
    intro k hk
    have hne : r.id ≠ .drawn k := fun heq => hk (JobId.drawn_injective (hid.symm.trans heq)).symm
    rw [JobStore.find?_put, if_neg hne]
  refine { Apart.refl heard c with
    fresh := fun h => ⟨fun k hk => ?_, fun k hk => h.queued k (Nat.le_of_succ_le hk), h.opened,
      h.staged, h.slots⟩
    nextJob := Nat.le_succ _
    hidden := fun k hk hc => ?_
    gone := fun k hk hc => ?_ }
  · exact (hfind k (Nat.ne_of_gt hk)).trans (h.stored k (Nat.le_of_succ_le hk))
  · intro x hx
    rw [hfind k (Nat.ne_of_lt hk)] at hx
    exact hc x hx
  · exact (hfind k (Nat.ne_of_lt hk)).trans hc

theorem apart_nextJob (c : Cluster η ω) : c.Apart heard { c with nextJob := c.nextJob + 1 } :=
  { Apart.refl heard c with
    fresh := fun h => ⟨fun k hk => h.stored k (Nat.le_of_succ_le hk),
      fun k hk => h.queued k (Nat.le_of_succ_le hk), h.opened, h.staged, h.slots⟩
    nextJob := Nat.le_succ _ }

/-! ## Process instances -/

/-- A change of the instance store that commits nothing, and writes for no transaction that is
over. -/
theorem apart_instances (c : Cluster η ω) (instances : InstanceStore)
    (hcommitted : instances.committed = c.instances.committed)
    (hstaged : ∀ tx, (tx.serial < c.nextTx → c.transaction? tx = none) →
      c.instances.staged.get? tx = none → instances.staged.get? tx = none) :
    c.Apart heard { c with instances } :=
  { Apart.refl heard c with
    fresh := fun h => ⟨h.stored, h.queued, h.opened,
      fun k hk => hstaged ⟨k⟩ (fun hlt => absurd hk (Nat.not_le_of_gt hlt)) (h.staged k hk),
      h.slots⟩
    committed := hcommitted
    unwritten := fun tx _ hc hs => hstaged tx (fun _ => hc) hs }

/-- After a rollback, what a transaction has written is only forgotten. -/
theorem completeWrites_false (app : Application η ω) (c : Cluster η ω) (tx : TxId) :
    c.completeWrites app tx false = { c with
      instances := { c.instances with staged := c.instances.staged.erase tx } } :=
  rfl

/-- A transaction may forget its writes apart from a unit of work. -/
theorem apart_completeWrites (app : Application η ω) (c : Cluster η ω) (tx : TxId) :
    c.Apart heard (c.completeWrites app tx false) := by
  rw [completeWrites_false]
  refine c.apart_instances _ rfl fun other _ hs => ?_
  rw [Table.get?_erase, hs]
  simp

/-! ## Callbacks -/

/-- A staged job that is not published is discarded. -/
theorem settleStaged_false (c : Cluster η ω) (n : NodeName) (plan : PersistedPlan) :
    (c.settleStaged n plan false).2 =
      { c with jobs := (StoreCall.discard plan.record.id).apply c.jobs } :=
  rfl

end Cluster

/-- Whether the callbacks of an application leave alone what units of work do. -/
def Application.Considerate (app : Application η ω) (heard : ω → (NodeName → Routes) → ν) : Prop :=
  ∀ thread script phase (c : Cluster η ω), c.Fresh →
    c.Apart heard (app.callback thread script phase c).2

namespace Cluster

variable {heard : ω → (NodeName → Routes) → ν}

/-- A callback of a transaction that does not commit does nothing but what may happen apart from
units of work, unless it queues a job. -/
theorem apart_runCallback {app : Application η ω} (happ : app.Considerate heard) (thread : Thread)
    {phase : Phase} (hphase : followsCommit phase = false) {c : Cluster η ω} (hc : c.Fresh)
    {callback : Callback η} (hqueue : ∀ n info, callback ≠ .queue n info) :
    c.Apart heard (runCallback app thread callback phase c).2 := by
  cases callback with
  | publish n plan =>
      simp only [runCallback, hphase, settleStaged_false]
      exact c.apart_call _ (fun _ => StoreCall.noConfusion) fun _ => rfl
  | queue n info => exact absurd rfl (hqueue n info)
  | drop n id armed =>
      cases armed with
      | false => exact .refl heard c
      | true =>
          simp only [runCallback, if_true, dropClaimed_snd]
          exact c.apart_call _ (fun _ => StoreCall.noConfusion) fun _ => rfl
  | applyWrites tx =>
      simp only [runCallback, hphase]
      exact c.apart_completeWrites app tx
  | withdraw n id =>
      have hsheds := (c.node n).registry.sheds_rollBack id
      exact c.apart_modifyRegistry n _ hsheds.follows hsheds.routes
  | custom script =>
      have hscript := happ thread script phase c hc
      simp only [runCallback]
      rcases hanswer : app.callback thread script phase c with ⟨p | (e | _), d⟩ <;>
        rw [hanswer] at hscript <;> exact hscript

end Cluster

end JobCluster
