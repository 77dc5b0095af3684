import JobCluster.Proofs.Job.OnePlace
/-!
# Dispatch on all nodes

Every node of a cluster has dispatch loops and workers of its own, and they all work on what the
nodes share. This file is about histories in which loops and workers on all nodes make their steps
in any order, and follows the copies of a job that is kept in memory through them. A job that is
committed once is committed on one node, and no other node ever has a copy of it.

Main results:

- `Fleet.Kept.step`: the copies are accounted for on every node after every step;
- `Fleet.countP_committed_of_nodup`: of a job that is committed once, one node has a copy;
- `Fleet.Kept.untouched`: a job that was taken out of a queue by a cancellation is with no worker, on
  no node.
-/

namespace JobCluster

variable {η ω : Type}

/-! ## Histories -/

/-- Whether a step is one of the dispatch on its node, and nothing that happens beside it. -/
def DispatchStep.IsOwn {n : NodeName} : DispatchStep η ω n → Prop
  | .aside _ => False
  | .commit _ | .cancel _ | .start _ | .stop | .proceed .. | .invoke _ | .finish _ | .occupy _ => True

/-- Something that happens in a cluster and leaves the volatile jobs in all queues as they are. -/
structure Interlude (η ω : Type) where
  change : Cluster η ω → Cluster η ω
  same : ∀ (c : Cluster η ω) (n : NodeName),
    (c.node n).scheduler.todo.SameCopies ((change c).node n).scheduler.todo

/-- A step in a history of the dispatch on all nodes. -/
inductive FleetStep (η ω : Type)
  | on (n : NodeName) (m : DispatchStep η ω n) (own : m.IsOwn)
  | interlude (what : Interlude η ω)

/-- The job that a step commits, and the node on which it does. -/
def FleetStep.committed? : FleetStep η ω → Option (NodeName × JobId)
  | .on n m _ => m.committed?.map fun id => (n, id)
  | .interlude _ => none

/-- The dispatch on each node. All of them are about the same cluster. -/
def Fleet (η ω : Type) : Type := NodeName → Dispatch η ω

namespace Fleet

/-- A cluster on none of whose nodes a loop or a worker is at work. -/
def start (c : Cluster η ω) : Fleet η ω := fun _ => { cluster := c }

/-- Makes a step on one node, which the others see in the cluster. -/
def step (f : Fleet η ω) : FleetStep η ω → Fleet η ω
  | .on n m _ => fun k =>
    if k = n then (f n).step n m else { f k with cluster := ((f n).step n m).cluster }
  | .interlude what => fun k => { f k with cluster := what.change (f k).cluster }

/-- Makes steps one after another. -/
def play (f : Fleet η ω) (steps : List (FleetStep η ω)) : Fleet η ω := steps.foldl step f

@[simp]
theorem play_nil (f : Fleet η ω) : f.play [] = f := rfl

@[simp]
theorem play_cons (f : Fleet η ω) (m : FleetStep η ω) (rest : List (FleetStep η ω)) :
    f.play (m :: rest) = (f.step m).play rest := rfl

end Fleet

/-! ## The other nodes -/

namespace Cluster

variable (c : Cluster η ω) {n k : NodeName}

/-- The scheduler of one node is no part of another node. -/
theorem node_modifyScheduler_of_ne (h : k ≠ n) (f : Scheduler → Scheduler) :
    (c.modifyScheduler n f).node k = c.node k := by
  rw [modifyScheduler, node_modifyNode, if_neg (Ne.symm h)]

theorem node_modifyTodo_of_ne (h : k ≠ n) (f : TodoQueue → TodoQueue) :
    (c.modifyTodo n f).node k = c.node k :=
  c.node_modifyScheduler_of_ne h _

end Cluster

namespace Dispatch

variable {n k : NodeName} {s : Dispatch η ω}

/-- A step of the dispatch on a node reaches no other node. -/
theorem node_step_of_ne (h : k ≠ n) {m : DispatchStep η ω n} (hown : m.IsOwn) :
    (s.step n m).cluster.node k = s.cluster.node k := by
  cases m with
  | commit info => exact s.cluster.node_modifyTodo_of_ne h _
  | cancel id =>
      have hcancel : (s.cluster.cancel n id).2.node k = s.cluster.node k := by
        unfold Cluster.cancel
        exact Cluster.node_modifyTodo_of_ne _ h _
      simp only [step]
      split <;> next heq => rw [heq] at hcancel; exact hcancel
  | start insideRuntime =>
      have hstart : (s.cluster.start n insideRuntime).2.node k = s.cluster.node k := by
        unfold Cluster.start
        dsimp only
        split
        · rfl
        · split
          · rfl
          · split
            · rfl
            · rfl
            all_goals exact Cluster.node_modifyScheduler_of_ne _ h _
      simp only [step]
      split <;> exact hstart
  | stop =>
      simp only [step]
      split
      · exact s.cluster.node_modifyScheduler_of_ne h _
      · rfl
  | proceed i ready =>
      rcases s.cluster_proceed (n := n) i ready with heq | ⟨_, _, rest, _, heq⟩
      · rw [heq]
      · rw [heq]
        exact s.cluster.node_modifyTodo_of_ne h _
  | invoke i =>
      simp only [step]
      split
      · split <;> rfl
      · rfl
  | finish i =>
      simp only [step]
      split <;> rfl
  | occupy guests => rfl
  | aside what => exact hown.elim

/-- No step takes anything out of the log of cancelled jobs. -/
theorem countP_cancelled_step (m : DispatchStep η ω n) (p : Task → Bool) :
    s.cancelled.countP p ≤ (s.step n m).cancelled.countP p := by
  cases m with
  | cancel id =>
      simp only [step]
      split
      · rw [List.countP_append]
        exact Nat.le_add_right _ _
      · exact Nat.le_refl _
  | commit info => exact Nat.le_refl _
  | start insideRuntime =>
      simp only [step]
      split <;> exact Nat.le_refl _
  | stop =>
      simp only [step]
      split <;> exact Nat.le_refl _
  | proceed i ready =>
      simp only [step]
      split
      · next l _ =>
        obtain ⟨_, _, _, _, heq⟩ := s.goOn_frame (n := n) i l ready
        have hsame : (s.goOn n i l ready).cancelled = s.cancelled := by rw [heq]
        exact Nat.le_of_eq (congrArg (List.countP p) hsame.symm)
      · exact Nat.le_refl _
  | invoke i =>
      simp only [step]
      split
      · split <;> exact Nat.le_refl _
      · exact Nat.le_refl _
  | finish i =>
      simp only [step]
      split <;> exact Nat.le_refl _
  | occupy guests | aside what => exact Nat.le_refl _

end Dispatch

/-! ## Accounts on all nodes -/

/-- Whether no queue of a cluster holds a volatile job. -/
structure Cluster.Unladen (c : Cluster η ω) : Prop where
  numbered : ∀ n, (c.node n).scheduler.todo.Numbered
  empty : ∀ n id, (c.node n).scheduler.todo.copies id = 0

namespace Fleet

variable {f : Fleet η ω}

/-- How the copies on all nodes agree with the logs. -/
structure Kept (f : Fleet η ω) : Prop where
  shared : ∀ k l, (f k).cluster = (f l).cluster
  accounts : ∀ n, Dispatch.Accounts n (f n)

/-- A cluster without volatile jobs in its queues and without loops keeps its accounts. -/
theorem Kept.start {c : Cluster η ω} (hc : c.Unladen) : Kept (start c) where
  shared _ _ := rfl
  accounts n := by
    refine ⟨hc.numbered n, fun id => ?_, fun id => rfl⟩
    have hnone : (((Fleet.start c : Fleet η ω) n).todo n).copies id = 0 := hc.empty n id
    rw [Dispatch.places, hnone]
    rfl

/-- A step on one node, or beside the dispatch, leaves the copies on all nodes accounted for. -/
theorem Kept.step (h : Kept f) (m : FleetStep η ω) : Kept (f.step m) := by
  cases m with
  | on n m own =>
      constructor
      · intro k l
        have hcluster : ∀ k, (f.step (.on n m own) k).cluster = ((f n).step n m).cluster := by
          intro k
          simp only [Fleet.step]
          split <;> rfl
        rw [hcluster k, hcluster l]
      · intro k
        by_cases hk : k = n
        · subst hk
          simp only [Fleet.step, if_true]
          exact (h.accounts k).step m
        · simp only [Fleet.step, if_neg hk]
          refine (h.accounts k).of_cluster ?_
          rw [Dispatch.node_step_of_ne hk own, h.shared n k]
          exact .refl _
  | interlude what =>
      constructor
      · intro k l
        exact congrArg what.change (h.shared k l)
      · intro k
        exact (h.accounts k).of_cluster (what.same (f k).cluster k)

/-- The accounts are kept through a whole history. -/
theorem Kept.play (h : Kept f) (steps : List (FleetStep η ω)) : Kept (f.play steps) := by
  induction steps generalizing f with
  | nil => exact h
  | cons m rest ih => exact ih (h.step m)

/-! ## Commits and cancellations -/

/-- A step that commits no job on a node leaves the log of the node as it is. -/
theorem countP_committed_step (m : FleetStep η ω) (k : NodeName) (id : JobId) :
    (f.step m k).committed.countP (Task.isCopyOf id) =
      (f k).committed.countP (Task.isCopyOf id) + m.committed?.toList.count (k, id) := by
  cases m with
  | on n m own =>
      by_cases hk : k = n
      · subst hk
        simp only [step, if_true, FleetStep.committed?, Dispatch.countP_committed_step]
        cases m.committed? <;> simp [List.count_cons]
      · have hother : ∀ j : JobId, ((n, j) == (k, id)) = false := by
          intro j
          simp [Ne.symm hk]
        simp only [step, if_neg hk, FleetStep.committed?]
        cases m.committed? <;> simp [List.count_cons, hother]
  | interlude what => rfl

/-- The log of a node grows by the copies of a job that the steps on that node commit. -/
theorem countP_committed_play (steps : List (FleetStep η ω)) (k : NodeName) (id : JobId) :
    (f.play steps k).committed.countP (Task.isCopyOf id) =
      (f k).committed.countP (Task.isCopyOf id) +
        (steps.filterMap FleetStep.committed?).count (k, id) := by
  induction steps generalizing f with
  | nil => rfl
  | cons m rest ih =>
      rw [play_cons, ih, countP_committed_step, List.filterMap_cons]
      cases m.committed? with
      | none => simp
      | some x =>
          simp only [Option.toList, List.count_cons, List.count_nil]
          omega

/-- No history takes anything out of the log of cancelled jobs. -/
theorem countP_cancelled_play (steps : List (FleetStep η ω)) (k : NodeName) (p : Task → Bool) :
    (f k).cancelled.countP p ≤ (f.play steps k).cancelled.countP p := by
  induction steps generalizing f with
  | nil => exact Nat.le_refl _
  | cons m rest ih =>
      refine Nat.le_trans ?_ ih
      cases m with
      | on n m own =>
          by_cases hk : k = n
          · subst hk
            simp only [step, if_true]
            exact Dispatch.countP_cancelled_step m p
          · simp only [step, if_neg hk]
            exact Nat.le_refl _
      | interlude what => exact Nat.le_refl _

/-! ## A job that was cancelled -/

/-- Whether all copies of a job that were ever committed were taken out of a queue by
cancellations. -/
def Cancelled (f : Fleet η ω) (id : JobId) : Prop :=
  ∀ n, (f n).committed.countP (Task.isCopyOf id) ≤ (f n).cancelled.countP (Task.isCopyOf id)

/-- A job that was cancelled was handed to no worker, and its processor was not invoked. -/
theorem Kept.untouched (h : Kept f) {id : JobId} (hcancelled : f.Cancelled id) (n : NodeName) :
    ((f n).runs.countP fun r => r.task.isCopyOf id) = 0 ∧
      (f n).invocations.countP (Task.isCopyOf id) = 0 := by
  have hbalance := (h.accounts n).balance id
  have hinvoked := (h.accounts n).invoked id
  have hle := hcancelled n
  have hmono : ((f n).runs.countP fun r => r.task.isCopyOf id && r.invoked) ≤
      (f n).runs.countP fun r => r.task.isCopyOf id :=
    List.countP_mono_left fun r _ hr => (Bool.and_eq_true_iff.mp hr).1
  rw [Dispatch.places_eq] at hbalance
  omega

/-- A job that was cancelled stays cancelled, unless it is committed again. -/
theorem Cancelled.play {id : JobId} (h : f.Cancelled id) {steps : List (FleetStep η ω)}
    (hsteps : ∀ x ∈ steps.filterMap FleetStep.committed?, x.2 ≠ id) :
    (f.play steps).Cancelled id := by
  intro n
  have hnone : (steps.filterMap FleetStep.committed?).count (n, id) = 0 :=
    List.count_eq_zero.mpr fun hmem => hsteps _ hmem rfl
  have hlog := countP_cancelled_play (f := f) steps n (Task.isCopyOf id)
  have hbefore := h n
  rw [countP_committed_play, hnone]
  omega

/-- Of a job that is committed once, one node at most has ever had a copy. -/
theorem countP_committed_of_nodup {c : Cluster η ω} {steps : List (FleetStep η ω)}
    (hdistinct : ((steps.filterMap FleetStep.committed?).map Prod.snd).Nodup) {n : NodeName}
    {id : JobId} (hn : 0 < ((start c).play steps n).committed.countP (Task.isCopyOf id))
    (k : NodeName) : ((start c).play steps k).committed.countP (Task.isCopyOf id) =
      if k = n then 1 else 0 := by
  have hcount : ∀ k, ((start c).play steps k).committed.countP (Task.isCopyOf id) =
      (steps.filterMap FleetStep.committed?).count (k, id) := by
    intro k
    rw [countP_committed_play]
    exact Nat.zero_add _
  have hmem : (n, id) ∈ steps.filterMap FleetStep.committed? :=
    List.count_pos_iff.mp (hcount n ▸ hn)
  have hpairwise := List.pairwise_map.mp hdistinct
  have hnodup : (steps.filterMap FleetStep.committed?).Nodup :=
    hpairwise.imp fun hne heq => hne (congrArg Prod.snd heq)
  rw [hcount]
  by_cases hk : k = n
  · subst hk
    rw [if_pos rfl]
    exact Nat.le_antisymm (List.nodup_iff_count.mp hnodup _)
      (List.count_pos_iff.mpr hmem)
  · rw [if_neg hk]
    refine List.count_eq_zero.mpr fun hother => hk ?_
    exact congrArg Prod.fst (eq_of_pairwise_ne hpairwise hother hmem rfl)

end Fleet

end JobCluster
