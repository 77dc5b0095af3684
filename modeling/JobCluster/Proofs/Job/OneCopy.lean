import JobCluster.Proofs.Job.Upkeep
/-!
# One copy of each housekeeping task

A start puts one copy of every housekeeping task into the queue, and every copy is in the queue, in
the hands of a loop or with a worker, until it comes to nothing or the scheduler is stopped. So the
queue holds one copy at most as long as workers queue no task again that they were handed before the
last stop. A worker that is still busy with such a task when the scheduler has been started anew
does queue it, beside the copy of the start.

Main results:

- `Upkeep.Balanced.step`: every copy since the last stop is in a place, or has come to nothing;
- `Upkeep.one_copy_iff`: when the queue holds at most one copy of a task;
- `Upkeep.two_copies_after_restart`: a restart that leaves two copies in the queue.
-/

namespace JobCluster

variable {η ω : Type}

namespace Upkeep

variable {n : NodeName} {s : Upkeep η ω}

/-! ## Where the copies are -/

/-- The number of copies of a task that loops and workers have in hand, without those that were taken
out of the queue before the last stop. -/
def afoot (s : Upkeep η ω) (task : Task) : Nat :=
  s.loops.countP (UpkeepLoop.holds task) + s.duties.countP (Duty.holds task)

/-- A loop that moves on changes what the loops have in hand by what it has. -/
theorem countP_holds_goTo {loops : List UpkeepLoop} {i : Nat} {l : UpkeepLoop}
    (hl : loops[i]? = some l) {old new : Option Task} {stage : LoopStage}
    (hold : l.stage.held? = old) (hnew : stage.held? = new) (task : Task) :
    (loops.set i (l.goTo stage)).countP (UpkeepLoop.holds task) +
        (!l.late && decide (old = some task)).toNat =
      loops.countP (UpkeepLoop.holds task) + (!l.late && decide (new = some task)).toNat := by
  subst hold hnew
  exact countP_set_add hl _

/-- A worker that moves on without being through keeps its task in hand. -/
theorem countP_holds_set {duties : List Duty} {k : Nat} {d : Duty} (hd : duties[k]? = some d)
    (hbusy : d.stage.isOver = false) {stage : DutyStage} (hstage : stage.isOver = false)
    (task : Task) :
    (duties.set k (d.goTo stage)).countP (Duty.holds task) = duties.countP (Duty.holds task) := by
  refine countP_set_of_eq hd ?_
  show (!d.late && !stage.isOver && decide (d.task = task)) = _
  rw [Duty.holds, hbusy, hstage]

/-- A worker that is through has its task in hand no longer. -/
theorem countP_holds_over {duties : List Duty} {k : Nat} {d : Duty} (hd : duties[k]? = some d)
    (hbusy : d.stage.isOver = false) (task : Task) :
    (duties.set k (d.goTo .ended)).countP (Duty.holds task) +
        (!d.late && decide (d.task = task)).toNat = duties.countP (Duty.holds task) := by
  have hset := countP_set_add (p := Duty.holds task) hd (d.goTo .ended)
  have hover : (d.goTo .ended).holds task = false := by simp [Duty.holds, DutyStage.isOver]
  have hheld : d.holds task = (!d.late && decide (d.task = task)) := by simp [Duty.holds, hbusy]
  rw [hover, hheld] at hset
  exact hset

/-- A task that is not late is noted when it comes to nothing. -/
theorem count_shedding (s : Upkeep η ω) (late : Bool) (other task : Task) :
    (s.shedding late other).count task =
      s.shed.count task + (!late && decide (other = task)).toNat := by
  rw [shedding, List.count_append]
  cases late with
  | true => simp
  | false => by_cases h : other = task <;> simp [h]

/-! ## Balance -/

/-- How the copies of housekeeping tasks agree with what has become of them since the last stop. -/
structure Balanced (n : NodeName) (s : Upkeep η ω) : Prop where
  numbered : (s.todo n).Numbered
  /-- The copies in the queue, in the hands of loops and workers, and come to nothing are the one of
  the start and those that workers have brought over the last stop. -/
  balance : ∀ task : Task, task.job? = none →
    (s.todo n).count task + s.afoot task + s.shed.count task =
      (s.isRunning n).toNat + s.strays.count task

namespace Balanced

/-- A change of the cluster that leaves the housekeeping in the queue alone. -/
theorem of_cluster (h : Balanced n s) {c : Cluster η ω}
    (hsame : (s.todo n).SameUpkeep (c.node n).scheduler.todo)
    (hrunning : (c.node n).scheduler.isRunning = s.isRunning n) :
    Balanced n { s with cluster := c } where
  numbered := hsame.numbered h.numbered
  balance task htask := by
    have hbalance := h.balance task htask
    have hcount := hsame.count task htask
    simp only [todo, isRunning, afoot] at hbalance hcount hrunning ⊢
    rw [hrunning]
    omega

/-- A loop that keeps what it has in hand keeps the balance. -/
theorem moveLoop (h : Balanced n s) {i : Nat} {l : UpkeepLoop} (hl : s.loops[i]? = some l)
    {stage : LoopStage} (hheld : stage.held? = l.stage.held?) :
    Balanced n (s.moveLoop i l stage) where
  numbered := h.numbered
  balance task htask := by
    have hbalance := h.balance task htask
    have hmoved := countP_holds_goTo hl rfl hheld task
    simp only [afoot, Upkeep.moveLoop] at hbalance ⊢
    rw [Nat.add_right_cancel hmoved]
    exact hbalance

/-- A task that is taken out of the queue is in the hand of the loop. -/
theorem take (h : Balanced n s) {i : Nat} {l : UpkeepLoop} (hl : s.loops[i]? = some l)
    (hnone : l.stage.held? = none) {now : Time} {other : Task} {rest : TodoQueue}
    (hpop : (s.todo n).pop? now = some (other, rest)) : Balanced n (s.take n i l other rest) := by
  have htodo : (s.take n i l other rest).todo n = rest := s.cluster.todo_modifyTodo n fun _ => rest
  have hrunning : (s.take n i l other rest).isRunning n = s.isRunning n :=
    s.cluster.isRunning_modifyTodo n _
  refine ⟨?_, fun task htask => ?_⟩
  · rw [htodo]
    exact h.numbered.pop? hpop
  · have hbalance := h.balance task htask
    have htaken := h.numbered.countP_pop? hpop fun t => decide (t = task)
    have hmoved := countP_set_add (p := UpkeepLoop.holds task) hl (l.take other)
    have hbefore : l.holds task = false := by simp [UpkeepLoop.holds, hnone]
    have hafter : (l.take other).holds task = decide (other = task) := by
      simp [UpkeepLoop.holds, UpkeepLoop.take, LoopStage.held?]
    rw [hbefore, hafter, Bool.toNat_false] at hmoved
    rw [htodo, hrunning]
    simp only [TodoQueue.count, afoot, Upkeep.take] at hbalance htaken ⊢
    omega

/-- A task that is handed over goes from the loop to a worker. -/
theorem handOver (h : Balanced n s) {i : Nat} {l : UpkeepLoop} (hl : s.loops[i]? = some l)
    {other : Task} (hother : l.stage.held? = some other) : Balanced n (s.handOver i l other) := by
  refine ⟨h.numbered, fun task htask => ?_⟩
  have hbalance := h.balance task htask
  have htop : LoopStage.top.held? = none := rfl
  have hmoved := countP_holds_goTo hl hother htop task
  have hnew : Duty.holds task { task := other, late := l.late } =
      (!l.late && decide (other = task)) := by
    simp [Duty.holds, DutyStage.isOver]
  simp only [reduceCtorEq, decide_false, Bool.and_false, Bool.toNat_false,
    Option.some.injEq] at hmoved
  simp only [afoot, Upkeep.handOver, List.countP_append, countP_cons_toNat, List.countP_nil,
    hnew] at hbalance ⊢
  simp only [todo, isRunning] at hbalance ⊢
  omega

/-- A task with which a loop ends has come to nothing. -/
theorem drop (h : Balanced n s) {i : Nat} {l : UpkeepLoop} (hl : s.loops[i]? = some l)
    {other : Task} (hother : l.stage.held? = some other) : Balanced n (s.drop i l other) := by
  refine ⟨h.numbered, fun task htask => ?_⟩
  have hbalance := h.balance task htask
  have hended : LoopStage.ended.held? = none := rfl
  have hmoved := countP_holds_goTo hl hother hended task
  simp only [reduceCtorEq, decide_false, Bool.and_false, Bool.toNat_false,
    Option.some.injEq] at hmoved
  simp only [afoot, Upkeep.drop, count_shedding] at hbalance ⊢
  simp only [todo, isRunning] at hbalance ⊢
  omega

theorem goOn (h : Balanced n s) {i : Nat} {l : UpkeepLoop} (hl : s.loops[i]? = some l)
    (ready : Bool) : Balanced n (s.goOn n i l ready) := by
  cases hstage : l.stage with
  | top =>
    simp only [Upkeep.goOn, hstage]
    refine h.moveLoop hl ?_
    rw [hstage]
    split <;> rfl
  | looking now =>
    have hnone : l.stage.held? = none := by rw [hstage]; rfl
    simp only [Upkeep.goOn, hstage]
    split
    · next task rest hpop => exact h.take hl hnone hpop
    · refine h.moveLoop hl ?_
      rw [hnone]
      split
      · rfl
      · split <;> rfl
  | carrying task =>
    have htask : l.stage.held? = some task := by rw [hstage]; rfl
    simp only [Upkeep.goOn, hstage]
    split
    · exact h.handOver hl htask
    · split
      · exact h.drop hl htask
      · exact h.moveLoop hl htask.symm
  | waiting task =>
    have htask : l.stage.held? = some task := by rw [hstage]; rfl
    simp only [Upkeep.goOn, hstage]
    split
    · exact h.handOver hl htask
    · exact h
  | asleep =>
    simp only [Upkeep.goOn, hstage]
    exact h.moveLoop hl (by rw [hstage]; rfl)
  | ended =>
    simp only [Upkeep.goOn, hstage]
    exact h

/-- A worker that moves on keeps its task in hand, or is through with a job. -/
theorem moveDuty (h : Balanced n s) {k : Nat} {d : Duty} (hd : s.duties[k]? = some d)
    (hbusy : d.stage.isOver = false) {stage : DutyStage}
    (hstage : stage.isOver = false ∨ d.task.job? ≠ none) :
    Balanced n { s with duties := s.duties.set k (d.goTo stage) } := by
  refine ⟨h.numbered, fun task htask => ?_⟩
  have hsame : (s.duties.set k (d.goTo stage)).countP (Duty.holds task) =
      s.duties.countP (Duty.holds task) := by
    rcases hstage with hstage | hjob
    · exact countP_holds_set hd hbusy hstage task
    · refine countP_set_of_eq hd ?_
      have hother : d.task ≠ task := fun heq => hjob (heq ▸ htask)
      simp [Duty.holds, hother]
  have hbalance := h.balance task htask
  simp only [afoot] at hbalance ⊢
  rw [hsame]
  exact hbalance

/-- A worker that does its task has it in hand still. -/
theorem perform (h : Balanced n s) {k : Nat} {d : Duty} (hd : s.duties[k]? = some d) :
    Balanced n (s.perform n k d) := by
  cases hstage : d.stage with
  | ahead =>
    have hbusy : d.stage.isOver = false := by rw [hstage]; rfl
    obtain ⟨hsame, hrunning⟩ := s.cluster.sameUpkeep_housekeep n d.task
    simp only [Upkeep.perform, hstage]
    split
    · next next c hhousekeep =>
      rw [hhousekeep] at hsame hrunning
      exact (h.of_cluster hsame hrunning).moveDuty hd hbusy (.inl rfl)
    · next c hhousekeep =>
      have hjob : d.task.job? ≠ none := by
        intro hnone
        cases htask : d.task with
        | job job =>
          rw [htask] at hnone
          cases hnone
        | loadImmediate | upgradeJobs | checkStaleNodes =>
          rw [htask] at hhousekeep
          simp [Cluster.housekeep] at hhousekeep
      rw [hhousekeep] at hsame hrunning
      exact (h.of_cluster hsame hrunning).moveDuty hd hbusy (.inr hjob)
  | done next | cleared next | ended =>
    simp only [Upkeep.perform, hstage]
    exact h

/-- A worker that has looked whether the scheduler runs keeps its task, or gives it up. -/
theorem look (h : Balanced n s) {k : Nat} {d : Duty} (hd : s.duties[k]? = some d) :
    Balanced n (s.look n k d) := by
  cases hstage : d.stage with
  | done next =>
    have hbusy : d.stage.isOver = false := by rw [hstage]; rfl
    simp only [Upkeep.look, hstage]
    split
    · exact h.moveDuty hd hbusy (.inl rfl)
    · refine ⟨h.numbered, fun task htask => ?_⟩
      have hbalance := h.balance task htask
      have hover := countP_holds_over hd hbusy task
      simp only [afoot, count_shedding, todo, isRunning] at hbalance ⊢
      omega
  | ahead | cleared next | ended =>
    simp only [Upkeep.look, hstage]
    exact h

/-- A task that is queued again is back in the queue, or has come over a stop. -/
theorem requeue (h : Balanced n s) {k : Nat} {d : Duty} (hd : s.duties[k]? = some d) :
    Balanced n (s.requeue n k d) := by
  cases hstage : d.stage with
  | cleared next =>
    have hbusy : d.stage.isOver = false := by rw [hstage]; rfl
    have htodo := s.cluster.todo_modifyTodo n fun q => q.push d.task next
    have hrunning := s.cluster.isRunning_modifyTodo n fun q => q.push d.task next
    simp only [Upkeep.requeue, hstage]
    refine ⟨?_, fun task htask => ?_⟩
    · simp only [todo, htodo]
      exact h.numbered.push d.task next
    · have hbalance := h.balance task htask
      have hover := countP_holds_over hd hbusy task
      have hstrays : (s.strays ++ if d.late then [d.task] else []).count task =
          s.strays.count task + (d.late && decide (d.task = task)).toNat := by
        rw [List.count_append]
        cases d.late with
        | true => by_cases hsame : d.task = task <;> simp [hsame]
        | false => simp
      simp only [afoot, todo, isRunning, htodo, hrunning, TodoQueue.count_push, hstrays]
        at hbalance ⊢
      cases hlate : d.late <;> simp only [hlate, Bool.not_true, Bool.not_false, Bool.false_and,
        Bool.true_and, Bool.toNat_false] at hover ⊢ <;> omega
  | ahead | done next | ended =>
    simp only [Upkeep.requeue, hstage]
    exact h

/-- A start queues every housekeeping task once. -/
theorem start (h : Balanced n s) (insideRuntime : Bool) :
    Balanced n (s.step n (.start insideRuntime)) := by
  rcases s.cluster.start_cases n insideRuntime with hsame | ⟨hstopped, hstarted⟩
  · simp only [Upkeep.step, hsame]
    split
    · next hstarts => simp [isRunning] at hstarts
    · exact h
  · have hbefore : s.isRunning n = false := hstopped
    have hafter : ((s.cluster.start n insideRuntime).2.node n).scheduler.isRunning = true := by
      rw [hstarted]
      rfl
    have hstep : s.step n (.start insideRuntime) = { s with
        cluster := (s.cluster.start n insideRuntime).2
        loops := s.loops ++ [{}] } := by
      simp only [Upkeep.step, hbefore, hafter]
      rfl
    rw [hstep]
    refine ⟨?_, fun task htask => ?_⟩
    · simp only [todo, hstarted]
      exact ((h.numbered.push _ _).push _ _).push _ _
    · have hbalance := h.balance task htask
      have hnew : UpkeepLoop.holds task {} = false := rfl
      have hqueued : ((s.cluster.start n insideRuntime).2.node n).scheduler.todo.count task =
          (s.todo n).count task + 1 := by
        rw [hstarted]
        exact (s.cluster.node n).scheduler.count_start htask _ _
      rw [hbefore] at hbalance
      simp only [afoot] at hbalance
      simp only [todo] at hbalance hqueued
      simp only [afoot, todo, isRunning, hqueued, hafter, List.countP_append, countP_cons_toNat,
        List.countP_nil, hnew]
      simp only [Bool.toNat_false, Bool.toNat_true] at hbalance ⊢
      omega

/-- After a stop there is no copy but those that loops and workers have taken out before. -/
theorem stop (h : Balanced n s) : Balanced n (s.step n .stop) := by
  simp only [Upkeep.step]
  split
  · have hscheduler : ((s.cluster.stop n).node n).scheduler = (s.cluster.node n).scheduler.stop :=
      s.cluster.scheduler_modifyScheduler n Scheduler.stop
    have hloops : ∀ task, (s.loops.map UpkeepLoop.stop).countP (UpkeepLoop.holds task) = 0 := by
      intro task
      rw [List.countP_map]
      exact List.countP_eq_zero.mpr fun l _ => by simp [UpkeepLoop.holds, UpkeepLoop.stop]
    have hduties : ∀ task, (s.duties.map Duty.stop).countP (Duty.holds task) = 0 := by
      intro task
      rw [List.countP_map]
      exact List.countP_eq_zero.mpr fun d _ => by simp [Duty.holds, Duty.stop]
    next hrunning =>
    have hstopped : (s.cluster.node n).scheduler.stop = { (s.cluster.node n).scheduler with
        phase := .stopped
        heartbeatDue := false
        todo := (s.todo n).clearForStop.2 } := if_pos hrunning
    rw [hstopped] at hscheduler
    refine ⟨?_, fun task htask => ?_⟩
    · simp only [todo, hscheduler]
      exact h.numbered.of_sublist List.filter_sublist rfl
    · have hcleared := (s.todo n).count_clearForStop htask
      simp only [afoot, todo, isRunning, hscheduler, hloops, hduties] at hcleared ⊢
      rw [hcleared]
      rfl
  · exact h

/-- The balance is kept by every step. -/
theorem step (h : Balanced n s) (m : UpkeepStep η ω n) : Balanced n (s.step n m) := by
  cases m with
  | start insideRuntime => exact h.start insideRuntime
  | stop => exact h.stop
  | proceed i ready =>
    simp only [Upkeep.step]
    split
    · next l hl => exact h.goOn hl ready
    · exact h
  | perform k =>
    simp only [Upkeep.step]
    split
    · next d hd => exact h.perform hd
    · exact h
  | look k =>
    simp only [Upkeep.step]
    split
    · next d hd => exact h.look hd
    · exact h
  | requeue k =>
    simp only [Upkeep.step]
    split
    · next d hd => exact h.requeue hd
    · exact h
  | aside what => exact h.of_cluster (what.same s.cluster) (what.running s.cluster)

/-- The balance is kept by every history. -/
theorem play (h : Balanced n s) (steps : List (UpkeepStep η ω n)) :
    Balanced n (s.play n steps) := by
  induction steps generalizing s with
  | nil => exact h
  | cons m rest ih => exact ih (h.step m)

end Balanced

/-! ## At most one copy -/

/-- In every history of starts, stops, loops and workers, the copies of a housekeeping task in the
queue, in the hands of loops and workers (which took them out since the last stop), and come to
nothing since then are as many as there have been put in since then: the one of the start, if the
scheduler is running, and those that workers have queued again after having been handed them before
the stop. So the queue holds at most one copy exactly if the second kind does not outweigh what is
under way or gone; and without any such copy it holds at most one, even together with what is under
way. -/
theorem one_copy_iff {c : Cluster η ω} (hnumbered : (c.node n).scheduler.todo.Numbered)
    (hempty : ∀ task : Task, task.job? = none → (c.node n).scheduler.todo.count task = 0)
    (hstopped : (c.node n).scheduler.isRunning = false) (steps : List (UpkeepStep η ω n))
    (task : Task) (htask : task.job? = none) :
    let s := ({ cluster := c } : Upkeep η ω).play n steps
    (s.todo n).count task + s.afoot task + s.shed.count task =
        (s.isRunning n).toNat + s.strays.count task ∧
      ((s.todo n).count task ≤ 1 ↔
        (s.isRunning n).toNat + s.strays.count task ≤ 1 + s.afoot task + s.shed.count task) ∧
      (task ∉ s.strays → (s.todo n).count task + s.afoot task ≤ 1) := by
  intro s
  have hstart : Balanced n ({ cluster := c } : Upkeep η ω) := by
    refine ⟨hnumbered, fun task htask => ?_⟩
    have hcount := hempty task htask
    simp only [todo, isRunning, afoot, hcount, hstopped]
    rfl
  have hs : Balanced n s := hstart.play steps
  have hbalance := hs.balance task htask
  have hone : (s.isRunning n).toNat ≤ 1 := Bool.toNat_le _
  refine ⟨hbalance, ⟨fun _ => by omega, fun _ => by omega⟩, fun hstrays => ?_⟩
  have hnone : s.strays.count task = 0 := List.count_eq_zero.mpr hstrays
  omega

/-- The scheduler starts, and a worker is handed the load pass; the scheduler is stopped meanwhile. -/
def interruptedPass : List (UpkeepStep Unit Unit "a") :=
  [.start true, .proceed 0 true, .proceed 0 true, .proceed 0 true, .perform 0, .stop]

/-- If the worker looks before the scheduler is started anew, it does not queue the load pass
again, and there is one copy of it. -/
theorem one_copy_iff_interruptedPass :
    let s := ({ cluster := .blank } : Upkeep Unit Unit).play "a"
      (interruptedPass ++ [.look 0, .requeue 0, .start true])
    (s.todo "a").count .loadImmediate = 1 ∧
      (s.todo "a").count .loadImmediate + s.afoot .loadImmediate ≤ 1 := by
  have hone := one_copy_iff (c := .blank) TodoQueue.numbered_empty (fun _ _ => rfl) rfl
    (interruptedPass ++ [.look 0, .requeue 0, .start true]) .loadImmediate rfl
  exact ⟨by decide +kernel, hone.2.2 (by decide +kernel)⟩

/-- If the scheduler is started anew before the worker looks, the worker queues the load pass again,
and there are two copies of it; the same happens if the worker has looked before the stop. -/
theorem two_copies_after_restart :
    let late := ({ cluster := .blank } : Upkeep Unit Unit).play "a"
      (interruptedPass ++ [.start true, .look 0, .requeue 0])
    let early := ({ cluster := .blank } : Upkeep Unit Unit).play "a"
      [.start true, .proceed 0 true, .proceed 0 true, .proceed 0 true, .perform 0, .look 0, .stop,
        .requeue 0, .start true]
    (late.todo "a").count .loadImmediate = 2 ∧ (early.todo "a").count .loadImmediate = 2 := by
  exact ⟨by decide +kernel, by decide +kernel⟩

end Upkeep

end JobCluster
