import JobCluster.Proofs.Job.FailedRun
import JobCluster.Proofs.Job.Passage
/-!
# What a run is counted as

The job store counts a job when it is taken out, as done or as dropped, and the scheduler counts the
run when it is over, as completed or as failed. Between the two counts the transaction of the run
comes to its end, so they agree unless that end is not the one that the first count has announced.

A number is followed through a passage by what the steps of the run add to it. What the handler and
the callbacks of the application do, and whatever else happens, is left out.

Main results:

- `Passage.balance_step`, `Passage.total_done`: what is counted as done has been denied its commit,
  or is counted as completed;
- `Passage.total_dropped_le`: a run drops one job at most;
- `Passage.counts_agree_iff`: exactly when the two counts agree.
-/

namespace JobCluster

variable {η ω : Type}

/-! ## What steps count -/

namespace JobStore

variable {s t : JobStore} {id : JobId} {node : NodeId}

/-- A claim counts no job. -/
theorem counts_claim {held : JobRecord} (h : s.claim id node = .ok (held, t)) :
    t.done = s.done ∧ t.dropped = s.dropped := by
  obtain ⟨_, _, _, _, _, rfl⟩ := (claim_eq_ok_iff s t id node held).mp h
  exact ⟨rfl, rfl⟩

/-- A job that is done counts as done once, and not as dropped. -/
theorem done_finish (h : s.finish id node .done = .ok t) :
    t.done = s.done + 1 ∧ t.dropped = s.dropped := by
  obtain ⟨_, _, rfl⟩ := (finish_eq_ok_iff s t id node .done).mp h
  exact ⟨rfl, rfl⟩

/-- A publication counts no job. -/
theorem counts_publish (s : JobStore) (id : JobId) :
    (s.orSelf (s.publish id)).done = s.done ∧ (s.orSelf (s.publish id)).dropped = s.dropped := by
  unfold publish
  rw [orSelf_guarded]
  split
  · split
    · exact ⟨rfl, rfl⟩
    · split <;> exact ⟨rfl, rfl⟩
  · exact ⟨rfl, rfl⟩

/-- A job that is discarded counts neither as done nor as dropped. -/
theorem counts_discard (s : JobStore) (id : JobId) :
    (s.discard id).done = s.done ∧ (s.discard id).dropped = s.dropped := by
  unfold discard
  split
  · split <;> exact ⟨rfl, rfl⟩
  · exact ⟨rfl, rfl⟩

/-- A job is dropped for a node that holds it while the store is available. -/
theorem counts_drop (s : JobStore) (id : JobId) (node : NodeId) :
    (s.orSelf (s.finish id node .failedDropped)).done = s.done ∧
      (s.orSelf (s.finish id node .failedDropped)).dropped =
        s.dropped + (s.available && s.heldBy? id == some node).toNat := by
  cases hfinish : s.finish id node .failedDropped with
  | ok t =>
      obtain ⟨havailable, ⟨r, hr, hstate⟩, rfl⟩ :=
        (finish_eq_ok_iff s t id node .failedDropped).mp hfinish
      have hheld : s.heldBy? id = some node := heldBy?_eq_some.mpr ⟨r, hr, hstate⟩
      simp [orSelf, havailable, hheld, count, remove]
  | error e =>
      have hnot : (s.available && s.heldBy? id == some node) = false := by
        refine Bool.eq_false_iff.mpr fun h => ?_
        obtain ⟨havailable, hheld⟩ := Bool.and_eq_true_iff.mp h
        have hsome := (finish_eq_ok_iff s _ id node .failedDropped).mpr
          ⟨havailable, heldBy?_eq_some.mp (beq_iff_eq.mp hheld), rfl⟩
        rw [hfinish] at hsome
        cases hsome
      simp [orSelf, hnot]

end JobStore

/-- Whether a callback is one of the application. -/
def Callback.isGuest : Callback η → Bool
  | .custom _ => true
  | _ => false

/-- Whether a callback is to drop a job still. -/
def Callback.isArmed : Callback η → Bool
  | .drop _ _ armed => armed
  | _ => false

/-- Whether a callback that is carried out in a cluster drops a job. -/
def Callback.dropsIn (c : Cluster η ω) : Callback η → Bool
  | .drop n id armed => armed && (c.jobs.available && c.jobs.heldBy? id == some (c.nodeId n))
  | _ => false

/-- A callback that drops a job has not done so yet. -/
theorem Callback.isArmed_of_dropsIn {c : Cluster η ω} {callback : Callback η}
    (h : callback.dropsIn c = true) : callback.isArmed = true := by
  cases callback with
  | drop n id armed => exact (Bool.and_eq_true_iff.mp h).1
  | publish | queue | applyWrites | withdraw | custom => cases h

namespace JobStage

/-- The callback that is run next. -/
def next? : JobStage η → Option (Callback η)
  | .preparing _ (callback :: _) | .concluding _ (callback :: _) _ => some callback
  | _ => none

/-- Whether the next step is one of the application. -/
def isGuest (stage : JobStage η) : Bool :=
  stage matches .handling || stage.next?.any Callback.isGuest

/-- Whether a run has taken its job out and may still be counted as completed. -/
def isPromising : JobStage η → Bool
  | .released | .preparing _ _ => true
  | .failing ending | .concluding _ _ ending | .ended ending => ending == some .completed
  | .opened | .handling | .handled => false

end JobStage

namespace Cluster

/-- A callback that is not one of the application counts a job exactly if it drops it. -/
theorem counts_runCallback (app : Application η ω) (thread : Thread) (phase : Phase)
    (c : Cluster η ω) {callback : Callback η} (h : callback.isGuest = false) :
    (runCallback app thread callback phase c).2.jobs.done = c.jobs.done ∧
      (runCallback app thread callback phase c).2.jobs.dropped =
        c.jobs.dropped + (callback.dropsIn c).toNat := by
  have hjobs := jobs_carryOut app thread phase c callback
  cases callback with
  | custom script => cases h
  | publish n plan =>
      have hrun : (runCallback app thread (.publish n plan) phase c).2.jobs = _ := hjobs
      rw [hrun]
      simp only [callbackCall]
      split
      · exact c.jobs.counts_publish plan.record.id
      · exact c.jobs.counts_discard plan.record.id
  | drop n id armed =>
      have hrun : (runCallback app thread (.drop n id armed) phase c).2.jobs = _ := hjobs
      rw [hrun]
      cases armed with
      | false => exact ⟨rfl, rfl⟩
      | true => exact c.jobs.counts_drop id (c.nodeId n)
  | queue n info => exact ⟨rfl, rfl⟩
  | applyWrites tx =>
      have hrun : (runCallback app thread (.applyWrites tx) phase c).2.jobs = _ := hjobs
      rw [hrun]
      exact ⟨rfl, rfl⟩
  | withdraw n id => exact ⟨rfl, rfl⟩

end Cluster

namespace JobRun

variable {app : Application η ω} {info : JobInfo} {r : JobRun η} {c d : Cluster η ω}
  {stage : JobStage η}

/-- Whether the transaction of a run that has taken its job out is denied its commit: it cannot
commit, or the resource manager refuses to. -/
def isDenied (r : JobRun η) (c : Cluster η ω) : Bool :=
  match r.stage with
  | .released => ((c.transaction? r.tx).filter Transaction.canCommit).isNone
  | .preparing _ [] => c.resource.refusesCommit
  | _ => false

/-- A run that gives its transaction up ends as completed no longer if its commit is denied. -/
theorem isPromising_of_givesUp? {ending : Option JobEnd} (h : r.givesUp? c = some ending) :
    r.stage.next? = none ∧
      r.stage.isPromising.toNat = (ending == some .completed).toNat + (r.isDenied c).toNat := by
  rcases givesUp?_cases h with hstage | ⟨hstage, rfl, hnone⟩
  · simp [JobStage.isPromising, isDenied, hstage, JobStage.next?]
  · simp [JobStage.isPromising, isDenied, hstage, hnone, JobStage.next?]

/-- A run whose body failed is not completed. -/
theorem endOf_body_ne_completed (e : JobFailure) :
    Cluster.endOf (.error (.body e)) ≠ .completed := by
  cases e <;> simp [Cluster.endOf]

/-- Whether the next step of a run drops a job. -/
def drops (r : JobRun η) (c : Cluster η ω) : Bool := r.stage.next?.any (Callback.dropsIn c)

/-- What a step of a run counts as done is promised to be counted as completed, and such a promise
is kept, or the commit is denied. It counts a job as dropped exactly if it drops it. -/
theorem Turn.counts (h : Turn app info r c stage d) (hguest : r.stage.isGuest = false) :
    c.jobs.done ≤ d.jobs.done ∧
      d.jobs.done + r.stage.isPromising.toNat =
        c.jobs.done + stage.isPromising.toNat + (r.isDenied c).toNat ∧
      d.jobs.dropped = c.jobs.dropped + (r.drops c).toNat := by
  cases h with
  | claimed hstage hclaim =>
      obtain ⟨hdone, hdropped⟩ := JobStore.counts_claim hclaim
      simp [hstage, JobStage.isPromising, isDenied, drops, JobStage.next?, Cluster.register, hdone,
        hdropped]
  | unclaimed hstage hclaim =>
      simp [hstage, JobStage.isPromising, isDenied, drops, JobStage.next?,
        endOf_body_ne_completed]
  | handled hstage =>
      rw [hstage] at hguest
      cases hguest
  | released hstage hfinish =>
      obtain ⟨hdone, hdropped⟩ := JobStore.done_finish hfinish
      simp [hstage, JobStage.isPromising, isDenied, drops, JobStage.next?, hdone, hdropped]
  | unreleased hstage hfinish =>
      simp [hstage, JobStage.isPromising, isDenied, drops, JobStage.next?,
        endOf_body_ne_completed]
  | prepared hstage ht hcan =>
      simp [hstage, JobStage.isPromising, isDenied, drops, JobStage.next?, ht, Option.filter, hcan]
  | withdrawn resource hends ht | bereft hends ht =>
      obtain ⟨hnext, hpromising⟩ := isPromising_of_givesUp? hends
      simp only [hpromising, drops, hnext, Cluster.modifyManager, Cluster.jobs_modifyNode]
      exact ⟨Nat.le_refl _, (Nat.add_assoc _ _ _).symm, rfl⟩
  | committed resource hstage hgrants =>
      simp [hstage, JobStage.isPromising, isDenied, drops, JobStage.next?, hgrants,
        Cluster.modifyManager]
  | refused resource hstage hrefuses =>
      simp [hstage, JobStage.isPromising, isDenied, drops, JobStage.next?, hrefuses,
        Cluster.modifyManager]
  | @before _ callback _ hstage =>
      have hcallback : callback.isGuest = false := by
        simpa [hstage, JobStage.isGuest, JobStage.next?] using hguest
      obtain ⟨hdone, hdropped⟩ := Cluster.counts_runCallback app r.thread .before c hcallback
      simp [hstage, JobStage.isPromising, isDenied, drops, JobStage.next?, hdone, hdropped]
  | @after committed callback _ _ hstage =>
      have hcallback : callback.isGuest = false := by
        simpa [hstage, JobStage.isGuest, JobStage.next?] using hguest
      obtain ⟨hdone, hdropped⟩ :=
        Cluster.counts_runCallback app r.thread (.after committed) c hcallback
      simp [hstage, JobStage.isPromising, isDenied, drops, JobStage.next?, hdone, hdropped]
  | concluded hstage =>
      simp [hstage, JobStage.isPromising, isDenied, drops, JobStage.next?]

/-- What the application does makes no promises. -/
theorem Turn.isPromising_of_isGuest (h : Turn app info r c stage d)
    (hguest : r.stage.isGuest = true) :
    stage.isPromising = r.stage.isPromising ∧ r.isDenied c = false ∧ r.drops c = false := by
  cases h with
  | handled hstage =>
      rw [hstage]
      refine ⟨?_, ?_, ?_⟩
      · rcases (Cluster.process app r.node r.thread info (some r.tx) c).1 with _ | _ | _
        · rfl
        · simp [stageHandled, JobStage.isPromising, endOf_body_ne_completed]
        · rfl
      · simp [isDenied, hstage]
      · simp [drops, hstage, JobStage.next?]
  | @before _ callback _ hstage | @after _ callback _ _ hstage =>
      rw [hstage] at hguest ⊢
      refine ⟨rfl, by simp [isDenied, hstage], ?_⟩
      cases callback with
      | custom script => simp [drops, hstage, JobStage.next?, Callback.dropsIn]
      | publish | queue | drop | applyWrites | withdraw => cases hguest
  | withdrawn resource hends ht | bereft hends ht =>
      rcases givesUp?_cases hends with hstage | ⟨hstage, -, -⟩ <;>
        · rw [hstage] at hguest
          cases hguest
  | claimed hstage _ | unclaimed hstage _ | released hstage _ | unreleased hstage _
  | prepared hstage _ _ | committed _ hstage _ | refused _ hstage _ | concluded hstage =>
      rw [hstage] at hguest
      cases hguest

/-! ## Counts of the scheduler -/

end JobRun

/-- The number of runs that a scheduler has counted as ended so. -/
def Scheduler.counted (s : Scheduler) : JobEnd → Nat
  | .completed => s.completed
  | .failed => s.failed
  | .lostClaim => s.lostClaims

/-- The end of a run counts once, for the ending that it had. -/
theorem Scheduler.counted_count (s : Scheduler) (ending other : JobEnd) :
    (s.count ending).counted other = s.counted other + if ending = other then 1 else 0 := by
  cases ending <;> cases other <;> rfl

namespace Cluster

/-- The number of runs that the scheduler of a node has counted as ended so. -/
def counted (c : Cluster η ω) (n : NodeName) (ending : JobEnd) : Nat :=
  (c.node n).scheduler.counted ending

/-- A change to a node that leaves the counts there leaves the counts of all nodes. -/
theorem counted_modifyNode (c : Cluster η ω) (n m : NodeName) {f : Node η → Node η}
    (h : (f (c.node n)).scheduler.counted = (c.node n).scheduler.counted) (ending : JobEnd) :
    (c.modifyNode n f).counted m ending = c.counted m ending := by
  unfold counted
  rw [node_modifyNode]
  split
  · next hnm => rw [h, hnm]
  · rfl

/-- A change to a queue counts nothing. -/
theorem counted_modifyTodo (c : Cluster η ω) (n m : NodeName) (f : TodoQueue → TodoQueue)
    (ending : JobEnd) : (c.modifyTodo n f).counted m ending = c.counted m ending :=
  c.counted_modifyNode n m (funext fun other => by cases other <;> rfl) ending

/-- A callback that is not one of the application counts no run. -/
theorem counted_runCallback (app : Application η ω) (thread : Thread) (phase : Phase)
    (c : Cluster η ω) {callback : Callback η} (h : callback.isGuest = false) (n : NodeName)
    (ending : JobEnd) :
    (runCallback app thread callback phase c).2.counted n ending = c.counted n ending := by
  cases callback with
  | custom script => cases h
  | publish m plan =>
      simp only [runCallback, settleStaged]
      split
      · split
        · rfl
        · split
          · exact counted_modifyTodo _ m n _ ending
          · rfl
      · rfl
  | queue m info => exact c.counted_modifyTodo m n _ ending
  | drop m id armed =>
      simp only [runCallback, dropClaimed]
      split
      · split <;> rfl
      · rfl
  | applyWrites tx =>
      refine announce_induction (P := fun d => d.counted n ending = c.counted n ending) app
        (fun d m f hd => ?_) (fun _ _ hd => hd) _ _ rfl
      exact (d.counted_modifyNode m n rfl ending).trans hd
  | withdraw m id => exact c.counted_modifyNode m n rfl ending

end Cluster

/-- A step of a run counts no run, as long as the run has not ended. -/
theorem JobRun.Turn.counted {app : Application η ω} {info : JobInfo} {r : JobRun η}
    {c d : Cluster η ω} {stage : JobStage η} (h : Turn app info r c stage d)
    (hguest : r.stage.isGuest = false) (n : NodeName) (ending : JobEnd) :
    d.counted n ending = c.counted n ending := by
  cases h with
  | claimed | unclaimed | released | unreleased | prepared | bereft | concluded => rfl
  | handled hstage =>
      rw [hstage] at hguest
      cases hguest
  | withdrawn | committed | refused => exact Cluster.counted_modifyNode _ _ n rfl ending
  | before hstage | after hstage =>
      refine Cluster.counted_runCallback app r.thread _ c ?_ n ending
      simpa [hstage, JobStage.isGuest, JobStage.next?] using hguest

/-- A step of a run outside any transaction counts no run, as long as the run has not ended. -/
theorem JobRun.counted_goOnPlain {app : Application η ω} {info : JobInfo} {r : JobRun η}
    (c : Cluster η ω) (hguest : r.stage.isGuest = false) (n : NodeName) (ending : JobEnd) :
    (r.goOnPlain app info c).2.counted n ending = c.counted n ending := by
  unfold goOnPlain
  cases hstage : r.stage with
  | handling =>
      rw [hstage] at hguest
      cases hguest
  | opened =>
      simp only [Cluster.claim]
      split
      · next hclaim => split at hclaim <;> cases hclaim; rfl
      · next hclaim => split at hclaim <;> cases hclaim; rfl
  | handled =>
      simp only [Cluster.finishClaim]
      split
      · next hfinish => split at hfinish <;> cases hfinish; rfl
      · next hfinish => split at hfinish <;> cases hfinish; rfl
  | failing other =>
      cases other with
      | none => rfl
      | some other =>
          simp only [Cluster.finishClaim]
          split
          · next hfinish => split at hfinish <;> cases hfinish; rfl
          · next hfinish => split at hfinish <;> cases hfinish; rfl
  | released | preparing | concluding | ended => rfl

namespace Passage

variable {app : Application η ω} {job : JobRecord} {p : Passage η ω} {m : Move η ω}
  {moves : List (Move η ω)}

/-! ## Sums over a passage -/

/-- Adds up a number over the moves of a passage. -/
def total (app : Application η ω) (job : JobRecord) (f : Passage η ω → Move η ω → Nat) :
    Passage η ω → List (Move η ω) → Nat
  | _, [] => 0
  | p, m :: rest => f p m + total app job f (p.step app job m) rest

/-- What agrees throughout adds up to the same. -/
theorem total_congr {f g : Passage η ω → Move η ω → Nat}
    (h : Throughout app job (fun p m => f p m = g p m) p moves) :
    total app job f p moves = total app job g p moves := by
  induction moves generalizing p with
  | nil => rfl
  | cons m rest ih => rw [total, total, h.1, ih h.2]

/-- Something happens never if it adds up to nothing. -/
theorem total_toNat_eq_zero_iff (b : Passage η ω → Move η ω → Bool) :
    total app job (fun p m => (b p m).toNat) p moves = 0 ↔
      Throughout app job (fun p m => b p m = false) p moves := by
  induction moves generalizing p with
  | nil => simp [total, Throughout]
  | cons m rest ih => simp [total, Throughout, ih]

/-- What a move adds to a number of the cluster, if it is a step of the run itself. -/
def gain (app : Application η ω) (job : JobRecord) (f : Cluster η ω → Nat) (p : Passage η ω) :
    Move η ω → Nat
  | .proceed =>
    if p.run.stage.isGuest then 0 else f (p.proceed app job).cluster - f p.cluster
  | .meanwhile _ => 0

/-- Whether a move denies the run its commit. -/
def isDenied (p : Passage η ω) : Move η ω → Bool
  | .proceed => p.run.isDenied p.cluster
  | .meanwhile _ => false

/-- Whether a move drops the job of a run that is not to be counted as failed. -/
def isUndermined (p : Passage η ω) : Move η ω → Bool
  | .proceed => p.run.drops p.cluster && p.run.stage.ending?.any (· != some .failed)
  | .meanwhile _ => false

/-! ## Done and completed -/

/-- What a move counts as done is promised to be counted as completed, and such a promise is kept,
or the commit is denied. -/
theorem balance_step (app : Application η ω) (htransacted : job.transacted = true)
    (p : Passage η ω) (m : Move η ω) :
    gain app job (fun c => c.jobs.done) p m + p.run.stage.isPromising.toNat =
      (p.step app job m).run.stage.isPromising.toNat + (p.isDenied m).toNat := by
  cases m with
  | meanwhile c => simp [gain, step, isDenied]
  | proceed =>
      simp only [gain, step, isDenied]
      rcases p.proceed_cases app htransacted with
        ⟨ending, hstage, hrun, hjobs⟩ | ⟨stage, hrun, hturn⟩
      · have hdenied : p.run.isDenied p.cluster = false := by simp [JobRun.isDenied, hstage]
        simp [hrun, hjobs, hdenied]
      · rw [hrun, JobRun.stage_moveTo]
        cases hguest : p.run.stage.isGuest with
        | true =>
            obtain ⟨hpromising, hdenied, _⟩ := hturn.isPromising_of_isGuest hguest
            simp [hpromising, hdenied]
        | false =>
            obtain ⟨hle, hdone, _⟩ := hturn.counts hguest
            simp only [Bool.false_eq_true, if_false]
            omega

/-- Over a whole passage, what is counted as done has been denied its commit, or is to be counted as
completed. -/
theorem total_done (app : Application η ω) (htransacted : job.transacted = true)
    (p : Passage η ω) (moves : List (Move η ω)) :
    total app job (gain app job fun c => c.jobs.done) p moves + p.run.stage.isPromising.toNat =
      (p.play app job moves).run.stage.isPromising.toNat +
        total app job (fun p m => (p.isDenied m).toNat) p moves := by
  induction moves generalizing p with
  | nil => simp [total, play]
  | cons m rest ih =>
      have hstep := balance_step app htransacted p m
      have hrest := ih (p.step app job m)
      simp only [total]
      show _ = ((p.step app job m).play app job rest).run.stage.isPromising.toNat + _
      omega

/-! ## Runs that are counted -/

/-- A run stays on its node. -/
theorem node_step (p : Passage η ω) (m : Move η ω) :
    (p.step app job m).run.node = p.run.node := by
  cases m with
  | meanwhile c => rfl
  | proceed =>
      simp only [step, proceed]
      split
      · split <;> rfl
      · rfl

/-- A scheduler that is done with a run stays so after a move. -/
theorem isOver_step (h : p.isOver = true) (m : Move η ω) : (p.step app job m).isOver = true := by
  cases m with
  | meanwhile c => exact h
  | proceed =>
      simp only [step, proceed]
      split
      · rw [if_pos h]
        exact h
      · exact h

theorem isOver_play (h : p.isOver = true) (moves : List (Move η ω)) :
    (p.play app job moves).isOver = true := by
  induction moves generalizing p with
  | nil => exact h
  | cons m rest ih => exact ih (isOver_step h m)

/-- The move that leaves a run over finds it ended. -/
theorem ended_of_isOver_step (hopen : p.isOver = false)
    (hover : (p.step app job m).isOver = true) :
    ∃ ending, p.run.stage = .ended ending ∧ m = .proceed := by
  cases m with
  | meanwhile c =>
      rw [step, hopen] at hover
      cases hover
  | proceed =>
      simp only [step, proceed] at hover
      split at hover
      · next ending hstage => exact ⟨ending, hstage, rfl⟩
      · rw [hopen] at hover
        cases hover

/-- To record the end of a run counts it once, for the ending that it had. -/
theorem counted_record (c : Cluster η ω) (n : NodeName) (id : JobId) (ending : Option JobEnd)
    (other : JobEnd) :
    (c.record n id ending).counted n other =
      c.counted n other + if ending = some other then 1 else 0 := by
  cases ending with
  | none => rfl
  | some ending =>
      simp only [Cluster.record, Cluster.counted, Cluster.modifyScheduler,
        Cluster.node_modifyNode, if_true, Scheduler.counted_count, Option.some.injEq]
      have htodo := c.counted_modifyTodo n n (fun q => q.finish id) other
      simp only [Cluster.counted] at htodo
      rw [htodo]

/-- The one move that counts a run leaves it over. -/
theorem gain_counted (app : Application η ω) (job : JobRecord) (p : Passage η ω) (m : Move η ω)
    (ending : JobEnd) :
    gain app job (fun c => c.counted p.run.node ending) p m =
      if p.isOver = false ∧ (p.step app job m).isOver = true ∧
        p.run.stage.ending? = some (some ending) then 1 else 0 := by
  cases m with
  | meanwhile c => cases hover : p.isOver <;> simp [gain, step, hover]
  | proceed =>
      rcases p.run.stage.ended_or_running with ⟨other, hstage⟩ | hrunning
      · have hguest : p.run.stage.isGuest = false := by
          rw [hstage]
          rfl
        cases hover : p.isOver with
        | true => simp [gain, proceed_of_isOver hstage hover]
        | false =>
            have hending := JobStage.ending?_of_ended hstage
            simp [gain, step, proceed_of_ended hstage hover, hguest, counted_record, hending]
      · have hopen : ¬ (p.isOver = false ∧ (p.step app job .proceed).isOver = true ∧
            p.run.stage.ending? = some (some ending)) := by
          rintro ⟨hopen, hover, _⟩
          obtain ⟨other, h, _⟩ := ended_of_isOver_step hopen hover
          exact hrunning other h
        rw [if_neg hopen]
        simp only [gain]
        cases hguest : p.run.stage.isGuest with
        | true => rfl
        | false =>
            cases htransacted : job.transacted with
            | true =>
                have hturn := JobRun.turn_goOn app job.info p.run p.cluster hrunning
                simp [proceed_of_transacted app htransacted hrunning, hturn.counted hguest]
            | false =>
                simp [proceed_of_plain app htransacted hrunning, JobRun.counted_goOnPlain _ hguest]

/-- A run that comes to be over is counted once, as it has ended. -/
theorem total_counted (app : Application η ω) (job : JobRecord) (p : Passage η ω)
    (moves : List (Move η ω)) (ending : JobEnd) :
    total app job (gain app job fun c => c.counted p.run.node ending) p moves =
      if p.isOver = false ∧ (p.play app job moves).isOver = true ∧
        (p.play app job moves).run.stage.ending? = some (some ending) then 1 else 0 := by
  induction moves generalizing p with
  | nil => cases hover : p.isOver <;> simp [total, play, hover]
  | cons m rest ih =>
      have hrest := ih (p.step app job m)
      rw [node_step] at hrest
      rw [total, gain_counted, hrest]
      show _ = if p.isOver = false ∧ ((p.step app job m).play app job rest).isOver = true ∧
        ((p.step app job m).play app job rest).run.stage.ending? = some (some ending) then 1 else 0
      cases hopen : p.isOver with
      | true => simp [isOver_step hopen m]
      | false =>
          cases hover : (p.step app job m).isOver with
          | false => simp
          | true =>
              obtain ⟨other, hstage, rfl⟩ := ended_of_isOver_step hopen hover
              have hending := JobStage.ending?_of_ended hstage
              have hlast : ((p.step app job .proceed).play app job rest).run.stage.ending? =
                  some other := ending?_play (ending?_step hending .proceed) rest
              simp [isOver_play hover rest, hending, hlast]

/-- A run that is over is counted as it has ended, and once. -/
theorem total_counted_of_ended (app : Application η ω) (job : JobRecord) {p : Passage η ω}
    (hopen : p.isOver = false) {moves : List (Move η ω)}
    (hover : (p.play app job moves).isOver = true) {ending : Option JobEnd}
    (hended : (p.play app job moves).run.stage = .ended ending) (other : JobEnd) :
    total app job (gain app job fun c => c.counted p.run.node other) p moves =
      if ending = some other then 1 else 0 := by
  have hending := JobStage.ending?_of_ended hended
  refine (total_counted app job p moves other).trans ?_
  simp only [hopen, hover, hending, true_and, Option.some.injEq]

end Passage

/-! ## The job that a run drops -/

/-- The callbacks of a transaction that are to drop a job still. -/
def Transaction.armed (t : Transaction (Callback η)) : List (Callback η) :=
  (t.synchronizers.map Synchronizer.callback).filter Callback.isArmed

/-- Whether the handlers of an application leave it to the runs to have jobs dropped by their
transactions. -/
def Application.Entrusting (app : Application η ω) : Prop :=
  ∀ thread script info tx (c : Cluster η ω) t',
    (app.handler thread script info (some tx) c).2.transaction? tx = some t' →
      ∃ t, c.transaction? tx = some t ∧ t'.armed = t.armed

namespace Transaction

variable {t : Transaction (Callback η)}

/-- A callback that is registered is one more armed one if it is to drop a job. -/
theorem armed_register (t : Transaction (Callback η)) (moment : Moment) (callback : Callback η) :
    (t.register moment callback).armed =
      t.armed ++ if callback.isArmed then [callback] else [] := by
  simp [armed, register, List.filter_cons]

/-- A job that has been taken out is dropped no longer. -/
theorem armed_disarm {id : JobId} (h : ∀ callback ∈ t.armed, callback.Drops id) :
    (t.mapCallbacks (Cluster.disarm id)).armed = [] := by
  refine List.filter_eq_nil_iff.mpr fun callback hmem => ?_
  simp only [mapCallbacks, List.map_map, List.mem_map] at hmem
  obtain ⟨x, hx, rfl⟩ := hmem
  simp only [Function.comp_apply]
  cases hcallback : x.callback with
  | drop n j armed =>
      cases armed with
      | false => simp [Cluster.disarm, Callback.isArmed]
      | true =>
          have hdrops := h x.callback (List.mem_filter.mpr
            ⟨List.mem_map_of_mem hx, by rw [hcallback]; rfl⟩)
          rw [hcallback] at hdrops
          obtain rfl : j = id := hdrops
          simp [Cluster.disarm, Callback.isArmed]
  | publish | queue | applyWrites | withdraw | custom => simp [Cluster.disarm, Callback.isArmed]

/-- No more callbacks of a round are armed than of the transaction. -/
theorem countP_callbacks_le (t : Transaction (Callback η)) (phase : Phase) :
    (t.callbacks phase).countP Callback.isArmed ≤ t.armed.length := by
  rw [callbacks, armed, ← List.countP_eq_length_filter, List.countP_map, List.countP_map]
  exact List.filter_sublist.countP_le

end Transaction

namespace Cluster

/-- A handler leaves the callbacks by which jobs are dropped as they are. -/
theorem armed_process {app : Application η ω} (happ : app.Entrusting) (n : NodeName)
    (thread : Thread) (info : JobInfo) {tx : TxId} {c : Cluster η ω}
    {t' : Transaction (Callback η)}
    (h : (process app n thread info (some tx) c).2.transaction? tx = some t') :
    ∃ t, c.transaction? tx = some t ∧ t'.armed = t.armed := by
  unfold process at h
  cases hhandler : (c.node n).handlers.get? info.details.jobType with
  | none =>
      simp only [hhandler] at h
      exact ⟨t', h, rfl⟩
  | some handler =>
      cases handler with
      | instanceCommand =>
          simp only [hhandler, Act.lift, commandInstance] at h
          cases hdetails : InstanceCommand.ofDetails info.details with
          | error e =>
              simp only [hdetails] at h
              exact ⟨t', h, rfl⟩
          | ok command =>
              simp only [hdetails, setInstanceState] at h
              cases hchange : c.instances.stateChange tx command.2 command.1.target c.clock with
              | error e =>
                  simp only [hchange] at h
                  exact ⟨t', h, rfl⟩
              | ok change =>
                  simp only [hchange, stageWrite] at h
                  split at h
                  · exact ⟨t', h, rfl⟩
                  · rw [transaction?_register, if_pos rfl] at h
                    obtain ⟨t, ht, rfl⟩ := Option.map_eq_some_iff.mp h
                    exact ⟨t, ht, by simp [Transaction.armed_register, Callback.isArmed]⟩
      | exchangeTimeout =>
          simp only [hhandler, Act.lift] at h
          rw [transaction?, transactions_timeOutExchange] at h
          exact ⟨t', h, rfl⟩
      | custom script =>
          simp only [hhandler] at h
          exact happ thread script info tx c t' h

end Cluster

namespace JobRun

variable {app : Application η ω} {info : JobInfo} {r : JobRun η} {c d : Cluster η ω}
  {stage : JobStage η}

/-- Whether the transaction of a run is to drop one job at most, the job of the run, and none once
the job has been taken out. -/
def Tidy (id : JobId) (r : JobRun η) (c : Cluster η ω) : Prop :=
  match r.stage with
  | .opened => ∀ t, c.transaction? r.tx = some t → t.armed = []
  | .handling | .handled | .failing _ => ∀ t, c.transaction? r.tx = some t →
      t.armed.length ≤ 1 ∧ ∀ callback ∈ t.armed, callback.Drops id
  | .released => ∀ t, c.transaction? r.tx = some t → t.armed = []
  | .preparing t rest => t.armed = [] ∧ rest.countP Callback.isArmed = 0
  | .concluding _ _ _ | .ended _ => True

end JobRun

/-- The number of jobs that a run may drop yet. -/
def JobStage.exposure : JobStage η → Nat
  | .opened | .handling | .handled | .failing _ => 1
  | .released | .preparing _ _ | .ended _ => 0
  | .concluding _ rest _ => rest.countP Callback.isArmed

namespace JobRun

variable {app : Application η ω} {info : JobInfo} {r : JobRun η} {c d : Cluster η ω}
  {stage : JobStage η}

/-- A run that gives its transaction up may drop what the transaction is to drop. -/
theorem Tidy.countP_of_givesUp? (h : r.Tidy info.jobId c) {ending : Option JobEnd}
    (hends : r.givesUp? c = some ending) {t : Transaction (Callback η)}
    (ht : c.transaction? r.tx = some t) (phase : Phase) :
    (t.callbacks phase).countP Callback.isArmed ≤ r.stage.exposure := by
  refine Nat.le_trans (t.countP_callbacks_le phase) ?_
  unfold Tidy at h
  rcases givesUp?_cases hends with hstage | ⟨hstage, -, -⟩
  · simp only [hstage] at h ⊢
    exact (h t ht).1
  · simp only [hstage] at h
    simp [h t ht]

/-! ### Step by step -/

/-- A run that claims its job is to drop that job, and nothing else. -/
theorem Tidy.claimed {jobs : JobStore} (htidy : r.Tidy info.jobId c) (hstage : r.stage = .opened) :
    (r.moveTo .handling).Tidy info.jobId
      (({ c with jobs }).register r.tx .onRollback (.drop r.node info.jobId true)) := by
  simp only [Tidy, hstage] at htidy
  intro t ht
  rw [tx_moveTo, Cluster.transaction?_register, if_pos rfl] at ht
  obtain ⟨t', ht', rfl⟩ := Option.map_eq_some_iff.mp ht
  rw [Transaction.armed_register, htidy t' ht']
  exact ⟨Nat.le_refl 1, fun callback hmem => by cases List.mem_singleton.mp hmem; exact rfl⟩

/-- A run that has lost its claim has no job to drop. -/
theorem Tidy.unclaimed {ending : Option JobEnd} (htidy : r.Tidy info.jobId c)
    (hstage : r.stage = .opened) : (r.moveTo (.failing ending)).Tidy info.jobId c := by
  simp only [Tidy, hstage] at htidy
  intro t ht
  simp [htidy t ht]

/-- The handler of a job leaves it at that, whichever stage comes next. -/
theorem Tidy.handled (happ : app.Entrusting) (htidy : r.Tidy info.jobId c)
    (hstage : r.stage = .handling) :
    (r.moveTo (stageHandled
        (Cluster.process app r.node r.thread info (some r.tx) c).1)).Tidy info.jobId
      (Cluster.process app r.node r.thread info (some r.tx) c).2 := by
  simp only [Tidy, hstage] at htidy
  have hsame : ∀ t, (Cluster.process app r.node r.thread info (some r.tx) c).2.transaction?
      r.tx = some t → t.armed.length ≤ 1 ∧ ∀ callback ∈ t.armed, callback.Drops info.jobId := by
    intro t ht
    obtain ⟨t', ht', harmed⟩ := Cluster.armed_process happ r.node r.thread info ht
    rw [harmed]
    exact htidy t' ht'
  rcases (Cluster.process app r.node r.thread info (some r.tx) c).1 with _ | _ | _ <;>
    exact hsame

/-- A run that has taken its job out is not to drop it any more. -/
theorem Tidy.released {jobs : JobStore} (htidy : r.Tidy info.jobId c)
    (hstage : r.stage = .handled) :
    (r.moveTo .released).Tidy info.jobId
      (({ c with jobs }).modifyTransaction r.tx fun t =>
        t.mapCallbacks (Cluster.disarm info.jobId)) := by
  simp only [Tidy, hstage] at htidy
  intro t ht
  rw [tx_moveTo, Cluster.transaction?_modifyTransaction, if_pos rfl] at ht
  obtain ⟨t', ht', rfl⟩ := Option.map_eq_some_iff.mp ht
  exact Transaction.armed_disarm (htidy t' ht').2

/-- A run that cannot take its job out is to drop what it was to drop before. -/
theorem Tidy.unreleased {ending : Option JobEnd} (htidy : r.Tidy info.jobId c)
    (hstage : r.stage = .handled) : (r.moveTo (.failing ending)).Tidy info.jobId c := by
  simp only [Tidy, hstage] at htidy
  exact htidy

/-- No callback before the commit drops a job. -/
theorem Tidy.prepared {t : Transaction (Callback η)} (htidy : r.Tidy info.jobId c)
    (hstage : r.stage = .released) (ht : c.transaction? r.tx = some t) :
    (r.moveTo (.preparing t (t.callbacks .before))).Tidy info.jobId d := by
  simp only [Tidy, hstage] at htidy
  refine ⟨htidy t ht, ?_⟩
  have hle := t.countP_callbacks_le .before
  rw [htidy t ht] at hle
  exact Nat.le_zero.mp hle

/-- The callbacks before the commit go on as they have begun. -/
theorem Tidy.before {t : Transaction (Callback η)} {callback : Callback η}
    {rest : List (Callback η)} (htidy : r.Tidy info.jobId c)
    (hstage : r.stage = .preparing t (callback :: rest)) :
    (r.moveTo (.preparing t rest)).Tidy info.jobId d := by
  simp only [Tidy, hstage, List.countP_cons] at htidy
  exact ⟨htidy.1, by omega⟩

/-- A callback before the commit drops nothing. -/
theorem Tidy.dropsIn_eq_false {t : Transaction (Callback η)} {callback : Callback η}
    {rest : List (Callback η)} (htidy : r.Tidy info.jobId c)
    (hstage : r.stage = .preparing t (callback :: rest)) : callback.dropsIn c = false := by
  simp only [Tidy, hstage, List.countP_cons] at htidy
  refine Bool.eq_false_iff.mpr fun hdrops => ?_
  simp [Callback.isArmed_of_dropsIn hdrops] at htidy

/-- Nothing is left to drop once the job has been taken out, whether the commit is granted or
refused. -/
theorem Tidy.countP_of_preparing {t : Transaction (Callback η)} (htidy : r.Tidy info.jobId c)
    (hstage : r.stage = .preparing t []) (phase : Phase) :
    (t.callbacks phase).countP Callback.isArmed = 0 := by
  simp only [Tidy, hstage] at htidy
  have hle := t.countP_callbacks_le phase
  rw [htidy.1] at hle
  exact Nat.le_zero.mp hle

/-- A callback that drops a job was one of those that may. -/
theorem drops_add_exposure_of_concluding {committed : Bool} {callback : Callback η}
    {rest : List (Callback η)} {ending : Option JobEnd}
    (hstage : r.stage = .concluding committed (callback :: rest) ending) :
    (r.drops c).toNat + (JobStage.concluding committed rest ending).exposure ≤
      r.stage.exposure := by
  simp only [drops, hstage, JobStage.next?, JobStage.exposure, Option.any_some, List.countP_cons]
  cases hdrops : callback.dropsIn c with
  | false => simp
  | true =>
      rw [if_pos (Callback.isArmed_of_dropsIn hdrops)]
      simp [Nat.add_comm]

/-- A step of a run drops one of the jobs that it may drop. -/
theorem Turn.tidy (happ : app.Entrusting) (h : Turn app info r c stage d)
    (htidy : r.Tidy info.jobId c) :
    (r.moveTo stage).Tidy info.jobId d ∧
      (r.drops c).toNat + stage.exposure ≤ r.stage.exposure := by
  cases h with
  | claimed hstage =>
      exact ⟨htidy.claimed hstage, by simp [drops, hstage, JobStage.next?, JobStage.exposure]⟩
  | unclaimed hstage =>
      exact ⟨htidy.unclaimed hstage, by simp [drops, hstage, JobStage.next?, JobStage.exposure]⟩
  | handled hstage =>
      refine ⟨htidy.handled happ hstage, ?_⟩
      have hdrops : r.drops c = false := by simp [drops, hstage, JobStage.next?]
      rw [hdrops, hstage]
      rcases (Cluster.process app r.node r.thread info (some r.tx) c).1 with _ | _ | _ <;>
        exact Nat.le_refl 1
  | released hstage =>
      exact ⟨htidy.released hstage, by simp [drops, hstage, JobStage.next?, JobStage.exposure]⟩
  | unreleased hstage =>
      exact ⟨htidy.unreleased hstage, by simp [drops, hstage, JobStage.next?, JobStage.exposure]⟩
  | prepared hstage ht =>
      exact ⟨htidy.prepared hstage ht, by simp [drops, hstage, JobStage.next?, JobStage.exposure]⟩
  | withdrawn resource hends ht =>
      obtain ⟨hnext, _⟩ := isPromising_of_givesUp? hends
      have hle := Tidy.countP_of_givesUp? htidy hends ht (.after false)
      exact ⟨trivial, by simpa [drops, hnext, JobStage.exposure] using hle⟩
  | bereft hends =>
      obtain ⟨hnext, _⟩ := isPromising_of_givesUp? hends
      exact ⟨trivial, by simp [drops, hnext, JobStage.exposure]⟩
  | committed resource hstage =>
      have hnone := htidy.countP_of_preparing hstage (.after true)
      exact ⟨trivial, by simp [drops, hstage, JobStage.next?, JobStage.exposure, hnone]⟩
  | refused resource hstage =>
      have hnone := htidy.countP_of_preparing hstage (.after false)
      exact ⟨trivial, by simp [drops, hstage, JobStage.next?, JobStage.exposure, hnone]⟩
  | before hstage =>
      have hidle := htidy.dropsIn_eq_false hstage
      exact ⟨htidy.before hstage, by simp [drops, hstage, JobStage.next?, JobStage.exposure, hidle]⟩
  | after hstage => exact ⟨trivial, drops_add_exposure_of_concluding hstage⟩
  | concluded hstage =>
      exact ⟨trivial, by simp [drops, hstage, JobStage.next?, JobStage.exposure]⟩

end JobRun

namespace Passage

variable {app : Application η ω} {job : JobRecord} {p : Passage η ω} {m : Move η ω}
  {moves : List (Move η ω)}

/-- Whether a move leaves the transaction of the run alone, unless it is a step of the run. -/
def Spares (p : Passage η ω) : Move η ω → Prop
  | .proceed => True
  | .meanwhile c => c.transaction? p.run.tx = p.cluster.transaction? p.run.tx

/-- Whether a move drops a job. -/
def isDropped (p : Passage η ω) : Move η ω → Bool
  | .proceed => p.run.drops p.cluster
  | .meanwhile _ => false

/-- What the store counts as dropped in a move is what the run drops in it. -/
theorem gain_dropped (app : Application η ω) (htransacted : job.transacted = true)
    (p : Passage η ω) (m : Move η ω) :
    gain app job (fun c => c.jobs.dropped) p m = (p.isDropped m).toNat := by
  cases m with
  | meanwhile c => rfl
  | proceed =>
      simp only [gain, isDropped]
      rcases p.proceed_cases app htransacted with ⟨ending, hstage, -, hjobs⟩ | ⟨stage, -, hturn⟩
      · have hdrops : p.run.drops p.cluster = false := by
          simp [JobRun.drops, hstage, JobStage.next?]
        simp [hjobs, hdrops]
      · cases hguest : p.run.stage.isGuest with
        | true => simp [(hturn.isPromising_of_isGuest hguest).2.2]
        | false => simp [(hturn.counts hguest).2.2]

/-- A move drops one of the jobs that the run may drop. -/
theorem tidy_step (happ : app.Entrusting) (htransacted : job.transacted = true)
    (h : p.run.Tidy job.id p.cluster) (hm : p.Spares m) :
    (p.step app job m).run.Tidy job.id (p.step app job m).cluster ∧
      (p.isDropped m).toNat + (p.step app job m).run.stage.exposure ≤ p.run.stage.exposure := by
  cases m with
  | meanwhile c =>
      refine ⟨?_, by simp [step, isDropped]⟩
      unfold JobRun.Tidy at h ⊢
      simp only [step]
      rwa [show c.transaction? p.run.tx = p.cluster.transaction? p.run.tx from hm]
  | proceed =>
      simp only [step, isDropped]
      rcases p.proceed_cases app htransacted with ⟨ending, hstage, hrun, -⟩ | ⟨stage, hrun, hturn⟩
      · have hdrops : p.run.drops p.cluster = false := by
          simp [JobRun.drops, hstage, JobStage.next?]
        rw [hrun, hdrops]
        refine ⟨?_, by simp⟩
        simp [JobRun.Tidy, hstage]
      · rw [hrun]
        exact hturn.tidy happ h

/-- A run drops one job at most. -/
theorem total_dropped_le (happ : app.Entrusting) (htransacted : job.transacted = true)
    (h : p.run.Tidy job.id p.cluster) (hmoves : Throughout app job Spares p moves) :
    total app job (fun p m => (p.isDropped m).toNat) p moves ≤ p.run.stage.exposure := by
  induction moves generalizing p with
  | nil => exact Nat.zero_le _
  | cons m rest ih =>
      obtain ⟨htidy, hexposure⟩ := tidy_step happ htransacted h hmoves.1
      have hrest := ih htidy hmoves.2
      simp only [total]
      omega

/-- A job is dropped by a run of which it is settled how it ends. -/
theorem ending?_of_isDropped (h : p.run.Tidy job.id p.cluster) (hdropped : p.isDropped m = true) :
    ∃ ending, p.run.stage.ending? = some ending := by
  cases m with
  | meanwhile c => cases hdropped
  | proceed =>
      simp only [isDropped, JobRun.drops] at hdropped
      unfold JobRun.Tidy at h
      cases hstage : p.run.stage with
      | concluding committed rest ending => exact ⟨ending, rfl⟩
      | ended ending => exact ⟨ending, rfl⟩
      | preparing t rest =>
          simp only [hstage] at h hdropped
          cases rest with
          | nil => cases hdropped
          | cons callback rest =>
              have harmed := Callback.isArmed_of_dropsIn hdropped
              simp [harmed] at h
      | opened | handling | handled | released | failing =>
          rw [hstage] at hdropped
          cases hdropped

/-- A move undermines the counts if the run drops the job and does not count as failed. -/
theorem isUndermined_eq (h : p.run.Tidy job.id p.cluster) {ending : Option JobEnd}
    (hsettled : ∀ other, p.run.stage.ending? = some other → other = ending) (m : Move η ω) :
    p.isUndermined m = (p.isDropped m && ending != some .failed) := by
  cases hdropped : p.isDropped m with
  | false =>
      cases m with
      | meanwhile c => rfl
      | proceed =>
          have hdrops : p.run.drops p.cluster = false := hdropped
          simp [isUndermined, hdrops]
  | true =>
      obtain ⟨other, hother⟩ := ending?_of_isDropped h hdropped
      obtain rfl := hsettled other hother
      cases m with
      | meanwhile c => cases hdropped
      | proceed =>
          have hdrops : p.run.drops p.cluster = true := hdropped
          simp [isUndermined, hdrops, hother]

/-- A run is undermined by all that it drops, unless it has failed. -/
theorem total_isUndermined (happ : app.Entrusting) (htransacted : job.transacted = true)
    (h : p.run.Tidy job.id p.cluster) (hmoves : Throughout app job Spares p moves)
    {ending : Option JobEnd}
    (hending : (p.play app job moves).run.stage.ending? = some ending) :
    total app job (fun p m => (p.isUndermined m).toNat) p moves =
      if ending = some .failed then 0
      else total app job (fun p m => (p.isDropped m).toNat) p moves := by
  have htidy := (hmoves.of_invariant
    (fun q m hq hm => (tidy_step happ htransacted hq hm).1) h).1
  have hequal := (htidy.and (throughout_ending? hending)).mono fun q m hq =>
    isUndermined_eq hq.1.1 hq.2 m
  split
  · next hfailed =>
    refine (total_toNat_eq_zero_iff isUndermined).mpr (hequal.mono fun q m hq => ?_)
    rw [hq, hfailed]
    simp
  · next hne =>
    refine total_congr (hequal.mono fun q m hq => ?_)
    rw [hq, bne_iff_ne.mpr hne, Bool.and_true]

/-- A run that is over has ended. -/
theorem ended_play (h : p.isOver = true → ∃ ending, p.run.stage = .ended ending)
    (hover : (p.play app job moves).isOver = true) :
    ∃ ending, (p.play app job moves).run.stage = .ended ending := by
  induction moves generalizing p with
  | nil => exact h hover
  | cons m rest ih =>
      refine ih (fun hnext => ?_) hover
      cases hopen : p.isOver with
      | false =>
          obtain ⟨ending, hstage, rfl⟩ := ended_of_isOver_step hopen hnext
          refine ⟨ending, ?_⟩
          simp only [step]
          rw [(proceed_ended hstage).1, hstage]
      | true =>
          obtain ⟨ending, hstage⟩ := h hopen
          refine ⟨ending, ?_⟩
          cases m with
          | meanwhile c => exact hstage
          | proceed =>
              simp only [step]
              rw [(proceed_ended hstage).1, hstage]

/-! ## Two counts of a run -/

/-- A run of a stored job in its transaction, whatever happens meanwhile to anything but that
transaction, whatever the handler does and however the commit comes out, adds as much to what the
store has counted as done as to what its scheduler has counted as completed exactly if its commit is
not denied after it has taken the job out. It adds no more to what the store has counted as dropped
than to what its scheduler has counted as failed exactly if it does not drop its job although it is
not to be counted as failed: after the handler has panicked, or after it has lost its claim and the
node has come to hold the job once more. -/
theorem counts_agree_iff (app : Application η ω) (happ : app.Entrusting) {job : JobRecord}
    (htransacted : job.transacted = true) {c d : Cluster η ω} {n : NodeName} {thread : Thread}
    {tx : TxId} (hbegin : c.begin n thread = (.ok tx, d)) (moves : List (Move η ω))
    (hmoves : Throughout app job Spares (start n thread tx d) moves)
    (hover : ((start n thread tx d).play app job moves).isOver = true) :
    let p := start n thread tx d
    let gained := fun f => total app job (gain app job f) p moves
    (gained (fun c => c.jobs.done) = gained (fun c => (c.node n).scheduler.completed) ↔
        Throughout app job (fun p m => p.isDenied m = false) p moves) ∧
      (gained (fun c => c.jobs.dropped) ≤ gained (fun c => (c.node n).scheduler.failed) ↔
        Throughout app job (fun p m => p.isUndermined m = false) p moves) := by
  intro p gained
  obtain ⟨ending, hended⟩ := ended_play (p := p) nofun hover
  have hending := JobStage.ending?_of_ended hended
  have hcounted : ∀ other, gained (fun c => c.counted n other) =
      if ending = some other then 1 else 0 :=
    total_counted_of_ended app job (p := p) rfl hover hended
  have hcompleted : gained (fun c => (c.node n).scheduler.completed) = _ := hcounted .completed
  have hfailed : gained (fun c => (c.node n).scheduler.failed) = _ := hcounted .failed
  have hdone := total_done app htransacted p moves
  have hdropped : gained (fun c => c.jobs.dropped) =
      total app job (fun p m => (p.isDropped m).toNat) p moves :=
    total_congr (hmoves.mono fun p m _ => gain_dropped app htransacted p m)
  have htidy : p.run.Tidy job.id p.cluster := by
    obtain ⟨t, hempty, ht⟩ := (Cluster.begin_eq_ok hbegin).transaction
    intro t' ht'
    obtain rfl : t = t' := by simpa [p, start, ht] using ht'
    simp [Transaction.armed, hempty]
  rw [hcompleted, hfailed, hdropped, ← total_toNat_eq_zero_iff, ← total_toNat_eq_zero_iff]
  constructor
  · have hpromised : (p.play app job moves).run.stage.isPromising.toNat =
        if ending = some .completed then 1 else 0 := by
      rw [hended]
      by_cases hcase : ending = some .completed <;> simp [JobStage.isPromising, hcase]
    have hstart : p.run.stage.isPromising.toNat = 0 := rfl
    rw [hpromised, hstart] at hdone
    show total app job (gain app job fun c => c.jobs.done) p moves = _ ↔ _
    omega
  · have hundermined := total_isUndermined happ htransacted htidy hmoves hending
    have hle : total app job (fun p m => (p.isDropped m).toNat) p moves ≤ 1 :=
      total_dropped_le happ htransacted htidy hmoves
    rw [hundermined]
    by_cases hcase : ending = some .failed <;> simp [hcase, hle]

/-- The job of two nodes that know how to process it. -/
def sampleJob : JobRecord := { id := ⟨"J"⟩, details := ⟨"", ∅⟩ }

/-- A run of the job whose transaction has just begun. -/
def sampleRun : Passage Unit Unit :=
  start "a" (.worker "a") ⟨0⟩ (Cluster.ofProcessors.begin "a" (.worker "a")).2

/-- The run claims its job, the job goes to the other node and comes back, and the run takes the
other steps. -/
def undisturbed : List (Move Unit Unit) :=
  let claimed := (sampleRun.play .silent sampleJob [.proceed]).cluster
  let moved := claimed.jobs.after [.reassign ⟨"a"⟩ ⟨"b"⟩, .reassign ⟨"b"⟩ ⟨"a"⟩, .claim ⟨"J"⟩ ⟨"a"⟩]
  [.proceed, .meanwhile { claimed with jobs := moved }] ++ List.replicate 6 .proceed

/-- The run is counted as completed, and its job as done. -/
theorem counts_agree_iff_undisturbed :
    let gained := fun f => total .silent sampleJob (gain .silent sampleJob f) sampleRun undisturbed
    gained (fun c => c.jobs.done) = gained (fun c => (c.node "a").scheduler.completed) ∧
      gained (fun c => c.jobs.done) = 1 ∧
      gained (fun c => c.jobs.dropped) ≤ gained (fun c => (c.node "a").scheduler.failed) := by
  have hentrusting : Application.silent.Entrusting := fun _ _ _ _ _ t ht => ⟨t, ht, rfl⟩
  have hbegin : Cluster.ofProcessors.begin "a" (.worker "a") = (.ok ⟨0⟩, sampleRun.cluster) := rfl
  have hspares : Throughout .silent sampleJob Spares sampleRun undisturbed :=
    ⟨trivial, rfl, trivial, trivial, trivial, trivial, trivial, trivial, trivial⟩
  obtain ⟨hdone, hdropped⟩ :=
    counts_agree_iff .silent hentrusting rfl hbegin undisturbed hspares rfl
  exact ⟨hdone.mpr ⟨rfl, rfl, rfl, rfl, rfl, rfl, rfl, rfl, trivial⟩, rfl,
    hdropped.mpr ⟨rfl, rfl, rfl, rfl, rfl, rfl, rfl, rfl, trivial⟩⟩

end Passage

/-- An application whose handlers mark the transactions of their runs. -/
def Application.marking : Application Unit Unit where
  callback _ _ _ := pure (.ok ())
  handler _ _ _ tx c :=
    (.ok (.ok ()), tx.elim c fun tx => c.modifyTransaction tx Transaction.mark)
  listener _ _ outside := outside

/-- An application whose handlers panic. -/
def Application.panicking : Application Unit Unit where
  callback _ _ _ := pure (.ok ())
  handler _ _ _ _ := Act.panic ""
  listener _ _ outside := outside

namespace Cluster

/-- A run whose handler marks its transaction is counted as done by the store, and as failed by the
scheduler. A run whose handler panics is counted as dropped by the store, and the scheduler does not
count it. -/
theorem counts_disagree :
    let marked := (runJob .marking "a" (.persisted Passage.sampleJob) ofProcessors).2
    let panicked := (runJob .panicking "a" (.persisted Passage.sampleJob) ofProcessors).2
    (marked.jobs.done = 1 ∧ (marked.node "a").scheduler.completed = 0 ∧
        marked.jobs.dropped = 0 ∧ (marked.node "a").scheduler.failed = 1) ∧
      panicked.jobs.dropped = 1 ∧ (panicked.node "a").scheduler.failed = 0 :=
  ⟨⟨rfl, rfl, rfl, rfl⟩, rfl, rfl⟩

end Cluster

end JobCluster
