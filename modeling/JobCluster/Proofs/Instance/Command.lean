import JobCluster.Proofs.Instance.Draft
import JobCluster.Proofs.Job.Tally
/-!
# The steps of a run of a command

A stored job carries a command to a process instance out. Its run claims the job, and the handler
refuses the command or leaves one write with the transaction of the run. From then on two callbacks
wait for the end of the transaction: one drops the job after a rollback, the other one applies the
write after a commit.

The callback after a rollback drops the job for the node of the run, whatever has become of the
claim of the run meanwhile. That it may get wrong.

Main results:

- `Cluster.commandInstance_cases`: a command is refused, or leaves one write;
- `JobRun.Standing.transfer`: what happens elsewhere leaves a run standing as it does;
- `JobRun.Turn.standing`, `JobRun.Turn.proper`: how a run stands after each of its steps, and what
  the step does to the instances and to the job, unless the claim is misjudged;
- `JobRun.Turn.holding`, `JobRun.Holding.judged`: a run whose claim nobody resets misjudges nothing.
-/

namespace JobCluster

variable {η ω : Type}

/-! ## Commands -/

/-- Whether the command of a job makes this of the instance that the job names, at a time: the
instance is committed, and has not come to its end but in the state that it is moved to. -/
def InstanceCommand.Makes (s : InstanceStore) (details : JobDetails) (now : Time)
    (new : ProcessInstance) : Prop :=
  ∃ command former, ofDetails details = .ok (command, former.id) ∧
    s.get? former.id = some former ∧
    (former.isFinished = false ∨ former.state = command.target) ∧
    new = former.transition command.target now

namespace Cluster

/-- The first write of a transaction is kept, and has the writes applied at the end. -/
theorem stageWrite_of_first (c : Cluster η ω) {tx : TxId} (w : InstanceWrite)
    (hstaged : c.instances.staged.get? tx = none) :
    c.stageWrite tx w =
      { c with instances := c.instances.stage tx w }.register tx .after (.applyWrites tx) := by
  have hopen : c.instances.isOpen tx = false := by
    simp [InstanceStore.isOpen, Table.contains, hstaged]
  simp only [stageWrite, hopen, Bool.false_eq_true, if_false]

/-- A command in a transaction that has written nothing is refused, or leaves its write with the
transaction. -/
theorem commandInstance_cases (c : Cluster η ω) {details : JobDetails} {tx : TxId}
    (hstaged : c.instances.staged.get? tx = none) :
    (∃ e, c.commandInstance details (some tx) = (.error e, c)) ∨
      ∃ command id p, InstanceCommand.ofDetails details = .ok (command, id) ∧
        c.instances.get? id = some p ∧ (p.isFinished = false ∨ p.state = command.target) ∧
        c.commandInstance details (some tx) =
          (.ok (), c.stageWrite tx (.put (p.transition command.target c.clock))) := by
  unfold commandInstance
  cases hdetails : InstanceCommand.ofDetails details with
  | error e => exact .inl ⟨e, rfl⟩
  | ok answer =>
      obtain ⟨command, id⟩ := answer
      have hview : c.instances.view tx id = c.instances.get? id := by
        simp [InstanceStore.view_eq_seen, InstanceStore.writes, hstaged, InstanceStore.seen]
      simp only [setInstanceState, InstanceStore.stateChange, InstanceStore.current, hview]
      cases hfind : c.instances.get? id with
      | none => exact .inl ⟨_, rfl⟩
      | some p =>
          by_cases hends : p.isFinished = true ∧ p.state ≠ command.target
          · simp only [if_pos hends]
            exact .inl ⟨_, rfl⟩
          · have hmoves : p.isFinished = false ∨ p.state = command.target := by
              by_cases hfinished : p.isFinished = true
              · exact .inr (Classical.not_not.mp fun h => hends ⟨hfinished, h⟩)
              · exact .inl (Bool.eq_false_iff.mpr hfinished)
            simp only [if_neg hends]
            exact .inr ⟨command, id, p, rfl, hfind, hmoves, rfl⟩

/-- Whether no instance has been changed, and nobody told of a change. -/
structure Still (c d : Cluster η ω) : Prop where
  committed : d.instances.committed = c.instances.committed
  registries : ∀ n, (d.node n).registry = (c.node n).registry
  outside : d.outside = c.outside

theorem Still.refl (c : Cluster η ω) : c.Still c :=
  ⟨rfl, fun _ => rfl, rfl⟩

/-- A change of a node that leaves its registry alone changes no instance. -/
theorem Still.modifyNode {c d : Cluster η ω} (h : c.Still d) (n : NodeName)
    {f : Node η → Node η} (hf : (f (d.node n)).registry = (d.node n).registry) :
    c.Still (d.modifyNode n f) := by
  refine ⟨h.committed, fun m => ?_, h.outside⟩
  rw [node_modifyNode, ← h.registries]
  split
  · next hnm => rw [hf, hnm]
  · rfl

/-- Recording a run changes no instance. -/
theorem still_record (c : Cluster η ω) (n : NodeName) (id : JobId) (ending : Option JobEnd) :
    c.Still (c.record n id ending) := by
  cases ending with
  | none => exact .refl c
  | some ending =>
      refine ⟨rfl, fun m => ?_, rfl⟩
      simp only [record, modifyTodo, modifyScheduler, node_modifyNode]
      by_cases hnm : n = m <;> simp [hnm]

/-- Recording a run changes no handler. -/
theorem handlers_record (c : Cluster η ω) (n m : NodeName) (id : JobId)
    (ending : Option JobEnd) : ((c.record n id ending).node m).handlers = (c.node m).handlers := by
  cases ending with
  | none => rfl
  | some ending =>
      simp only [record, modifyTodo, modifyScheduler, node_modifyNode]
      by_cases hnm : n = m <;> simp [hnm]

/-- A dropped job is gone if the node holds it, and is left alone otherwise. -/
theorem find?_dropClaimed {c : Cluster η ω} (havailable : c.jobs.available = true) (n : NodeName)
    (id : JobId) :
    (c.dropClaimed n id).2.jobs.find? id =
      if c.jobs.heldBy? id = some (c.nodeId n) then none else c.jobs.find? id := by
  rw [dropClaimed_snd]
  show ((StoreCall.finish id (c.nodeId n) .failedDropped).apply c.jobs).find? id = _
  rw [StoreCall.find?_apply]
  simp only [StoreCall.concerns, StoreCall.job?, StoreCall.accepted, havailable, StoreCall.revise]
  unfold JobStore.heldBy?
  cases c.jobs.find? id with
  | none => simp
  | some r => by_cases h : r.state = .claimed (c.nodeId n) <;>
      simp [h, JobState.holder?_eq_some]

end Cluster

/-! ## How a run stands -/

namespace JobRun

/-- The callback that drops the job of a run, if the run has not taken the job out itself. -/
def dropHook (r : JobRun η) (id : JobId) (armed : Bool) : Synchronizer (Callback η) :=
  ⟨.onRollback, .drop r.node id armed⟩

/-- The callback that applies what a run has written. -/
def writeHook (r : JobRun η) : Synchronizer (Callback η) := ⟨.after, .applyWrites r.tx⟩

/-- Whether a callback drops the job of a run, or applies what the run has written. -/
def Owns (r : JobRun η) (job : JobRecord) (callback : Callback η) : Prop :=
  callback.Drops job.id ∨ callback = .applyWrites r.tx

/-- Whether the transaction of a run is open, with these callbacks. -/
def Registered (r : JobRun η) (c : Cluster η ω) (hooks : List (Synchronizer (Callback η))) : Prop :=
  ∃ t, c.transaction? r.tx = some t ∧ t.synchronizers = hooks

/-- Whether a run has written nothing, and the instance that its job names is what it was when the
run began. -/
structure Unwritten (job : JobRecord) (origin : InstanceStore) (r : JobRun η)
    (c : Cluster η ω) : Prop where
  writes : c.instances.staged.get? r.tx = none
  named : ∀ command id, InstanceCommand.ofDetails job.details = .ok (command, id) →
    c.instances.get? id = origin.get? id

/-- Whether the command of the job of a run is written, and not committed yet. -/
def Wrote (job : JobRecord) (origin : InstanceStore) (now : Time) (r : JobRun η)
    (c : Cluster η ω) : Prop :=
  ∃ new, InstanceCommand.Makes origin job.details now new ∧
    c.instances.staged.get? r.tx = some [.put new]

/-- Whether the command of a job is committed. -/
def Moved (job : JobRecord) (origin : InstanceStore) (now : Time) (c : Cluster η ω) : Prop :=
  ∃ new, InstanceCommand.Makes origin job.details now new ∧ c.instances.get? new.id = some new

/-- Whether the node of a run carries commands out, and the job store is available. -/
structure Enabled (job : JobRecord) (r : JobRun η) (c : Cluster η ω) : Prop where
  available : c.jobs.available = true
  handler : (c.node r.node).handlers.get? job.details.jobType = some .instanceCommand

/-- How a run of a command stands in its transaction, before each of its steps. The handler was
given the job at the time. -/
def Standing (job : JobRecord) (origin : InstanceStore) (now : Time) (r : JobRun η)
    (c : Cluster η ω) : Prop :=
  match r.stage with
  | .opened => r.Registered c [] ∧ r.Unwritten job origin c
  | .handling => r.Registered c [r.dropHook job.id true] ∧ r.Unwritten job origin c ∧
      c.jobs.Published job.id
  | .handled => r.Registered c [r.dropHook job.id true, r.writeHook] ∧
      r.Wrote job origin now c ∧ c.jobs.Published job.id
  | .released => r.Registered c [r.dropHook job.id false, r.writeHook] ∧
      r.Wrote job origin now c ∧ c.jobs.find? job.id = none
  | .failing ending =>
      ending = some .failed ∧ r.Registered c [r.dropHook job.id true] ∨
      ending = some .lostClaim ∧
        ∃ hooks, r.Registered c hooks ∧ ∀ hook ∈ hooks, r.Owns job hook.callback
  | .preparing t rest => rest = [] ∧ t.synchronizers = [r.dropHook job.id false, r.writeHook] ∧
      r.Wrote job origin now c ∧ c.jobs.find? job.id = none
  | .concluding true rest ending => ending = some .completed ∧ c.jobs.find? job.id = none ∧
      (rest = [.applyWrites r.tx] ∧ r.Wrote job origin now c ∨ rest = [] ∧ Moved job origin now c)
  | .concluding false rest ending => (∀ callback ∈ rest, r.Owns job callback) ∧
      (ending = some .lostClaim ∨ ending = some .failed ∧
        (rest = [.drop r.node job.id true] ∨ c.jobs.find? job.id = none))
  | .ended ending => ending = some .lostClaim ∨ c.jobs.find? job.id = none ∧
      (ending = some .failed ∨ ending = some .completed ∧ Moved job origin now c)

/-- Whether the next step of a run does with its job what the count of the run does not expect: the
job of a run that has failed is stored, and not dropped since its claim has been reset; or the job
of a run that has lost its claim is dropped since the node has come to hold it once more. -/
def isMisjudged (id : JobId) (r : JobRun η) (c : Cluster η ω) : Bool :=
  match r.stage with
  | .concluding _ (.drop n other true :: _) (some .failed) =>
    other == id && (c.jobs.find? id).isSome && c.jobs.heldBy? id != some (c.nodeId n)
  | .concluding _ (.drop n other true :: _) (some .lostClaim) =>
    other == id && c.jobs.heldBy? id == some (c.nodeId n)
  | _ => false

variable {app : Application η ω} {job : JobRecord} {origin : InstanceStore} {now : Time}
  {r : JobRun η} {c d : Cluster η ω} {stage : JobStage η} {callback : Callback η}

/-- A run of a command carries out no callback but those that it has registered. -/
theorem Standing.owns (h : r.Standing job origin now c) (hnext : r.stage.next? = some callback) :
    r.Owns job callback := by
  unfold Standing at h
  cases hstage : r.stage with
  | preparing t rest =>
      simp only [hstage] at h hnext
      rw [h.1] at hnext
      cases hnext
  | concluding committed rest ending =>
      cases rest with
      | nil =>
          rw [hstage] at hnext
          cases hnext
      | cons first rest =>
          obtain rfl : first = callback := by simpa [hstage, JobStage.next?] using hnext
          cases committed with
          | true =>
              simp only [hstage, List.cons.injEq, reduceCtorEq, false_and, or_false] at h
              exact .inr h.2.2.1.1
          | false =>
              simp only [hstage] at h
              exact h.1 first List.mem_cons_self
  | opened | handling | handled | released | failing | ended =>
      rw [hstage] at hnext
      cases hnext

/-! ## Callbacks of a run -/

/-- The callbacks that a run has registered are its own. -/
theorem owns_of_mem_hooks {armed : Bool} {hook : Synchronizer (Callback η)}
    (h : hook ∈ [r.dropHook job.id armed, r.writeHook]) : r.Owns job hook.callback := by
  simp only [List.mem_cons, List.not_mem_nil, or_false] at h
  rcases h with rfl | rfl
  · exact .inl rfl
  · exact .inr rfl

/-- The callbacks of a transaction are among those that it has registered. -/
theorem owns_of_mem_callbacks {t : Transaction (Callback η)} {phase : Phase}
    (h : ∀ hook ∈ t.synchronizers, r.Owns job hook.callback)
    (hmem : callback ∈ t.callbacks phase) : r.Owns job callback := by
  obtain ⟨hook, hhook, rfl⟩ := List.mem_map.mp hmem
  exact h hook (List.mem_filter.mp hhook).1

/-- A callback of a run is to drop the job, and drops it no more once the job is taken out, or it
applies what the run has written. -/
theorem Owns.cases (h : r.Owns job callback) :
    (∃ n, callback = .drop n job.id true) ∨ (∃ n, callback = .drop n job.id false) ∨
      callback = .applyWrites r.tx := by
  rcases h with h | rfl
  · cases callback with
    | drop n id armed =>
        obtain rfl : id = job.id := h
        cases armed with
        | true => exact .inl ⟨n, rfl⟩
        | false => exact .inr (.inl ⟨n, rfl⟩)
    | publish | queue | applyWrites | withdraw | custom => exact h.elim
  · exact .inr (.inr rfl)

/-- The callbacks of a run leave its node able to carry commands out. -/
theorem Owns.enabled (app : Application η ω) (h : r.Owns job callback) (he : r.Enabled job c)
    (phase : Phase) : r.Enabled job (Cluster.runCallback app r.thread callback phase c).2 := by
  rcases h.cases with ⟨n, rfl⟩ | ⟨n, rfl⟩ | rfl
  · simp only [Cluster.runCallback, if_true, Cluster.dropClaimed_snd]
    refine ⟨?_, he.handler⟩
    rw [StoreCall.available_apply]
    exact he.available
  · exact he
  · exact Cluster.announce_induction (P := fun d => r.Enabled job d) app
      (fun d n f hd => ⟨hd.available, by
        rw [Cluster.modifyRegistry, Cluster.node_modifyNode]
        split
        · next hn => exact hn ▸ hd.handler
        · exact hd.handler⟩)
      (fun d f hd => ⟨hd.available, hd.handler⟩) _ _ ⟨he.available, he.handler⟩

/-- A callback of a run leaves the record of the job alone, unless the node holds the job. -/
theorem Owns.find? (h : r.Owns job callback) (havailable : c.jobs.available = true)
    (phase : Phase) :
    (Cluster.runCallback app r.thread callback phase c).2.jobs.find? job.id =
      if callback.dropsIn c then none else c.jobs.find? job.id := by
  rcases h.cases with ⟨n, rfl⟩ | ⟨n, rfl⟩ | rfl
  · simp [Cluster.runCallback, Cluster.find?_dropClaimed havailable, Callback.dropsIn, havailable]
  · simp [Cluster.runCallback, Callback.dropsIn]
  · simp [Cluster.runCallback, Cluster.completeWrites, Callback.dropsIn]

/-- A callback of a run that is not told of a commit changes no instance. -/
theorem Owns.still (h : r.Owns job callback) {phase : Phase}
    (hphase : Cluster.followsCommit phase = false) :
    c.Still (Cluster.runCallback app r.thread callback phase c).2 := by
  rcases h.cases with ⟨n, rfl⟩ | ⟨n, rfl⟩ | rfl
  · simp only [Cluster.runCallback, if_true, Cluster.dropClaimed_snd]
    exact ⟨rfl, fun _ => rfl, rfl⟩
  · exact .refl c
  · simp only [Cluster.runCallback, Cluster.completeWrites, hphase, InstanceStore.complete,
      Bool.false_eq_true, if_false]
    exact ⟨rfl, fun _ => rfl, rfl⟩

/-- A run has the callbacks that it had as long as nobody touches its transaction. -/
theorem Registered.transfer {hooks : List (Synchronizer (Callback η))} (h : r.Registered c hooks)
    (htransaction : d.transaction? r.tx = c.transaction? r.tx) : r.Registered d hooks := by
  obtain ⟨t, ht, hhooks⟩ := h
  exact ⟨t, htransaction.trans ht, hhooks⟩

/-- A run that has written nothing still has not as long as nobody touches its writes, or what its
job names. -/
theorem Unwritten.transfer (h : r.Unwritten job origin c)
    (hwrites : d.instances.staged.get? r.tx = c.instances.staged.get? r.tx)
    (hnamed : ∀ command id, InstanceCommand.ofDetails job.details = .ok (command, id) →
      d.instances.get? id = c.instances.get? id) : r.Unwritten job origin d where
  writes := hwrites.trans h.writes
  named command id hdetails := (hnamed command id hdetails).trans (h.named command id hdetails)

/-- A command that is written stays so as long as nobody touches the writes. -/
theorem Wrote.transfer (h : r.Wrote job origin now c)
    (hwrites : d.instances.staged.get? r.tx = c.instances.staged.get? r.tx) :
    r.Wrote job origin now d := by
  obtain ⟨new, hmakes, hstaged⟩ := h
  exact ⟨new, hmakes, hwrites.trans hstaged⟩

/-- A command that is committed stays so as long as nobody touches the instance that it names. -/
theorem Moved.transfer (h : Moved job origin now c)
    (hnamed : ∀ command id, InstanceCommand.ofDetails job.details = .ok (command, id) →
      d.instances.get? id = c.instances.get? id) : Moved job origin now d := by
  obtain ⟨new, ⟨command, former, hdetails, hfind, hmoves, rfl⟩, hnew⟩ := h
  exact ⟨_, ⟨command, former, hdetails, hfind, hmoves, rfl⟩,
    (hnamed command former.id hdetails).trans hnew⟩

/-- A run stands as it does as long as its job is not brought back and nobody touches the instance
that the job names or the transaction of the run. -/
theorem Standing.transfer (hs : r.Standing job origin now c)
    (hjobs : c.jobs.Onward job.id d.jobs)
    (htransaction : d.transaction? r.tx = c.transaction? r.tx)
    (hwrites : d.instances.staged.get? r.tx = c.instances.staged.get? r.tx)
    (hnamed : ∀ command id, InstanceCommand.ofDetails job.details = .ok (command, id) →
      d.instances.get? id = c.instances.get? id) : r.Standing job origin now d := by
  unfold Standing at hs ⊢
  cases hstage : r.stage with
  | opened =>
      simp only [hstage] at hs
      exact ⟨hs.1.transfer htransaction, hs.2.transfer hwrites hnamed⟩
  | handling =>
      simp only [hstage] at hs
      exact ⟨hs.1.transfer htransaction, hs.2.1.transfer hwrites hnamed, hjobs.published hs.2.2⟩
  | handled =>
      simp only [hstage] at hs
      exact ⟨hs.1.transfer htransaction, hs.2.1.transfer hwrites, hjobs.published hs.2.2⟩
  | released =>
      simp only [hstage] at hs
      exact ⟨hs.1.transfer htransaction, hs.2.1.transfer hwrites, hjobs.gone hs.2.2⟩
  | failing ending =>
      simp only [hstage] at hs
      rcases hs with ⟨hfailed, hhooks⟩ | ⟨hlost, hooks, hhooks, howns⟩
      · exact .inl ⟨hfailed, hhooks.transfer htransaction⟩
      · exact .inr ⟨hlost, hooks, hhooks.transfer htransaction, howns⟩
  | preparing t rest =>
      simp only [hstage] at hs
      exact ⟨hs.1, hs.2.1, hs.2.2.1.transfer hwrites, hjobs.gone hs.2.2.2⟩
  | concluding committed rest ending =>
      cases committed with
      | true =>
          simp only [hstage] at hs
          obtain ⟨hcompleted, hgone, ⟨hrest, hwritten⟩ | ⟨hrest, hdone⟩⟩ := hs
          · exact ⟨hcompleted, hjobs.gone hgone, .inl ⟨hrest, hwritten.transfer hwrites⟩⟩
          · exact ⟨hcompleted, hjobs.gone hgone, .inr ⟨hrest, hdone.transfer hnamed⟩⟩
      | false =>
          simp only [hstage] at hs
          refine ⟨hs.1, ?_⟩
          rcases hs.2 with hlost | ⟨hfailed, hrest | hgone⟩
          · exact .inl hlost
          · exact .inr ⟨hfailed, .inl hrest⟩
          · exact .inr ⟨hfailed, .inr (hjobs.gone hgone)⟩
  | ended ending =>
      simp only [hstage] at hs
      rcases hs with hlost | ⟨hgone, hfailed | ⟨hcompleted, hdone⟩⟩
      · exact .inl hlost
      · exact .inr ⟨hjobs.gone hgone, .inl hfailed⟩
      · exact .inr ⟨hjobs.gone hgone, .inr ⟨hcompleted, hdone.transfer hnamed⟩⟩

/-! ## Steps of a run -/

/-- A callback that is registered comes behind those that are. -/
theorem Registered.register {hooks : List (Synchronizer (Callback η))} (h : r.Registered c hooks)
    (moment : Moment) (callback : Callback η) :
    r.Registered (c.register r.tx moment callback) (hooks ++ [⟨moment, callback⟩]) := by
  obtain ⟨t, ht, rfl⟩ := h
  refine ⟨t.register moment callback, ?_, rfl⟩
  rw [Cluster.transaction?_register, if_pos rfl, ht]
  rfl

/-- The callbacks of the transaction of a run are those that it has registered. -/
theorem Registered.synchronizers {hooks : List (Synchronizer (Callback η))}
    (h : r.Registered c hooks) {t : Transaction (Callback η)} (ht : c.transaction? r.tx = some t) :
    t.synchronizers = hooks := by
  obtain ⟨t', ht', hhooks⟩ := h
  rw [ht'] at ht
  exact Option.some.inj ht ▸ hhooks

/-- A run whose transaction is to be given up has failed or lost its claim, and has registered
nothing but what takes that into account. -/
theorem Standing.givesUp (h : r.Standing job origin now c) {ending : Option JobEnd}
    (hends : r.givesUp? c = some ending) :
    ∃ t, c.transaction? r.tx = some t ∧
      (∀ callback ∈ t.callbacks (.after false), r.Owns job callback) ∧
      (ending = some .lostClaim ∨ ending = some .failed ∧
        (t.callbacks (.after false) = [.drop r.node job.id true] ∨
          c.jobs.find? job.id = none)) := by
  unfold Standing at h
  rcases givesUp?_cases hends with hstage | ⟨hstage, rfl, -⟩
  · simp only [hstage] at h
    rcases h with ⟨hfailed, t, ht, hhooks⟩ | ⟨hlost, hooks, ⟨t, ht, hhooks⟩, howns⟩
    · have hcallbacks : t.callbacks (.after false) = [.drop r.node job.id true] := by
        simp [Transaction.callbacks, hhooks, dropHook, Moment.takesPart]
      refine ⟨t, ht, fun callback hmem => ?_, .inr ⟨hfailed, .inl hcallbacks⟩⟩
      rw [hcallbacks, List.mem_singleton] at hmem
      subst hmem
      exact .inl rfl
    · exact ⟨t, ht, fun _ => owns_of_mem_callbacks (hhooks ▸ howns), .inl hlost⟩
  · simp only [hstage] at h
    obtain ⟨⟨t, ht, hhooks⟩, -, hgone⟩ := h
    exact ⟨t, ht, fun _ => owns_of_mem_callbacks (hhooks ▸ fun _ => owns_of_mem_hooks),
      .inr ⟨rfl, .inr hgone⟩⟩

/-- A handler of commands refuses the command of its job, or leaves its write with the transaction
of the run. -/
theorem process_cases (app : Application η ω) (he : r.Enabled job c)
    (hunwritten : r.Unwritten job origin c) (horigin : origin.Keyed) :
    (∃ e, Cluster.process app r.node r.thread job.info (some r.tx) c = (.ok (.error e), c)) ∨
      ∃ new, InstanceCommand.Makes origin job.details c.clock new ∧
        Cluster.process app r.node r.thread job.info (some r.tx) c =
          (.ok (.ok ()), c.stageWrite r.tx (.put new)) := by
  have hprocess : Cluster.process app r.node r.thread job.info (some r.tx) c =
      (.ok (c.commandInstance job.details (some r.tx)).1,
        (c.commandInstance job.details (some r.tx)).2) := by
    unfold Cluster.process
    simp only [JobRecord.info, he.handler]
    rfl
  rw [hprocess]
  rcases c.commandInstance_cases hunwritten.writes with
    ⟨e, heq⟩ | ⟨command, id, p, hdetails, hfind, hmoves, heq⟩
  · rw [heq]
    exact .inl ⟨e, rfl⟩
  · rw [heq]
    rw [hunwritten.named command id hdetails] at hfind
    obtain rfl := horigin id p hfind
    exact .inr ⟨_, ⟨command, p, hdetails, hfind, hmoves, rfl⟩, rfl⟩

/-- A job that cannot be claimed from a store that is available is stored no longer, or not free. -/
theorem claim_eq_error {s : JobStore} {id : JobId} {node : NodeId} {e : JobStoreError}
    (havailable : s.available = true) (h : s.claim id node = .error e) :
    e = .noLongerStored id := by
  rw [JobStore.claim, JobStore.guarded, if_pos havailable] at h
  split at h
  · cases h
    rfl
  · split at h <;> cases h
    rfl

/-- A published job that cannot be finished by a node is not held by it. -/
theorem finish_eq_error {s : JobStore} {id : JobId} {node : NodeId} {outcome : JobOutcome}
    {e : JobStoreError} (havailable : s.available = true) (hpublished : s.Published id)
    (h : s.finish id node outcome = .error e) : e = .noLongerStored id := by
  rw [JobStore.finish_eq hpublished havailable] at h
  split at h <;> cases h
  rfl

/-- A run that has failed drops its job with the first of its callbacks, unless the job is gone. -/
theorem Standing.gone (hs : r.Standing job origin now c) (he : r.Enabled job c)
    {rest : List (Callback η)}
    (hstage : r.stage = .concluding false (callback :: rest) (some .failed))
    (hjudged : r.isMisjudged job.id c = false) :
    (Cluster.runCallback app r.thread callback (.after false) c).2.jobs.find? job.id = none := by
  have howns : r.Owns job callback := hs.owns (by rw [hstage]; rfl)
  rw [howns.find? he.available]
  simp only [Standing, hstage] at hs
  rcases hs.2 with hlost | ⟨-, hdrops | hgone⟩
  · cases hlost
  · obtain ⟨rfl, rfl⟩ := List.cons.inj hdrops
    simp only [isMisjudged, hstage, beq_self_eq_true, Bool.true_and, Bool.and_eq_false_iff,
      bne_eq_false_iff_eq] at hjudged
    rcases hjudged with hnone | hheld
    · rw [Option.isSome_eq_false_iff, Option.isNone_iff_eq_none] at hnone
      rw [hnone, ite_self]
    · simp [Callback.dropsIn, he.available, hheld]
  · rw [hgone, ite_self]

/-- A run that has lost its claim leaves the record of its job alone. -/
theorem Standing.kept (hs : r.Standing job origin now c) (he : r.Enabled job c)
    {rest : List (Callback η)} {committed : Bool}
    (hstage : r.stage = .concluding committed (callback :: rest) (some .lostClaim))
    (hjudged : r.isMisjudged job.id c = false) :
    (Cluster.runCallback app r.thread callback (.after committed) c).2.jobs.find? job.id =
      c.jobs.find? job.id := by
  have howns : r.Owns job callback := hs.owns (by rw [hstage]; rfl)
  rw [howns.find? he.available]
  rcases howns.cases with ⟨n, rfl⟩ | ⟨n, rfl⟩ | rfl
  · simp only [isMisjudged, hstage, beq_self_eq_true, Bool.true_and] at hjudged
    simp [Callback.dropsIn, hjudged]
  · rfl
  · rfl

/-- A step of a run leaves its node able to carry commands out. -/
theorem Turn.enabled (h : Turn app job.info r c stage d) (he : r.Enabled job c)
    (hs : r.Standing job origin now c) (horigin : origin.Keyed) :
    (r.moveTo stage).Enabled job d := by
  cases h with
  | claimed hstage hclaim =>
      obtain ⟨havailable, _, _, _, _, rfl⟩ := (JobStore.claim_eq_ok_iff _ _ _ _ _).mp hclaim
      exact ⟨havailable, he.handler⟩
  | handled hstage =>
      simp only [Standing, hstage] at hs
      rcases process_cases app he hs.2.1 horigin with ⟨e, heq⟩ | ⟨new, _, heq⟩
      · rw [heq]
        exact ⟨he.available, he.handler⟩
      · rw [heq, Cluster.stageWrite_of_first c _ hs.2.1.writes]
        exact ⟨he.available, he.handler⟩
  | released hstage hfinish =>
      obtain ⟨havailable, _, rfl⟩ := (JobStore.finish_eq_ok_iff _ _ _ _ _).mp hfinish
      exact ⟨havailable, he.handler⟩
  | unclaimed | unreleased | prepared | bereft | concluded => exact ⟨he.available, he.handler⟩
  | withdrawn | committed | refused =>
      refine ⟨he.available, ?_⟩
      rw [Cluster.handlers_modifyManager]
      exact he.handler
  | before hstage =>
      have howns := hs.owns (by rw [hstage]; rfl)
      have hkeeps := howns.enabled app he .before
      exact ⟨hkeeps.available, hkeeps.handler⟩
  | @after committed _ _ _ hstage =>
      have howns := hs.owns (by rw [hstage]; rfl)
      have hkeeps := howns.enabled app he (.after committed)
      exact ⟨hkeeps.available, hkeeps.handler⟩

/-! ### Step by step -/

/-- A run that claims its job has nothing but the drop registered with its transaction. -/
theorem Standing.claimed {held : JobRecord} {jobs : JobStore} (hs : r.Standing job origin now c)
    (hstage : r.stage = .opened)
    (hclaim : c.jobs.claim job.id (c.nodeId r.node) = .ok (held, jobs)) :
    (r.moveTo .handling).Standing job origin now
      (({ c with jobs }).register r.tx .onRollback (.drop r.node job.id true)) := by
  simp only [Standing, hstage] at hs
  obtain ⟨hregistered, hunwritten⟩ := hs
  have hjobs : r.Registered { c with jobs } [] := hregistered
  exact ⟨hjobs.register .onRollback (.drop r.node job.id true),
    ⟨hunwritten.writes, hunwritten.named⟩, JobStore.published_claim hclaim⟩

/-- A run that is refused the claim has lost it, and has registered nothing. -/
theorem Standing.unclaimed {e : JobStoreError} (hs : r.Standing job origin now c)
    (he : r.Enabled job c) (hstage : r.stage = .opened)
    (hclaim : c.jobs.claim job.id (c.nodeId r.node) = .error e) :
    (r.moveTo (.failing (some (Cluster.endOf (.error (.body (.ofStore e))))))).Standing
      job origin now c := by
  simp only [Standing, hstage] at hs
  obtain rfl := claim_eq_error he.available hclaim
  exact .inr ⟨rfl, [], hs.1, nofun⟩

/-- A run whose command is refused has failed; otherwise it has written what the command makes of
the instance, at the time of the clock. -/
theorem Standing.handled (hs : r.Standing job origin now c) (he : r.Enabled job c)
    (horigin : origin.Keyed) (hstage : r.stage = .handling) :
    (r.moveTo (stageHandled
        (Cluster.process app r.node r.thread job.info (some r.tx) c).1)).Standing job origin c.clock
      (Cluster.process app r.node r.thread job.info (some r.tx) c).2 := by
  simp only [Standing, hstage] at hs
  obtain ⟨hregistered, hunwritten, hpublished⟩ := hs
  rcases process_cases app he hunwritten horigin with ⟨e, heq⟩ | ⟨new, hmakes, heq⟩
  · rw [heq]
    exact .inl ⟨rfl, hregistered⟩
  · rw [heq, Cluster.stageWrite_of_first c _ hunwritten.writes]
    have hstaged : r.Registered { c with instances := _ } _ := hregistered
    refine ⟨hstaged.register .after (.applyWrites r.tx), ⟨new, hmakes, ?_⟩, hpublished⟩
    simp [Cluster.register, Cluster.modifyTransaction, InstanceStore.stage,
      InstanceStore.writes, hunwritten.writes]

/-- A run that takes its job out is not to drop it any more. -/
theorem Standing.released {jobs : JobStore} (hs : r.Standing job origin now c)
    (hstage : r.stage = .handled)
    (hfinish : c.jobs.finish job.id (c.nodeId r.node) .done = .ok jobs) :
    (r.moveTo .released).Standing job origin now
      (({ c with jobs }).modifyTransaction r.tx fun t =>
        t.mapCallbacks (Cluster.disarm job.id)) := by
  simp only [Standing, hstage] at hs
  obtain ⟨⟨t, ht, hhooks⟩, hwrote, -⟩ := hs
  refine ⟨⟨t.mapCallbacks (Cluster.disarm job.id), ?_, ?_⟩, hwrote,
    (StoreCall.heldBy?_finish hfinish).2⟩
  · rw [Cluster.transaction?_modifyTransaction, tx_moveTo, if_pos rfl]
    exact congrArg _ ht
  · simp [Transaction.mapCallbacks, hhooks, dropHook, writeHook, Cluster.disarm]

/-- A run that cannot take its job out has lost its claim. -/
theorem Standing.unreleased {e : JobStoreError} (hs : r.Standing job origin now c)
    (he : r.Enabled job c) (hstage : r.stage = .handled)
    (hfinish : c.jobs.finish job.id (c.nodeId r.node) .done = .error e) :
    (r.moveTo (.failing (some (Cluster.endOf (.error (.body (.ofStore e))))))).Standing
      job origin now c := by
  simp only [Standing, hstage] at hs
  obtain ⟨hregistered, -, hpublished⟩ := hs
  obtain rfl := finish_eq_error he.available hpublished hfinish
  exact .inr ⟨rfl, _, hregistered, fun _ => owns_of_mem_hooks⟩

/-- No callback of a run comes before its commit. -/
theorem Standing.prepared {t : Transaction (Callback η)} (hs : r.Standing job origin now c)
    (hstage : r.stage = .released) (ht : c.transaction? r.tx = some t) :
    (r.moveTo (.preparing t (t.callbacks .before))).Standing job origin now
      { c with transactions := c.transactions.erase r.tx } := by
  simp only [Standing, hstage] at hs
  obtain ⟨hregistered, hwrote, hgone⟩ := hs
  have hhooks := hregistered.synchronizers ht
  refine ⟨?_, hhooks, hwrote, hgone⟩
  simp [Transaction.callbacks, hhooks, dropHook, writeHook, Moment.takesPart]

/-- A run that has committed has its write left to apply. -/
theorem Standing.committed {t : Transaction (Callback η)} (resource : ResourceManager)
    (hs : r.Standing job origin now c) (hstage : r.stage = .preparing t []) :
    (r.moveTo (.concluding true (t.callbacks (.after true)) (some .completed))).Standing
      job origin now
      ({ c with resource }.modifyManager t.node fun m => m.release t.owner t.id) := by
  simp only [Standing, hstage] at hs
  obtain ⟨-, hhooks, hwrote, hgone⟩ := hs
  refine ⟨rfl, hgone, .inl ⟨?_, hwrote⟩⟩
  simp [Transaction.callbacks, hhooks, dropHook, writeHook, Moment.takesPart]

/-- A run whose commit is refused has failed, and its job is gone already. -/
theorem Standing.refused {t : Transaction (Callback η)} (resource : ResourceManager)
    (hs : r.Standing job origin now c) (hstage : r.stage = .preparing t []) :
    (r.moveTo (.concluding false (t.callbacks (.after false)) (some .failed))).Standing
      job origin now
      ({ c with resource }.modifyManager t.node fun m => m.release t.owner t.id) := by
  simp only [Standing, hstage] at hs
  obtain ⟨-, hhooks, -, hgone⟩ := hs
  exact ⟨fun _ => owns_of_mem_callbacks (hhooks ▸ fun _ => owns_of_mem_hooks),
    .inr ⟨rfl, .inr hgone⟩⟩

/-- The callback after the commit of a run applies what the run has written. -/
theorem Standing.applied {rest : List (Callback η)} {ending : Option JobEnd}
    (hs : r.Standing job origin now c) (he : r.Enabled job c)
    (hstage : r.stage = .concluding true (callback :: rest) ending) :
    (r.moveTo (.concluding true rest ending)).Standing job origin now
      (Cluster.runCallback app r.thread callback (.after true) c).2 := by
  have howns : r.Owns job callback := hs.owns (by rw [hstage]; rfl)
  simp only [Standing, hstage, List.cons.injEq, reduceCtorEq, false_and, or_false] at hs
  obtain ⟨hending, hgone, ⟨rfl, rfl⟩, new, hmakes, hwrites⟩ := hs
  refine ⟨hending, ?_, .inr ⟨rfl, new, hmakes, ?_⟩⟩
  · rw [howns.find? he.available, hgone, ite_self]
  · simp [Cluster.runCallback, Cluster.completeWrites, Cluster.followsCommit,
      InstanceStore.get?_complete, InstanceStore.view_eq_seen, InstanceStore.writes,
      hwrites, InstanceStore.seen, InstanceWrite.id, InstanceWrite.result]

/-- A callback after the rollback of a run drops the job, unless the claim is misjudged. -/
theorem Standing.undone {rest : List (Callback η)} {ending : Option JobEnd}
    (hs : r.Standing job origin now c) (he : r.Enabled job c)
    (hstage : r.stage = .concluding false (callback :: rest) ending)
    (hjudged : r.isMisjudged job.id c = false) :
    (r.moveTo (.concluding false rest ending)).Standing job origin now
      (Cluster.runCallback app r.thread callback (.after false) c).2 := by
  have hends := hs
  simp only [Standing, hstage] at hends
  refine ⟨fun x hx => hends.1 x (List.mem_cons_of_mem _ hx), ?_⟩
  rcases hends.2 with hlost | ⟨rfl, -⟩
  · exact .inl hlost
  · exact .inr ⟨rfl, .inr (hs.gone he hstage hjudged)⟩

/-- A run that has carried out its callbacks has ended as it was to end. -/
theorem Standing.concluded {committed : Bool} {ending : Option JobEnd}
    (hs : r.Standing job origin now c) (hstage : r.stage = .concluding committed [] ending) :
    (r.moveTo (.ended ending)).Standing job origin now c := by
  cases committed with
  | true =>
      simp only [Standing, hstage] at hs
      obtain ⟨hending, hgone, ⟨hnil, -⟩ | ⟨-, hmoved⟩⟩ := hs
      · cases hnil
      · exact .inr ⟨hgone, .inr ⟨hending, hmoved⟩⟩
  | false =>
      simp only [Standing, hstage] at hs
      rcases hs.2 with hlost | ⟨rfl, hnil | hgone⟩
      · exact .inl hlost
      · cases hnil
      · exact .inr ⟨hgone, .inl rfl⟩

/-- Every step of a run leaves it standing as it ought to, as long as the claim is not misjudged. -/
theorem Turn.standing (h : Turn app job.info r c stage d) (he : r.Enabled job c)
    (hs : r.Standing job origin now c) (horigin : origin.Keyed)
    (hjudged : r.isMisjudged job.id c = false) :
    (r.moveTo stage).Standing job origin
      (if r.stage matches .handling then c.clock else now) d := by
  cases h with
  | claimed hstage hclaim =>
      simp only [hstage]
      exact hs.claimed hstage hclaim
  | unclaimed hstage hclaim =>
      simp only [hstage]
      exact hs.unclaimed he hstage hclaim
  | handled hstage =>
      simp only [hstage]
      exact hs.handled he horigin hstage
  | released hstage hfinish =>
      simp only [hstage]
      exact hs.released hstage hfinish
  | unreleased hstage hfinish =>
      simp only [hstage]
      exact hs.unreleased he hstage hfinish
  | prepared hstage ht =>
      simp only [hstage]
      exact hs.prepared hstage ht
  | withdrawn resource hends ht =>
      obtain ⟨t, ht', howns, hending⟩ := hs.givesUp hends
      obtain rfl := Option.some.inj (ht.symm.trans ht')
      exact ⟨howns, hending⟩
  | bereft hends ht =>
      obtain ⟨t, ht', -⟩ := hs.givesUp hends
      rw [ht] at ht'
      cases ht'
  | committed resource hstage =>
      simp only [hstage]
      exact hs.committed resource hstage
  | refused resource hstage =>
      simp only [hstage]
      exact hs.refused resource hstage
  | before hstage =>
      simp only [Standing, hstage] at hs
      cases hs.1
  | @after committed _ _ _ hstage =>
      simp only [hstage]
      cases committed with
      | true => exact hs.applied he hstage
      | false => exact hs.undone he hstage hjudged
  | concluded hstage =>
      simp only [hstage]
      exact hs.concluded hstage

/-- What a step of a run of a command may do: it changes no instance and tells nobody of a change,
unless the run is to be counted as completed; then it changes no instance but the one that the job
names. Once it is settled that the run has failed, the step leaves no record of the job; and it
leaves the record alone if the run may be counted as a lost claim, the claim itself apart. -/
structure Proper (job : JobRecord) (r : JobRun η) (c : Cluster η ω) (stage : JobStage η)
    (d : Cluster η ω) : Prop where
  still : r.stage.ending? ≠ some (some .completed) → c.Still d
  others : ∀ id, (∀ command, InstanceCommand.ofDetails job.details ≠ .ok (command, id)) →
    d.instances.get? id = c.instances.get? id
  settled : r.stage.ending? = some (some .failed) → d.jobs.find? job.id = none
  kept : r.stage ≠ .opened → stage.mayEnd (some .lostClaim) →
    d.jobs.find? job.id = c.jobs.find? job.id

/-- A step that changes no instance, and leaves or drops the job as it is to, does what it may
do. -/
theorem Proper.of_still (hstill : c.Still d)
    (hsettled : r.stage.ending? = some (some .failed) → d.jobs.find? job.id = none)
    (hkept : r.stage ≠ .opened → stage.mayEnd (some .lostClaim) →
      d.jobs.find? job.id = c.jobs.find? job.id) : r.Proper job c stage d where
  still _ := hstill
  others id _ := by rw [InstanceStore.get?, InstanceStore.get?, hstill.committed]
  settled := hsettled
  kept := hkept

/-- A step of a run that is not settled yet. -/
theorem Proper.of_open (hopen : r.stage.ending? = none) (hstill : c.Still d)
    (hkept : r.stage ≠ .opened → stage.mayEnd (some .lostClaim) →
      d.jobs.find? job.id = c.jobs.find? job.id) : r.Proper job c stage d :=
  .of_still hstill (fun h => by rw [hopen] at h; cases h) hkept

/-- A run that is about to give up its transaction has not settled how it ends. -/
theorem ending?_of_givesUp? {ending : Option JobEnd} (h : r.givesUp? c = some ending) :
    r.stage.ending? = none := by
  rcases givesUp?_cases h with hstage | ⟨hstage, -, -⟩ <;>
    · rw [hstage]
      rfl

/-- The callback after the commit of a run changes the instance that the job names. -/
theorem Standing.proper_applied {rest : List (Callback η)} {ending : Option JobEnd}
    (hs : r.Standing job origin now c)
    (hstage : r.stage = .concluding true (callback :: rest) ending) :
    r.Proper job c (.concluding true rest ending)
      (Cluster.runCallback app r.thread callback (.after true) c).2 := by
  simp only [Standing, hstage, List.cons.injEq, reduceCtorEq, false_and, or_false] at hs
  obtain ⟨rfl, -, ⟨rfl, rfl⟩, new, ⟨command, former, hdetails, -, -, rfl⟩, hwrites⟩ := hs
  refine ⟨fun h => absurd (by rw [hstage]; rfl) h, fun id hid => ?_, fun h => ?_,
    fun _ hmay => ?_⟩
  · have hne : former.id ≠ id := fun h => hid command (h ▸ hdetails)
    simp [Cluster.runCallback, Cluster.completeWrites, Cluster.followsCommit,
      InstanceStore.get?_complete, InstanceStore.view_eq_seen, InstanceStore.writes,
      hwrites, InstanceStore.seen, InstanceWrite.id, ProcessInstance.transition, hne]
  · rw [hstage] at h
    cases h
  · cases hmay

/-- A callback after the rollback of a run changes no instance, and the job only if it is to. -/
theorem Standing.proper_undone {rest : List (Callback η)} {ending : Option JobEnd}
    (hs : r.Standing job origin now c) (he : r.Enabled job c)
    (hstage : r.stage = .concluding false (callback :: rest) ending)
    (hjudged : r.isMisjudged job.id c = false) :
    r.Proper job c (.concluding false rest ending)
      (Cluster.runCallback app r.thread callback (.after false) c).2 := by
  have howns : r.Owns job callback := hs.owns (by rw [hstage]; rfl)
  refine .of_still (howns.still rfl) (fun h => ?_) fun _ hmay => ?_
  · rw [hstage] at h
    cases h
    exact hs.gone he hstage hjudged
  · cases hmay
    exact hs.kept he hstage hjudged

/-- A run that has failed leaves no record of its job behind. -/
theorem Standing.proper_concluded {committed : Bool} {ending : Option JobEnd}
    (hs : r.Standing job origin now c) (hstage : r.stage = .concluding committed [] ending) :
    r.Proper job c (.ended ending) c := by
  refine .of_still (.refl c) (fun h => ?_) fun _ _ => rfl
  rw [hstage] at h
  cases h
  cases committed with
  | true =>
      simp only [Standing, hstage] at hs
      cases hs.1
  | false =>
      simp only [Standing, hstage] at hs
      rcases hs.2 with hlost | ⟨-, hnil | hgone⟩
      · cases hlost
      · cases hnil
      · exact hgone

/-- Every step of a run does what it may do, as long as the claim is not misjudged. -/
theorem Turn.proper (h : Turn app job.info r c stage d) (he : r.Enabled job c)
    (hs : r.Standing job origin now c) (horigin : origin.Keyed)
    (hjudged : r.isMisjudged job.id c = false) : r.Proper job c stage d := by
  cases h with
  | claimed hstage | unclaimed hstage =>
      exact .of_open (by rw [hstage]; rfl) ⟨rfl, fun _ => rfl, rfl⟩ fun h => absurd hstage h
  | handled hstage =>
      simp only [Standing, hstage] at hs
      have hopen : r.stage.ending? = none := by rw [hstage]; rfl
      rcases process_cases app he hs.2.1 horigin with ⟨e, heq⟩ | ⟨new, _, heq⟩
      · rw [heq]
        exact .of_open hopen (.refl c) fun _ _ => rfl
      · rw [heq, Cluster.stageWrite_of_first c _ hs.2.1.writes]
        exact .of_open hopen ⟨rfl, fun _ => rfl, rfl⟩ fun _ _ => rfl
  | released hstage =>
      exact .of_open (by rw [hstage]; rfl) ⟨rfl, fun _ => rfl, rfl⟩ fun _ hmay => absurd rfl hmay
  | unreleased hstage | prepared hstage =>
      exact .of_open (by rw [hstage]; rfl) ⟨rfl, fun _ => rfl, rfl⟩ fun _ _ => rfl
  | withdrawn resource hends =>
      refine .of_open (ending?_of_givesUp? hends) (.modifyNode ?_ _ ?_) fun _ _ => rfl
      · exact ⟨rfl, fun _ => rfl, rfl⟩
      · rfl
  | bereft hends => exact .of_open (ending?_of_givesUp? hends) (.refl c) fun _ _ => rfl
  | committed _ hstage | refused _ hstage =>
      refine .of_open (by rw [hstage]; rfl) (.modifyNode ?_ _ ?_) fun _ _ => rfl
      · exact ⟨rfl, fun _ => rfl, rfl⟩
      · rfl
  | before hstage =>
      simp only [Standing, hstage] at hs
      cases hs.1
  | @after committed _ _ _ hstage =>
      cases committed with
      | true => exact hs.proper_applied hstage
      | false => exact hs.proper_undone he hstage hjudged
  | concluded hstage => exact hs.proper_concluded hstage

/-! ## Claims that nobody resets -/

/-- Whether a run that is in its transaction holds its job from the claim up to the drop, and drops
nothing if it has no claim. -/
def Holding (job : JobRecord) (r : JobRun η) (c : Cluster η ω) : Prop :=
  match r.stage with
  | .handling | .handled => c.jobs.heldBy? job.id = some (c.nodeId r.node)
  | .failing ending => (ending = some .lostClaim → r.Registered c []) ∧
      (ending = some .failed → c.jobs.heldBy? job.id = some (c.nodeId r.node))
  | .concluding _ rest ending => (ending = some .lostClaim → rest = []) ∧
      (ending = some .failed → c.jobs.find? job.id = none ∨
        c.jobs.heldBy? job.id = some (c.nodeId r.node))
  | .opened | .released | .preparing _ _ | .ended _ => True

/-- A run that holds its job misjudges nothing. -/
theorem Holding.judged (h : r.Holding job c) (hs : r.Standing job origin now c) :
    r.isMisjudged job.id c = false := by
  refine Bool.eq_false_iff.mpr fun hmisjudged => ?_
  unfold Holding at h
  unfold isMisjudged at hmisjudged
  split at hmisjudged
  · next committed n other rest hstage =>
    rw [hstage] at h
    simp only [Bool.and_eq_true, beq_iff_eq, bne_iff_ne, Option.isSome_iff_ne_none] at hmisjudged
    obtain ⟨⟨rfl, hstored⟩, hheld⟩ := hmisjudged
    have hnode : n = r.node := by
      simp only [Standing, hstage] at hs
      cases committed with
      | true => cases hs.1
      | false =>
          rcases hs.2 with hlost | ⟨-, hrest | hgone⟩
          · cases hlost
          · exact (Callback.drop.inj (List.cons.inj hrest).1).1
          · exact absurd hgone hstored
    rcases h.2 rfl with hgone | hown
    · exact hstored hgone
    · exact hheld (hnode ▸ hown)
  · next committed n other rest hstage =>
    rw [hstage] at h
    cases h.1 rfl
  · cases hmisjudged

/-- A run holds its job as long as nobody touches its record or the transaction of the run. -/
theorem Holding.transfer (h : r.Holding job c)
    (hfind : d.jobs.find? job.id = c.jobs.find? job.id) (hnode : d.nodeId r.node = c.nodeId r.node)
    (htransaction : d.transaction? r.tx = c.transaction? r.tx) : r.Holding job d := by
  have hheld : d.jobs.heldBy? job.id = c.jobs.heldBy? job.id := by
    rw [JobStore.heldBy?, JobStore.heldBy?, hfind]
  unfold Holding Registered at h ⊢
  rwa [hheld, hfind, hnode, htransaction]

/-- A transaction with which nothing is registered has no callbacks. -/
theorem Registered.callbacks_nil (h : r.Registered c []) {t : Transaction (Callback η)}
    (ht : c.transaction? r.tx = some t) (phase : Phase) : t.callbacks phase = [] := by
  rw [Transaction.callbacks, h.synchronizers ht]
  rfl

/-- A run holds its job after each of its steps as it is to, if it has held it before. -/
theorem Turn.holding (h : Turn app job.info r c stage d) (he : r.Enabled job c)
    (hs : r.Standing job origin now c) (hholding : r.Holding job c) (horigin : origin.Keyed) :
    (r.moveTo stage).Holding job d := by
  have hstanding := hs
  unfold Standing at hs
  unfold Holding at hholding
  cases h with
  | claimed hstage hclaim => exact (StoreCall.heldBy?_claim hclaim).2
  | unclaimed hstage hclaim =>
      rw [hstage] at hs
      obtain rfl := claim_eq_error he.available hclaim
      exact ⟨fun _ => hs.1, nofun⟩
  | handled hstage =>
      rw [hstage] at hs hholding
      rcases process_cases app he hs.2.1 horigin with ⟨e, heq⟩ | ⟨new, -, heq⟩
      · rw [heq]
        exact ⟨nofun, fun _ => hholding⟩
      · rw [heq, Cluster.stageWrite_of_first c _ hs.2.1.writes]
        exact hholding
  | released | prepared | concluded => exact trivial
  | unreleased hstage hfinish =>
      rw [hstage] at hs hholding
      have hturned : c.jobs.finish job.id (c.nodeId r.node) .done = _ := hfinish
      rw [JobStore.finish_eq hs.2.2 he.available, if_pos hholding] at hturned
      cases hturned
  | @withdrawn t ending resource hends ht =>
      rcases givesUp?_cases hends with hstage | ⟨hstage, rfl, -⟩
      · rw [hstage] at hholding
        refine ⟨fun hlost => (hholding.1 hlost).callbacks_nil ht _, fun hfailed => .inr ?_⟩
        rw [Cluster.nodeId_modifyManager]
        exact hholding.2 hfailed
      · rw [hstage] at hs
        exact ⟨nofun, fun _ => .inl hs.2.2⟩
  | bereft => exact trivial
  | committed => exact ⟨nofun, nofun⟩
  | refused resource hstage =>
      rw [hstage] at hs
      exact ⟨nofun, fun _ => .inl hs.2.2.2⟩
  | before hstage =>
      rw [hstage] at hs
      cases hs.1
  | @after committed callback rest ending hstage =>
      have hjudged := Holding.judged (r := r) (c := c) hholding hstanding
      rw [hstage] at hs hholding
      refine ⟨fun hlost => (nomatch hholding.1 hlost), fun hfailed => .inl ?_⟩
      subst hfailed
      cases committed with
      | true => cases hs.1
      | false => exact hstanding.gone he hstage hjudged

/-! ## Runs outside any transaction -/

/-- How a run of a command stands that takes place outside any transaction: commands are refused
there. -/
def StandingPlain (job : JobRecord) (r : JobRun η) (c : Cluster η ω) : Prop :=
  match r.stage with
  | .opened => True
  | .handling => c.jobs.Published job.id
  | .failing ending => ending = some .failed ∧ c.jobs.Published job.id
  | .ended ending => ending = some .lostClaim ∨
      ending = some .failed ∧ c.jobs.find? job.id = none
  | .handled | .released | .preparing _ _ | .concluding _ _ _ => False

/-- A run outside any transaction stands as it does, as long as its job is not brought back. -/
theorem StandingPlain.transfer (hs : r.StandingPlain job c)
    (hjobs : c.jobs.Onward job.id d.jobs) : r.StandingPlain job d := by
  unfold StandingPlain at hs ⊢
  cases hstage : r.stage with
  | opened => exact trivial
  | handling =>
      simp only [hstage] at hs
      exact hjobs.published hs
  | failing ending =>
      simp only [hstage] at hs
      exact ⟨hs.1, hjobs.published hs.2⟩
  | ended ending =>
      simp only [hstage] at hs
      exact hs.imp_right fun ⟨hfailed, hgone⟩ => ⟨hfailed, hjobs.gone hgone⟩
  | handled | released | preparing | concluding => simp only [hstage] at hs

/-- Every step of a run outside any transaction leaves it standing as it ought to, and does what it
may do. -/
theorem standing_goOnPlain (app : Application η ω) (he : r.Enabled job c)
    (hs : r.StandingPlain job c) (hrunning : ∀ ending, r.stage ≠ .ended ending) :
    ∃ stage d, r.goOnPlain app job.info c = (stage, d) ∧ (r.moveTo stage).Enabled job d ∧
      (r.moveTo stage).StandingPlain job d ∧ r.Proper job c stage d := by
  unfold StandingPlain at hs
  cases hstage : r.stage with
  | opened =>
      have hopen : r.stage.ending? = none := by rw [hstage]; rfl
      rcases Cluster.claim_cases he.available r.node job.id with
        ⟨jobs, hclaim, havailable, hpublished⟩ | hclaim
      · exact ⟨.handling, { c with jobs }, by simp only [goOnPlain, hstage, JobRecord.info, hclaim],
          ⟨havailable, he.handler⟩, hpublished,
          .of_open hopen ⟨rfl, fun _ => rfl, rfl⟩ fun h => absurd hstage h⟩
      · exact ⟨.ended (some .lostClaim), c,
          by simp only [goOnPlain, hstage, JobRecord.info, hclaim, Cluster.endOf],
          ⟨he.available, he.handler⟩, .inl rfl,
          .of_open hopen (.refl c) fun h => absurd hstage h⟩
  | handling =>
      simp only [hstage] at hs
      have hopen : r.stage.ending? = none := by rw [hstage]; rfl
      have hprocess : Cluster.process app r.node r.thread job.info none c =
          (.ok (.error (.failed "instance commands must run in a transaction")), c) := by
        unfold Cluster.process
        simp only [JobRecord.info, he.handler]
        rfl
      exact ⟨.failing (some .failed), c,
        by simp only [goOnPlain, hstage, hprocess, stageHandled, Cluster.endOf],
        ⟨he.available, he.handler⟩, ⟨rfl, hs⟩, .of_open hopen (.refl c) fun _ _ => rfl⟩
  | failing ending =>
      simp only [hstage] at hs
      obtain ⟨rfl, hpublished⟩ := hs
      have hopen : r.stage.ending? = none := by rw [hstage]; rfl
      rcases Cluster.finishClaim_cases he.available hpublished r.node .failedDropped with
        ⟨jobs, hfinish, havailable, hgone⟩ | hfinish
      · exact ⟨.ended (some .failed), { c with jobs },
          by simp only [goOnPlain, hstage, JobRecord.info, hfinish],
          ⟨havailable, he.handler⟩, .inr ⟨rfl, hgone⟩,
          .of_open hopen ⟨rfl, fun _ => rfl, rfl⟩ fun _ hmay => by cases hmay⟩
      · exact ⟨.ended (some .lostClaim), c,
          by simp only [goOnPlain, hstage, JobRecord.info, hfinish, Cluster.endOf],
          ⟨he.available, he.handler⟩, .inl rfl, .of_open hopen (.refl c) fun _ _ => rfl⟩
  | ended ending => exact absurd hstage (hrunning ending)
  | handled | released | preparing | concluding => simp only [hstage] at hs

end JobRun

end JobCluster
