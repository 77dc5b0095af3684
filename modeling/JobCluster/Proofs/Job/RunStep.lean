import JobCluster.Proofs.Cluster.Frame
import JobCluster.Proofs.Transaction.Completion
/-!
# The steps of a run

A run of a stored job takes several steps: it begins a transaction, claims the job, hands it to the
handler, takes it out of the store, and brings its transaction to an end, one callback after
another. The steps are the operations of `Cluster.attempt`, cut where others may come in between.
What a handler or a callback of the application does is no part of them, and how a handler comes
back is left open.

Main results:

- `JobRun.advance`, `JobRun.outcome_advance`: the next step of a run, and what it comes to;
- `Cluster.jobs_carryOut`: what a callback means to the job store;
- `JobRun.Outcome.beside`: a step reaches no transaction but that of its run.
-/

namespace JobCluster

variable {η ω : Type}

/-! ## Runs -/

/-- How a handler comes back. -/
inductive HandlerAnswer
  | returned (result : Except ProcessingError Unit)
  | panicked
  deriving Repr

/-- Where a run of a job is, between two of its steps. An ending is what the scheduler counts when
the run is over; there is none after a panic. -/
inductive JobStage (η : Type)
  /-- The transaction is open, and the job is to be claimed. -/
  | opened
  /-- The job is claimed, and the handler is at work. -/
  | handling
  /-- The handler has succeeded, and the job is to be taken out of the store. -/
  | handled
  /-- The job is taken out, and the transaction is to commit. -/
  | released
  /-- The work has failed, and the transaction is to be rolled back. -/
  | failing (ending : Option JobEnd)
  /-- The transaction is to commit once the callbacks before the commit have run. -/
  | preparing (t : Transaction (Callback η)) (rest : List (Callback η))
  /-- The transaction is at its end, and the callbacks after the end are running. -/
  | concluding (committed : Bool) (rest : List (Callback η)) (ending : Option JobEnd)
  /-- The run is over. -/
  | ended (ending : Option JobEnd)

/-- A run of a job in its transaction. -/
structure JobRun (η : Type) where
  node : NodeName
  thread : Thread
  tx : TxId
  stage : JobStage η := .opened

/-- What a step means to the job. Runs are told apart by the order in which they began. -/
inductive JobEvent
  /-- A run has claimed the job. -/
  | claimed (run : Nat)
  /-- A claim has been reset. -/
  | reset
  /-- A run has taken the job out as the last step of its work. -/
  | released (run : Nat)
  /-- The transaction of a run has committed. -/
  | committed (run : Nat)
  /-- The transaction of a run was rolled back, and has dropped the job. -/
  | dropped (run : Nat)
  /-- The job was cancelled. -/
  | cancelled
  /-- Nothing of this kind. -/
  | quiet
  deriving DecidableEq, Repr

/-- A callback that drops the job. -/
def Callback.Drops (id : JobId) : Callback η → Prop
  | .drop _ j _ => j = id
  | _ => False

namespace Cluster

/-- Runs a callback. One of the application does nothing here: what it does is done by the steps
around. -/
def carryOut (app : Application η ω) (thread : Thread) (phase : Phase) (c : Cluster η ω) :
    Callback η → Cluster η ω
  | .custom _ => c
  | callback => (runCallback app thread callback phase c).2

/-- What a callback of a run means to the job, by the job store before it and after it. -/
def carriedOut (id : JobId) (run : Nat) (before after : JobStore) : Callback η → JobEvent
  | .drop _ j _ =>
    if j = id ∧ (before.find? id).isSome ∧ (after.find? id).isNone then .dropped run else .quiet
  | _ => .quiet

section CarriedOut

variable {id : JobId} {run : Nat} {before after : JobStore} {callback : Callback η}

/-- A callback that does not drop the job means nothing to it. -/
theorem carriedOut_of_not_drops (h : ¬ callback.Drops id) :
    carriedOut id run before after callback = .quiet := by
  cases callback with
  | drop n j armed => exact if_neg fun hdropped => h hdropped.1
  | publish n plan | queue n info | applyWrites tx | withdraw n j | custom script => rfl

/-- No callback resets a claim of the job. -/
theorem carriedOut_ne_reset : carriedOut id run before after callback ≠ .reset := by
  unfold carriedOut
  split
  · split <;> exact JobEvent.noConfusion
  · exact JobEvent.noConfusion

end CarriedOut

end Cluster

namespace JobRun

/-- The run in a later stage. -/
def moveTo (r : JobRun η) (stage : JobStage η) : JobRun η := { r with stage }

@[simp]
theorem node_moveTo (r : JobRun η) (stage : JobStage η) : (r.moveTo stage).node = r.node :=
  rfl

@[simp]
theorem thread_moveTo (r : JobRun η) (stage : JobStage η) : (r.moveTo stage).thread = r.thread :=
  rfl

@[simp]
theorem tx_moveTo (r : JobRun η) (stage : JobStage η) : (r.moveTo stage).tx = r.tx :=
  rfl

@[simp]
theorem stage_moveTo (r : JobRun η) (stage : JobStage η) : (r.moveTo stage).stage = stage :=
  rfl

/-- Rolls the transaction of a run back: the resource manager is told, the thread is freed, and the
callbacks are next. -/
def withdraw (app : Application η ω) (r : JobRun η) (ending : Option JobEnd) (c : Cluster η ω) :
    JobStage η × Cluster η ω :=
  let w := Cluster.surroundings app r.thread
  match c.transaction? r.tx with
  | none => (.ended ending, c)
  | some t =>
    let c := { c with transactions := c.transactions.erase r.tx }
    (.concluding false (t.callbacks (.after false)) ending, w.leave t (w.rollbackResource t.id c).2)

/-- Commits the prepared transaction of a run with the resource manager, or rolls it back where that
refuses. -/
def settle (app : Application η ω) (r : JobRun η) (t : Transaction (Callback η)) (run : Nat)
    (c : Cluster η ω) : JobStage η × Cluster η ω × JobEvent :=
  let w := Cluster.surroundings app r.thread
  match w.commitResource t.id c with
  | (.ok (), c) =>
    (.concluding true (t.callbacks (.after true)) (some .completed), w.leave t c, .committed run)
  | (.error _, c) =>
    (.concluding false (t.callbacks (.after false)) (some .failed),
      w.leave t (w.rollbackResource t.id c).2, .quiet)

/-- The next step of a run. -/
def advance (app : Application η ω) (id : JobId) (run : Nat) (answer : HandlerAnswer) (r : JobRun η)
    (c : Cluster η ω) : JobStage η × Cluster η ω × JobEvent :=
  match r.stage with
  | .opened =>
    match c.claimFor r.node r.tx id with
    | (.ok (), c) => (.handling, c, .claimed run)
    | (.error e, c) => (.failing (some (Cluster.endOf (.error (.body e)))), c, .quiet)
  | .handling =>
    match answer with
    | .returned (.ok ()) => (.handled, c, .quiet)
    | .returned (.error e) =>
      (.failing (some (Cluster.endOf (.error (.body (.processing e))))), c, .quiet)
    | .panicked => (.failing none, c, .quiet)
  | .handled =>
    match c.releaseClaim r.node r.tx id with
    | (.ok (), c) => (.released, c, .released run)
    | (.error e, c) => (.failing (some (Cluster.endOf (.error (.body e)))), c, .quiet)
  | .released =>
    match (c.transaction? r.tx).filter Transaction.canCommit with
    | some t =>
      (.preparing t (t.callbacks .before), { c with transactions := c.transactions.erase r.tx },
        .quiet)
    | none =>
      let (stage, c) := r.withdraw app (some .failed) c
      (stage, c, .quiet)
  | .failing ending =>
    let (stage, c) := r.withdraw app ending c
    (stage, c, .quiet)
  | .preparing t (callback :: rest) =>
    let d := c.carryOut app r.thread .before callback
    (.preparing t rest, d, Cluster.carriedOut id run c.jobs d.jobs callback)
  | .preparing t [] => r.settle app t run c
  | .concluding committed (callback :: rest) ending =>
    let d := c.carryOut app r.thread (.after committed) callback
    (.concluding committed rest ending, d, Cluster.carriedOut id run c.jobs d.jobs callback)
  | .concluding _ [] ending => (.ended ending, c, .quiet)
  | .ended ending => (.ended ending, c, .quiet)

end JobRun

/-! ## What the steps of a run do -/

namespace JobRun

variable (app : Application η ω) (r : JobRun η) (c : Cluster η ω)

/-- A rollback takes the transaction out of the cluster, tells the resource manager and frees the
thread, unless somebody else has brought the transaction to its end. -/
theorem withdraw_cases (ending : Option JobEnd) :
    (c.transaction? r.tx = none ∧ r.withdraw app ending c = (.ended ending, c)) ∨
      ∃ t resource, c.transaction? r.tx = some t ∧
        r.withdraw app ending c = (.concluding false (t.callbacks (.after false)) ending,
          { c with transactions := c.transactions.erase r.tx, resource }.modifyManager t.node
            fun m => m.release t.owner t.id) := by
  unfold withdraw
  cases h : c.transaction? r.tx with
  | none => exact .inl ⟨rfl, rfl⟩
  | some t => exact .inr ⟨t, c.resource.rollback.2, rfl, rfl⟩

/-- The resource manager decides whether a prepared transaction commits. -/
theorem settle_cases (t : Transaction (Callback η)) (run : Nat) :
    ∃ resource, (r.settle app t run c).2.1 =
        { c with resource }.modifyManager t.node (fun m => m.release t.owner t.id) ∧
      ((r.settle app t run c).1 =
            .concluding true (t.callbacks (.after true)) (some .completed) ∧
          (r.settle app t run c).2.2 = .committed run ∨
        (r.settle app t run c).1 =
            .concluding false (t.callbacks (.after false)) (some .failed) ∧
          (r.settle app t run c).2.2 = .quiet) := by
  have hcommit : (Cluster.surroundings app r.thread).commitResource t.id c =
      ((c.resource.commit t.id).1, { c with resource := (c.resource.commit t.id).2 }) := rfl
  simp only [settle, hcommit]
  cases (c.resource.commit t.id).1 with
  | ok => exact ⟨(c.resource.commit t.id).2, rfl, .inl ⟨rfl, rfl⟩⟩
  | error e => exact ⟨(c.resource.commit t.id).2.rollback.2, rfl, .inr ⟨rfl, rfl⟩⟩

end JobRun

namespace Cluster

/-- A claim for a transaction succeeds as the claim in the store does, and then the transaction
drops the job if it is rolled back. -/
theorem claimFor_cases (c : Cluster η ω) (n : NodeName) (tx : TxId) (id : JobId) :
    (∃ held jobs, c.jobs.claim id (c.nodeId n) = .ok (held, jobs) ∧
        c.claimFor n tx id =
          (.ok (), ({ c with jobs }).register tx .onRollback (.drop n id true))) ∨
      ∃ e, c.jobs.claim id (c.nodeId n) = .error e ∧
        c.claimFor n tx id = (.error (.ofStore e), c) := by
  unfold claimFor claim
  cases h : c.jobs.claim id (c.node n).id with
  | ok x =>
      obtain ⟨held, jobs⟩ := x
      exact .inl ⟨held, jobs, h, rfl⟩
  | error e => exact .inr ⟨e, h, rfl⟩

/-- A run releases its job as the store lets it be finished, and then its transaction drops the job
no longer. -/
theorem releaseClaim_cases (c : Cluster η ω) (n : NodeName) (tx : TxId) (id : JobId) :
    (∃ jobs, c.jobs.finish id (c.nodeId n) .done = .ok jobs ∧
        c.releaseClaim n tx id =
          (.ok (), ({ c with jobs }).modifyTransaction tx fun t => t.mapCallbacks (disarm id))) ∨
      ∃ e, c.jobs.finish id (c.nodeId n) .done = .error e ∧
        c.releaseClaim n tx id = (.error (.ofStore e), c) := by
  unfold releaseClaim finishClaim
  cases h : c.jobs.finish id (c.node n).id .done with
  | ok jobs => exact .inl ⟨jobs, h, rfl⟩
  | error e => exact .inr ⟨e, h, rfl⟩

/-- What a callback means to the job store. -/
def callbackCall (c : Cluster η ω) (phase : Phase) : Callback η → Option StoreCall
  | .publish _ plan =>
    some (if followsCommit phase then .publish plan.record.id else .discard plan.record.id)
  | .drop n j armed => if armed then some (.finish j (c.nodeId n) .failedDropped) else none
  | .queue _ _ | .applyWrites _ | .withdraw _ _ | .custom _ => none

/-- As a transaction ends, a staged job is published or discarded. -/
theorem jobs_settleStaged (c : Cluster η ω) (n : NodeName) (plan : PersistedPlan)
    (committed : Bool) :
    (c.settleStaged n plan committed).2.jobs =
      (if committed then StoreCall.publish plan.record.id
        else StoreCall.discard plan.record.id).apply c.jobs := by
  unfold settleStaged
  cases committed with
  | false => rfl
  | true =>
      simp only [if_true, StoreCall.apply]
      cases c.jobs.publish plan.record.id with
      | error e => rfl
      | ok jobs =>
          simp only
          split <;> rfl

/-- A callback changes the job store by one call, or not at all. -/
theorem jobs_carryOut (app : Application η ω) (thread : Thread) (phase : Phase) (c : Cluster η ω)
    (callback : Callback η) :
    (c.carryOut app thread phase callback).jobs =
      match c.callbackCall phase callback with
      | some a => a.apply c.jobs
      | none => c.jobs := by
  cases callback with
  | publish n plan =>
      simp only [carryOut, runCallback, callbackCall]
      exact c.jobs_settleStaged n plan _
  | queue n info => rfl
  | drop n j armed =>
      cases armed with
      | false => rfl
      | true => exact congrArg Cluster.jobs (c.dropClaimed_snd n j)
  | applyWrites tx => simp [carryOut, runCallback, callbackCall, completeWrites]
  | withdraw n j => rfl
  | custom script => rfl

/-- A callback that does not drop the job changes the store as anybody may. -/
theorem bystanding_callbackCall {c : Cluster η ω} {phase : Phase} {callback : Callback η}
    {a : StoreCall} {id : JobId} (h : c.callbackCall phase callback = some a)
    (hdrop : ¬ callback.Drops id) :
    a.Bystanding id ∧ ∀ source target, a ≠ .reassign source target := by
  cases callback with
  | publish n plan =>
      simp only [callbackCall, Option.some.injEq] at h
      subst h
      split <;> exact ⟨trivial, fun _ _ => StoreCall.noConfusion⟩
  | drop n j armed =>
      cases armed with
      | false => simp [callbackCall] at h
      | true =>
          simp only [callbackCall, if_true, Option.some.injEq] at h
          subst h
          exact ⟨hdrop, fun _ _ => StoreCall.noConfusion⟩
  | queue n info | applyWrites tx | withdraw n j | custom script => simp [callbackCall] at h

/-- A callback drops the job for its node, or it means nothing to the job. -/
theorem carryOut_cases (app : Application η ω) (thread : Thread) (phase : Phase) (c : Cluster η ω)
    (callback : Callback η) (id : JobId) (run : Nat) :
    (∃ n jobs, callback = .drop n id true ∧
        c.jobs.finish id (c.nodeId n) .failedDropped = .ok jobs ∧
        (c.carryOut app thread phase callback).jobs = jobs ∧
        carriedOut id run c.jobs (c.carryOut app thread phase callback).jobs callback =
          .dropped run) ∨
      carriedOut id run c.jobs (c.carryOut app thread phase callback).jobs callback = .quiet ∧
        ((c.carryOut app thread phase callback).jobs = c.jobs ∨
          ∃ a : StoreCall, a.Bystanding id ∧ (∀ source target, a ≠ .reassign source target) ∧
            (c.carryOut app thread phase callback).jobs = a.apply c.jobs) := by
  have hjobs := jobs_carryOut app thread phase c callback
  by_cases hdrop : callback.Drops id
  · cases callback with
    | drop n j armed =>
        have hj : j = id := hdrop
        subst hj
        cases armed with
        | false =>
            refine .inr ⟨?_, .inl hjobs⟩
            rw [hjobs]
            cases hr : c.jobs.find? j <;> simp [carriedOut, callbackCall, hr]
        | true =>
            simp only [callbackCall, if_true, StoreCall.apply] at hjobs
            cases hfinish : c.jobs.finish j (c.nodeId n) .failedDropped with
            | ok jobs =>
                rw [hfinish] at hjobs
                have hgone := (StoreCall.heldBy?_finish hfinish).2
                obtain ⟨_, ⟨r, hr, _⟩, _⟩ := (JobStore.finish_eq_ok_iff _ _ _ _ _).mp hfinish
                refine .inl ⟨n, jobs, rfl, hfinish, hjobs, ?_⟩
                rw [hjobs]
                simp [carriedOut, JobStore.orSelf, hr, hgone]
            | error e =>
                rw [hfinish] at hjobs
                refine .inr ⟨?_, .inl hjobs⟩
                rw [hjobs]
                cases hr : c.jobs.find? j <;> simp [carriedOut, JobStore.orSelf, hr]
    | publish n plan | queue n info | applyWrites tx | withdraw n j | custom script =>
        exact hdrop.elim
  · refine .inr ⟨carriedOut_of_not_drops hdrop, ?_⟩
    cases hcall : c.callbackCall phase callback with
    | none =>
        rw [hcall] at hjobs
        exact .inl hjobs
    | some a =>
        rw [hcall] at hjobs
        obtain ⟨ha, hne⟩ := bystanding_callbackCall hcall hdrop
        exact .inr ⟨a, ha, hne, hjobs⟩

/-! ## What a step of a run leaves alone -/

/-- What may come of a step of a run with a transaction: nodes keep their identifiers, no
transaction begins, and the others stay as they are. -/
structure Beside (tx : TxId) (c d : Cluster η ω) : Prop where
  nodeId : ∀ n, d.nodeId n = c.nodeId n
  nextTx : d.nextTx = c.nextTx
  others : ∀ other, other ≠ tx → d.transaction? other = c.transaction? other

/-- A cluster is beside itself. -/
theorem Beside.refl (tx : TxId) (c : Cluster η ω) : c.Beside tx c :=
  ⟨fun _ => rfl, rfl, fun _ _ => rfl⟩

/-- What is done to one transaction and to the store leaves the other transactions as they are. -/
theorem beside_modifyTransaction (c : Cluster η ω) (jobs : JobStore) (tx : TxId)
    (f : Transaction (Callback η) → Transaction (Callback η)) :
    c.Beside tx (({ c with jobs }).modifyTransaction tx f) := by
  refine ⟨fun _ => rfl, rfl, fun other hother => ?_⟩
  rw [transaction?_modifyTransaction, if_neg hother]
  rfl

/-- A callback reaches no open transaction. -/
theorem carryOut_frame (app : Application η ω) (thread : Thread) (phase : Phase)
    (c : Cluster η ω) (callback : Callback η) :
    (c.carryOut app thread phase callback).transactions = c.transactions ∧
      (c.carryOut app thread phase callback).nextTx = c.nextTx ∧
      ∀ n, (c.carryOut app thread phase callback).nodeId n = c.nodeId n := by
  cases callback with
  | publish n plan =>
      simp only [carryOut, runCallback, settleStaged]
      split
      · split
        · exact ⟨rfl, rfl, fun _ => rfl⟩
        · split
          · exact ⟨rfl, rfl, fun m => nodeId_modifyTodo _ n m _⟩
          · exact ⟨rfl, rfl, fun _ => rfl⟩
      · exact ⟨rfl, rfl, fun _ => rfl⟩
  | queue n info => exact ⟨rfl, rfl, fun m => c.nodeId_modifyTodo n m _⟩
  | drop n j armed =>
      simp only [carryOut, runCallback, dropClaimed]
      split
      · split <;> exact ⟨rfl, rfl, fun _ => rfl⟩
      · exact ⟨rfl, rfl, fun _ => rfl⟩
  | applyWrites tx =>
      simp only [carryOut, runCallback, completeWrites]
      exact ⟨transactions_announce _ _ _, nextTx_announce _ _ _, nodeId_announce _ _ _⟩
  | withdraw n j => exact ⟨rfl, rfl, fun m => c.nodeId_modifyRegistry n m _⟩
  | custom script => exact ⟨rfl, rfl, fun _ => rfl⟩

/-- A callback of a run leaves the other transactions as they are. -/
theorem beside_carryOut (app : Application η ω) (thread : Thread) (phase : Phase)
    (c : Cluster η ω) (callback : Callback η) (tx : TxId) :
    c.Beside tx (c.carryOut app thread phase callback) := by
  obtain ⟨htransactions, hnext, hnode⟩ := c.carryOut_frame app thread phase callback
  refine ⟨hnode, hnext, fun other _ => ?_⟩
  rw [transaction?, htransactions]
  rfl

/-- A transaction that is taken out leaves the others as they are. -/
theorem beside_erase (c : Cluster η ω) (tx : TxId) :
    c.Beside tx { c with transactions := c.transactions.erase tx } := by
  refine ⟨fun _ => rfl, rfl, fun other hother => ?_⟩
  simp [transaction?, hother]

/-- A run that leaves its transaction leaves the others as they are. -/
theorem Beside.leave {c d : Cluster η ω} {tx : TxId} (h : c.Beside tx d) (n : NodeName)
    (resource : ResourceManager) (f : TxManager → TxManager) :
    c.Beside tx (({ d with resource }).modifyManager n f) := by
  refine ⟨fun m => ?_, h.nextTx, h.others⟩
  rw [nodeId_modifyManager]
  exact h.nodeId m

end Cluster

namespace JobRun

variable {app : Application η ω} {r : JobRun η} {c : Cluster η ω}

/-- What a step of a run comes to: the next stage, the cluster and what it means to the job. -/
inductive Outcome (id : JobId) (run : Nat) (app : Application η ω) (r : JobRun η)
    (c : Cluster η ω) : JobStage η → Cluster η ω → JobEvent → Prop
  | claimed {held : JobRecord} {jobs : JobStore} (hstage : r.stage = .opened)
      (h : c.jobs.claim id (c.nodeId r.node) = .ok (held, jobs)) :
      Outcome id run app r c .handling
        (({ c with jobs }).register r.tx .onRollback (.drop r.node id true)) (.claimed run)
  | handled (hstage : r.stage = .handling) : Outcome id run app r c .handled c .quiet
  | released {jobs : JobStore} (hstage : r.stage = .handled)
      (h : c.jobs.finish id (c.nodeId r.node) .done = .ok jobs) :
      Outcome id run app r c .released
        (({ c with jobs }).modifyTransaction r.tx fun t => t.mapCallbacks (Cluster.disarm id))
        (.released run)
  /-- The claim is refused, the handler fails, or the job is not to be taken out. -/
  | failing (ending : Option JobEnd) : Outcome id run app r c (.failing ending) c .quiet
  | prepared {t : Transaction (Callback η)} (hstage : r.stage = .released)
      (ht : c.transaction? r.tx = some t) :
      Outcome id run app r c (.preparing t (t.callbacks .before))
        { c with transactions := c.transactions.erase r.tx } .quiet
  | withdrawn {t : Transaction (Callback η)} (ending : Option JobEnd) (resource : ResourceManager)
      (ht : c.transaction? r.tx = some t) :
      Outcome id run app r c (.concluding false (t.callbacks (.after false)) ending)
        ({ c with transactions := c.transactions.erase r.tx, resource }.modifyManager t.node
          fun m => m.release t.owner t.id) .quiet
  | committed {t : Transaction (Callback η)} (resource : ResourceManager)
      (hstage : r.stage = .preparing t []) :
      Outcome id run app r c (.concluding true (t.callbacks (.after true)) (some .completed))
        ({ c with resource }.modifyManager t.node fun m => m.release t.owner t.id) (.committed run)
  | refused {t : Transaction (Callback η)} (resource : ResourceManager)
      (hstage : r.stage = .preparing t []) :
      Outcome id run app r c (.concluding false (t.callbacks (.after false)) (some .failed))
        ({ c with resource }.modifyManager t.node fun m => m.release t.owner t.id) .quiet
  | before {t : Transaction (Callback η)} {rest : List (Callback η)} (callback : Callback η)
      (hstage : r.stage = .preparing t (callback :: rest)) :
      Outcome id run app r c (.preparing t rest) (c.carryOut app r.thread .before callback)
        (Cluster.carriedOut id run c.jobs (c.carryOut app r.thread .before callback).jobs callback)
  | after {rest : List (Callback η)} {ending : Option JobEnd} (committed : Bool)
      (callback : Callback η) (hstage : r.stage = .concluding committed (callback :: rest) ending) :
      Outcome id run app r c (.concluding committed rest ending)
        (c.carryOut app r.thread (.after committed) callback)
        (Cluster.carriedOut id run c.jobs
          (c.carryOut app r.thread (.after committed) callback).jobs callback)
  /-- Nothing is left to be done. -/
  | ended (ending : Option JobEnd) : Outcome id run app r c (.ended ending) c .quiet

theorem outcome_withdraw (id : JobId) (run : Nat) (app : Application η ω) (r : JobRun η)
    (c : Cluster η ω) (ending : Option JobEnd) :
    Outcome id run app r c (r.withdraw app ending c).1 (r.withdraw app ending c).2 .quiet := by
  rcases r.withdraw_cases app c ending with ⟨_, heq⟩ | ⟨t, resource, ht, heq⟩
  · rw [heq]
    exact .ended ending
  · rw [heq]
    exact .withdrawn ending resource ht

/-- Every step of a run comes to one of the outcomes. -/
theorem outcome_advance (id : JobId) (run : Nat) (answer : HandlerAnswer)
    (app : Application η ω) (r : JobRun η) (c : Cluster η ω) :
    Outcome id run app r c (r.advance app id run answer c).1 (r.advance app id run answer c).2.1
      (r.advance app id run answer c).2.2 := by
  unfold advance
  cases hstage : r.stage with
  | opened =>
      rcases c.claimFor_cases r.node r.tx id with ⟨held, jobs, h, heq⟩ | ⟨e, _, heq⟩
      · simp only [heq]
        exact .claimed hstage h
      · simp only [heq]
        exact .failing _
  | handling =>
      rcases answer with (e | _) | _
      · exact .failing _
      · exact .handled hstage
      · exact .failing _
  | handled =>
      rcases c.releaseClaim_cases r.node r.tx id with ⟨jobs, h, heq⟩ | ⟨e, _, heq⟩
      · simp only [heq]
        exact .released hstage h
      · simp only [heq]
        exact .failing _
  | released =>
      simp only
      split
      · next t ht => exact .prepared hstage (Option.filter_eq_some_iff.mp ht).1
      · exact outcome_withdraw id run app r c _
  | failing ending => exact outcome_withdraw id run app r c ending
  | preparing t rest =>
      cases rest with
      | nil =>
          obtain ⟨resource, hcluster, ⟨hnext, hevent⟩ | ⟨hnext, hevent⟩⟩ :=
            r.settle_cases app c t run
          · simp only [hcluster, hnext, hevent]
            exact .committed resource hstage
          · simp only [hcluster, hnext, hevent]
            exact .refused resource hstage
      | cons callback rest => exact .before callback hstage
  | concluding committed rest ending =>
      cases rest with
      | nil => exact .ended ending
      | cons callback rest => exact .after committed callback hstage
  | ended ending => exact .ended ending

/-- A step of a run reaches no transaction but its own. -/
theorem Outcome.beside {id : JobId} {run : Nat} {stage : JobStage η} {d : Cluster η ω}
    {event : JobEvent} (h : Outcome id run app r c stage d event) : c.Beside r.tx d := by
  cases h with
  | claimed _ _ => exact c.beside_modifyTransaction _ r.tx _
  | released _ _ => exact c.beside_modifyTransaction _ r.tx _
  | prepared _ _ => exact c.beside_erase r.tx
  | withdrawn _ resource _ => exact (c.beside_erase r.tx).leave _ resource _
  | committed resource _ | refused resource _ =>
      exact (Cluster.Beside.refl r.tx c).leave _ resource _
  | before callback _ | after _ callback _ =>
      exact c.beside_carryOut app r.thread _ callback r.tx
  | handled _ | failing _ | ended _ => exact .refl r.tx c

end JobRun

end JobCluster
