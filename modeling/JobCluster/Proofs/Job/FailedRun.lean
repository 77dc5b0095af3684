import JobCluster.Proofs.Cluster.Lasting
import JobCluster.Proofs.Job.Attempt
import JobCluster.Proofs.Job.Fenced
/-!
# What a failed run leaves of its job

A run of a stored job that fails is not to be repeated: the job is dropped. The run drops it when
its transaction is rolled back, on behalf of its node, and it does so as long as the node holds the
job. While the handler is at work, anybody may call on the job store, so the node may hold the job
no longer; and where the transaction cannot begin, nobody drops the job.

Main results:

- `Cluster.gone_rollback`, `Cluster.kept_rollback`: a rollback drops the job that the node holds,
  and leaves another one alone;
- `Cluster.gone_iff_of_failed`: exactly when a failed run leaves its job in the store;
- `Cluster.run_again`: failed runs whose job is run once more.
-/

namespace JobCluster

variable {η ω : Type}

/-! ## Calls that do not bring a job back -/

/-- The store after some calls. -/
def JobStore.after (s : JobStore) (calls : List StoreCall) : JobStore :=
  calls.foldl StoreCall.apply s

/-- Whether a job store comes of another by calls none of which stages the job or makes the store
unavailable. -/
def JobStore.Onward (id : JobId) (s t : JobStore) : Prop :=
  ∃ calls : List StoreCall,
    (∀ a ∈ calls, a.stages id = false ∧ a ≠ .setAvailable false) ∧ t = s.after calls

namespace JobStore

variable {s t u : JobStore} {id : JobId}

theorem Onward.refl (id : JobId) (s : JobStore) : s.Onward id s :=
  ⟨[], fun _ h => absurd h List.not_mem_nil, rfl⟩

theorem Onward.of_eq (h : t = s) : s.Onward id t := by
  rw [h]
  exact .refl id s

/-- A call that does not stage the job, nor makes the store unavailable, does not bring it back. -/
theorem Onward.call (s : JobStore) {a : StoreCall} (hstages : a.stages id = false)
    (havailable : a ≠ .setAvailable false) : s.Onward id (a.apply s) := by
  refine ⟨[a], fun b hb => ?_, rfl⟩
  rw [List.mem_singleton.mp hb]
  exact ⟨hstages, havailable⟩

/-- A job that is not brought back twice is not brought back. -/
theorem Onward.trans (h : s.Onward id t) (h' : t.Onward id u) : s.Onward id u := by
  obtain ⟨first, hfirst, rfl⟩ := h
  obtain ⟨second, hsecond, rfl⟩ := h'
  refine ⟨first ++ second, fun a ha => ?_, List.foldl_append.symm⟩
  rcases List.mem_append.mp ha with ha | ha
  · exact hfirst a ha
  · exact hsecond a ha

/-- A job that is gone stays away, whatever is called, unless it is staged again. -/
theorem find?_after {calls : List StoreCall} (hcalls : ∀ a ∈ calls, a.stages id = false)
    (h : s.find? id = none) : (s.after calls).find? id = none := by
  induction calls generalizing s with
  | nil => exact h
  | cons a rest ih =>
      refine ih (fun b hb => hcalls b (List.mem_cons_of_mem a hb)) ?_
      exact StoreCall.find?_apply_eq_none (hcalls a List.mem_cons_self) h

/-- A job that is gone stays away. -/
theorem Onward.gone (h : s.Onward id t) (hgone : s.find? id = none) : t.find? id = none := by
  obtain ⟨calls, hcalls, rfl⟩ := h
  exact find?_after (fun a ha => (hcalls a ha).1) hgone

/-- A published job stays published. -/
theorem Onward.published (h : s.Onward id t) (hs : s.Published id) : t.Published id := by
  obtain ⟨calls, hcalls, rfl⟩ := h
  induction calls generalizing s with
  | nil => exact hs
  | cons a rest ih =>
      have hrest := fun b hb => hcalls b (List.mem_cons_of_mem a hb)
      exact ih (hs.apply (hcalls a List.mem_cons_self).1) hrest

/-- A store that is available stays so. -/
theorem Onward.available (h : s.Onward id t) (hs : s.available = true) : t.available = true := by
  obtain ⟨calls, hcalls, rfl⟩ := h
  induction calls generalizing s with
  | nil => exact hs
  | cons a rest ih =>
      refine ih ?_ fun b hb => hcalls b (List.mem_cons_of_mem a hb)
      have hne := (hcalls a List.mem_cons_self).2
      rw [StoreCall.available_apply]
      cases a with
      | setAvailable b =>
          cases b with
          | true => rfl
          | false => exact absurd rfl hne
      | stage _ | publish _ | discard _ | claim _ _ | finish _ _ _ | cancel _ | upgrade _ _
      | reassign _ _ => exact hs

end JobStore

/-! ## While a run is at work -/

/-- What may become of a cluster, as far as one job goes: calls on the job store that neither bring
the job back nor make the store unavailable. -/
structure Cluster.Meantime (id : JobId) (c d : Cluster η ω) : Prop where
  jobs : c.jobs.Onward id d.jobs
  nodeId : ∀ n, d.nodeId n = c.nodeId n

/-- Whether a transaction is open, with callbacks that were registered since, none of which drops
the job. -/
def Cluster.Extends (id : JobId) (tx : TxId) (t : Transaction (Callback η)) (c : Cluster η ω) :
    Prop :=
  ∃ t' more, c.transaction? tx = some t' ∧ t'.synchronizers = t.synchronizers ++ more ∧
    ∀ x ∈ more, ¬ x.callback.Drops id

/-- Whether handlers and callbacks, and whatever happens while they are at work, neither bring a job
back nor make the job store unavailable, and whether a handler leaves it to the run to end the
transaction. -/
structure Application.Loyal (app : Application η ω) (id : JobId) : Prop where
  callback : ∀ thread script phase (c : Cluster η ω),
    c.Meantime id (app.callback thread script phase c).2
  handler : ∀ thread script info tx (c : Cluster η ω),
    c.Meantime id (app.handler thread script info tx c).2
  transaction : ∀ thread script info tx (c : Cluster η ω) t, c.transaction? tx = some t →
    (app.handler thread script info (some tx) c).2.Extends id tx t

/-- Whether the callbacks of an application leave the record of a job alone. -/
def Application.Discreet (app : Application η ω) (id : JobId) : Prop :=
  ∀ thread script phase c, (app.callback thread script phase c).2.jobs.find? id = c.jobs.find? id

namespace Cluster

variable {app : Application η ω} {id : JobId} {c d e : Cluster η ω} {thread : Thread}
  {n : NodeName} {tx : TxId} {t : Transaction (Callback η)}

theorem Meantime.refl (id : JobId) (c : Cluster η ω) : c.Meantime id c :=
  ⟨.refl id c.jobs, fun _ => rfl⟩

/-- Two times in between make up one. -/
theorem Meantime.trans (h : c.Meantime id d) (h' : d.Meantime id e) : c.Meantime id e :=
  ⟨h.jobs.trans h'.jobs, fun n => (h'.nodeId n).trans (h.nodeId n)⟩

/-- What happens around a job may happen in between. -/
theorem Around.meantime (h : c.Around id d) : c.Meantime id d :=
  ⟨.of_eq h.jobs, h.nodeId⟩

/-- A handler that is at work on a job. -/
theorem meantime_process (h : app.Loyal id) (n : NodeName) (thread : Thread) (info : JobInfo)
    (tx : Option TxId) (c : Cluster η ω) :
    c.Meantime id (process app n thread info tx c).2 := by
  unfold process
  cases (c.node n).handlers.get? info.details.jobType with
  | none => exact .refl id c
  | some handler =>
      cases handler with
      | instanceCommand => exact (c.around_commandInstance id info.details tx).meantime
      | exchangeTimeout => exact (c.around_timeOutExchange id n info.details).meantime
      | custom script => exact h.handler thread script info tx c

/-- A transaction extends itself. -/
theorem extends_self (id : JobId) (ht : c.transaction? tx = some t) : c.Extends id tx t :=
  ⟨t, [], ht, (List.append_nil _).symm, fun _ hx => absurd hx List.not_mem_nil⟩

/-- A write extends the transaction with callbacks that drop nothing. -/
theorem extends_stageWrite (id : JobId) (ht : c.transaction? tx = some t) (w : InstanceWrite) :
    (c.stageWrite tx w).Extends id tx t := by
  unfold stageWrite
  split
  · exact extends_self id ht
  · refine ⟨t.register .after (.applyWrites tx), [⟨.after, .applyWrites tx⟩], ?_, rfl, ?_⟩
    · rw [transaction?_register, if_pos rfl]
      exact congrArg _ ht
    · intro x hx hdrops
      rw [List.mem_singleton.mp hx] at hdrops
      exact hdrops

/-- A handler may register callbacks with the transaction of its run. -/
theorem extends_process (h : app.Loyal id) (n : NodeName) (thread : Thread) (info : JobInfo)
    (ht : c.transaction? tx = some t) :
    (process app n thread info (some tx) c).2.Extends id tx t := by
  unfold process
  cases (c.node n).handlers.get? info.details.jobType with
  | none => exact extends_self id ht
  | some handler =>
      cases handler with
      | instanceCommand =>
          simp only [Act.lift, commandInstance]
          cases InstanceCommand.ofDetails info.details with
          | error e => exact extends_self id ht
          | ok command =>
              simp only [setInstanceState]
              cases c.instances.stateChange tx command.2 command.1.target c.clock with
              | error e => exact extends_self id ht
              | ok change => exact extends_stageWrite id ht change.2
      | exchangeTimeout =>
          refine extends_self id ?_
          simp only [Act.lift]
          rwa [transaction?, transactions_timeOutExchange]
      | custom script => exact h.transaction thread script info tx c t ht

/-! ## The end of the transaction -/

/-- The callbacks of a loyal application do nothing to the job but drop it. -/
theorem meantime_runCallback (h : app.Loyal id) (thread : Thread) (callback : Callback η)
    (phase : Phase) (c : Cluster η ω) :
    c.Meantime id (runCallback app thread callback phase c).2 := by
  have hcarry : ∀ x : Callback η, c.Meantime id (c.carryOut app thread phase x) := by
    intro x
    refine ⟨?_, (c.carryOut_frame app thread phase x).2.2⟩
    rw [jobs_carryOut]
    cases hcall : c.callbackCall phase x with
    | none => exact .refl id c.jobs
    | some a =>
        cases x with
        | publish m plan =>
            simp only [callbackCall, Option.some.injEq] at hcall
            subst hcall
            refine .call c.jobs ?_ ?_ <;> cases followsCommit phase
            · rfl
            · rfl
            · exact StoreCall.noConfusion
            · exact StoreCall.noConfusion
        | drop m j armed =>
            cases armed with
            | false => simp [callbackCall] at hcall
            | true =>
                simp only [callbackCall, if_true, Option.some.injEq] at hcall
                subst hcall
                exact .call c.jobs rfl StoreCall.noConfusion
        | queue m info | applyWrites other | withdraw m j | custom script =>
            simp [callbackCall] at hcall
  cases callback with
  | custom script =>
      have hscript := h.callback thread script phase c
      simp only [runCallback]
      rcases hanswer : app.callback thread script phase c with ⟨p | (e | _), d⟩ <;>
        rw [hanswer] at hscript <;> exact hscript
  | publish m plan => exact hcarry (.publish m plan)
  | queue m info => exact hcarry (.queue m info)
  | drop m j armed => exact hcarry (.drop m j armed)
  | applyWrites other => exact hcarry (.applyWrites other)
  | withdraw m j => exact hcarry (.withdraw m j)

/-- So do callbacks one after another. -/
theorem meantime_runAll (h : app.Loyal id) (thread : Thread) (phase : Phase)
    (callbacks : List (Callback η)) (c : Cluster η ω) :
    c.Meantime id (Slots.runAll (surroundings app thread) phase callbacks c) :=
  Slots.runAll_induction (P := fun d => c.Meantime id d)
    (fun callback _ d hd => hd.trans (meantime_runCallback h thread callback phase d)) (.refl id c)

/-- So does everything else that happens when a transaction begins or comes to its end. -/
theorem lasts_meantime (h : app.Loyal id) (c : Cluster η ω) : Lasts app (c.Meantime id) where
  resource _ _ hd := ⟨hd.jobs, hd.nodeId⟩
  transactions _ _ hd := ⟨hd.jobs, hd.nodeId⟩
  nextTx _ _ hd := ⟨hd.jobs, hd.nodeId⟩
  manager d n f hd := ⟨hd.jobs, fun m => (nodeId_modifyManager d n m f).trans (hd.nodeId m)⟩
  callback d thread callback phase hd := hd.trans (meantime_runCallback h thread callback phase d)

/-! ## Dropping the job -/

/-- Dropping a job that is gone, or that the node holds, leaves nothing of it. -/
theorem gone_drop (havailable : c.jobs.available = true) (hpublished : c.jobs.Published id)
    (hheld : c.jobs.find? id = none ∨ c.jobs.heldBy? id = some (c.nodeId n)) :
    (c.dropClaimed n id).2.jobs.find? id = none := by
  rw [dropClaimed_snd]
  rcases hheld with hgone | hheld
  · exact StoreCall.find?_apply_eq_none rfl hgone
  · have hfinish : c.jobs.finish id (c.nodeId n) .failedDropped =
        .ok ((c.jobs.remove id).count .failedDropped) := by
      rw [JobStore.finish_eq hpublished havailable, if_pos hheld]
    have happly : (StoreCall.finish id (c.nodeId n) .failedDropped).apply c.jobs =
        (c.jobs.remove id).count .failedDropped := by
      simp only [StoreCall.apply, hfinish]
      rfl
    show ((StoreCall.finish id (c.nodeId n) .failedDropped).apply c.jobs).find? id = none
    rw [happly]
    simp

/-- A rollback whose first callback drops the job leaves nothing of a job that is gone, or that the
node holds. -/
theorem gone_rollback (h : app.Loyal id) {rest : List (Callback η)}
    (hfirst : t.callbacks (.after false) = .drop n id true :: rest)
    (havailable : c.jobs.available = true) (hpublished : c.jobs.Published id)
    (hheld : c.jobs.find? id = none ∨ c.jobs.heldBy? id = some (c.nodeId n)) (thread : Thread) :
    (t.rollback (surroundings app thread) c).2.jobs.find? id = none := by
  obtain ⟨d, hd⟩ : ∃ d : Cluster η ω, d = (surroundings app thread).leave t
      ((surroundings app thread).rollbackResource t.id c).2 := ⟨_, rfl⟩
  have hjobs : d.jobs = c.jobs := by
    rw [hd]
    rfl
  have hnode : d.nodeId n = c.nodeId n := by
    rw [hd]
    exact nodeId_modifyManager _ t.node n _
  have hdropped : (d.dropClaimed n id).2.jobs.find? id = none := by
    rw [← hjobs] at havailable hpublished hheld
    rw [← hnode] at hheld
    exact gone_drop havailable hpublished hheld
  rw [Transaction.rollback_snd, Transaction.runPhase, hfirst, ← hd]
  exact (meantime_runAll h thread (.after false) rest _).jobs.gone hdropped

/-- A callback after a rollback that drops the job for the node alone leaves a job that the node
does not hold. -/
theorem kept_runCallback (hquiet : app.Discreet id) {r : JobRecord}
    (hfind : c.jobs.find? id = some r) (hstaged : r.state ≠ .staged)
    (hheld : r.state ≠ .claimed (c.nodeId n)) {callback : Callback η}
    (hdrops : callback.Drops id → ∃ armed, callback = .drop n id armed) (thread : Thread) :
    (runCallback app thread callback (.after false) c).2.jobs.find? id = some r := by
  have hcarry : ∀ x : Callback η, (x.Drops id → ∃ armed, x = .drop n id armed) →
      (c.carryOut app thread (.after false) x).jobs.find? id = some r := by
    intro x hx
    rw [jobs_carryOut]
    cases x with
    | publish m plan =>
        show ((StoreCall.discard plan.record.id).apply c.jobs).find? id = some r
        rw [StoreCall.find?_apply, hfind]
        simp [StoreCall.revise, hstaged, Option.filter]
    | drop m j armed =>
        cases armed with
        | false => exact hfind
        | true =>
            show ((StoreCall.finish j (c.nodeId m) .failedDropped).apply c.jobs).find? id = some r
            rw [StoreCall.find?_apply, hfind]
            by_cases hj : j = id
            · obtain ⟨armed, heq⟩ := hx hj
              cases heq
              simp [StoreCall.revise, hheld, Option.filter]
            · simp [StoreCall.concerns, StoreCall.job?, hj]
    | queue m info | applyWrites other | withdraw m j | custom script => exact hfind
  cases callback with
  | custom script =>
      have hscript := hquiet thread script (.after false) c
      simp only [runCallback]
      rcases hanswer : app.callback thread script (.after false) c with ⟨p | (e | _), d⟩ <;>
        rw [hanswer] at hscript <;> exact hscript.trans hfind
  | publish m plan => exact hcarry (.publish m plan) hdrops
  | queue m info => exact hcarry (.queue m info) hdrops
  | drop m j armed => exact hcarry (.drop m j armed) hdrops
  | applyWrites other => exact hcarry (.applyWrites other) hdrops
  | withdraw m j => exact hcarry (.withdraw m j) hdrops

/-- A rollback leaves a job that the node does not hold. -/
theorem kept_rollback (h : app.Loyal id) (hquiet : app.Discreet id) {r : JobRecord}
    (hdrops : DropsFor n id (t.callbacks (.after false))) (hfind : c.jobs.find? id = some r)
    (hstaged : r.state ≠ .staged) (hheld : r.state ≠ .claimed (c.nodeId n)) (thread : Thread) :
    (t.rollback (surroundings app thread) c).2.jobs.find? id = some r := by
  obtain ⟨w, hw⟩ : ∃ w, w = surroundings app thread := ⟨_, rfl⟩
  obtain ⟨P, hP⟩ : ∃ P : Cluster η ω → Prop,
    P = fun d => d.jobs.find? id = some r ∧ d.nodeId n = c.nodeId n := ⟨_, rfl⟩
  have hstart : P (w.leave t (w.rollbackResource t.id c).2) := by
    rw [hP, hw]
    exact ⟨hfind, nodeId_modifyManager _ t.node n _⟩
  have hwalk : ∀ callback ∈ t.callbacks (.after false), ∀ d, P d →
      P (w.run callback (.after false) d).2 := by
    intro callback hmem d hd
    rw [hP] at hd ⊢
    rw [hw]
    have hstays : r.state ≠ .claimed (d.nodeId n) := by
      rw [hd.2]
      exact hheld
    exact ⟨kept_runCallback hquiet hd.1 hstaged hstays (hdrops callback hmem) thread,
      ((meantime_runCallback h thread callback _ d).nodeId n).trans hd.2⟩
  have hend := Slots.runAll_induction hwalk hstart
  rw [hP, hw] at hend
  rw [Transaction.rollback_snd]
  exact hend.1

/-! ## A run that holds its job -/

/-- While the store is available, a node claims a job, or its claim is lost. -/
theorem claim_cases (havailable : c.jobs.available = true) (n : NodeName) (id : JobId) :
    (∃ jobs, c.claim n id = (.ok (), { c with jobs }) ∧ jobs.available = true ∧
        jobs.Published id) ∨
      c.claim n id = (.error .lostClaim, c) := by
  unfold claim
  cases hclaim : c.jobs.claim id (c.node n).id with
  | ok answer =>
      obtain ⟨held, jobs⟩ := answer
      have happly : (StoreCall.claim id (c.nodeId n)).apply c.jobs = jobs := by
        simp only [StoreCall.apply, nodeId, hclaim]
        rfl
      refine .inl ⟨jobs, rfl, ?_, JobStore.published_claim hclaim⟩
      rw [← happly, StoreCall.available_apply]
      exact havailable
  | error e =>
      have he : e = .noLongerStored id := by
        simp only [JobStore.claim, JobStore.guarded, havailable, if_true] at hclaim
        split at hclaim
        · exact (Except.error.inj hclaim).symm
        · split at hclaim
          · cases hclaim
          · exact (Except.error.inj hclaim).symm
      rw [he]
      exact .inr rfl

/-- While the store is available, a node takes a published job out, or its claim is lost. -/
theorem finishClaim_cases (havailable : c.jobs.available = true) (hpublished : c.jobs.Published id)
    (n : NodeName) (outcome : JobOutcome) :
    (∃ jobs, c.finishClaim n id outcome = (.ok (), { c with jobs }) ∧ jobs.available = true ∧
        jobs.find? id = none) ∨
      c.finishClaim n id outcome = (.error .lostClaim, c) := by
  have hfinish : c.jobs.finish id (c.node n).id outcome = _ :=
    JobStore.finish_eq hpublished havailable
  unfold finishClaim
  rw [hfinish]
  by_cases hheld : c.jobs.heldBy? id = some (c.node n).id
  · have hgone : ((c.jobs.remove id).count outcome).find? id = none := by simp
    rw [if_pos hheld]
    refine .inl ⟨_, rfl, ?_, hgone⟩
    cases outcome <;> exact havailable
  · rw [if_neg hheld]
    exact .inr rfl

/-- What a run relies on after its claim: the store is available, the job is not staged, and the
transaction drops the job for the node before it does anything else, should it be rolled back. -/
structure Pledged (id : JobId) (n : NodeName) (tx : TxId) (c : Cluster η ω) : Prop where
  available : c.jobs.available = true
  published : c.jobs.Published id
  pledge : ∃ t more, c.transaction? tx = some t ∧
    t.synchronizers = ⟨.onRollback, .drop n id true⟩ :: more ∧ ∀ x ∈ more, ¬ x.callback.Drops id

/-- A transaction that has claimed a job is pledged to drop it, or it has lost the claim. -/
theorem pledged_claimFor (hbegun : c.Begun tx d) (havailable : c.jobs.available = true)
    (n : NodeName) (id : JobId) :
    (∃ e, d.claimFor n tx id = (.ok (), e) ∧ e.Pledged id n tx) ∨
      d.claimFor n tx id = (.error .lostClaim, d) := by
  rw [← hbegun.jobs] at havailable
  unfold claimFor
  rcases claim_cases havailable n id with ⟨jobs, hclaim, hstays, hpublished⟩ | hclaim <;>
    rw [hclaim]
  · obtain ⟨t, hempty, ht⟩ := hbegun.transaction
    refine .inl ⟨_, rfl, hstays, hpublished, t.register .onRollback (.drop n id true), [], ?_, ?_,
      fun _ hx => absurd hx List.not_mem_nil⟩
    · have hopen : d.transaction? tx = some t := by rw [ht, if_pos rfl]
      rw [transaction?_register, if_pos rfl]
      exact congrArg _ hopen
    · show t.synchronizers ++ _ = _
      rw [hempty]
      rfl
  · exact .inr rfl

/-- A handler at work leaves all of that as it is. -/
theorem Pledged.process (hc : c.Pledged id n tx) (h : app.Loyal id) (m : NodeName)
    (thread : Thread) (info : JobInfo) :
    (process app m thread info (some tx) c).2.Pledged id n tx := by
  have hmeantime := meantime_process h m thread info (some tx) c
  obtain ⟨t, more, ht, hpledge, hmore⟩ := hc.pledge
  -- What the handler registers comes after the pledge.
  obtain ⟨t', since, ht', hsince, hnone⟩ := extends_process h m thread info ht
  refine ⟨hmeantime.jobs.available hc.available, hmeantime.jobs.published hc.published, t',
    more ++ since, ht', ?_, fun x hx => ?_⟩
  · rw [hsince, hpledge]
    rfl
  · rcases List.mem_append.mp hx with hx | hx
    · exact hmore x hx
    · exact hnone x hx

/-- The callbacks of such a transaction after a rollback. -/
theorem Pledged.callbacks (hc : c.Pledged id n tx) :
    ∃ t rest, c.transaction? tx = some t ∧
      t.callbacks (.after false) = .drop n id true :: rest ∧
      DropsFor n id (t.callbacks (.after false)) := by
  obtain ⟨t, more, ht, hpledge, hmore⟩ := hc.pledge
  have hown : DropsFor n id (t.synchronizers.map Synchronizer.callback) := by
    intro callback hmem hdrops
    obtain ⟨x, hx, rfl⟩ := List.mem_map.mp hmem
    rw [hpledge] at hx
    rcases List.mem_cons.mp hx with rfl | hx
    · exact ⟨true, rfl⟩
    · exact absurd hdrops (hmore x hx)
  refine ⟨t, (more.filter fun x => x.moment.takesPart (.after false)).map Synchronizer.callback,
    ht, ?_, DropsFor.callbacks hown (.after false)⟩
  rw [Transaction.callbacks, hpledge]
  rfl

/-- A run that gives its transaction up drops its job exactly when its node holds the job still, as
long as the callbacks of the application leave the record alone. -/
theorem Pledged.abandon (hc : c.Pledged id n tx) (h : app.Loyal id) (thread : Thread) :
    (c.jobs.find? id = none ∨ c.jobs.heldBy? id = some (c.nodeId n) →
      (c.abandon app thread tx).jobs.find? id = none) ∧
    (app.Discreet id → c.jobs.find? id ≠ none → c.jobs.heldBy? id ≠ some (c.nodeId n) →
      (c.abandon app thread tx).jobs.find? id ≠ none) := by
  obtain ⟨t, rest, ht, hfirst, hdrops⟩ := hc.callbacks
  obtain ⟨d, hd⟩ : ∃ d : Cluster η ω, d = { c with transactions := c.transactions.erase tx } :=
    ⟨_, rfl⟩
  have hjobs : d.jobs = c.jobs := by rw [hd]
  have hnode : d.nodeId n = c.nodeId n := by
    rw [hd]
    rfl
  have hend : c.abandon app thread tx = (t.rollback (surroundings app thread) d).2 := by
    simp only [Cluster.abandon, Cluster.rollback, conclude, ht, hd]
  have havailable := hc.available
  have hpublished := hc.published
  rw [hend, ← hjobs, ← hnode]
  rw [← hjobs] at havailable hpublished
  refine ⟨fun hheld => ?_, fun hquiet hstored hheld => ?_⟩
  · exact gone_rollback h hfirst havailable hpublished hheld thread
  · obtain ⟨r, hr⟩ := Option.ne_none_iff_exists'.mp hstored
    have hholder : r.state ≠ .claimed (d.nodeId n) := by
      intro hstate
      exact hheld (JobStore.heldBy?_eq_some.mpr ⟨r, hr, hstate⟩)
    rw [kept_rollback h hquiet hdrops hr (hpublished r hr) hholder thread]
    exact Option.some_ne_none r

/-- Such a run releases its job, which is gone then, or its claim is lost. -/
theorem Pledged.release (hc : c.Pledged id n tx) :
    (∃ d, c.releaseClaim n tx id = (.ok (), d) ∧ d.jobs.find? id = none) ∨
      c.releaseClaim n tx id = (.error .lostClaim, c) := by
  unfold releaseClaim
  rcases finishClaim_cases hc.available hc.published n .done with
    ⟨jobs, hfinish, -, hgone⟩ | hfinish <;> rw [hfinish]
  · exact .inl ⟨_, rfl, hgone⟩
  · exact .inr rfl

/-! ## The whole run -/

/-- Whether the handler of a run fails while its node holds the job no longer, though the job is
stored. -/
def forfeits (app : Application η ω) (n : NodeName) (thread : Thread) (info : JobInfo) (tx : TxId)
    (c : Cluster η ω) : Bool :=
  match c.claimFor n tx info.jobId with
  | (.error _, _) => false
  | (.ok (), c) =>
    match process app n thread info (some tx) c with
    | (.ok (.error _), c) =>
      (c.jobs.find? info.jobId).isSome && c.jobs.heldBy? info.jobId != some (c.nodeId n)
    | _ => false

/-- Whether a run that fails leaves its job in the store: its transaction cannot begin, or its node
holds the job no longer when the handler fails. -/
def leavesJob (app : Application η ω) (n : NodeName) (thread : Thread) (info : JobInfo)
    (c : Cluster η ω) : Bool :=
  info.transacted &&
    match c.opening n thread none with
    | (.error _, _) => (c.jobs.find? info.jobId).isSome
    | (.ok tx, c) => c.forfeits app n thread info tx

/-- How the work of a run in its transaction ends while the store is available: the claim is lost,
the handler panics or fails, or the job has been released. -/
theorem transactedBody_cases {info : JobInfo} (h : app.Loyal info.jobId)
    (hpersisted : info.persisted = true) (hbegun : c.Begun tx d)
    (havailable : c.jobs.available = true) (n : NodeName) (thread : Thread) :
    ∃ answer e, transactedBody app n thread info tx d = (answer, e) ∧
      (answer = .ok (.error .lostClaim) ∨ (∃ p, answer = .error p) ∨
        (∃ cause, answer = .ok (.error (.processing cause)) ∧ e.Pledged info.jobId n tx ∧
          d.forfeits app n thread info tx = ((e.jobs.find? info.jobId).isSome &&
            e.jobs.heldBy? info.jobId != some (e.nodeId n))) ∨
        answer = .ok (.ok ()) ∧ e.jobs.find? info.jobId = none ∧
          d.forfeits app n thread info tx = false) := by
  rw [transactedBody_of_persisted app n thread tx d hpersisted, forfeits]
  rcases pledged_claimFor hbegun havailable n info.jobId with ⟨e, hclaim, hclaimed⟩ | hclaim <;>
    rw [hclaim]
  · have hpledged := hclaimed.process h n thread info
    simp only
    rcases hprocess : Cluster.process app n thread info (some tx) e with ⟨p | (cause | _), e'⟩ <;>
      rw [hprocess] at hpledged
    · exact ⟨_, e', rfl, .inr (.inl ⟨p, rfl⟩)⟩
    · exact ⟨_, e', rfl, .inr (.inr (.inl ⟨cause, rfl, hpledged, rfl⟩))⟩
    · simp only
      rcases hpledged.release with ⟨e'', hrelease, hgone⟩ | hrelease <;> rw [hrelease]
      · exact ⟨_, e'', rfl, .inr (.inr (.inr ⟨rfl, hgone, trivial⟩))⟩
      · exact ⟨_, e', rfl, .inl rfl⟩
  · exact ⟨_, d, rfl, .inl rfl⟩

/-- What a failed run in a transaction leaves of its job. -/
theorem failed_transacted {info : JobInfo} (h : app.Loyal info.jobId)
    (hpersisted : info.persisted = true) (htransacted : info.transacted = true)
    (havailable : c.jobs.available = true)
    (hfailed : (attempt app n thread info c).1 = .ok .failed) :
    (c.leavesJob app n thread info = false →
      (attempt app n thread info c).2.jobs.find? info.jobId = none) ∧
    (app.Discreet info.jobId → c.leavesJob app n thread info = true →
      (attempt app n thread info c).2.jobs.find? info.jobId ≠ none) := by
  rw [attempt_of_transacted app n thread c htransacted] at hfailed ⊢
  unfold leavesJob
  simp only [runInTransaction_eq, htransacted, Bool.true_and] at hfailed ⊢
  rcases hopening : c.opening n thread none with ⟨f | tx, d⟩ <;> simp only [hopening] at hfailed ⊢
  · -- The run has not touched the job.
    obtain ⟨resource, rfl⟩ := begin_eq_error hopening
    simp [modifyManager, Option.isSome_iff_ne_none]
  · have hbegun : (c.modifyManager n fun m => m.overrideTimeout thread none).Begun tx d :=
      begin_eq_ok hopening
    obtain ⟨answer, e, hbody, hcases⟩ :=
      transactedBody_cases h hpersisted hbegun havailable n thread
    simp only [hbody] at hfailed ⊢
    -- A lost claim and a panic are not counted as failures.
    rcases hcases with rfl | ⟨p, rfl⟩ | ⟨cause, rfl, hpledged, hforfeits⟩ |
      ⟨rfl, hgone, hforfeits⟩
    · cases hfailed
    · cases hfailed
    · obtain ⟨hdropped, hkept⟩ := hpledged.abandon h thread
      simp only [modifyManager, jobs_modifyNode, hforfeits]
      refine ⟨fun hleaves => hdropped ?_, fun hquiet hleaves => ?_⟩
      · rcases Bool.and_eq_false_iff.mp hleaves with hgone | hheld
        · exact .inl (Option.isSome_eq_false_iff.mp hgone |> Option.isNone_iff_eq_none.mp)
        · exact .inr (bne_eq_false_iff_eq.mp hheld)
      · obtain ⟨hstored, hheld⟩ := (Bool.and_eq_true_iff.mp hleaves)
        exact hkept hquiet (Option.isSome_iff_ne_none.mp hstored) (bne_iff_ne.mp hheld)
    · -- The job has been released, and however the commit ends, nobody brings it back.
      have hend := ((lasts_meantime h e).commit thread tx (.refl _ e)).jobs.gone hgone
      refine ⟨fun _ => ?_, fun _ hleaves => ?_⟩
      · rcases hcommit : e.commit app thread tx with ⟨f | _, e'⟩ <;> rw [hcommit] at hend <;>
          simp only [hcommit, modifyManager, jobs_modifyNode] <;> exact hend
      · rw [hforfeits] at hleaves
        cases hleaves

/-- A failed run outside any transaction has dropped its job. -/
theorem failed_plain {info : JobInfo} (h : app.Loyal info.jobId)
    (hpersisted : info.persisted = true) (htransacted : info.transacted = false)
    (havailable : c.jobs.available = true)
    (hfailed : (attempt app n thread info c).1 = .ok .failed) :
    (attempt app n thread info c).2.jobs.find? info.jobId = none := by
  unfold attempt at hfailed ⊢
  simp only [htransacted, Bool.false_eq_true, if_false, Act.bind_apply,
    plainRun_of_persisted app n thread c hpersisted] at hfailed ⊢
  rcases claim_cases havailable n info.jobId with ⟨jobs, hclaim, hstays, hpublished⟩ | hclaim <;>
    simp only [hclaim] at hfailed ⊢
  · have hmeantime := (meantime_process h n thread info none { c with jobs }).jobs
    rcases hprocess : Cluster.process app n thread info none { c with jobs } with
      ⟨p | (cause | _), d⟩ <;> simp only [hprocess] at hfailed hmeantime ⊢
    · cases hfailed
    · rcases finishClaim_cases (hmeantime.available hstays) (hmeantime.published hpublished) n
        .failedDropped with ⟨jobs, hfinish, -, hgone⟩ | hfinish <;> simp only [hfinish] at hfailed ⊢
      · exact hgone
      · cases hfailed
    · rcases finishClaim_cases (hmeantime.available hstays) (hmeantime.published hpublished) n
        .done with ⟨jobs, hfinish, -, hgone⟩ | hfinish <;> simp only [hfinish] at hfailed ⊢
      · cases hfailed
      · cases hfailed
  · cases hfailed

/-- What a failed run leaves of its job, in a transaction or outside any. -/
theorem failed_attempt (info : JobInfo) (h : app.Loyal info.jobId)
    (hpersisted : info.persisted = true) (havailable : c.jobs.available = true)
    (hfailed : (attempt app n thread info c).1 = .ok .failed) :
    (c.leavesJob app n thread info = false →
      (attempt app n thread info c).2.jobs.find? info.jobId = none) ∧
    (app.Discreet info.jobId → c.leavesJob app n thread info = true →
      (attempt app n thread info c).2.jobs.find? info.jobId ≠ none) := by
  cases htransacted : info.transacted with
  | false =>
      have hgone := failed_plain h hpersisted htransacted havailable hfailed
      refine ⟨fun _ => hgone, fun _ hleaves => ?_⟩
      rw [leavesJob, htransacted] at hleaves
      cases hleaves
  | true => exact failed_transacted h hpersisted htransacted havailable hfailed

/-! ## Jobs that are not run again -/

/-- A run of a job that is gone does nothing. -/
theorem idle_of_gone {info : JobInfo} (hpersisted : info.persisted = true)
    (h : c.jobs.find? info.jobId = none) (app : Application η ω) (n : NodeName) (thread : Thread) :
    (∀ tx, (transactedBody app n thread info tx c).2 = c) ∧
      (plainRun app n thread info c).2 = c := by
  have hrefused : ∃ e, c.jobs.claim info.jobId (c.node n).id = .error e := by
    rcases hclaim : c.jobs.claim info.jobId (c.node n).id with e | ⟨held, jobs⟩
    · exact ⟨e, rfl⟩
    · obtain ⟨_, r, hr, _⟩ := (JobStore.claim_eq_ok_iff _ _ _ _ _).mp hclaim
      rw [h] at hr
      cases hr
  obtain ⟨e, he⟩ := hrefused
  have hclaim : c.claim n info.jobId = (.error (.ofStore e), c) := by
    unfold claim
    rw [he]
  refine ⟨fun tx => ?_, ?_⟩
  · rw [transactedBody_of_persisted app n thread tx c hpersisted, claimFor, hclaim]
  · rw [plainRun_of_persisted app n thread c hpersisted, hclaim]

/-- Whether a job is gone for good: whatever is called on the store, it stays away, and whichever
node runs it does nothing, unless it is staged again. -/
def Spent (app : Application η ω) (id : JobId) (c : Cluster η ω) : Prop :=
  ∀ calls : List StoreCall, (∀ a ∈ calls, a.stages id = false) →
    ∀ d : Cluster η ω, d.jobs = c.jobs.after calls →
      d.jobs.find? id = none ∧
      ∀ n thread info, info.jobId = id → info.persisted = true →
        (∀ tx, (transactedBody app n thread info tx d).2 = d) ∧ (plainRun app n thread info d).2 = d

/-- A job that is gone has nothing left to be done to it. -/
theorem spent_of_gone (app : Application η ω) (h : c.jobs.find? id = none) : c.Spent app id := by
  intro calls hcalls d hd
  have hgone : d.jobs.find? id = none := by
    rw [hd]
    exact JobStore.find?_after hcalls h
  refine ⟨hgone, fun n thread info hid hpersisted => ?_⟩
  subst hid
  exact idle_of_gone hpersisted hgone app n thread

/-- A run that ends is counted, and its job is unmarked. -/
theorem runJob_of_attempt (job : ScheduledJob) {ending : JobEnd}
    (hprocessor : (c.node n).scheduler.hasProcessor = true)
    (h : attempt app n (.worker n) job.info c = (.ok ending, d)) :
    (runJob app n job c).2 = (d.modifyTodo n fun q => q.finish job.info.jobId).modifyScheduler n
      fun s => s.count ending := by
  rw [runJob_snd app job hprocessor, h]
  rfl

/-- A run of a stored job that is counted as failed has dropped it for good, provided that its
transaction could begin, and that its node held the job still when the handler failed; and otherwise
the job stays, as long as the callbacks of the application leave the record alone. -/
theorem gone_iff_of_failed (record : JobRecord) (h : app.Loyal record.id)
    (hprocessor : (c.node n).scheduler.hasProcessor = true) (havailable : c.jobs.available = true)
    (hfailed : attempt app n (.worker n) record.info c = (.ok .failed, d)) :
    ((runJob app n (.persisted record) c).2.node n).scheduler.failed =
        (d.node n).scheduler.failed + 1 ∧
      (c.leavesJob app n (.worker n) record.info = false →
        (runJob app n (.persisted record) c).2.Spent app record.id) ∧
      (app.Discreet record.id →
        ((runJob app n (.persisted record) c).2.jobs.find? record.id = none ↔
          c.leavesJob app n (.worker n) record.info = false)) := by
  have hanswer : (attempt app n (.worker n) record.info c).1 = .ok .failed := by rw [hfailed]
  obtain ⟨hgone, hkept⟩ := failed_attempt record.info h rfl havailable hanswer
  have hrun := runJob_of_attempt (.persisted record) hprocessor hfailed
  have hjobs : (runJob app n (.persisted record) c).2.jobs = d.jobs := by
    rw [hrun]
    simp [modifyTodo, modifyScheduler]
  rw [hfailed] at hgone hkept
  rw [hjobs]
  refine ⟨?_, fun hleaves => ?_, fun hquiet => ⟨fun hnone => ?_, hgone⟩⟩
  · rw [hrun]
    simp [modifyTodo, modifyScheduler, Scheduler.count]
  · refine spent_of_gone app ?_
    rw [hjobs]
    exact hgone hleaves
  · exact Bool.eq_false_iff.mpr fun hleaves => hkept hquiet hleaves hnone

/-- No node knows how to process the job of two nodes, so a run of it fails and is counted, and the
job is gone for good. -/
theorem gone_iff_of_failed_unknown :
    let run := runJob .silent "a" (.persisted { id := ⟨"J"⟩, details := ⟨"", ∅⟩ })
      (Overlap.ofJob "a" "b" ⟨"J"⟩).cluster
    (run.2.node "a").scheduler.failed = 1 ∧ run.2.Spent .silent ⟨"J"⟩ := by
  have hloyal : Application.silent.Loyal ⟨"J"⟩ :=
    ⟨fun _ _ _ c => .refl _ c, fun _ _ _ _ c => .refl _ c, fun _ _ _ _ _ _ ht => extends_self _ ht⟩
  obtain ⟨hcount, hspent, _⟩ :=
    gone_iff_of_failed (n := "a") (c := (Overlap.ofJob "a" "b" ⟨"J"⟩).cluster)
      { id := ⟨"J"⟩, details := ⟨"", ∅⟩ } hloyal rfl rfl rfl
  exact ⟨hcount, hspent rfl⟩

end Cluster

/-! ## Failed runs whose job is run again -/

/-- An application whose handlers fail after the job has been moved from one node to another. -/
def Application.dispossessed : Application Unit Unit where
  callback _ _ _ := pure (.ok ())
  handler _ _ _ _ c :=
    (.ok (.error (.failed "")), { c with jobs := c.jobs.after [.reassign ⟨"a"⟩ ⟨"b"⟩] })
  listener _ _ outside := outside

namespace Cluster

/-- Two nodes that know how to process their job. -/
def ofProcessors : Cluster Unit Unit :=
  ["a", "b"].foldl (fun c n => c.modifyNode n fun x =>
    { x with handlers := x.handlers.insert "" (.custom ()) }) (Overlap.ofJob "a" "b" ⟨"J"⟩).cluster

/-- Where the resource manager refuses to begin, a run fails and the next one completes the job.
Where the job is moved to another node while the handler is at work, the run fails, and the other
node runs the job again. -/
theorem run_again :
    let job : ScheduledJob := .persisted { id := ⟨"J"⟩, details := ⟨"", ∅⟩ }
    let refused := runJob .silent "a" job { ofProcessors with resource.refusesBegin := true }
    let moved := runJob .dispossessed "a" job ofProcessors
    ((refused.2.node "a").scheduler.failed = 1 ∧
        (refused.2.jobs.find? ⟨"J"⟩).map JobRecord.state = some .pending ∧
        ((runJob .silent "a" job refused.2).2.node "a").scheduler.completed = 1) ∧
      (moved.2.node "a").scheduler.failed = 1 ∧
        (moved.2.jobs.find? ⟨"J"⟩).map JobRecord.state = some .pending ∧
        ((runJob .silent "b" job moved.2).2.node "b").scheduler.completed = 1 := by
  refine ⟨⟨?_, ?_, ?_⟩, ?_, ?_, ?_⟩
  · rfl
  · rfl
  · rfl
  · rfl
  · rfl
  · rfl

end Cluster

end JobCluster
