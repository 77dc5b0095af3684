import JobCluster.Proofs.Job.Tally
/-!
# What a run leaves behind

A run that is over has been counted, once and in one way; its job is marked no longer; and its node
has given up the claim. Each way to the end does all of this in a place of its own: a claim that is
refused or lost has nothing to give up, a job that is done is taken out by the run, and one whose
transaction is rolled back by a callback.

There is one way out that leaves something behind: a handler that panics. Nobody counts the run then
or takes the mark off the job. In a transaction the claim is given up all the same, since a
transaction that nobody completes is rolled back; outside any transaction it stays.

Main results:

- `Cluster.isOk_attempt`: a run panics exactly if its handler does;
- `Cluster.counted_attempt`: nobody counts a run before it is over;
- `Cluster.isFree_attempt`: when a run has given up its claim;
- `Cluster.discharges_iff`: exactly when a run leaves nothing behind.
-/

namespace JobCluster

variable {η ω : Type}

namespace Cluster

variable {app : Application η ω} {c d e : Cluster η ω} {n : NodeName} {thread : Thread}
  {info : JobInfo} {tx : TxId} {id : JobId}

/-! ## Handing a job over -/

/-- Claims the job of a run for its node, if the job is stored. -/
def entrust (c : Cluster η ω) (n : NodeName) (info : JobInfo) (tx : Option TxId) :
    Except JobFailure Unit × Cluster η ω :=
  if info.persisted then
    match tx with
    | some tx => c.claimFor n tx info.jobId
    | none => c.claim n info.jobId
  else (.ok (), c)

/-- The work of a run in its transaction, whether or not its job is stored. -/
theorem transactedBody_eq (app : Application η ω) (n : NodeName) (thread : Thread)
    (info : JobInfo) (tx : TxId) (c : Cluster η ω) :
    transactedBody app n thread info tx c =
      match c.entrust n info (some tx) with
      | (.error e, c) => (.ok (.error e), c)
      | (.ok (), c) =>
        match process app n thread info (some tx) c with
        | (.error p, c) => (.error p, c)
        | (.ok (.error e), c) => (.ok (.error (.processing e)), c)
        | (.ok (.ok ()), c) =>
          if info.persisted then
            (.ok (c.releaseClaim n tx info.jobId).1, (c.releaseClaim n tx info.jobId).2)
          else (.ok (.ok ()), c) := by
  cases hpersisted : info.persisted with
  | true =>
      rw [transactedBody_of_persisted app n thread tx c hpersisted]
      rcases hclaim : c.claimFor n tx info.jobId with ⟨e | _, d⟩
      · simp only [entrust, hpersisted, if_true, hclaim]
      · rcases hprocess : process app n thread info (some tx) d with ⟨p | (e | _), d⟩ <;>
          simp only [entrust, hpersisted, if_true, hclaim, hprocess]
  | false =>
      unfold transactedBody entrust
      simp only [hpersisted, Bool.false_eq_true, if_false, Act.bind_apply]
      rcases process app n thread info (some tx) c with ⟨p | (e | _), d⟩ <;> rfl

/-- A run outside any transaction, whether or not its job is stored. -/
theorem plainRun_eq (app : Application η ω) (n : NodeName) (thread : Thread) (info : JobInfo)
    (c : Cluster η ω) :
    plainRun app n thread info c =
      match c.entrust n info none with
      | (.error e, c) => (.ok (.error e), c)
      | (.ok (), c) =>
        match process app n thread info none c with
        | (.error p, c) => (.error p, c)
        | (.ok (.error e), c) =>
          if info.persisted then
            (.ok ((c.finishClaim n info.jobId .failedDropped).1.bind fun _ =>
              .error (.processing e)), (c.finishClaim n info.jobId .failedDropped).2)
          else (.ok (.error (.processing e)), c)
        | (.ok (.ok ()), c) =>
          if info.persisted then
            (.ok (c.finishClaim n info.jobId .done).1, (c.finishClaim n info.jobId .done).2)
          else (.ok (.ok ()), c) := by
  cases hpersisted : info.persisted with
  | true =>
      rw [plainRun_of_persisted app n thread c hpersisted]
      rcases hclaim : c.claim n info.jobId with ⟨e | _, d⟩
      · simp only [entrust, hpersisted, if_true, hclaim]
      · rcases hprocess : process app n thread info none d with ⟨p | (e | _), d⟩ <;>
          simp only [entrust, hpersisted, if_true, hclaim, hprocess]
  | false =>
      unfold plainRun entrust
      simp only [hpersisted, Bool.false_eq_true, if_false, Act.bind_apply]
      rcases process app n thread info none c with ⟨p | (e | _), d⟩ <;> rfl

/-- Whether the handler panics to which a job is handed over, if it can be claimed. -/
def panicsIn (app : Application η ω) (n : NodeName) (thread : Thread) (info : JobInfo)
    (tx : Option TxId) (c : Cluster η ω) : Bool :=
  match c.entrust n info tx with
  | (.ok (), c) => !(process app n thread info tx c).1.isOk
  | (.error _, _) => false

/-- Whether the handler panics to which a run hands its job. The run does not get there if its
transaction cannot begin, or the job cannot be claimed. -/
def panics (app : Application η ω) (n : NodeName) (thread : Thread) (info : JobInfo)
    (c : Cluster η ω) : Bool :=
  if info.transacted then
    match c.opening n thread none with
    | (.ok tx, c) => panicsIn app n thread info (some tx) c
    | (.error _, _) => false
  else panicsIn app n thread info none c

/-- Work in a transaction answers, however the transaction ends, unless the work panics. -/
theorem isOk_runInTransaction {ε α : Type} (app : Application η ω) (n : NodeName)
    (thread : Thread) (timeout : Option Time) (body : TxId → Act η ω (Except ε α))
    (c : Cluster η ω) :
    (runInTransaction app n thread timeout body c).1.isOk =
      match c.opening n thread timeout with
      | (.ok tx, c) => (body tx c).1.isOk
      | (.error _, _) => true := by
  simp only [runInTransaction_eq]
  rcases c.opening n thread timeout with ⟨f | tx, d⟩
  · rfl
  · simp only
    rcases body tx d with ⟨p | (f | a), e⟩
    · rfl
    · rfl
    · simp only
      rcases e.commit app thread tx with ⟨f | _, e'⟩ <;> rfl

/-- A run panics exactly if its handler does. Callbacks that panic are not heard of. -/
theorem isOk_attempt (app : Application η ω) (n : NodeName) (thread : Thread) (info : JobInfo)
    (c : Cluster η ω) :
    (attempt app n thread info c).1.isOk = !panics app n thread info c := by
  have hmap : ∀ {α β : Type} (f : α → β) (answer : Except Panic α),
      (answer.map f).isOk = answer.isOk := by
    intro α β f answer
    cases answer <;> rfl
  unfold panics panicsIn
  cases htransacted : info.transacted with
  | true =>
      rw [attempt_of_transacted app n thread c htransacted, hmap, isOk_runInTransaction]
      simp only [if_true]
      rcases c.opening n thread none with ⟨f | tx, d⟩
      · rfl
      · simp only [transactedBody_eq]
        rcases d.entrust n info (some tx) with ⟨f | _, e⟩
        · rfl
        · simp only [Bool.not_not]
          rcases process app n thread info (some tx) e with ⟨p | (f | _), e'⟩
          · rfl
          · rfl
          · cases info.persisted <;> rfl
  | false =>
      rw [attempt_of_plain app n thread c htransacted, hmap, plainRun_eq]
      simp only [Bool.false_eq_true, if_false]
      rcases c.entrust n info none with ⟨f | _, e⟩
      · rfl
      · simp only [Bool.not_not]
        rcases process app n thread info none e with ⟨p | (f | _), e'⟩
        · rfl
        · cases info.persisted <;> rfl
        · cases info.persisted <;> rfl

end Cluster

/-! ## Counting -/

/-- Whether handlers and callbacks leave it to the scheduler of a node to count runs, and whether no
callback has the node claim a job. -/
structure Application.Reserved (app : Application η ω) (n : NodeName) (id : JobId) : Prop where
  callback : ∀ thread script phase (c : Cluster η ω) ending,
    (app.callback thread script phase c).2.counted n ending = c.counted n ending
  handler : ∀ thread script info tx (c : Cluster η ω) ending,
    (app.handler thread script info tx c).2.counted n ending = c.counted n ending
  claims : ∀ thread script phase (c : Cluster η ω),
    (app.callback thread script phase c).2.jobs.heldBy? id = some (c.nodeId n) →
      c.jobs.heldBy? id = some (c.nodeId n)

namespace Cluster

variable {app : Application η ω} {c d e : Cluster η ω} {n : NodeName} {thread : Thread}
  {info : JobInfo} {tx : TxId} {id : JobId} {ending : JobEnd}

/-- The counts of a node are its own. -/
theorem counted_of_nodes (h : d.nodes = c.nodes) (n : NodeName) (ending : JobEnd) :
    d.counted n ending = c.counted n ending := by
  unfold counted node
  rw [h]

/-- To command an instance changes no node. -/
theorem nodes_commandInstance (c : Cluster η ω) (details : JobDetails) (tx : Option TxId) :
    (c.commandInstance details tx).2.nodes = c.nodes := by
  unfold commandInstance setInstanceState stageWrite
  cases tx with
  | none => rfl
  | some tx =>
      cases InstanceCommand.ofDetails details with
      | error e => rfl
      | ok command =>
          simp only
          cases c.instances.stateChange tx command.2 command.1.target c.clock with
          | error e => rfl
          | ok change =>
              simp only
              split <;> rfl

/-- To time an exchange out counts no run. -/
theorem counted_timeOutExchange (c : Cluster η ω) (n m : NodeName) (details : JobDetails)
    (ending : JobEnd) : (c.timeOutExchange m details).2.counted n ending = c.counted n ending := by
  unfold timeOutExchange
  cases details.get? "mex" with
  | none => rfl
  | some exchange =>
      simp only
      cases (c.node m).registry.get? ⟨exchange⟩ with
      | none => rfl
      | some _ =>
          simp only
          cases (c.node m).registry.fail ⟨exchange⟩ .noResponse
              (some "partner did not respond in time") with
          | error e => rfl
          | ok answer => exact c.counted_modifyNode m n rfl ending

/-- A handler counts no run. -/
theorem counted_process (h : app.Reserved n id) (m : NodeName) (thread : Thread) (info : JobInfo)
    (tx : Option TxId) (c : Cluster η ω) (ending : JobEnd) :
    (process app m thread info tx c).2.counted n ending = c.counted n ending := by
  unfold process
  cases (c.node m).handlers.get? info.details.jobType with
  | none => rfl
  | some handler =>
      cases handler with
      | instanceCommand => exact counted_of_nodes (c.nodes_commandInstance info.details tx) n ending
      | exchangeTimeout => exact c.counted_timeOutExchange n m info.details ending
      | custom script => exact h.handler thread script info tx c ending

/-- Nobody counts a run on the way to the end of its transaction. -/
theorem lasts_counted (h : app.Reserved n id) (counts : JobEnd → Nat) :
    Lasts app fun d => ∀ ending, d.counted n ending = counts ending where
  resource _ _ hd := hd
  transactions _ _ hd := hd
  nextTx _ _ hd := hd
  manager d m _ hd ending := (d.counted_modifyNode m n rfl ending).trans (hd ending)
  callback d thread callback phase hd ending := by
    refine Eq.trans ?_ (hd ending)
    cases callback with
    | custom script =>
        have hscript := h.callback thread script phase d ending
        simp only [runCallback]
        rcases hanswer : app.callback thread script phase d with ⟨p | (e | _), d'⟩ <;>
          rw [hanswer] at hscript <;> exact hscript
    | publish _ _ | queue _ _ | drop _ _ _ | applyWrites _ | withdraw _ _ =>
        exact counted_runCallback app thread phase d rfl n ending

theorem nodes_entrust (c : Cluster η ω) (n : NodeName) (info : JobInfo) (tx : Option TxId) :
    (c.entrust n info tx).2.nodes = c.nodes := by
  unfold entrust claimFor claim
  split
  · cases tx with
    | none => simp only; split <;> rfl
    | some tx =>
        rcases c.jobs.claim info.jobId (c.node n).id with e | ⟨held, jobs⟩ <;> rfl
  · rfl

theorem nodes_finishClaim (c : Cluster η ω) (n : NodeName) (id : JobId) (outcome : JobOutcome) :
    (c.finishClaim n id outcome).2.nodes = c.nodes := by
  unfold finishClaim
  split <;> rfl

theorem nodes_releaseClaim (c : Cluster η ω) (n : NodeName) (tx : TxId) (id : JobId) :
    (c.releaseClaim n tx id).2.nodes = c.nodes := by
  have hfinish := c.nodes_finishClaim n id .done
  unfold releaseClaim
  rcases hanswer : c.finishClaim n id .done with ⟨e | _, d⟩ <;> rw [hanswer] at hfinish <;>
    exact hfinish

/-- A run in a transaction counts nothing by itself. -/
theorem counted_transactedBody (h : app.Reserved n id) (m : NodeName) (thread : Thread)
    (info : JobInfo) (tx : TxId) (c : Cluster η ω) (ending : JobEnd) :
    (transactedBody app m thread info tx c).2.counted n ending = c.counted n ending := by
  have hentrust := counted_of_nodes (c.nodes_entrust m info (some tx)) n ending
  rw [transactedBody_eq]
  rcases hd : c.entrust m info (some tx) with ⟨f | _, d⟩ <;> rw [hd] at hentrust
  · exact hentrust
  · have hprocess := counted_process h m thread info (some tx) d ending
    simp only
    rcases he : process app m thread info (some tx) d with ⟨p | (f | _), e⟩ <;>
      rw [he] at hprocess
    · exact hprocess.trans hentrust
    · exact hprocess.trans hentrust
    · refine Eq.trans ?_ (hprocess.trans hentrust)
      simp only
      split
      · exact counted_of_nodes (e.nodes_releaseClaim m tx info.jobId) n ending
      · rfl

theorem counted_plainRun (h : app.Reserved n id) (m : NodeName) (thread : Thread)
    (info : JobInfo) (c : Cluster η ω) (ending : JobEnd) :
    (plainRun app m thread info c).2.counted n ending = c.counted n ending := by
  have hentrust := counted_of_nodes (c.nodes_entrust m info none) n ending
  rw [plainRun_eq]
  rcases hd : c.entrust m info none with ⟨f | _, d⟩ <;> rw [hd] at hentrust
  · exact hentrust
  · have hprocess := counted_process h m thread info none d ending
    simp only
    rcases he : process app m thread info none d with ⟨p | (f | _), e⟩ <;> rw [he] at hprocess
    · exact hprocess.trans hentrust
    all_goals
      refine Eq.trans ?_ (hprocess.trans hentrust)
      simp only
      split
      · exact counted_of_nodes (e.nodes_finishClaim m info.jobId _) n ending
      · rfl

/-- Nobody counts a run before it is over. -/
theorem counted_attempt (h : app.Reserved n id) (m : NodeName) (thread : Thread) (info : JobInfo)
    (c : Cluster η ω) (ending : JobEnd) :
    (attempt app m thread info c).2.counted n ending = c.counted n ending := by
  cases htransacted : info.transacted with
  | true =>
      rw [attempt_of_transacted app m thread c htransacted]
      exact (lasts_counted h fun ending => c.counted n ending).runInTransaction m none
        (fun tx d hd ending =>
          (counted_transactedBody h m thread info tx d ending).trans (hd ending))
        (fun _ => rfl) ending
  | false =>
      rw [attempt_of_plain app m thread c htransacted]
      exact counted_plainRun h m thread info c ending

/-! ## Claiming -/

/-- Whether a node does not hold a job. -/
def IsFree (c : Cluster η ω) (n : NodeName) (id : JobId) : Prop :=
  c.jobs.heldBy? id ≠ some (c.nodeId n)

/-- No node holds a job that is gone. -/
theorem isFree_of_gone (h : c.jobs.find? id = none) (n : NodeName) : c.IsFree n id := by
  unfold IsFree
  rw [JobStore.heldBy?_of_eq_none h]
  exact (Option.some_ne_none _).symm

/-- A callback that is not one of the application gives a job to nobody. -/
theorem isFree_carryOut (hc : c.IsFree n id) (app : Application η ω) (thread : Thread)
    (phase : Phase) (callback : Callback η) :
    (c.carryOut app thread phase callback).IsFree n id := by
  obtain ⟨hnext, hclaimed⟩ := c.carryOut_heldBy? app thread phase callback id 0 (c.nodeId n)
  unfold IsFree
  rw [hnext, (c.carryOut_frame app thread phase callback).2.2 n]
  generalize carriedOut id 0 c.jobs (c.carryOut app thread phase callback).jobs callback = event
    at hclaimed ⊢
  cases event with
  | claimed run => exact absurd rfl (hclaimed run)
  | reset | released _ | dropped _ => exact (Option.some_ne_none _).symm
  | committed _ | cancelled | quiet => exact hc

/-- Nobody gives a job to a node on the way to the end of a transaction. -/
theorem lasts_isFree (h : app.Loyal id) (hreserved : app.Reserved n id) :
    Lasts app fun d => d.IsFree n id where
  resource _ _ hd := hd
  transactions _ _ hd := hd
  nextTx _ _ hd := hd
  manager d m f hd := by
    unfold IsFree
    rw [nodeId_modifyManager]
    exact hd
  callback d thread callback phase hd := by
    cases callback with
    | custom script =>
        have hnode := (meantime_runCallback h thread (.custom script) phase d).nodeId n
        have hclaims := hreserved.claims thread script phase d
        intro hheld
        rw [hnode] at hheld
        simp only [runCallback] at hheld
        rcases hanswer : app.callback thread script phase d with ⟨p | (e | _), d'⟩ <;>
          rw [hanswer] at hclaims hheld <;> exact hd (hclaims hheld)
    | publish m plan => exact isFree_carryOut hd app thread phase (.publish m plan)
    | queue m info => exact isFree_carryOut hd app thread phase (.queue m info)
    | drop m j armed => exact isFree_carryOut hd app thread phase (.drop m j armed)
    | applyWrites other => exact isFree_carryOut hd app thread phase (.applyWrites other)
    | withdraw m j => exact isFree_carryOut hd app thread phase (.withdraw m j)

/-- Who takes a published job out holds it no longer, and who does not hold it cannot. -/
theorem isFree_finishClaim (havailable : c.jobs.available = true) (hpublished : c.jobs.Published id)
    (n : NodeName) (outcome : JobOutcome) : (c.finishClaim n id outcome).2.IsFree n id := by
  have hfinish : c.jobs.finish id (c.node n).id outcome = _ :=
    JobStore.finish_eq hpublished havailable
  unfold finishClaim
  rw [hfinish]
  by_cases hheld : c.jobs.heldBy? id = some (c.node n).id
  · rw [if_pos hheld]
    refine isFree_of_gone ?_ n
    show ((c.jobs.remove id).count outcome).find? id = none
    simp
  · rw [if_neg hheld]
    exact hheld

/-- No node holds a published job after its claim was released. -/
theorem isFree_releaseClaim (havailable : c.jobs.available = true)
    (hpublished : c.jobs.Published id) (n : NodeName) (tx : TxId) :
    (c.releaseClaim n tx id).2.IsFree n id := by
  have hfinish := isFree_finishClaim havailable hpublished n .done
  unfold releaseClaim
  rcases hanswer : c.finishClaim n id .done with ⟨e | _, d⟩ <;> rw [hanswer] at hfinish <;>
    exact hfinish

/-- A run that gives its transaction up gives up its claim. -/
theorem Pledged.isFree_abandon (hc : c.Pledged id n tx) (h : app.Loyal id)
    (hreserved : app.Reserved n id) (thread : Thread) :
    (c.abandon app thread tx).IsFree n id := by
  by_cases hheld : c.jobs.heldBy? id = some (c.nodeId n)
  · exact isFree_of_gone ((hc.abandon h thread).1 (.inr hheld)) n
  · exact (lasts_isFree h hreserved).abandon thread tx hheld

/-- The work of a run in its transaction: it ends with the job given up, or else the transaction
drops the job when it is rolled back. -/
theorem transactedBody_isFree {info : JobInfo} (h : app.Loyal info.jobId)
    (hpersisted : info.persisted = true) (hbegun : c.Begun tx d)
    (havailable : c.jobs.available = true) (hfree : d.IsFree n info.jobId) (thread : Thread) :
    (transactedBody app n thread info tx d).2.IsFree n info.jobId ∨
      (∀ a, (transactedBody app n thread info tx d).1 ≠ .ok (.ok a)) ∧
        (transactedBody app n thread info tx d).2.Pledged info.jobId n tx := by
  rw [transactedBody_of_persisted app n thread tx d hpersisted]
  rcases pledged_claimFor hbegun havailable n info.jobId with ⟨e, hclaim, hclaimed⟩ | hclaim <;>
    rw [hclaim]
  · have hpledged := hclaimed.process h n thread info
    simp only
    rcases hprocess : process app n thread info (some tx) e with ⟨p | (f | _), e'⟩ <;>
      rw [hprocess] at hpledged
    · exact .inr ⟨fun _ => nofun, hpledged⟩
    · exact .inr ⟨fun _ => nofun, hpledged⟩
    · exact .inl (isFree_releaseClaim hpledged.available hpledged.published n tx)
  · exact .inl hfree

/-- A run in a transaction gives up its claim, even if its handler panics. -/
theorem isFree_transacted {info : JobInfo} (h : app.Loyal info.jobId)
    (hreserved : app.Reserved n info.jobId) (hpersisted : info.persisted = true)
    (htransacted : info.transacted = true) (havailable : c.jobs.available = true)
    (hfree : c.IsFree n info.jobId) (thread : Thread) :
    (attempt app n thread info c).2.IsFree n info.jobId := by
  rw [attempt_of_transacted app n thread c htransacted]
  refine (lasts_isFree h hreserved).runInTransaction_of n none (fun tx d hopening hd => ?_) hfree
  have hbegun : (c.modifyManager n fun m => m.overrideTimeout thread none).Begun tx d :=
    begin_eq_ok hopening
  exact (transactedBody_isFree h hpersisted hbegun havailable hd thread).imp_right
    (And.imp_right fun hpledged => hpledged.isFree_abandon h hreserved thread)

/-- A run outside any transaction gives up its claim, unless its handler panics. -/
theorem isFree_plain {info : JobInfo} (h : app.Loyal info.jobId)
    (hpersisted : info.persisted = true) (htransacted : info.transacted = false)
    (havailable : c.jobs.available = true) (hfree : c.IsFree n info.jobId)
    (hcalm : panics app n thread info c = false) :
    (attempt app n thread info c).2.IsFree n info.jobId := by
  rw [attempt_of_plain app n thread c htransacted, plainRun_of_persisted app n thread c hpersisted]
  simp only [panics, panicsIn, entrust, htransacted, hpersisted, if_true, Bool.false_eq_true,
    if_false] at hcalm
  rcases claim_cases havailable n info.jobId with ⟨jobs, hclaim, hstays, hpublished⟩ | hclaim <;>
    rw [hclaim] at hcalm ⊢
  · have hmeantime := (meantime_process h n thread info none { c with jobs }).jobs
    have havailable' := hmeantime.available hstays
    have hpublished' := hmeantime.published hpublished
    simp only at hcalm ⊢
    rcases hprocess : process app n thread info none { c with jobs } with ⟨p | (f | _), d⟩ <;>
      rw [hprocess] at hcalm havailable' hpublished'
    · cases hcalm
    · exact isFree_finishClaim havailable' hpublished' n .failedDropped
    · exact isFree_finishClaim havailable' hpublished' n .done
  · exact hfree

/-- A run gives up its claim, unless it is outside any transaction and its handler panics. -/
theorem isFree_attempt {info : JobInfo} (h : app.Loyal info.jobId)
    (hreserved : app.Reserved n info.jobId) (hpersisted : info.persisted = true)
    (havailable : c.jobs.available = true) (hfree : c.IsFree n info.jobId) (thread : Thread)
    (hcalm : info.transacted = true ∨ panics app n thread info c = false) :
    (attempt app n thread info c).2.IsFree n info.jobId := by
  cases htransacted : info.transacted with
  | true => exact isFree_transacted h hreserved hpersisted htransacted havailable hfree thread
  | false =>
      have hquiet := hcalm.resolve_left (by simp [htransacted])
      exact isFree_plain h hpersisted htransacted havailable hfree hquiet

/-- A handler that panics outside any transaction is the last that happens in its run. -/
theorem attempt_of_panics_plain {info : JobInfo} (htransacted : info.transacted = false)
    (hpanics : panics app n thread info c = true) :
    (attempt app n thread info c).2 =
      (process app n thread info none (c.entrust n info none).2).2 := by
  rw [attempt_of_plain app n thread c htransacted, plainRun_eq]
  simp only [panics, panicsIn, htransacted, Bool.false_eq_true, if_false] at hpanics
  rcases hentrust : c.entrust n info none with ⟨f | _, d⟩ <;> rw [hentrust] at hpanics
  · cases hpanics
  · simp only at hpanics ⊢
    rcases hprocess : process app n thread info none d with ⟨p | answer, e⟩
    · rfl
    · rw [hprocess] at hpanics
      cases hpanics

/-! ## The end of a run -/

/-- What a run on a node should leave behind: it is counted, once and in one way; its job is marked
no longer; and if the job is stored, the node holds it only if it did so before. -/
structure Discharges (n : NodeName) (info : JobInfo) (c d : Cluster η ω) : Prop where
  counted : ∃ ending, ∀ other,
    d.counted n other = c.counted n other + if ending = other then 1 else 0
  unmarked : (d.node n).scheduler.todo.isOutstanding info.jobId = false
  free : info.persisted = true → c.IsFree n info.jobId → d.IsFree n info.jobId

theorem isFree_record (hc : c.IsFree n id) (ending : JobEnd) :
    (c.record n id (some ending)).IsFree n id := by
  unfold record IsFree
  rw [nodeId_modifyScheduler, nodeId_modifyTodo]
  exact hc

/-- A run that nobody has counted and that has given up its claim leaves nothing behind once it has
been recorded. -/
theorem discharges_record {info : JobInfo} (ending : JobEnd)
    (hcounted : ∀ other, d.counted n other = c.counted n other)
    (hfree : info.persisted = true → c.IsFree n info.jobId → d.IsFree n info.jobId) :
    Discharges n info c (d.record n info.jobId (some ending)) where
  counted := ⟨ending, fun other => by
    rw [Passage.counted_record, hcounted]
    simp only [Option.some.injEq]⟩
  unmarked := by
    cases ending <;>
      simp [record, modifyTodo, modifyScheduler, Scheduler.count, TodoQueue.finish,
        TodoQueue.isOutstanding, Table.contains]
  free hpersisted hc := isFree_record (hfree hpersisted hc) ending

/-- A run leaves nothing behind exactly if its handler does not panic. If it does, nobody counts the
run. Yet a run in a transaction gives up its claim then, whereas one outside any transaction leaves
everything, the claim and the mark included, as the handler has left it. -/
theorem discharges_iff (job : ScheduledJob) (h : app.Loyal job.info.jobId)
    (hreserved : app.Reserved n job.info.jobId)
    (hprocessor : (c.node n).scheduler.hasProcessor = true)
    (havailable : c.jobs.available = true) :
    (Discharges n job.info c (runJob app n job c).2 ↔
        panics app n (.worker n) job.info c = false) ∧
      (panics app n (.worker n) job.info c = true →
        (∀ ending, (runJob app n job c).2.counted n ending = c.counted n ending) ∧
        (job.info.transacted = true → job.info.persisted = true → c.IsFree n job.info.jobId →
          (runJob app n job c).2.IsFree n job.info.jobId) ∧
        (job.info.transacted = false → (runJob app n job c).2 =
          (process app n (.worker n) job.info none (c.entrust n job.info none).2).2)) := by
  have hrun := runJob_snd app job hprocessor
  have hanswer := isOk_attempt app n (.worker n) job.info c
  have hcounted := counted_attempt hreserved n (.worker n) job.info c
  have hfree := fun hpersisted hc =>
    isFree_attempt h hreserved hpersisted havailable hc (.worker n)
  obtain ⟨answer, d, hattempt⟩ : ∃ answer d,
    attempt app n (.worker n) job.info c = (answer, d) := ⟨_, _, rfl⟩
  rw [hattempt] at hrun hanswer hcounted hfree
  cases answer with
  | error p =>
      have hpanics : panics app n (.worker n) job.info c = true := by
        simpa [Except.isOk, Except.toBool] using hanswer
      have hend : (runJob app n job c).2 = d := hrun
      have hleft : job.info.transacted = false → d = _ := fun htransacted =>
        (congrArg Prod.snd hattempt).symm.trans (attempt_of_panics_plain htransacted hpanics)
      rw [hend, hpanics]
      refine ⟨iff_of_false (fun hdischarged => ?_) Bool.noConfusion, fun _ => ⟨hcounted,
        fun htransacted hpersisted hc => hfree hpersisted hc (.inl htransacted), hleft⟩⟩
      obtain ⟨ending, hgrown⟩ := hdischarged.counted
      have hone := hgrown ending
      rw [hcounted, if_pos rfl] at hone
      exact absurd hone (Nat.ne_add_one _)
  | ok ending =>
      have hcalm : panics app n (.worker n) job.info c = false := by
        simpa [Except.isOk, Except.toBool] using hanswer
      have hend : (runJob app n job c).2 = d.record n job.info.jobId (some ending) := hrun
      rw [hend, hcalm]
      refine ⟨iff_of_true (discharges_record ending hcounted fun hpersisted hc => ?_) rfl,
        Bool.noConfusion⟩
      exact hfree hpersisted hc (.inr hcalm)

/-- A run that does its work leaves nothing behind. A run in a transaction whose handler panics is
not counted, and has given up its claim. -/
theorem discharges_iff_two :
    let run := fun app => (runJob app "a" (.persisted Passage.sampleJob) ofProcessors).2
    Discharges "a" Passage.sampleJob.info ofProcessors (run .silent) ∧
      (∀ ending, (run .panicking).counted "a" ending = 0) ∧
      (run .panicking).IsFree "a" ⟨"J"⟩ := by
  have hsilent : Application.silent.Loyal ⟨"J"⟩ :=
    ⟨fun _ _ _ c => .refl _ c, fun _ _ _ _ c => .refl _ c, fun _ _ _ _ _ _ ht => extends_self _ ht⟩
  have hpanicking : Application.panicking.Loyal ⟨"J"⟩ :=
    ⟨fun _ _ _ c => .refl _ c, fun _ _ _ _ c => .refl _ c, fun _ _ _ _ _ _ ht => extends_self _ ht⟩
  have hdone := discharges_iff (n := "a") (c := ofProcessors) (.persisted Passage.sampleJob) hsilent
    ⟨fun _ _ _ _ _ => rfl, fun _ _ _ _ _ _ => rfl, fun _ _ _ _ hheld => hheld⟩ rfl rfl
  obtain ⟨hcounted, hfree, -⟩ :=
    (discharges_iff (n := "a") (c := ofProcessors) (.persisted Passage.sampleJob) hpanicking
      ⟨fun _ _ _ _ _ => rfl, fun _ _ _ _ _ _ => rfl, fun _ _ _ _ hheld => hheld⟩ rfl rfl).2 rfl
  have hbefore : ofProcessors.IsFree "a" ⟨"J"⟩ := (Option.some_ne_none _).symm
  refine ⟨hdone.1.mpr rfl, fun ending => (hcounted ending).trans ?_, hfree rfl rfl hbefore⟩
  cases ending <;> rfl

/-- A job that is to run outside any transaction. -/
def looseJob : JobRecord := { Passage.sampleJob with transacted := false, state := .pending }

/-- A node that has taken such a job out of its queue, so that it is marked. -/
def ofMarked : Cluster Unit Unit :=
  { ofProcessors.modifyTodo "a" fun q => { q with marks := q.marks.insert ⟨"J"⟩ 0 } with
    jobs := JobStore.put {} looseJob }

/-- The handler panics, and the run is not counted, the job stays marked, and the node holds it, which
it did not before. -/
theorem panic_leaves_claim :
    let after := (runJob .panicking "a" (.persisted looseJob) ofMarked).2
    (ofMarked.jobs.heldBy? ⟨"J"⟩ = none ∧ after.jobs.heldBy? ⟨"J"⟩ = some ⟨"a"⟩) ∧
      (∀ ending, after.counted "a" ending = ofMarked.counted "a" ending) ∧
      (after.node "a").scheduler.todo.isOutstanding ⟨"J"⟩ = true ∧
      ¬ Discharges "a" looseJob.info ofMarked after := by
  have hmarked : ((runJob .panicking "a" (.persisted looseJob) ofMarked).2.node
      "a").scheduler.todo.isOutstanding ⟨"J"⟩ = true := rfl
  refine ⟨⟨rfl, rfl⟩, fun ending => by cases ending <;> rfl, hmarked, fun hdischarged => ?_⟩
  exact Bool.noConfusion (hmarked.symm.trans hdischarged.unmarked)

end Cluster

end JobCluster
