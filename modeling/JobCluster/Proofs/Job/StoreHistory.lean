import JobCluster.Proofs.Counting
import JobCluster.Proofs.Job.DueJobs
/-!
# Histories of a job store

A store begins empty, and everything that is in it came about by calls. This file is about what
holds after every sequence of calls, from whatever nodes they come, and whenever the store is
available in between.

The store does its work in place. So calls are given once more as programs that read and write the
store: what such a program has written stays written, also if it fails afterwards. That a call which
fails has written nothing is a theorem about them.

Main results:

- `StoreCall.perform_inPlace`: calls that work in place answer and end as the operations do;
- `StoreCall.leads`: the milestones in the life of a record, and the order in which they
  come;
- `StoreCall.balances`: where the staged jobs are;
- `JobStore.consistent_history`: what holds of every store that calls can lead to.
-/

namespace JobCluster

/-! ## Programs that work in place -/

/-- A program that works on a job store in place. What it has written stays written, also if it ends
with an error. -/
abbrev InPlace (α : Type) : Type := ExceptT JobStoreError (StateM JobStore) α

namespace InPlace

variable {α β : Type}

/-- What a program answers, and the store that it leaves. -/
def perform (x : InPlace α) (s : JobStore) : Except JobStoreError α × JobStore := x s

/-- Goes on only while the store is available. -/
def requireAvailable : InPlace Unit := do
  if !(← get).available then throw .unavailable

/-- Reads the record of a job that has to be there. -/
def require (id : JobId) : InPlace JobRecord := do
  match (← get).find? id with
  | some r => return r
  | none => throw (.noLongerStored id)

/-- Writes the record of a job. -/
def write (id : JobId) (r : JobRecord) : InPlace Unit :=
  modify fun s => { s with records := s.records.insert id r }

/-- Takes the record of a job out. -/
def takeOut (id : JobId) : InPlace Unit := modify fun s => s.remove id

variable (s : JobStore)

@[simp]
theorem perform_pure (a : α) : (pure a : InPlace α).perform s = (.ok a, s) :=
  rfl

@[simp]
theorem perform_throw (e : JobStoreError) : (throw e : InPlace α).perform s = (.error e, s) :=
  rfl

/-- A program goes on with what it finds, unless an error ends it. -/
@[simp]
theorem perform_bind (x : InPlace α) (f : α → InPlace β) :
    (x >>= f).perform s = match x.perform s with
      | (.ok a, t) => (f a).perform t
      | (.error e, t) => (.error e, t) := by
  show ExceptT.bindCont f (x s).1 (x s).2 = _
  unfold perform
  rcases x s with ⟨_ | _, t⟩ <;> rfl

/-- A value is changed, and the store left, if there is no error. -/
@[simp]
theorem perform_map (x : InPlace α) (f : α → β) :
    (f <$> x).perform s = ((x.perform s).1.map f, (x.perform s).2) := by
  rw [← bind_pure_comp, perform_bind]
  rcases x.perform s with ⟨_ | _, t⟩ <;> rfl

@[simp]
theorem perform_get : (get : InPlace JobStore).perform s = (.ok s, s) :=
  rfl

@[simp]
theorem perform_modify (f : JobStore → JobStore) :
    (modify f : InPlace Unit).perform s = (.ok (), f s) :=
  rfl

@[simp]
theorem perform_write (id : JobId) (r : JobRecord) :
    (write id r).perform s = (.ok (), { s with records := s.records.insert id r }) :=
  rfl

@[simp]
theorem perform_takeOut (id : JobId) : (takeOut id).perform s = (.ok (), s.remove id) :=
  rfl

/-- A program ends here unless the store is available. -/
theorem perform_requireAvailable :
    requireAvailable.perform s = (if s.available then .ok () else .error .unavailable, s) := by
  cases h : s.available <;> simp [requireAvailable, h]

/-- The record of a job is read, or there is an error. -/
theorem perform_require (id : JobId) :
    (require id).perform s = match s.find? id with
      | some r => (.ok r, s)
      | none => (.error (.noLongerStored id), s) := by
  rw [require, perform_bind, perform_get]
  cases h : s.find? id <;> simp [h]

end InPlace

/-- What a call answers that does not fail. -/
inductive StoreAnswer
  | done
  /-- The record of the job that was claimed. -/
  | held (record : JobRecord)
  /-- Whether a job was taken out. -/
  | cancelled (found : Bool)
  /-- How many jobs were given to another node. -/
  | moved (number : Nat)
  deriving DecidableEq, Repr

namespace StoreCall

open InPlace

/-- A call that works in place. -/
def inPlace : StoreCall → InPlace StoreAnswer
  | stage r => do
    requireAvailable
    if ((← get).find? r.id).isSome then throw (.duplicate r.id)
    write r.id { r with state := .staged }
    return .done
  | publish id => do
    requireAvailable
    let r ← require id
    if r.state ≠ .staged then throw (.invalidState id r.state "STAGED")
    write id { r with state := .pending }
    return .done
  | discard id => do
    match (← get).find? id with
    | some r => if r.state = .staged then takeOut id
    | none => pure ()
    return .done
  | claim id node => do
    requireAvailable
    let r ← require id
    if !JobStore.claimableBy r node then throw (.noLongerStored id)
    -- The state is written before the owner.
    write id { r with state := .claimed node }
    write id { r with state := .claimed node, owner := some node }
    return .held { r with state := .claimed node, owner := some node }
  | finish id node outcome => do
    requireAvailable
    let r ← require id
    if r.state ≠ .claimed node then
      if r.state = .staged then throw (.invalidState id r.state "CLAIMED")
      else throw (.noLongerStored id)
    takeOut id
    modify fun s => s.count outcome
    return .done
  | cancel id => do
    requireAvailable
    match (← get).find? id with
    | some r =>
      if r.state = .staged ∨ r.isPending then
        takeOut id
        return .cancelled true
      else return .cancelled false
    | none => return .cancelled false
  | upgrade maxDue nodes => do
    requireAvailable
    if nodes.isEmpty then return .moved 0
    else
      let found := (← get).records.filter fun _ r => JobStore.upgradable maxDue r
      modify fun s =>
        { s with records := s.records.map fun _ r =>
            if JobStore.upgradable maxDue r then { r with owner := JobStore.assignee? nodes r }
            else r }
      return .moved found.size
  | reassign source target => do
    requireAvailable
    let found := (← get).records.filter fun _ r => r.owner == some source
    modify fun s =>
      { s with records := s.records.map fun _ r => JobStore.reassigned source target r }
    return .moved found.size
  | setAvailable available => do
    modify fun s => { s with available }
    return .done

/-- What the operation of a call comes to: its answer with the store afterwards, or an error. -/
def outcome (s : JobStore) : StoreCall → Except JobStoreError (StoreAnswer × JobStore)
  | stage r => (s.stage r).map (.done, ·)
  | publish id => (s.publish id).map (.done, ·)
  | discard id => .ok (.done, s.discard id)
  | claim j node => (s.claim j node).map (Prod.map .held id)
  | finish id node outcome => (s.finish id node outcome).map (.done, ·)
  | cancel j => (s.cancel j).map (Prod.map .cancelled id)
  | upgrade maxDue nodes => (s.upgradeJobs maxDue nodes).map (Prod.map .moved id)
  | reassign source target => (s.reassignJobs source target).map (Prod.map .moved id)
  | setAvailable available => .ok (.done, { s with available })

/-- A call leaves what its operation leaves, or the store as it was. -/
theorem apply_eq (s : JobStore) (a : StoreCall) : a.apply s = s.orSelf' (a.outcome s) := by
  have hdone : ∀ answer : Except JobStoreError JobStore,
      s.orSelf answer = s.orSelf' (answer.map (StoreAnswer.done, ·)) := by
    rintro (e | t) <;> rfl
  have hvalue : ∀ {α : Type} (f : α → StoreAnswer) (answer : Except JobStoreError (α × JobStore)),
      s.orSelf' answer = s.orSelf' (answer.map (Prod.map f id)) := by
    rintro α f (e | ⟨x, t⟩) <;> rfl
  cases a with
  | stage r => exact hdone _
  | publish j => exact hdone _
  | finish j node outcome => exact hdone _
  | claim j node => exact hvalue _ _
  | cancel j => exact hvalue _ _
  | upgrade maxDue nodes => exact hvalue _ _
  | reassign source target => exact hvalue _ _
  | discard j => rfl
  | setAvailable available => rfl

/-- A program that first asks whether the store is available works as a guarded operation, if the
rest of it works as the operation does. -/
theorem perform_guarded {α : Type} {x : InPlace StoreAnswer} {s : JobStore}
    {answer : Except JobStoreError α} {f : α → StoreAnswer × JobStore}
    (h : x.perform s = ((answer.map f).map Prod.fst, s.orSelf' (answer.map f))) :
    (requireAvailable >>= fun _ => x).perform s =
      (((s.guarded answer).map f).map Prod.fst, s.orSelf' ((s.guarded answer).map f)) := by
  rw [perform_bind, perform_requireAvailable]
  cases ha : s.available with
  | true => simpa [JobStore.guarded, ha] using h
  | false => simp [JobStore.guarded, ha, JobStore.orSelf', JobStore.orSelf, Except.map]

/-- Calls that work in place answer and end as the operations of the store do. -/
theorem perform_inPlace (a : StoreCall) (s : JobStore) :
    a.inPlace.perform s = ((a.outcome s).map Prod.fst, a.apply s) := by
  rw [apply_eq]
  cases a with
  | stage r =>
      refine perform_guarded ?_
      cases hr : s.find? r.id <;>
        simp [hr, JobStore.orSelf', JobStore.orSelf, Except.map, JobStore.put]
  | publish j =>
      refine perform_guarded ?_
      rw [perform_bind, perform_require]
      cases hr : s.find? j with
      | none => rfl
      | some r =>
          by_cases hstaged : r.state = .staged <;>
            simp [hstaged, JobStore.orSelf', JobStore.orSelf, Except.map]
  | discard j =>
      rw [inPlace, perform_bind, perform_get]
      simp only [outcome, JobStore.orSelf', JobStore.orSelf, Except.map, JobStore.discard]
      cases hr : s.find? j with
      | none => rfl
      | some r => by_cases hstaged : r.state = .staged <;> simp [hstaged, Except.map]
  | claim j node =>
      refine perform_guarded ?_
      rw [perform_bind, perform_require]
      cases hr : s.find? j with
      | none => rfl
      | some r =>
          by_cases hfree : JobStore.claimableBy r node = true <;>
            simp [hfree, JobStore.orSelf', JobStore.orSelf, Except.map]
  | finish j node outcome =>
      refine perform_guarded ?_
      rw [perform_bind, perform_require]
      cases hr : s.find? j with
      | none => rfl
      | some r =>
          by_cases hheld : r.state = .claimed node
          · simp [hheld, JobStore.orSelf', JobStore.orSelf, Except.map]
          · by_cases hstaged : r.state = .staged <;>
              simp [hheld, hstaged, JobStore.orSelf', JobStore.orSelf, Except.map]
  | cancel j =>
      refine perform_guarded ?_
      rw [perform_bind, perform_get]
      cases hr : s.find? j with
      | none => simp [hr, JobStore.orSelf', JobStore.orSelf, Except.map]
      | some r =>
          cases hstate : r.state <;>
            simp [hr, JobRecord.isPending, hstate, JobStore.orSelf', JobStore.orSelf, Except.map]
  | upgrade maxDue nodes =>
      refine perform_guarded ?_
      by_cases hnodes : nodes.isEmpty = true <;>
        simp [hnodes, JobStore.orSelf', JobStore.orSelf, Except.map]
  | reassign source target =>
      refine perform_guarded ?_
      simp [JobStore.orSelf', JobStore.orSelf, Except.map]
  | setAvailable available => rfl

/-- A call that fails has written nothing. -/
theorem eq_of_perform_inPlace {a : StoreCall} {s t : JobStore} {e : JobStoreError}
    (h : a.inPlace.perform s = (.error e, t)) : t = s := by
  rw [perform_inPlace, Prod.mk.injEq] at h
  obtain ⟨hanswer, rfl⟩ := h
  rw [apply_eq]
  cases houtcome : a.outcome s with
  | error e => rfl
  | ok x =>
      rw [houtcome] at hanswer
      cases hanswer

end StoreCall

/-! ## The life of a record -/

/-- Where the store has a job. -/
inductive Custody
  /-- The job is not stored. -/
  | absent
  /-- The job is stored, and no node has claimed it. -/
  | free
  | held (node : NodeId)
  deriving DecidableEq, Repr

/-- Where a record has its job. -/
def JobRecord.custody (r : JobRecord) : Custody :=
  match r.state with
  | .staged | .pending => .free
  | .claimed node => .held node

/-- Where the store has a job. -/
def JobStore.custody (s : JobStore) (id : JobId) : Custody :=
  (s.find? id).elim .absent JobRecord.custody

/-- The milestones in the life of a record. -/
inductive Milestone
  | staged
  | claimed (node : NodeId)
  /-- A recovery has taken the claim away. -/
  | reset
  /-- The record was taken out. -/
  | gone
  deriving DecidableEq, Repr

/-- From where to where a milestone leads. -/
inductive Milestone.Leads : Milestone → Custody → Custody → Prop
  | staged : Leads .staged .absent .free
  | claimed (node : NodeId) : Leads (.claimed node) .free (.held node)
  | reset (node : NodeId) : Leads .reset (.held node) .free
  | withdrawn : Leads .gone .free .absent
  | finished (node : NodeId) : Leads .gone (.held node) .absent

/-- What leads from one place to another, milestone after milestone. -/
inductive Milestone.Path : Custody → List Milestone → Custody → Prop
  | nil (x : Custody) : Path x [] x
  | cons {x y z : Custody} {m : Milestone} {rest : List Milestone} (first : m.Leads x y)
      (later : Path y rest z) : Path x (m :: rest) z

namespace JobStore

variable {id : JobId} {s t : JobStore}

/-- A job whose record stays is where it was. -/
theorem custody_congr (h : t.find? id = s.find? id) : t.custody id = s.custody id := by
  rw [custody, h, custody]

/-- A job that is stored is where its record says. -/
theorem custody_of_find? {r : JobRecord} (h : s.find? id = some r) : s.custody id = r.custody := by
  rw [custody, h, Option.elim_some]

theorem custody_of_find?_eq_none (h : s.find? id = none) : s.custody id = .absent := by
  rw [custody, h, Option.elim_none]

/-- A job is absent if it is not stored, and only then. -/
theorem custody_eq_absent : s.custody id = .absent ↔ s.find? id = none := by
  refine ⟨fun h => ?_, custody_of_find?_eq_none⟩
  cases hr : s.find? id with
  | none => rfl
  | some r =>
      rw [custody_of_find? hr, JobRecord.custody] at h
      split at h <;> cases h

theorem custody_insert (s : JobStore) (id : JobId) (r : JobRecord) :
    ({ s with records := s.records.insert id r } : JobStore).custody id = r.custody :=
  custody_of_find? (by simp)

theorem custody_put (s : JobStore) (r : JobRecord) : (s.put r).custody r.id = r.custody :=
  custody_insert s r.id r

/-- A job is where it was if it is stored as before, and held as before. -/
theorem custody_eq_of_heldBy? (hstored : (t.find? id).isSome = (s.find? id).isSome)
    (hheld : t.heldBy? id = s.heldBy? id) : t.custody id = s.custody id := by
  simp only [heldBy?, custody] at *
  cases ht : t.find? id <;> cases hs : s.find? id <;> simp only [ht, hs] at *
  · cases hstored
  · cases hstored
  · next r x =>
    cases hr : r.state <;> cases hx : x.state <;>
      simp_all [JobState.holder?, JobRecord.custody]

end JobStore

namespace StoreCall

/-- Whether a call stages a job, and succeeds. -/
def admits (s : JobStore) : StoreCall → Bool
  | stage r => (s.stage r).isOk
  | publish _ | discard _ | claim _ _ | finish _ _ _ | cancel _ | upgrade _ _ | reassign _ _
  | setAvailable _ => false

/-- Whether a call cancels or discards a job, and takes its record out. -/
def withdraws (s : JobStore) : StoreCall → Bool
  | discard id => (s.find? id).any fun r => decide (r.state = .staged)
  | cancel id => (s.cancel id).toOption.any Prod.fst
  | stage _ | publish _ | claim _ _ | finish _ _ _ | upgrade _ _ | reassign _ _
  | setAvailable _ => false

/-- The milestone in the life of a job that a call is. -/
def milestone? (id : JobId) (s : JobStore) : StoreCall → Option Milestone
  | stage r => if r.id = id ∧ (s.stage r).isOk then some .staged else none
  | claim j node => if j = id ∧ (s.claim j node).isOk then some (.claimed node) else none
  | finish j node outcome => if j = id ∧ (s.finish j node outcome).isOk then some .gone else none
  | discard j => if j = id ∧ (discard j).withdraws s then some .gone else none
  | cancel j => if j = id ∧ (cancel j).withdraws s then some .gone else none
  | reassign source target =>
    if s.heldBy? id = some source ∧ ((reassign source target).apply s).heldBy? id = none then
      some .reset
    else none
  | publish _ | upgrade _ _ | setAvailable _ => none

/-- A call is no milestone of a job, and leaves it where it is, or leads where its milestone
does. -/
def Leads (id : JobId) (s : JobStore) (a : StoreCall) : Prop :=
  match a.milestone? id s with
  | none => (a.apply s).custody id = s.custody id
  | some m => m.Leads (s.custody id) ((a.apply s).custody id)

variable {id : JobId} {s : JobStore}

/-- A call about another job leaves a job where it is. -/
theorem custody_apply_of_ne {a : StoreCall} {j : JobId} (ha : a.job? = some j) (h : j ≠ id) :
    (a.apply s).custody id = s.custody id := by
  refine JobStore.custody_congr ?_
  rw [find?_apply, concerns, ha]
  simp [h]

/-- A call that touches no state of a record leaves a job where it is. -/
theorem custody_apply_of_revise {a : StoreCall}
    (h : ∀ o, (a.revise o).elim Custody.absent JobRecord.custody =
      o.elim .absent JobRecord.custody) :
    (a.apply s).custody id = s.custody id := by
  rw [JobStore.custody, find?_apply]
  split
  · exact h _
  · rfl

/-- To stage a job leads from its absence to a free record, or nowhere. -/
theorem leads_stage (r : JobRecord) : (stage r).Leads id s := by
  simp only [Leads, milestone?]
  by_cases hid : r.id = id
  · subst hid
    cases hstage : s.stage r with
    | error e => simp [apply, hstage, JobStore.orSelf, Except.isOk, Except.toBool]
    | ok t =>
        obtain ⟨_, hnew, rfl⟩ := (JobStore.stage_eq_ok_iff s t r).mp hstage
        simp only [apply, hstage, JobStore.orSelf, Except.isOk, Except.toBool, and_self, if_true]
        rw [JobStore.custody_of_find?_eq_none hnew, JobStore.custody_put]
        exact .staged
  · simpa [hid] using custody_apply_of_ne (a := stage r) rfl hid

/-- To claim a job leads from a free record to a claimed one, or nowhere. -/
theorem leads_claim (j : JobId) (node : NodeId) : (claim j node).Leads id s := by
  simp only [Leads, milestone?]
  by_cases hid : j = id
  · subst hid
    rcases hclaim : s.claim j node with e | ⟨held, t⟩
    · simp [apply, hclaim, JobStore.orSelf', JobStore.orSelf, Except.map, Except.isOk,
        Except.toBool]
    · obtain ⟨_, r, hr, hfree, rfl, rfl⟩ := (JobStore.claim_eq_ok_iff s t j node held).mp hclaim
      have hpending : r.state = .pending := (JobStore.claimableBy_iff.mp hfree).1
      simp only [apply, hclaim, JobStore.orSelf', JobStore.orSelf, Except.map, Except.isOk,
        Except.toBool, and_self, if_true]
      rw [JobStore.custody_of_find? hr, JobRecord.custody, hpending, JobStore.custody_insert]
      exact .claimed node
  · simpa [hid] using custody_apply_of_ne (a := claim j node) rfl hid

/-- To finish a job leads from a claimed record to its absence, or nowhere. -/
theorem leads_finish (j : JobId) (node : NodeId) (outcome : JobOutcome) :
    (finish j node outcome).Leads id s := by
  simp only [Leads, milestone?]
  by_cases hid : j = id
  · subst hid
    cases hfinish : s.finish j node outcome with
    | error e => simp [apply, hfinish, JobStore.orSelf, Except.isOk, Except.toBool]
    | ok t =>
        obtain ⟨_, ⟨r, hr, hstate⟩, rfl⟩ :=
          (JobStore.finish_eq_ok_iff s t j node outcome).mp hfinish
        have hgone : ((s.remove j).count outcome).find? j = none := by simp
        simp only [apply, hfinish, JobStore.orSelf, Except.isOk, Except.toBool, and_self, if_true]
        rw [JobStore.custody_of_find? hr, JobRecord.custody, hstate,
          JobStore.custody_of_find?_eq_none hgone]
        exact .finished node
  · simpa [hid] using custody_apply_of_ne (a := finish j node outcome) rfl hid

/-- Discarding a job changes nothing, or takes out one that is staged. -/
theorem discard_cases (s : JobStore) (j : JobId) :
    ((discard j).withdraws s = false ∧ (discard j).apply s = s) ∨
      (discard j).withdraws s = true ∧ (discard j).apply s = s.remove j ∧
        ∃ r, s.find? j = some r ∧ r.custody = .free := by
  simp only [withdraws, apply, JobStore.discard]
  cases hr : s.find? j with
  | none => exact .inl ⟨rfl, rfl⟩
  | some r =>
      by_cases hstaged : r.state = .staged
      · have hfree : r.custody = .free := by rw [JobRecord.custody, hstaged]
        exact .inr ⟨by simp [hstaged], by simp [hstaged], r, rfl, hfree⟩
      · exact .inl ⟨by simp [hstaged], by simp [hstaged]⟩

/-- Cancelling a job changes nothing, or takes out one that no node has claimed. -/
theorem cancel_cases (s : JobStore) (j : JobId) :
    ((cancel j).withdraws s = false ∧ (cancel j).apply s = s) ∨
      (cancel j).withdraws s = true ∧ (cancel j).apply s = s.remove j ∧
        ∃ r, s.find? j = some r ∧ r.custody = .free := by
  simp only [withdraws, apply, JobStore.cancel, JobStore.guarded]
  cases s.available with
  | false => exact .inl ⟨rfl, rfl⟩
  | true =>
      cases hr : s.find? j with
      | none => exact .inl ⟨rfl, rfl⟩
      | some r =>
          simp only [if_true]
          cases hstate : r.state with
          | staged | pending =>
              exact .inr ⟨rfl, rfl, r, rfl, by rw [JobRecord.custody, hstate]⟩
          | claimed node => exact .inl ⟨rfl, rfl⟩

/-- A call that changes nothing, or takes out a job that no node has claimed, leads where it is said
to. -/
theorem leads_of_cases {a : StoreCall} {j : JobId} (hjob : a.job? = some j)
    (hmilestone : a.milestone? id s = if j = id ∧ a.withdraws s then some .gone else none)
    (h : (a.withdraws s = false ∧ a.apply s = s) ∨
      a.withdraws s = true ∧ a.apply s = s.remove j ∧
        ∃ r, s.find? j = some r ∧ r.custody = .free) : a.Leads id s := by
  rw [Leads, hmilestone]
  by_cases hid : j = id
  · subst hid
    rcases h with ⟨hfound, hsame⟩ | ⟨hfound, hafter, r, hr, hfree⟩
    · simp [hfound, hsame]
    · have hgone : (s.remove j).find? j = none := by simp
      simp only [hfound, and_self, if_true]
      rw [hafter, JobStore.custody_of_find? hr, hfree, JobStore.custody_of_find?_eq_none hgone]
      exact .withdrawn
  · simpa [hid] using custody_apply_of_ne hjob hid

/-- To publish a job leads nowhere. -/
theorem leads_publish (j : JobId) : (publish j).Leads id s := by
  refine custody_apply_of_revise fun o => ?_
  cases o with
  | none => rfl
  | some r => by_cases hstaged : r.state = .staged <;> simp [revise, JobRecord.custody, hstaged]

theorem leads_upgrade (maxDue : Time) (nodes : List NodeId) :
    (upgrade maxDue nodes).Leads id s := by
  refine custody_apply_of_revise fun o => ?_
  cases o with
  | none => rfl
  | some r =>
      simp only [revise, Option.map_some, Option.elim_some]
      split <;> rfl

/-- To reassign jobs leads from a claimed record to a free one, or nowhere. -/
theorem leads_reassign (source target : NodeId) : (reassign source target).Leads id s := by
  have hbystanding : (reassign source target).Bystanding id := trivial
  have hstays : (((reassign source target).apply s).find? id).isSome = (s.find? id).isSome := by
    rw [find?_apply]
    split
    · exact Option.isSome_map
    · rfl
  simp only [Leads, milestone?]
  rcases heldBy?_apply (s := s) hbystanding with hsame | ⟨x, y, heq, hheld, r, hr, hstate⟩
  · rw [hsame, if_neg fun h => Option.some_ne_none _ (h.1.symm.trans h.2)]
    exact JobStore.custody_eq_of_heldBy? hstays hsame
  · cases heq
    have hfree : ((reassign source target).apply s).heldBy? id = none := by
      simp [JobStore.heldBy?, hr, hstate, JobState.holder?]
    obtain ⟨x, hx, hclaimed⟩ := JobStore.heldBy?_eq_some.mp hheld
    rw [if_pos ⟨hheld, hfree⟩, JobStore.custody_of_find? hr, JobStore.custody_of_find? hx]
    simp only [JobRecord.custody, hstate, hclaimed]
    exact .reset source

/-- A call leads a job where its milestone does, and is no milestone of the jobs that it leaves
where they are. -/
theorem leads (id : JobId) (s : JobStore) (a : StoreCall) : a.Leads id s := by
  cases a with
  | stage r => exact leads_stage r
  | publish j => exact leads_publish j
  | discard j => exact leads_of_cases rfl rfl (discard_cases s j)
  | claim j node => exact leads_claim j node
  | finish j node outcome => exact leads_finish j node outcome
  | cancel j => exact leads_of_cases rfl rfl (cancel_cases s j)
  | upgrade maxDue nodes => exact leads_upgrade maxDue nodes
  | reassign source target => exact leads_reassign source target
  | setAvailable available => exact JobStore.custody_congr rfl

/-- Whether a call takes a claim of the job away, by giving the jobs of the holder to another. -/
def Resets (id : JobId) (s : JobStore) (a : StoreCall) : Prop :=
  ∃ source target, a = .reassign source target ∧ s.heldBy? id = some source ∧
    (a.apply s).heldBy? id = none

/-- Whether a call takes the record of the job out. -/
def TakesOut (id : JobId) (s : JobStore) (a : StoreCall) : Prop :=
  s.find? id ≠ none ∧ (a.apply s).find? id = none

/-- A call is a reset only if it gives the jobs of the holder to another node. -/
theorem resets_of_milestone? {a : StoreCall} (h : a.milestone? id s = some .reset) :
    a.Resets id s := by
  cases a with
  | reassign source target =>
      simp only [milestone?, Option.ite_none_right_eq_some] at h
      exact ⟨source, target, rfl, h.1.1, h.1.2⟩
  | stage _ | publish _ | discard _ | claim _ _ | finish _ _ _ | cancel _ | upgrade _ _
  | setAvailable _ => simp [milestone?] at h

/-- A call that is the end of a record takes it out. -/
theorem takesOut_of_milestone? {a : StoreCall} (h : a.milestone? id s = some .gone) :
    a.TakesOut id s := by
  have hleads := leads id s a
  simp only [Leads, h] at hleads
  have hgone : (a.apply s).custody id = .absent := by
    generalize s.custody id = x, (a.apply s).custody id = y at hleads
    cases hleads <;> rfl
  have hthere : s.custody id ≠ .absent := by
    generalize s.custody id = x, (a.apply s).custody id = y at hleads
    cases hleads <;> simp
  exact ⟨fun hnone => hthere (JobStore.custody_of_find?_eq_none hnone),
    JobStore.custody_eq_absent.mp hgone⟩

end StoreCall

/-! ## Where the staged jobs are -/

namespace JobStore

variable {s : JobStore}

/-- The number of jobs that are stored or were finished. -/
def accounted (s : JobStore) : Nat := s.size + s.done + s.dropped

/-- A new record is one more to account for. -/
theorem accounted_put {r : JobRecord} (h : s.find? r.id = none) :
    (s.put r).accounted = s.accounted + 1 := by
  have hsize : (s.put r).size = s.size + 1 := Table.size_insert h r
  simp only [accounted, hsize]
  simp only [put]
  omega

/-- A record in the place of another changes nothing in the account. -/
theorem accounted_insert {id : JobId} {x : JobRecord} (h : s.find? id = some x) (r : JobRecord) :
    ({ s with records := s.records.insert id r } : JobStore).accounted = s.accounted := by
  simp only [accounted, size, Table.size_insert_of_get? h r]

theorem accounted_remove {id : JobId} {r : JobRecord} (h : s.find? id = some r) :
    (s.remove id).accounted + 1 = s.accounted := by
  have hsize : (s.remove id).size + 1 = s.size := Table.size_erase h
  rw [accounted, accounted, ← hsize]
  simp only [remove]
  omega

theorem accounted_count (s : JobStore) (outcome : JobOutcome) :
    (s.count outcome).accounted = s.accounted + 1 := by
  cases outcome <;> simp only [accounted, count, size] <;> omega

theorem accounted_map (s : JobStore) (f : JobId → JobRecord → JobRecord) :
    ({ s with records := s.records.map f } : JobStore).accounted = s.accounted := by
  simp only [accounted, size, Table.size_map]

end JobStore

namespace StoreCall

/-- What a call brings in, and what it takes back, is what the store accounts for. -/
def Balances (s : JobStore) (a : StoreCall) : Prop :=
  (a.apply s).accounted + (a.withdraws s).toNat = s.accounted + (a.admits s).toNat

/-- A call that does nothing, or withdraws a free record, balances. -/
theorem balances_of_cases {s : JobStore} {a : StoreCall} {j : JobId} (hadmits : a.admits s = false)
    (h : (a.withdraws s = false ∧ a.apply s = s) ∨
      a.withdraws s = true ∧ a.apply s = s.remove j ∧
        ∃ r, s.find? j = some r ∧ r.custody = .free) : a.Balances s := by
  rw [Balances, hadmits]
  rcases h with ⟨hfound, hsame⟩ | ⟨hfound, hafter, r, hr, _⟩
  · rw [hsame, hfound]
  · rw [hafter, hfound]
    exact JobStore.accounted_remove hr

/-- What is staged is accounted for. -/
theorem balances_stage (s : JobStore) (r : JobRecord) : (stage r).Balances s := by
  simp only [Balances, apply, admits, withdraws]
  cases hstage : s.stage r with
  | error e => rfl
  | ok t =>
      obtain ⟨_, hnew, rfl⟩ := (JobStore.stage_eq_ok_iff s t r).mp hstage
      exact JobStore.accounted_put (r := { r with state := .staged }) hnew

theorem balances_publish (s : JobStore) (j : JobId) : (publish j).Balances s := by
  simp only [Balances, apply, admits, withdraws, JobStore.publish, JobStore.orSelf_guarded]
  split
  · cases hr : s.find? j with
    | none => rfl
    | some r =>
        by_cases hstaged : r.state = .staged
        · simpa [hstaged, JobStore.orSelf] using JobStore.accounted_insert hr _
        · simp [hstaged, JobStore.orSelf]
  · rfl

theorem balances_claim (s : JobStore) (j : JobId) (node : NodeId) : (claim j node).Balances s := by
  simp only [Balances, apply, admits, withdraws]
  rcases hclaim : s.claim j node with e | ⟨held, t⟩
  · rfl
  · obtain ⟨_, r, hr, _, _, rfl⟩ := (JobStore.claim_eq_ok_iff s t j node held).mp hclaim
    exact JobStore.accounted_insert hr held

/-- A job that is finished is counted in place of its record. -/
theorem balances_finish (s : JobStore) (j : JobId) (node : NodeId) (outcome : JobOutcome) :
    (finish j node outcome).Balances s := by
  simp only [Balances, apply, admits, withdraws]
  cases hfinish : s.finish j node outcome with
  | error e => rfl
  | ok t =>
      obtain ⟨_, ⟨r, hr, _⟩, rfl⟩ := (JobStore.finish_eq_ok_iff s t j node outcome).mp hfinish
      exact (JobStore.accounted_count _ outcome).trans (JobStore.accounted_remove hr)

theorem balances_upgrade (s : JobStore) (maxDue : Time) (nodes : List NodeId) :
    (upgrade maxDue nodes).Balances s := by
  simp only [Balances, apply, admits, withdraws, JobStore.upgradeJobs, JobStore.orSelf'_guarded]
  split
  · split
    · rfl
    · exact JobStore.accounted_map s _
  · rfl

theorem balances_reassign (s : JobStore) (source target : NodeId) :
    (reassign source target).Balances s := by
  simp only [Balances, apply, admits, withdraws, JobStore.reassignJobs, JobStore.orSelf'_guarded]
  split
  · exact JobStore.accounted_map s _
  · rfl

/-- Every call balances. -/
theorem balances (s : JobStore) (a : StoreCall) : a.Balances s := by
  cases a with
  | stage r => exact balances_stage s r
  | publish j => exact balances_publish s j
  | discard j => exact balances_of_cases rfl (discard_cases s j)
  | claim j node => exact balances_claim s j node
  | finish j node outcome => exact balances_finish s j node outcome
  | cancel j => exact balances_of_cases rfl (cancel_cases s j)
  | upgrade maxDue nodes => exact balances_upgrade s maxDue nodes
  | reassign source target => exact balances_reassign s source target
  | setAvailable available => rfl

end StoreCall

/-! ## Sequences of calls -/

namespace Milestone

/-- What leads on from a place leads through a place in between. -/
theorem Path.split {x z : Custody} {first second : List Milestone}
    (h : Path x (first ++ second) z) : ∃ y, Path x first y ∧ Path y second z := by
  induction first generalizing x with
  | nil => exact ⟨x, .nil x, h⟩
  | cons m first ih =>
      cases h with
      | cons hm hrest =>
          obtain ⟨y, hfirst, hsecond⟩ := ih hrest
          exact ⟨y, .cons hm hfirst, hsecond⟩

/-- Only a recovery frees a job that was claimed, as long as its record is there. -/
theorem Path.reset_or_gone {node : NodeId} {milestones : List Milestone}
    (h : Path (.held node) milestones .free) : .reset ∈ milestones ∨ .gone ∈ milestones := by
  cases h with
  | cons hm _ =>
      cases hm with
      | reset => exact .inl List.mem_cons_self
      | finished => exact .inr List.mem_cons_self

/-- Between two claims of a job its claim was reset, or its record was taken out. -/
theorem Path.between_claims {x y : Custody} {before between after : List Milestone}
    {m n : NodeId} (h : Path x (before ++ .claimed m :: between ++ .claimed n :: after) y) :
    .reset ∈ between ∨ .gone ∈ between := by
  obtain ⟨_, hbefore, hlater⟩ := h.split
  obtain ⟨_, _, hfirst⟩ := hbefore.split
  cases hfirst with
  | cons hm hbetween =>
      cases hm
      cases hlater with
      | cons hn _ =>
          cases hn
          exact hbetween.reset_or_gone

end Milestone

namespace JobStore

/-- Calls one after the other, each with the store that it finds. -/
def history (s : JobStore) : List StoreCall → List (JobStore × StoreCall)
  | [] => []
  | a :: rest => (s, a) :: (a.apply s).history rest

/-- The milestones in the life of a job while calls come in. -/
def milestones (s : JobStore) (calls : List StoreCall) (id : JobId) : List Milestone :=
  (s.history calls).filterMap fun x => x.2.milestone? id x.1

/-- How many of the calls stage a job. -/
def admitted (s : JobStore) (calls : List StoreCall) : Nat :=
  (s.history calls).countP fun x => x.2.admits x.1

/-- How many of the calls cancel or discard a job. -/
def withdrawn (s : JobStore) (calls : List StoreCall) : Nat :=
  (s.history calls).countP fun x => x.2.withdraws x.1

/-- The milestones of a job lead from where it is to where the calls leave it. -/
theorem path_milestones (s : JobStore) (calls : List StoreCall) (id : JobId) :
    Milestone.Path (s.custody id) (s.milestones calls id)
      ((calls.foldl StoreCall.apply s).custody id) := by
  induction calls generalizing s with
  | nil => exact .nil _
  | cons a rest ih =>
      have hlater := ih (a.apply s)
      have hleads := StoreCall.leads id s a
      simp only [StoreCall.Leads] at hleads
      simp only [milestones, history, List.filterMap_cons, List.foldl_cons]
      cases hm : a.milestone? id s with
      | none =>
          rw [hm] at hleads
          simp only at hleads
          rwa [hleads] at hlater
      | some m =>
          rw [hm] at hleads
          exact .cons hleads hlater

/-- What the calls bring in is stored, was finished or was taken back. -/
theorem accounted_foldl_apply (s : JobStore) (calls : List StoreCall) :
    (calls.foldl StoreCall.apply s).accounted + s.withdrawn calls =
      s.accounted + s.admitted calls := by
  induction calls generalizing s with
  | nil => rfl
  | cons a rest ih =>
      have hlater := ih (a.apply s)
      have hfirst := StoreCall.balances s a
      simp only [StoreCall.Balances, withdrawn, admitted, history, countP_cons_toNat,
        List.foldl_cons] at *
      omega

/-- Claims succeed for pending jobs that the claimant owns, or nobody. -/
theorem claim_isOk_iff (s : JobStore) (id : JobId) (node : NodeId) :
    (s.claim id node).isOk = true ↔ s.available = true ∧ ∃ r, s.find? id = some r ∧
      r.state = .pending ∧ (r.owner = none ∨ r.owner = some node) := by
  constructor
  · intro h
    rcases hclaim : s.claim id node with e | ⟨held, t⟩
    · rw [hclaim] at h
      cases h
    · obtain ⟨ha, r, hr, hfree, _⟩ := (claim_eq_ok_iff s t id node held).mp hclaim
      exact ⟨ha, r, hr, claimableBy_iff.mp hfree⟩
  · rintro ⟨ha, r, hr, hfree⟩
    rw [(claim_eq_ok_iff s _ id node _).mpr ⟨ha, r, hr, claimableBy_iff.mpr hfree, rfl, rfl⟩]
    rfl

/-- Whether, of any two claims of a job that succeed, the later one comes after a call that has
reset the claim or taken the record out. -/
def ClaimsExclude (id : JobId) (calls : List (JobStore × StoreCall)) : Prop :=
  ∀ (before between after : List (JobStore × StoreCall)) (t u : JobStore) (m n : NodeId),
    calls = before ++ (t, .claim id m) :: between ++ (u, .claim id n) :: after →
    (t.claim id m).isOk = true → (u.claim id n).isOk = true →
    ∃ x ∈ between, x.2.Resets id x.1 ∨ x.2.TakesOut id x.1

/-- While its record is there a job is claimed once between two resets. -/
theorem claimsExclude_history (s : JobStore) (calls : List StoreCall) (id : JobId) :
    ClaimsExclude id (s.history calls) := by
  intro before between after t u m n hcalls ht hu
  have hpath := path_milestones s calls id
  simp only [milestones, hcalls, List.filterMap_append, List.filterMap_cons, StoreCall.milestone?,
    ht, hu, and_self, if_true] at hpath
  rcases hpath.between_claims with h | h
  · obtain ⟨x, hx, hreset⟩ := List.mem_filterMap.mp h
    exact ⟨x, hx, .inl (StoreCall.resets_of_milestone? hreset)⟩
  · obtain ⟨x, hx, hgone⟩ := List.mem_filterMap.mp h
    exact ⟨x, hx, .inr (StoreCall.takesOut_of_milestone? hgone)⟩

/-- In a store that calls have led to every record is kept under the identifier of its job, and the
node that has claimed a job is its owner. Claims succeed for pending jobs that the claimant owns, or
nobody, so that a job is claimed once between two resets while its record is there. A call that
fails has written nothing. Every job that was staged is stored, was finished or was taken back. -/
theorem consistent_history (calls : List StoreCall) :
    let s := calls.foldl StoreCall.apply {}
    s.Filed ∧
      (∀ id, s.HolderOwns id) ∧
      (∀ id node, (s.claim id node).isOk = true ↔ s.available = true ∧ ∃ r, s.find? id = some r ∧
        r.state = .pending ∧ (r.owner = none ∨ r.owner = some node)) ∧
      (∀ id, ClaimsExclude id (({} : JobStore).history calls)) ∧
      (∀ a : StoreCall, a.inPlace.perform s = ((a.outcome s).map Prod.fst, a.apply s) ∧
        ∀ e t, a.inPlace.perform s = (.error e, t) → t = s) ∧
      ({} : JobStore).admitted calls =
        s.size + s.done + s.dropped + ({} : JobStore).withdrawn calls := by
  refine ⟨StoreCall.filed_foldl_apply filed_empty calls, fun id => ?_, fun id node => ?_,
    claimsExclude_history {} calls, fun a => ⟨a.perform_inPlace _, fun e t => ?_⟩, ?_⟩
  · exact List.foldlRecOn calls StoreCall.apply (motive := fun s => s.HolderOwns id)
      (HolderOwns.of_heldBy? (s := {}) rfl) fun _ hs a _ => hs.apply a
  · exact claim_isOk_iff _ id node
  · exact StoreCall.eq_of_perform_inPlace
  · have h := accounted_foldl_apply {} calls
    have hempty : ({} : JobStore).accounted = 0 := rfl
    rw [hempty, Nat.zero_add] at h
    exact h.symm

/-- A job is claimed, taken back from its holder while a claim of the other node is refused, and run
by that one. One more is cancelled, and one is discarded while the store is unavailable. -/
theorem consistent_history_reclaimed :
    let calls : List StoreCall :=
      [.stage (.appointed "first" 5 none), .publish ⟨"first"⟩, .claim ⟨"first"⟩ ⟨"a"⟩,
        .claim ⟨"first"⟩ ⟨"b"⟩, .reassign ⟨"a"⟩ ⟨"b"⟩, .claim ⟨"first"⟩ ⟨"a"⟩,
        .claim ⟨"first"⟩ ⟨"b"⟩, .finish ⟨"first"⟩ ⟨"b"⟩ .done, .stage (.appointed "second" 5 none),
        .stage (.appointed "second" 7 none), .cancel ⟨"second"⟩,
        .stage (.appointed "third" 5 none), .setAvailable false, .publish ⟨"third"⟩,
        .discard ⟨"third"⟩, .setAvailable true, .stage (.appointed "fourth" 5 none)]
    let s := calls.foldl StoreCall.apply {}
    ({} : JobStore).milestones calls ⟨"first"⟩ =
        [.staged, .claimed ⟨"a"⟩, .reset, .claimed ⟨"b"⟩, .gone] ∧
      ClaimsExclude ⟨"first"⟩ (({} : JobStore).history calls) ∧
      s.size = 1 ∧ s.done = 1 ∧ ({} : JobStore).withdrawn calls = 2 ∧
      ({} : JobStore).admitted calls = 4 := by
  intro calls s
  have h := consistent_history calls
  exact ⟨by decide, h.2.2.2.1 _, by decide, by decide, by decide, h.2.2.2.2.2.trans (by decide)⟩

end JobStore

end JobCluster
