import JobCluster.Job.Store
/-!
# Calls on the job store

Whoever shares the job store changes it by one call at a time. This file collects the calls in one
type and says what each of them does to the record of one job. What becomes of a job over any
sequence of calls then follows from the calls alone.

Main results:

- `StoreCall.find?_apply`: a call, as the record of one job sees it;
- `StoreCall.find?_apply_eq_none`: a job that is gone stays away, unless it is staged again;
- `StoreCall.revises_or_staged`: what becomes of a record that stays in the store;
- `StoreCall.heldBy?_apply`: only a recovery takes a claim away, apart from the job's own runs;
- `JobStore.HolderOwns.apply`: the node that has claimed a job is its owner.
-/

namespace JobCluster

/-- The calls that change a job store. -/
inductive StoreCall
  | stage (record : JobRecord)
  | publish (id : JobId)
  | discard (id : JobId)
  | claim (id : JobId) (node : NodeId)
  | finish (id : JobId) (node : NodeId) (outcome : JobOutcome)
  | cancel (id : JobId)
  | upgrade (maxDue : Time) (nodes : List NodeId)
  | reassign (source target : NodeId)
  /-- The store becomes available, or ceases to be. -/
  | setAvailable (available : Bool)
  deriving DecidableEq, Repr

namespace JobStore

/-- The store after a call that answers with a store or with an error. -/
def orSelf (s : JobStore) : Except JobStoreError JobStore → JobStore
  | .ok t => t
  | .error _ => s

/-- The store after a call that answers with a value as well. -/
def orSelf' {α : Type} (s : JobStore) (answer : Except JobStoreError (α × JobStore)) : JobStore :=
  s.orSelf (answer.map Prod.snd)

/-- A guarded call does something if the store is available. -/
theorem orSelf_guarded (s : JobStore) (answer : Except JobStoreError JobStore) :
    s.orSelf (s.guarded answer) = if s.available then s.orSelf answer else s := by
  by_cases h : s.available = true
  · simp [guarded, h]
  · simp [guarded, h, orSelf]

theorem orSelf'_guarded {α : Type} (s : JobStore)
    (answer : Except JobStoreError (α × JobStore)) :
    s.orSelf' (s.guarded answer) = if s.available then s.orSelf' answer else s := by
  by_cases h : s.available = true
  · simp [guarded, h]
  · simp [guarded, h, orSelf', orSelf, Except.map]

@[simp]
theorem find?_insert (s : JobStore) (id j : JobId) (r : JobRecord) :
    ({ s with records := s.records.insert j r } : JobStore).find? id =
      if j = id then some r else s.find? id :=
  Table.get?_insert _ _ _ _

@[simp]
theorem find?_put (s : JobStore) (id : JobId) (r : JobRecord) :
    (s.put r).find? id = if r.id = id then some r else s.find? id :=
  Table.get?_insert _ _ _ _

@[simp]
theorem find?_remove (s : JobStore) (id j : JobId) :
    (s.remove j).find? id = if id = j then none else s.find? id :=
  Table.get?_erase _ _ _

@[simp]
theorem find?_count (s : JobStore) (id : JobId) (outcome : JobOutcome) :
    (s.count outcome).find? id = s.find? id := by
  cases outcome <;> rfl

@[simp]
theorem find?_map (s : JobStore) (id : JobId) (f : JobId → JobRecord → JobRecord) :
    ({ s with records := s.records.map f } : JobStore).find? id = (s.find? id).map (f id) :=
  Table.get?_map _ _ _

/-- A node may claim the pending jobs that it owns or that nobody owns. -/
theorem claimableBy_iff {r : JobRecord} {node : NodeId} :
    claimableBy r node = true ↔ r.state = .pending ∧ (r.owner = none ∨ r.owner = some node) := by
  simp [claimableBy, JobRecord.isPending]

/-! ## Availability -/

section Availability

variable {s t : JobStore} {r held : JobRecord} {id : JobId} {node source target : NodeId}
  {outcome : JobOutcome} {maxDue : Time} {nodes : List NodeId} {found : Bool} {number : Nat}

/-- A call that answers with a store leaves it available or not, if every store that it can answer
with is. -/
theorem available_orSelf {answer : Except JobStoreError JobStore}
    (h : ∀ t, answer = .ok t → t.available = s.available) :
    (s.orSelf answer).available = s.available := by
  cases answer with
  | error e => rfl
  | ok t => exact h t rfl

/-- So does a call that answers with a value as well. -/
theorem available_orSelf' {α : Type} {answer : Except JobStoreError (α × JobStore)}
    (h : ∀ x t, answer = .ok (x, t) → t.available = s.available) :
    (s.orSelf' answer).available = s.available := by
  rcases answer with e | ⟨x, t⟩
  · rfl
  · exact h x t rfl

@[simp]
theorem available_count (s : JobStore) (outcome : JobOutcome) :
    (s.count outcome).available = s.available := by
  cases outcome <;> rfl

/-- To stage a job makes a store neither available nor unavailable. -/
theorem available_stage (h : s.stage r = .ok t) : t.available = s.available := by
  obtain ⟨_, _, rfl⟩ := (stage_eq_ok_iff _ _ _).mp h
  rfl

theorem available_publish (h : s.publish id = .ok t) : t.available = s.available := by
  obtain ⟨_, hanswer⟩ := (guarded_eq_ok_iff _ _ _).mp h
  split at hanswer
  · cases hanswer
  · split at hanswer <;> cases hanswer
    rfl

theorem available_discard (s : JobStore) (id : JobId) :
    (s.discard id).available = s.available := by
  unfold discard
  split
  · split <;> rfl
  · rfl

theorem available_claim (h : s.claim id node = .ok (held, t)) : t.available = s.available := by
  obtain ⟨_, _, _, _, _, rfl⟩ := (claim_eq_ok_iff _ _ _ _ _).mp h
  rfl

theorem available_finish (h : s.finish id node outcome = .ok t) : t.available = s.available := by
  obtain ⟨_, _, rfl⟩ := (finish_eq_ok_iff _ _ _ _ _).mp h
  exact available_count _ _

theorem available_cancel (h : s.cancel id = .ok (found, t)) : t.available = s.available := by
  obtain ⟨_, hanswer⟩ := (guarded_eq_ok_iff _ _ _).mp h
  split at hanswer
  · cases hanswer
    rfl
  · split at hanswer <;> cases hanswer <;> rfl

theorem available_upgradeJobs (h : s.upgradeJobs maxDue nodes = .ok (number, t)) :
    t.available = s.available := by
  obtain ⟨_, hanswer⟩ := (guarded_eq_ok_iff _ _ _).mp h
  split at hanswer <;> cases hanswer <;> rfl

theorem available_reassignJobs (h : s.reassignJobs source target = .ok (number, t)) :
    t.available = s.available := by
  obtain ⟨_, hanswer⟩ := (guarded_eq_ok_iff _ _ _).mp h
  cases hanswer
  rfl

end Availability

end JobStore

namespace StoreCall

/-- The store after a call. A call that fails leaves the store as it was. -/
def apply (s : JobStore) : StoreCall → JobStore
  | stage r => s.orSelf (s.stage r)
  | publish id => s.orSelf (s.publish id)
  | discard id => s.discard id
  | claim id node => s.orSelf' (s.claim id node)
  | finish id node outcome => s.orSelf (s.finish id node outcome)
  | cancel id => s.orSelf' (s.cancel id)
  | upgrade maxDue nodes => s.orSelf' (s.upgradeJobs maxDue nodes)
  | reassign source target => s.orSelf' (s.reassignJobs source target)
  | setAvailable available => { s with available }

/-! ## One job -/

/-- Whether a call is about one job, and which. -/
def job? : StoreCall → Option JobId
  | stage r => some r.id
  | publish id | discard id | claim id _ | finish id _ _ | cancel id => some id
  | upgrade _ _ | reassign _ _ | setAvailable _ => none

/-- What a call that the store accepts does to the record of a job that it is about. -/
def revise : StoreCall → Option JobRecord → Option JobRecord
  | stage r, none => some { r with state := .staged }
  | stage _, some r => some r
  | publish _, o => o.map fun r => if r.state = .staged then { r with state := .pending } else r
  | discard _, o => o.filter fun r => decide (r.state ≠ .staged)
  | claim _ node, o => o.map fun r =>
      if JobStore.claimableBy r node then { r with state := .claimed node, owner := some node }
      else r
  | finish _ node _, o => o.filter fun r => decide (r.state ≠ .claimed node)
  | cancel _, o => o.filter fun r => r.state != .staged && !r.isPending
  | upgrade maxDue nodes, o => o.map fun r =>
      if JobStore.upgradable maxDue r && !nodes.isEmpty then
        { r with owner := JobStore.assignee? nodes r }
      else r
  | reassign source target, o => o.map (JobStore.reassigned source target)
  | setAvailable _, o => o

/-- Whether a store accepts a call that comes while it is available or not. -/
def accepted (available : Bool) : StoreCall → Bool
  | discard _ => true
  | stage _ | publish _ | claim _ _ | finish _ _ _ | cancel _ | upgrade _ _ | reassign _ _
  | setAvailable _ => available

/-- Whether a call is about a job: about that one, or about all. -/
def concerns (a : StoreCall) (id : JobId) : Bool := a.job?.all fun j => decide (j = id)

/-- To stage a job revises its record, and no other. -/
theorem find?_stage (s : JobStore) (r : JobRecord) (id : JobId) (h : s.available = true) :
    (s.orSelf (s.stage r)).find? id =
      if r.id = id then (stage r).revise (s.find? id) else s.find? id := by
  rw [JobStore.stage, JobStore.orSelf_guarded, if_pos h]
  by_cases hid : r.id = id
  · subst hid
    cases hr : s.find? r.id <;> simp [JobStore.orSelf, revise, hr]
  · cases hr : s.find? r.id <;> simp [JobStore.orSelf, hid]

theorem find?_publish (s : JobStore) (j id : JobId) (h : s.available = true) :
    (s.orSelf (s.publish j)).find? id =
      if j = id then (publish j).revise (s.find? id) else s.find? id := by
  rw [JobStore.publish, JobStore.orSelf_guarded, if_pos h]
  by_cases hid : j = id
  · subst hid
    cases hr : s.find? j with
    | none => simp [JobStore.orSelf, revise, hr]
    | some r => by_cases hstaged : r.state = .staged <;> simp [JobStore.orSelf, revise, hr, hstaged]
  · cases hr : s.find? j with
    | none => simp [JobStore.orSelf, hid]
    | some r => by_cases hstaged : r.state = .staged <;> simp [JobStore.orSelf, hid, hstaged]

theorem find?_discard (s : JobStore) (j id : JobId) :
    (s.discard j).find? id = if j = id then (discard j).revise (s.find? id) else s.find? id := by
  unfold JobStore.discard
  by_cases hid : j = id
  · subst hid
    cases hr : s.find? j with
    | none => simp [revise, hr]
    | some r => by_cases hstaged : r.state = .staged <;> simp [revise, hr, hstaged, Option.filter]
  · cases hr : s.find? j with
    | none => simp [hid]
    | some r => by_cases hstaged : r.state = .staged <;> simp [hid, hstaged, Ne.symm hid]

theorem find?_claim (s : JobStore) (j id : JobId) (node : NodeId) (h : s.available = true) :
    (s.orSelf' (s.claim j node)).find? id =
      if j = id then (claim j node).revise (s.find? id) else s.find? id := by
  rw [JobStore.claim, JobStore.orSelf'_guarded, if_pos h]
  by_cases hid : j = id
  · subst hid
    cases hr : s.find? j with
    | none => simp [JobStore.orSelf', JobStore.orSelf, Except.map, revise, hr]
    | some r =>
        by_cases hc : JobStore.claimableBy r node = true <;>
          simp [JobStore.orSelf', JobStore.orSelf, Except.map, revise, hr, hc]
  · cases hr : s.find? j with
    | none => simp [JobStore.orSelf', JobStore.orSelf, Except.map, hid]
    | some r =>
        by_cases hc : JobStore.claimableBy r node = true <;>
          simp [JobStore.orSelf', JobStore.orSelf, Except.map, hid, hc]

theorem find?_finish (s : JobStore) (j id : JobId) (node : NodeId) (outcome : JobOutcome)
    (h : s.available = true) :
    (s.orSelf (s.finish j node outcome)).find? id =
      if j = id then (finish j node outcome).revise (s.find? id) else s.find? id := by
  rw [JobStore.finish, JobStore.orSelf_guarded, if_pos h]
  by_cases hid : j = id
  · subst hid
    cases hr : s.find? j with
    | none => simp [JobStore.orSelf, revise, hr]
    | some r =>
        by_cases hc : r.state = .claimed node
        · simp [JobStore.orSelf, revise, hc, Option.filter]
        · by_cases hstaged : r.state = .staged <;>
            simp [JobStore.orSelf, revise, hr, hc, hstaged, Option.filter]
  · cases hr : s.find? j with
    | none => simp [JobStore.orSelf, hid]
    | some r =>
        by_cases hc : r.state = .claimed node
        · simp [JobStore.orSelf, hid, hc, Ne.symm hid]
        · by_cases hstaged : r.state = .staged <;> simp [JobStore.orSelf, hid, hc, hstaged]

theorem find?_cancel (s : JobStore) (j id : JobId) (h : s.available = true) :
    (s.orSelf' (s.cancel j)).find? id =
      if j = id then (cancel j).revise (s.find? id) else s.find? id := by
  rw [JobStore.cancel, JobStore.orSelf'_guarded, if_pos h]
  by_cases hid : j = id
  · subst hid
    cases hr : s.find? j with
    | none => simp [JobStore.orSelf', JobStore.orSelf, Except.map, revise, hr]
    | some r =>
        cases hstate : r.state <;>
          simp [JobStore.orSelf', JobStore.orSelf, Except.map, revise, hr, hstate,
            JobRecord.isPending, Option.filter]
  · cases hr : s.find? j with
    | none => simp [JobStore.orSelf', JobStore.orSelf, Except.map, hid]
    | some r =>
        cases hstate : r.state <;>
          simp [JobStore.orSelf', JobStore.orSelf, Except.map, hid, hstate, Ne.symm hid]

/-- To upgrade jobs revises every record. -/
theorem find?_upgrade (s : JobStore) (maxDue : Time) (nodes : List NodeId) (id : JobId)
    (h : s.available = true) :
    (s.orSelf' (s.upgradeJobs maxDue nodes)).find? id =
      (upgrade maxDue nodes).revise (s.find? id) := by
  rw [JobStore.upgradeJobs, JobStore.orSelf'_guarded, if_pos h]
  by_cases hempty : nodes.isEmpty = true
  · simp [JobStore.orSelf', JobStore.orSelf, Except.map, revise, hempty]
  · simp [JobStore.orSelf', JobStore.orSelf, Except.map, revise, hempty]

theorem find?_reassign (s : JobStore) (source target : NodeId) (id : JobId)
    (h : s.available = true) :
    (s.orSelf' (s.reassignJobs source target)).find? id =
      (reassign source target).revise (s.find? id) := by
  rw [JobStore.reassignJobs, JobStore.orSelf'_guarded, if_pos h]
  exact JobStore.find?_map s id _

/-- A call that the store refuses changes nothing. -/
theorem apply_of_not_accepted (s : JobStore) (a : StoreCall) (h : a.accepted s.available = false)
    (hset : ∀ b, a ≠ setAvailable b) : a.apply s = s := by
  cases a with
  | discard j => simp [accepted] at h
  | setAvailable b => exact absurd rfl (hset b)
  | stage r => simp_all [accepted, apply, JobStore.stage, JobStore.orSelf_guarded]
  | publish j => simp_all [accepted, apply, JobStore.publish, JobStore.orSelf_guarded]
  | claim j node => simp_all [accepted, apply, JobStore.claim, JobStore.orSelf'_guarded]
  | finish j node outcome => simp_all [accepted, apply, JobStore.finish, JobStore.orSelf_guarded]
  | cancel j => simp_all [accepted, apply, JobStore.cancel, JobStore.orSelf'_guarded]
  | upgrade maxDue nodes =>
      simp_all [accepted, apply, JobStore.upgradeJobs, JobStore.orSelf'_guarded]
  | reassign source target =>
      simp_all [accepted, apply, JobStore.reassignJobs, JobStore.orSelf'_guarded]

/-- A call revises the record of a job that it is about, if the store accepts it, and leaves every
other record alone. -/
theorem find?_apply (s : JobStore) (a : StoreCall) (id : JobId) :
    (a.apply s).find? id =
      if a.concerns id && a.accepted s.available then a.revise (s.find? id) else s.find? id := by
  cases a with
  | discard j => simpa [apply, concerns, job?, accepted] using find?_discard s j id
  | setAvailable b => simp [apply, revise, JobStore.find?]
  | stage r =>
      cases h : s.available with
      | true => simpa [apply, concerns, job?, accepted] using find?_stage s r id h
      | false => simp [apply_of_not_accepted s (stage r) h, accepted]
  | publish j =>
      cases h : s.available with
      | true => simpa [apply, concerns, job?, accepted] using find?_publish s j id h
      | false => simp [apply_of_not_accepted s (publish j) h, accepted]
  | claim j node =>
      cases h : s.available with
      | true => simpa [apply, concerns, job?, accepted] using find?_claim s j id node h
      | false => simp [apply_of_not_accepted s (claim j node) h, accepted]
  | finish j node outcome =>
      cases h : s.available with
      | true => simpa [apply, concerns, job?, accepted] using find?_finish s j id node outcome h
      | false => simp [apply_of_not_accepted s (finish j node outcome) h, accepted]
  | cancel j =>
      cases h : s.available with
      | true => simpa [apply, concerns, job?, accepted] using find?_cancel s j id h
      | false => simp [apply_of_not_accepted s (cancel j) h, accepted]
  | upgrade maxDue nodes =>
      cases h : s.available with
      | true => simpa [apply, concerns, job?, accepted] using find?_upgrade s maxDue nodes id h
      | false => simp [apply_of_not_accepted s (upgrade maxDue nodes) h, accepted]
  | reassign source target =>
      cases h : s.available with
      | true => simpa [apply, concerns, job?, accepted] using find?_reassign s source target id h
      | false => simp [apply_of_not_accepted s (reassign source target) h, accepted]

/-- Nobody changes whether a store is available but who sets it. -/
theorem available_apply (s : JobStore) (a : StoreCall) :
    (a.apply s).available = match a with
      | setAvailable available => available
      | _ => s.available := by
  cases a with
  | setAvailable b => rfl
  | stage r => exact JobStore.available_orSelf fun _ => JobStore.available_stage
  | publish j => exact JobStore.available_orSelf fun _ => JobStore.available_publish
  | discard j => exact JobStore.available_discard s j
  | claim j node => exact JobStore.available_orSelf' fun _ _ => JobStore.available_claim
  | finish j node outcome => exact JobStore.available_orSelf fun _ => JobStore.available_finish
  | cancel j => exact JobStore.available_orSelf' fun _ _ => JobStore.available_cancel
  | upgrade maxDue nodes =>
      exact JobStore.available_orSelf' fun _ _ => JobStore.available_upgradeJobs
  | reassign source target =>
      exact JobStore.available_orSelf' fun _ _ => JobStore.available_reassignJobs

/-! ## Calls that are no steps of a run -/

/-- Whether a call neither stages nor claims nor finishes the job. Such calls come from everywhere
while runs of the job are under way. -/
def Bystanding (id : JobId) : StoreCall → Prop
  | stage r => r.id ≠ id
  | claim j _ | finish j _ _ => j ≠ id
  | publish _ | discard _ | cancel _ | upgrade _ _ | reassign _ _ | setAvailable _ => True

instance (id : JobId) (a : StoreCall) : Decidable (a.Bystanding id) := by
  unfold Bystanding
  split <;> infer_instance

/-- Whether a call stages the job. -/
def stages (id : JobId) : StoreCall → Bool
  | stage r => decide (r.id = id)
  | publish _ | discard _ | claim _ _ | finish _ _ _ | cancel _ | upgrade _ _ | reassign _ _
  | setAvailable _ => false

/-- A call that comes from outside stages no job. -/
theorem Bystanding.stages_eq_false {id : JobId} {a : StoreCall} (h : a.Bystanding id) :
    a.stages id = false := by
  cases a with
  | stage r =>
      have hid : r.id ≠ id := h
      simp [stages, hid]
  | publish j | discard j | claim j node | finish j node outcome | cancel j | upgrade maxDue nodes
  | reassign source target | setAvailable b => rfl

/-- A job that is gone stays away. -/
theorem find?_apply_eq_none {s : JobStore} {a : StoreCall} {id : JobId}
    (ha : a.stages id = false) (h : s.find? id = none) : (a.apply s).find? id = none := by
  rw [find?_apply, h]
  cases a with
  | stage r =>
      have hid : r.id ≠ id := by simpa [stages] using ha
      simp [concerns, job?, hid]
  | publish j | discard j | claim j node | finish j node outcome | cancel j | upgrade maxDue nodes
  | reassign source target | setAvailable b => simp [revise]

/-! ## What becomes of a record -/

/-- What a call can make of a record that it does not take out: it leaves the record as it is, or
changes it in a way of its own. -/
inductive Revises : StoreCall → JobRecord → JobRecord → Prop
  | kept (a : StoreCall) (x : JobRecord) : Revises a x x
  | published (id : JobId) {x : JobRecord} (hstaged : x.state = .staged) :
      Revises (publish id) x { x with state := .pending }
  | claimed (id : JobId) {node : NodeId} {x : JobRecord}
      (hfree : JobStore.claimableBy x node = true) :
      Revises (claim id node) x { x with state := .claimed node, owner := some node }
  | assigned {maxDue : Time} (nodes : List NodeId) {x : JobRecord}
      (hfree : JobStore.upgradable maxDue x = true) :
      Revises (upgrade maxDue nodes) x { x with owner := JobStore.assignee? nodes x }
  | reassigned {source : NodeId} (target : NodeId) {x : JobRecord} (howner : x.owner = some source) :
      Revises (reassign source target) x
        { x with owner := some target
                 state := if x.state = .claimed source then .pending else x.state }

/-- What a call leaves of a record is one of the ways in which it can change it. -/
theorem revises_of_revise {a : StoreCall} {x r : JobRecord} (h : a.revise (some x) = some r) :
    a.Revises x r := by
  cases a with
  | stage _ | setAvailable _ =>
      cases h
      exact .kept _ x
  | discard _ | finish _ _ _ | cancel _ =>
      simp only [revise, Option.filter_eq_some_iff] at h
      cases h.1
      exact .kept _ x
  | publish id =>
      simp only [revise, Option.map_some, Option.some.injEq] at h
      subst h
      split
      · exact .published id ‹_›
      · exact .kept _ x
  | claim id node =>
      simp only [revise, Option.map_some, Option.some.injEq] at h
      subst h
      split
      · exact .claimed id ‹_›
      · exact .kept _ x
  | upgrade maxDue nodes =>
      simp only [revise, Option.map_some, Option.some.injEq] at h
      subst h
      split
      · next hfree => exact .assigned nodes (Bool.and_eq_true_iff.mp hfree).1
      · exact .kept _ x
  | reassign source target =>
      simp only [revise, Option.map_some, Option.some.injEq, JobStore.reassigned] at h
      subst h
      split
      · exact .reassigned target ‹_›
      · exact .kept _ x

/-- A record that is there after a call was there before it, unless the call has staged it. -/
theorem revises_of_find?_apply {s : JobStore} {a : StoreCall} {id : JobId} {r : JobRecord}
    (ha : a.stages id = false) (hr : (a.apply s).find? id = some r) :
    ∃ x, s.find? id = some x ∧ a.Revises x r := by
  cases hs : s.find? id with
  | none =>
      rw [find?_apply_eq_none ha hs] at hr
      cases hr
  | some x =>
      refine ⟨x, rfl, ?_⟩
      rw [find?_apply, hs] at hr
      split at hr
      · exact revises_of_revise hr
      · cases hr
        exact .kept a _

/-- A record that is there after a call was there before it, or the call has staged it. -/
theorem revises_or_staged {s : JobStore} {a : StoreCall} {id : JobId} {r : JobRecord}
    (h : (a.apply s).find? id = some r) :
    (∃ x, s.find? id = some x ∧ a.Revises x r) ∨
      ∃ x t, a = .stage x ∧ s.stage x = .ok t ∧ x.id = id ∧ r = { x with state := .staged } := by
  cases hstages : a.stages id with
  | false => exact .inl (revises_of_find?_apply hstages h)
  | true =>
      cases a with
      | stage x =>
          rw [apply] at h
          cases hstage : s.stage x with
          | error e =>
              rw [hstage] at h
              exact .inl ⟨r, h, .kept _ r⟩
          | ok t =>
              rw [hstage] at h
              obtain ⟨_, _, rfl⟩ := (JobStore.stage_eq_ok_iff _ _ _).mp hstage
              have hid : x.id = id := by simpa [stages] using hstages
              rw [JobStore.orSelf, JobStore.find?_put, if_pos hid] at h
              cases h
              exact .inr ⟨x, _, rfl, hstage, hid, rfl⟩
      | publish _ | discard _ | claim _ _ | finish _ _ _ | cancel _ | upgrade _ _ | reassign _ _
      | setAvailable _ => cases hstages

end StoreCall

/-! ## Hidden jobs -/

/-- Whether a job is not stored, or staged at most. -/
def JobStore.Hides (s : JobStore) (id : JobId) : Prop :=
  ∀ r, s.find? id = some r → r.state = .staged

/-- A job that is not stored is hidden. -/
theorem JobStore.hides_of_find?_eq_none {s : JobStore} {id : JobId} (h : s.find? id = none) :
    s.Hides id := by
  intro r hr
  simp [h] at hr

namespace StoreCall

/-- What a call makes of a staged job is staged, unless the job is published. -/
theorem Revises.staged {a : StoreCall} {x r : JobRecord} (h : a.Revises x r)
    (ha : ∀ id, a ≠ .publish id) (hx : x.state = .staged) : r.state = .staged := by
  cases h with
  | kept => exact hx
  | published id _ => exact absurd rfl (ha id)
  | claimed id hfree => simp [JobStore.claimableBy, JobRecord.isPending, hx] at hfree
  | assigned nodes _ => exact hx
  | reassigned target _ => simp [hx]

/-- A job that is hidden stays hidden, unless it is published. -/
theorem hides_apply {s : JobStore} {a : StoreCall} {id : JobId} (ha : ∀ j, a ≠ .publish j)
    (h : s.Hides id) : (a.apply s).Hides id := by
  intro r hr
  rw [find?_apply] at hr
  by_cases hmine : (a.concerns id && a.accepted s.available) = true
  · rw [if_pos hmine] at hr
    cases hold : s.find? id with
    | some x =>
        rw [hold] at hr
        exact (revises_of_revise hr).staged ha (h x hold)
    | none =>
        rw [hold] at hr
        cases a with
        | stage x =>
            obtain rfl := Option.some.inj hr
            rfl
        | publish j | discard j | claim j node | finish j node outcome | cancel j
        | upgrade maxDue nodes | reassign source target | setAvailable b => simp [revise] at hr
  · rw [if_neg hmine] at hr
    exact h r hr

/-- A hidden job that is discarded is gone, even while the store is unavailable. -/
theorem find?_discard_of_hides {s : JobStore} {id : JobId} (h : s.Hides id) :
    (s.discard id).find? id = none := by
  rw [find?_discard, if_pos rfl]
  cases hr : s.find? id with
  | none => rfl
  | some r => simp [revise, h r hr, Option.filter]

end StoreCall

/-! ## Claims -/

/-- The node that holds a job in a state. -/
def JobState.holder? : JobState → Option NodeId
  | .claimed node => some node
  | .staged | .pending => none

/-- The node that holds a job. -/
def JobStore.heldBy? (s : JobStore) (id : JobId) : Option NodeId :=
  (s.find? id).bind fun r => r.state.holder?

/-- A node holds a job in a state if it has claimed it. -/
theorem JobState.holder?_eq_some {state : JobState} {node : NodeId} :
    state.holder? = some node ↔ state = .claimed node := by
  cases state <;> simp [holder?]

/-- A node holds a job if the record says that it has claimed it. -/
theorem JobStore.heldBy?_eq_some {s : JobStore} {id : JobId} {node : NodeId} :
    s.heldBy? id = some node ↔ ∃ r, s.find? id = some r ∧ r.state = .claimed node := by
  cases h : s.find? id with
  | none => simp [heldBy?, h]
  | some r => simp [heldBy?, h, JobState.holder?_eq_some]

namespace StoreCall

/-- What a recovery makes of a holder. -/
theorem holder?_reassigned (source target : NodeId) (r : JobRecord) :
    (JobStore.reassigned source target r).state.holder? = r.state.holder? ∨
      r.state = .claimed source ∧ (JobStore.reassigned source target r).state = .pending := by
  unfold JobStore.reassigned
  by_cases howner : r.owner = some source
  · by_cases hclaimed : r.state = .claimed source
    · right
      simp [howner, hclaimed]
    · left
      simp [howner, hclaimed]
  · left
    simp [howner]

/-- A call that is no step of a run takes no claim and takes none away, unless it is a recovery from
the node that holds the job. Then the job is free again. -/
theorem heldBy?_apply {s : JobStore} {a : StoreCall} {id : JobId} (ha : a.Bystanding id) :
    (a.apply s).heldBy? id = s.heldBy? id ∨
      ∃ source target, a = .reassign source target ∧ s.heldBy? id = some source ∧
        ∃ r, (a.apply s).find? id = some r ∧ r.state = .pending := by
  unfold JobStore.heldBy?
  rw [find?_apply]
  by_cases hmine : (a.concerns id && a.accepted s.available) = true
  · rw [if_pos hmine]
    cases hr : s.find? id with
    | none =>
        left
        have hgone := find?_apply_eq_none ha.stages_eq_false hr
        rw [find?_apply, if_pos hmine, hr] at hgone
        rw [hgone]
    | some r =>
        cases a with
        | stage x => simp [revise]
        | setAvailable b => simp [revise]
        | claim j node =>
            have hj : j ≠ id := ha
            simp [concerns, job?, hj] at hmine
        | finish j node outcome =>
            have hj : j ≠ id := ha
            simp [concerns, job?, hj] at hmine
        | publish j =>
            left
            by_cases hstaged : r.state = .staged <;> simp [revise, hstaged, JobState.holder?]
        | discard j =>
            left
            by_cases hstaged : r.state = .staged <;>
              simp [revise, hstaged, JobState.holder?, Option.filter]
        | cancel j =>
            left
            cases hstate : r.state <;>
              simp [revise, hstate, JobState.holder?, JobRecord.isPending, Option.filter]
        | upgrade maxDue nodes =>
            left
            simp only [revise, Option.map_some, Option.bind_some]
            split <;> rfl
        | reassign source target =>
            rcases holder?_reassigned source target r with hsame | ⟨hclaimed, hpending⟩
            · left
              simpa [revise] using hsame
            · right
              refine ⟨source, target, rfl, ?_, _, rfl, hpending⟩
              simp [hclaimed, JobState.holder?]
  · left
    rw [if_neg hmine]

/-- A claim keeps a job in the store, and gives it to the node if the store agrees. -/
theorem heldBy?_claim {s t : JobStore} {id : JobId} {node : NodeId} {held : JobRecord}
    (h : s.claim id node = .ok (held, t)) :
    s.heldBy? id = none ∧ t.heldBy? id = some node := by
  obtain ⟨_, r, hr, hc, rfl, rfl⟩ := (JobStore.claim_eq_ok_iff s t id node held).mp h
  have hpending : r.state = .pending := (JobStore.claimableBy_iff.mp hc).1
  constructor
  · simp [JobStore.heldBy?, hr, hpending, JobState.holder?]
  · simp [JobStore.heldBy?, JobState.holder?]

/-- Only the holder of a job finishes it, and then the job is gone. -/
theorem heldBy?_finish {s t : JobStore} {id : JobId} {node : NodeId} {outcome : JobOutcome}
    (h : s.finish id node outcome = .ok t) :
    s.heldBy? id = some node ∧ t.find? id = none := by
  obtain ⟨_, ⟨r, hr, hstate⟩, rfl⟩ := (JobStore.finish_eq_ok_iff s t id node outcome).mp h
  exact ⟨JobStore.heldBy?_eq_some.mpr ⟨r, hr, hstate⟩, by simp⟩

end StoreCall

/-! ## Holders and owners -/

/-- No call sets the holder of a job and its owner apart. -/
theorem StoreCall.Revises.holder_owns {a : StoreCall} {x r : JobRecord} {node : NodeId}
    (h : a.Revises x r) (hx : ∀ holder, x.state = .claimed holder → x.owner = some holder)
    (hstate : r.state = .claimed node) : r.owner = some node := by
  cases h with
  | kept => exact hx node hstate
  | published => cases hstate
  | claimed =>
      cases hstate
      rfl
  | assigned nodes hfree =>
      have hclaimed : x.state = .claimed node := hstate
      simp [JobStore.upgradable, JobRecord.isPending, hclaimed] at hfree
  | reassigned target howner =>
      simp only at hstate
      split at hstate
      · cases hstate
      · next hclaimed =>
        rw [hx node hstate] at howner
        cases howner
        exact absurd hstate hclaimed

namespace JobStore

variable {s : JobStore} {id : JobId}

/-- Whether the node that has claimed a job is its owner. -/
def HolderOwns (s : JobStore) (id : JobId) : Prop :=
  ∀ r node, s.find? id = some r → r.state = .claimed node → r.owner = some node

/-- A job that nobody holds is not held by another than its owner. -/
theorem HolderOwns.of_heldBy? (h : s.heldBy? id = none) : s.HolderOwns id := by
  intro r node hr hstate
  have hheld := heldBy?_eq_some.mpr ⟨r, hr, hstate⟩
  rw [h] at hheld
  cases hheld

/-- Every call leaves a job to its holder. -/
theorem HolderOwns.apply (h : s.HolderOwns id) (a : StoreCall) : (a.apply s).HolderOwns id := by
  intro r node hr hstate
  rcases StoreCall.revises_or_staged hr with ⟨x, hx, hrevises⟩ | ⟨x, _, _, _, _, rfl⟩
  · exact hrevises.holder_owns (fun holder => h x holder hx) hstate
  · cases hstate

end JobStore

end JobCluster
