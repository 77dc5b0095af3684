import JobCluster.Job.Record
/-!
# The job store

The store shared by all nodes of a cluster. A job is staged by the transaction that schedules it
and published when that transaction commits; then one node claims it, runs it and finishes it.
While the store is unavailable it refuses every call but the discarding of staged jobs.

An operation that fails has no store to return, and so leaves the store as it was.

Main results:

- `JobStore.stage_eq_ok_iff`, `JobStore.claim_eq_ok_iff`, `JobStore.finish_eq_ok_iff`: when these
  operations succeed, and with what store.
-/

namespace JobCluster

/-- Why the job store refuses a call. -/
inductive JobStoreError
  /-- The job was claimed, cancelled or finished by someone else. -/
  | noLongerStored (id : JobId)
  | duplicate (id : JobId)
  | invalidState (id : JobId) (actual : JobState) (expected : String)
  | unavailable
  deriving DecidableEq, Repr

/-- The wording of an error. -/
def JobStoreError.message : JobStoreError → String
  | .noLongerStored id => s!"Job {id} no longer in store"
  | .duplicate id => s!"Duplicate job id: {id}"
  | .invalidState id actual expected => s!"Job {id} is {actual}, expected {expected}"
  | .unavailable => "Job store unavailable: in-memory store marked unavailable"

/-- The stored jobs, and how many were finished in either way. -/
structure JobStore where
  records : Table JobId JobRecord := ∅
  available : Bool := true
  done : Nat := 0
  dropped : Nat := 0
  deriving DecidableEq, Repr, Inhabited

/-- How many jobs are in each state, and how many were finished in either way. -/
structure JobStoreStats where
  staged : Nat
  pending : Nat
  claimed : Nat
  done : Nat
  dropped : Nat
  deriving DecidableEq, Repr

namespace JobStore

/-- The record of a job, whether or not the store is available. -/
def find? (s : JobStore) (id : JobId) : Option JobRecord := s.records.get? id

/-- Sets the record of a job. -/
def put (s : JobStore) (r : JobRecord) : JobStore := { s with records := s.records.insert r.id r }

/-- Takes the record of a job out. -/
def remove (s : JobStore) (id : JobId) : JobStore := { s with records := s.records.erase id }

/-- Goes on only while the store is available. -/
def guarded {α : Type} (s : JobStore) (result : Except JobStoreError α) : Except JobStoreError α :=
  if s.available then result else .error .unavailable

/-! ## The life of one job -/

/-- Writes a job that is not visible yet. -/
def stage (s : JobStore) (r : JobRecord) : Except JobStoreError JobStore :=
  s.guarded <|
    match s.find? r.id with
    | some _ => .error (.duplicate r.id)
    | none => .ok (s.put { r with state := .staged })

/-- Makes a staged job visible. -/
def publish (s : JobStore) (id : JobId) : Except JobStoreError JobStore :=
  s.guarded <|
    match s.find? id with
    | none => .error (.noLongerStored id)
    | some r =>
      if r.state = .staged then
        .ok { s with records := s.records.insert id { r with state := .pending } }
      else .error (.invalidState id r.state "STAGED")

/-- Takes a staged job out; any other job stays. This works even while the store is unavailable. -/
def discard (s : JobStore) (id : JobId) : JobStore :=
  match s.find? id with
  | some r => if r.state = .staged then s.remove id else s
  | none => s

/-- Whether a node may claim the job: it is pending, and owned by that node or by none. -/
def claimableBy (r : JobRecord) (node : NodeId) : Bool :=
  r.isPending && (r.owner.isNone || r.owner == some node)

/-- Gives a pending job to the node that is going to run it. -/
def claim (s : JobStore) (id : JobId) (node : NodeId) : Except JobStoreError (JobRecord × JobStore) :=
  s.guarded <|
    match s.find? id with
    | none => .error (.noLongerStored id)
    | some r =>
      if claimableBy r node then
        let held := { r with state := .claimed node, owner := some node }
        .ok (held, { s with records := s.records.insert id held })
      else .error (.noLongerStored id)

/-- Counts a finished job. -/
def count (s : JobStore) : JobOutcome → JobStore
  | .done => { s with done := s.done + 1 }
  | .failedDropped => { s with dropped := s.dropped + 1 }

/-- Takes out a job that the node holds, whatever its outcome. -/
def finish (s : JobStore) (id : JobId) (node : NodeId) (outcome : JobOutcome) :
    Except JobStoreError JobStore :=
  s.guarded <|
    match s.find? id with
    | none => .error (.noLongerStored id)
    | some r =>
      if r.state = .claimed node then .ok ((s.remove id).count outcome)
      else if r.state = .staged then .error (.invalidState id r.state "CLAIMED")
      else .error (.noLongerStored id)

/-- Takes a job out that no node holds, and tells whether there was one. -/
def cancel (s : JobStore) (id : JobId) : Except JobStoreError (Bool × JobStore) :=
  s.guarded <|
    match s.find? id with
    | none => .ok (false, s)
    | some r =>
      match r.state with
      | .staged | .pending => .ok (true, s.remove id)
      | .claimed _ => .ok (false, s)

/-- The record of a job. -/
def get (s : JobStore) (id : JobId) : Except JobStoreError (Option JobRecord) :=
  s.guarded (.ok (s.find? id))

/-! ## Many jobs at once -/

/-- Whether a load pass of the node up to the given time takes the job. -/
def loadable (node : NodeId) (maxDue : Time) (r : JobRecord) : Bool :=
  r.isPending && r.owner == some node && decide (r.effectiveDue ≤ maxDue)

/-- The pending jobs of a node up to the given time, earliest first. -/
def dueJobs (s : JobStore) (node : NodeId) (maxDue : Time) : List JobRecord :=
  (s.records.values.filter (loadable node maxDue)).mergeSort fun a b => !b.dueBefore a

/-- The first pending jobs of a node up to the given time. -/
def dequeueImmediate (s : JobStore) (node : NodeId) (maxDue : Time) (limit : Nat) :
    Except JobStoreError (List JobRecord) :=
  s.guarded (.ok ((s.dueJobs node maxDue).take limit))

/-- Whether an upgrade up to the given time gives the job an owner. -/
def upgradable (maxDue : Time) (r : JobRecord) : Bool :=
  r.isPending && r.owner.isNone && decide (r.effectiveDue ≤ maxDue)

/-- The node that a job goes to: its due time decides among the nodes in turn. -/
def assignee? (nodes : List NodeId) (r : JobRecord) : Option NodeId :=
  nodes[r.effectiveDue % nodes.length]?

/-- Gives owners to the pending jobs up to the given time that have none, and tells how many. -/
def upgradeJobs (s : JobStore) (maxDue : Time) (nodes : List NodeId) :
    Except JobStoreError (Nat × JobStore) :=
  s.guarded <|
    if nodes.isEmpty then .ok (0, s)
    else
      .ok ((s.records.filter fun _ r => upgradable maxDue r).size,
        { s with records := s.records.map fun _ r =>
            if upgradable maxDue r then { r with owner := assignee? nodes r } else r })

/-- The job after all jobs of one node have gone to another; a claim of the former is reset. -/
def reassigned (source target : NodeId) (r : JobRecord) : JobRecord :=
  if r.owner = some source then
    { r with owner := some target
             state := if r.state = .claimed source then .pending else r.state }
  else r

/-- Gives all jobs of one node to another, and tells how many. -/
def reassignJobs (s : JobStore) (source target : NodeId) : Except JobStoreError (Nat × JobStore) :=
  s.guarded <|
    .ok ((s.records.filter fun _ r => r.owner == some source).size,
      { s with records := s.records.map fun _ r => reassigned source target r })

/-- The owners of jobs, each once and in order. -/
def owners (s : JobStore) : List NodeId :=
  (Table.ofList (s.records.values.filterMap fun r => r.owner.map fun n => (n, ()))).keys

/-- The owners of jobs. -/
def nodeIds (s : JobStore) : Except JobStoreError (List NodeId) := s.guarded (.ok s.owners)

/-- The counts of the store, whether or not it is available. -/
def stats (s : JobStore) : JobStoreStats where
  staged := s.records.values.countP fun r => r.state == .staged
  pending := s.records.values.countP JobRecord.isPending
  claimed := s.records.values.countP fun r => r.state != .staged && !r.isPending
  done := s.done
  dropped := s.dropped

/-- The number of stored jobs. -/
def size (s : JobStore) : Nat := s.records.size

/-! ## When operations succeed -/

/-- A call succeeds exactly if the store is available and the call is right. -/
theorem guarded_eq_ok_iff {α : Type} (s : JobStore) (result : Except JobStoreError α) (a : α) :
    s.guarded result = .ok a ↔ s.available = true ∧ result = .ok a := by
  by_cases h : s.available = true <;> simp [guarded, h]

/-- A job is staged if none is stored under its identifier. -/
theorem stage_eq_ok_iff (s t : JobStore) (r : JobRecord) :
    s.stage r = .ok t ↔
      s.available = true ∧ s.find? r.id = none ∧ t = s.put { r with state := .staged } := by
  rw [stage, guarded_eq_ok_iff]
  cases s.find? r.id with
  | some _ => simp
  | none => simpa using fun _ => eq_comm

/-- A node claims a job that is pending, and owned by it or by nobody. -/
theorem claim_eq_ok_iff (s t : JobStore) (id : JobId) (node : NodeId) (held : JobRecord) :
    s.claim id node = .ok (held, t) ↔
      s.available = true ∧ ∃ r, s.find? id = some r ∧ claimableBy r node = true ∧
        held = { r with state := .claimed node, owner := some node } ∧
        t = { s with records := s.records.insert id held } := by
  rw [claim, guarded_eq_ok_iff]
  cases h : s.find? id with
  | none => simp
  | some r =>
    by_cases hc : claimableBy r node = true
    · simp only [hc, if_true, Except.ok.injEq, Prod.mk.injEq, Option.some.injEq]
      constructor
      · rintro ⟨ha, rfl, rfl⟩
        exact ⟨ha, r, rfl, hc, rfl, rfl⟩
      · rintro ⟨ha, r', rfl, _, rfl, rfl⟩
        exact ⟨ha, rfl, rfl⟩
    · simp [hc]

/-- A node finishes a job that it holds, whatever the outcome. -/
theorem finish_eq_ok_iff (s t : JobStore) (id : JobId) (node : NodeId) (outcome : JobOutcome) :
    s.finish id node outcome = .ok t ↔
      s.available = true ∧ (∃ r, s.find? id = some r ∧ r.state = .claimed node) ∧
        t = (s.remove id).count outcome := by
  rw [finish, guarded_eq_ok_iff]
  cases h : s.find? id with
  | none => simp
  | some r =>
    by_cases hc : r.state = .claimed node
    · simpa [hc] using fun _ => eq_comm
    · by_cases hs : r.state = .staged <;> simp [hc, hs]

end JobStore

end JobCluster
