import JobCluster.Job.Details
/-!
# Job records

A job as the job store keeps it, with its place in life: staged by a transaction that is still
open, pending, or claimed by the node that runs it.
-/

namespace JobCluster

/-- The place of a stored job in its life. -/
inductive JobState
  /-- Written by a transaction that is not committed yet. -/
  | staged
  /-- Visible, and free to be run. -/
  | pending
  /-- Held by the node that runs it. -/
  | claimed (node : NodeId)
  deriving DecidableEq, Repr, Inhabited

/-- The wording of a state. -/
def JobState.text : JobState → String
  | .staged => "STAGED"
  | .pending => "PENDING"
  | .claimed node => s!"CLAIMED({node})"

instance : ToString JobState := ⟨JobState.text⟩

/-- How a claimed job ended; its record goes in either case. -/
inductive JobOutcome
  | done
  | failedDropped
  deriving DecidableEq, Repr, Inhabited

/-- A job as the job store keeps it. -/
structure JobRecord where
  id : JobId
  details : JobDetails
  /-- When the job is due; without it, as soon as it is published. -/
  dueAt : Option Time := none
  owner : Option NodeId := none
  transacted : Bool := true
  state : JobState := .staged
  deriving DecidableEq, Repr, Inhabited

namespace JobRecord

/-- The due time by which jobs are ordered; jobs without one come first. -/
def effectiveDue (r : JobRecord) : Time := r.dueAt.getD 0

/-- Whether the job is free to be run. -/
def isPending (r : JobRecord) : Bool := r.state == .pending

/-- What a handler learns about a stored job. -/
def info (r : JobRecord) : JobInfo where
  jobId := r.id
  details := r.details
  dueAt := r.dueAt
  persisted := true
  transacted := r.transacted

/-- The order in which jobs are handed out: by due time, then by identifier. -/
def dueBefore (a b : JobRecord) : Bool :=
  KeyOrder.before (a.effectiveDue, a.id) (b.effectiveDue, b.id)

end JobRecord

end JobCluster
