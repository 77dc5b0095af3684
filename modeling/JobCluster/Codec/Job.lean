import JobCluster.Codec.Shape
import JobCluster.Job.Record
/-!
# Encoded jobs

The JSON forms of job details, job states, stored jobs and job infos.
-/

namespace JobCluster

open Codec

/-! ## Details -/

namespace JobDetails

/-- The fields of job details. -/
def layout : Layout := [("job_type", .required), ("entries", .required)]

/-- The JSON form of job details. -/
def toJson (d : JobDetails) : Json :=
  .fields [("job_type", .text d.jobType), ("entries", ofTextTable d.entries)]

/-- Job details from their JSON form. -/
def ofJson? (j : Json) : Option JobDetails :=
  match layout.read? j with
  | some [jobType, entries] => do
    return { jobType := ← required text? jobType, entries := ← required textTable? entries }
  | _ => none

end JobDetails

/-! ## States -/

namespace JobState

/-- The JSON form of a job state. -/
def toJson : JobState → Json
  | .staged => .text "Staged"
  | .pending => .text "Pending"
  | .claimed node => withPayload "Claimed" (.text node.text)

/-- A job state from its JSON form. -/
def ofJson? (j : Json) : Option JobState :=
  match variant? j with
  | some ("Claimed", some payload) => (text? payload).map fun s => .claimed ⟨s⟩
  | some ("Staged", none) | some ("Staged", some .null) => some .staged
  | some ("Pending", none) | some ("Pending", some .null) => some .pending
  | _ => none

end JobState

/-! ## Stored jobs -/

namespace JobRecord

/-- The fields of a stored job. -/
def layout : Layout :=
  [("id", .required), ("details", .required), ("due_at", .optional), ("node_owner", .optional),
   ("transacted", .required), ("state", .defaulted)]

/-- The fields of a stored job with their values. -/
def toFields (r : JobRecord) : List (String × Json) :=
  [("id", .text r.id.text), ("details", r.details.toJson), ("due_at", .optional .nat r.dueAt),
   ("node_owner", .optional (fun n => .text n.text) r.owner), ("transacted", .bool r.transacted),
   ("state", r.state.toJson)]

/-- The JSON form of a stored job. -/
def toJson (r : JobRecord) : Json := .fields r.toFields

/-- A stored job from its JSON form. -/
def ofJson? (j : Json) : Option JobRecord :=
  match layout.read? j with
  | some [id, details, dueAt, owner, transacted, state] => do
    return { id := ⟨← required text? id⟩
             details := ← required JobDetails.ofJson? details
             dueAt := ← optional? word? dueAt
             owner := (← optional? text? owner).map NodeId.mk
             transacted := ← required bool? transacted
             state := ← orElse .staged JobState.ofJson? state }
  | _ => none

end JobRecord

/-! ## Job infos -/

namespace JobInfo

/-- The fields of a job info. -/
def layout : Layout :=
  [("job_id", .required), ("details", .required), ("due_at", .optional), ("persisted", .required),
   ("transacted", .required)]

/-- The JSON form of a job info. -/
def toJson (i : JobInfo) : Json :=
  .fields
    [("job_id", .text i.jobId.text), ("details", i.details.toJson),
     ("due_at", .optional .nat i.dueAt), ("persisted", .bool i.persisted),
     ("transacted", .bool i.transacted)]

/-- A job info from its JSON form. -/
def ofJson? (j : Json) : Option JobInfo :=
  match layout.read? j with
  | some [jobId, details, dueAt, persisted, transacted] => do
    return { jobId := ⟨← required text? jobId⟩
             details := ← required JobDetails.ofJson? details
             dueAt := ← optional? word? dueAt
             persisted := ← required bool? persisted
             transacted := ← required bool? transacted }
  | _ => none

end JobInfo

end JobCluster
