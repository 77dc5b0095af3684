import JobCluster.Job.Details
/-!
# Processing errors

Why a job's handler fails, or why there is none.
-/

namespace JobCluster

/-- Why a job could not be processed. -/
inductive ProcessingError
  /-- No handler takes jobs of the type. -/
  | unknownType (jobType : String)
  /-- The handler turned the job down. -/
  | failed (reason : String)
  /-- Something that the handler called failed. -/
  | other (cause : String)
  deriving DecidableEq, Repr

/-- The wording of an error. -/
def ProcessingError.message : ProcessingError → String
  | .unknownType jobType => "No handler registered for job type '" ++ jobType ++ "'"
  | .failed reason => "Job processing failed: " ++ reason
  | .other cause => cause

end JobCluster
