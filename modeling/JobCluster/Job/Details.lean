import JobCluster.Ident
/-!
# Job details

What a job is to do: a type, by which the job is handed to a handler, and entries that only the
handler understands.

Main results:

- `JobDetails.get?_insert`: an entry is found as it was inserted last.
-/

namespace JobCluster

/-- The type of a job and its entries. -/
structure JobDetails where
  jobType : String
  entries : Table String String := ∅
  deriving DecidableEq, Repr, Inhabited

namespace JobDetails

/-- Sets an entry. -/
def insert (d : JobDetails) (key value : String) : JobDetails :=
  { d with entries := d.entries.insert key value }

/-- Sets entries one after another. -/
def insertAll (d : JobDetails) (pairs : List (String × String)) : JobDetails :=
  pairs.foldl (fun d x => d.insert x.1 x.2) d

/-- The value of an entry. -/
def get? (d : JobDetails) (key : String) : Option String := d.entries.get? key

/-- An entry is set under its key, and all others are kept. -/
@[simp] theorem get?_insert (d : JobDetails) (key value k : String) :
    (d.insert key value).get? k = if key = k then some value else d.get? k := by
  simp [insert, get?]

@[simp] theorem jobType_insert (d : JobDetails) (key value : String) :
    (d.insert key value).jobType = d.jobType := rfl

end JobDetails

/-- What a handler learns about the job that it runs. -/
structure JobInfo where
  jobId : JobId
  details : JobDetails
  dueAt : Option Time := none
  /-- Whether the job is kept in the job store. -/
  persisted : Bool
  /-- Whether the job runs in a transaction. -/
  transacted : Bool
  deriving DecidableEq, Repr, Inhabited

end JobCluster
