import JobCluster.Instance.Basic
import JobCluster.Job.Processing
/-!
# Instance commands

What an administrator can tell a process instance to do. A command is carried out by a stored job
that names the command and the instance.

Main results:

- `InstanceCommand.parse_text`: every command is read back from its text.
-/

namespace JobCluster

/-- A command to a process instance. -/
inductive InstanceCommand
  | retire
  | terminate
  | suspend
  | resume
  deriving DecidableEq, Repr

namespace InstanceCommand

/-- The type of the jobs that carry out commands. -/
def jobType : String := "instance"

/-- The text of a command. -/
def text : InstanceCommand → String
  | .retire => "retire"
  | .terminate => "terminate"
  | .suspend => "suspend"
  | .resume => "resume"

/-- The state that the instance is moved to. -/
def target : InstanceCommand → InstanceState
  | .retire => .retired
  | .terminate => .terminated
  | .suspend => .suspended
  | .resume => .active

/-- The command with the text. -/
def parse (s : String) : Except ProcessingError InstanceCommand :=
  match [retire, terminate, suspend, resume].find? fun c => c.text == s with
  | some c => .ok c
  | none => .error (.failed ("unknown instance command '" ++ s ++ "'"))

/-- The details of the job that carries out the command. -/
def job (c : InstanceCommand) (id : InstanceId) : JobDetails :=
  (JobDetails.mk jobType ∅).insertAll [("op", c.text), ("pid", id.text)]

/-- The command and the instance that a job names. -/
def ofDetails (d : JobDetails) : Except ProcessingError (InstanceCommand × InstanceId) :=
  match d.get? "op" with
  | none => .error (.failed "missing 'op' entry")
  | some op =>
    match parse op with
    | .error e => .error e
    | .ok command =>
      match d.get? "pid" with
      | none => .error (.failed "missing 'pid' entry")
      | some pid => .ok (command, ⟨pid⟩)

/-- The text of a command is read back. -/
theorem parse_text (c : InstanceCommand) : parse c.text = .ok c := by
  cases c <;> rfl

/-- The job that is made for a command names that command and its instance. -/
theorem ofDetails_job (c : InstanceCommand) (id : InstanceId) :
    ofDetails (c.job id) = .ok (c, id) := by
  simp [ofDetails, job, JobDetails.insertAll, parse_text]

end InstanceCommand

end JobCluster
