import Restaking.Sequencer

/-! The local state of the submitter (`router/src/submitter.rs`) between two of
its awaits. -/
namespace Restaking

/-- `MAX_RETRIES`. -/
def maxRetries : Nat := 2

/-- `INITIAL_RETRY_BACKOFF`, in milliseconds. -/
def initialSubmitBackoff : Nat := 2000

/-- The local variables of the submission loop. -/
structure Submission (T D C : Type*) where
  certified : Certificate D C
  task : T
  attempt : Nat := 1
  backoff : Nat := initialSubmitBackoff

/-- Where the submitter waits. -/
inductive Submitter (T D C : Type*) where
  /-- `certified.recv()`. -/
  | idle
  /-- About to read the assignment of a height that was not skipped. -/
  | lookup (certified : Certificate D C)
  /-- The reads that lead up to the call. -/
  | submitting (submission : Submission T D C)
  /-- `handler.handle_verification`. -/
  | calling (submission : Submission T D C)
  /-- The sleep between two attempts, until the given time. -/
  | sleeping (submission : Submission T D C) (wake : Nat)

namespace Submitter

variable {T D C : Type*}

/-- The submission under way. -/
def submission : Submitter T D C → Option (Submission T D C)
  | submitting submission => some submission
  | calling submission => some submission
  | sleeping submission _ => some submission
  | _ => none

end Submitter

/-- The submission that a certificate starts against an assignment. Without one
the height is consumed and nothing goes on-chain. -/
def Assignment.matching {T D C : Type*} [DecidableEq D] (assignment : Option (Assignment T D))
    (c : Certificate D C) : Option (Submission T D C) :=
  match assignment with
  | none => none
  | some assignment =>
    if assignment.digest ≠ c.digest then none
    else some { certified := c, task := assignment.task }

end Restaking
