import Mathlib.Data.Nat.Notation

/-! The retry loop of the node's automaton (`node/src/automaton.rs`): how long an
announced task is validated before its height is given up. Times are in
milliseconds. -/
namespace Restaking

/-- `INITIAL_RETRY_BACKOFF`. -/
def initialRetryBackoff : Nat := 500

/-- `MAX_RETRY_BACKOFF`. -/
def maxRetryBackoff : Nat := 5000

/-- The local variables of `digest_for_announce`. -/
structure Validation (T : Type*) where
  task : T
  deadline : Nat
  backoff : Nat := initialRetryBackoff

namespace Validation

variable {T : Type*}

/-- `digest_for_announce` up to its loop. -/
def begin (now retryBudget : Nat) (task : T) : Validation T :=
  { task, deadline := now + retryBudget }

/-- The error arms: the next turn of the loop with the time it starts, or none
once the budget is spent. -/
def afterError (validation : Validation T) (now : Nat) : Option (Validation T × Nat) :=
  if now + validation.backoff < validation.deadline then
    some ({ validation with backoff := min (2 * validation.backoff) maxRetryBackoff },
      now + validation.backoff)
  else none

theorem afterError_task {validation validation' : Validation T} {now wake : Nat}
    (again : validation.afterError now = some (validation', wake)) :
    validation'.task = validation.task := by
  obtain ⟨-, ⟨⟩⟩ := Option.ite_none_right_eq_some.mp again
  rfl

end Validation

/-- Where a call of `propose` stands. -/
inductive ProposalState (T D : Type*) where
  /-- `task_book.subscribe(h)`. -/
  | subscribed
  /-- `validator.expected_digest(task)`. -/
  | validating (validation : Validation T)
  /-- The sleep before the next attempt, until the given time. -/
  | sleeping (validation : Validation T) (wake : Nat)
  /-- The digest was sent to the engine. -/
  | resolved (digest : D)

/-- A call of `propose`. -/
structure Proposal (T D : Type*) where
  height : Nat
  state : ProposalState T D := .subscribed

end Restaking
