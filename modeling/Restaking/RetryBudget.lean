import Mathlib.Algebra.Order.Floor.Div
import Restaking.Automaton
import Restaking.Wire

/-! A whole call of `digest_for_announce` (`node/src/automaton.rs`), from its
deadline to the digest it returns, on the clock's own scale: times and durations
are in nanoseconds, and a clock that cannot hold the deadline is left out. The
validator's answers, the time each of its calls takes and the delay of each
wake-up come from outside. -/
namespace Restaking

/-- `Duration::from_millis`. -/
def fromMillis (millis : Nat) : Nat := millis * 1000000

/-- A retry delay between the first one and the ceiling. -/
structure Backoff where
  length : Nat
  least : fromMillis initialRetryBackoff ≤ length
  most : length ≤ fromMillis maxRetryBackoff

namespace Backoff

/-- The delay before the first retry. -/
def initial : Backoff := ⟨fromMillis initialRetryBackoff, by decide, by decide⟩

/-- `(backoff * 2).min(MAX_RETRY_BACKOFF)`. -/
def double (backoff : Backoff) : Backoff where
  length := min (backoff.length * 2) (fromMillis maxRetryBackoff)
  least := le_min (backoff.least.trans (Nat.le_mul_of_pos_right _ (by decide))) (by decide)
  most := min_le_right _ _

theorem length_pos (backoff : Backoff) : 0 < backoff.length :=
  lt_of_lt_of_le (by decide) backoff.least

end Backoff

/-- What one turn of the loop meets. -/
structure Turn (D : Type*) where
  /-- The digest that the validator returns, `none` for an error. -/
  result : Option D
  /-- How long the validator takes. -/
  elapsed : Nat
  /-- How late the sleep after it ends. -/
  delay : Nat

/-- What a call of `digest_for_announce` did and returned. -/
structure Resolving (D : Type*) where
  /-- The results of the validator's calls. -/
  calls : List (Option D)
  /-- The sleeps, each with the time at which it began. -/
  sleeps : List (Nat × Nat)
  digest : D

variable {D T : Type*}

/-- The loop of `digest_for_announce`. Each turn that goes on has slept, so the
deadline is closer. -/
def resolveFrom (fallback : D) (deadline : Nat) (turns : Nat → Turn D) (now : Nat)
    (backoff : Backoff) : Resolving D :=
  match (turns 0).result with
  | some digest => { calls := [some digest], sleeps := [], digest }
  | none =>
    let failed := now + (turns 0).elapsed
    if failed + backoff.length < deadline then
      let rest := resolveFrom fallback deadline (fun n => turns (n + 1))
        (failed + backoff.length + (turns 0).delay) backoff.double
      { rest with
        calls := none :: rest.calls
        sleeps := (failed, backoff.length) :: rest.sleeps }
    else { calls := [none], sleeps := [], digest := fallback }
termination_by deadline - now
decreasing_by
  have := backoff.length_pos
  omega

/-- `digest_for_announce`, begun at the given time. -/
def digestForAnnounce (sha256 : List UInt8 → D) (namespaceBytes : List UInt8) (height : Nat)
    (retryBudget start : Nat) (turns : Nat → Turn D) : Resolving D :=
  resolveFrom (skipDigest sha256 namespaceBytes height) (start + retryBudget) turns start .initial

section Loop

variable {fallback : D} {deadline now : Nat} {turns : Nat → Turn D} {backoff : Backoff}

end Loop

section Milliseconds

variable {validation : Validation T} {now : Nat} {backoff : Backoff}

/-- On whole milliseconds, a turn after an error is that of the proposals. -/
theorem afterError_fromMillis (same : backoff.length = fromMillis validation.backoff) :
    match validation.afterError now with
    | some (validation', wake) =>
      fromMillis now + backoff.length < fromMillis validation.deadline ∧
        fromMillis now + backoff.length = fromMillis wake ∧
        backoff.double.length = fromMillis validation'.backoff ∧
        validation'.deadline = validation.deadline
    | none => ¬ fromMillis now + backoff.length < fromMillis validation.deadline := by
  unfold Validation.afterError
  by_cases within : now + validation.backoff < validation.deadline
  · rw [if_pos within]
    dsimp only [Backoff.double]
    rw [same]
    unfold fromMillis
    exact ⟨by omega, by omega, by omega, rfl⟩
  · rw [if_neg within]
    dsimp only
    rw [same]
    unfold fromMillis
    omega

end Milliseconds

end Restaking
