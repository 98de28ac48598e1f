import Mathlib.Data.List.Pairwise
import Restaking.Lib.Run
import Restaking.Sequencer

/-! What the sequencer is for, without its messages and timers: a worker who takes
tasks one by one and makes attempts at the one in hand, each under a number that
was never used, until an attempt is final. -/
namespace Restaking
open Lib

/-- Nothing of the task is left to do after this outcome. -/
def HeightOutcome.final : HeightOutcome → Bool
  | .resolved (.executed _) => true
  | .resolved .skipped => true
  | .resolved .foreign => false
  | .superseded => false
  | .closed => true

/-- A finished attempt. -/
structure Attempt where
  task : Nat
  height : Nat
  outcome : HeightOutcome

structure Worklist where
  /-- The tasks taken so far, which are numbered in this order. -/
  taken : Nat := 0
  /-- The task in hand, with the height of the attempt under way. -/
  current : Option (Nat × Option Nat) := none
  attempts : List Attempt := []

namespace Worklist

inductive Label where
  | take
  | assign (height : Nat)
  | finish (outcome : HeightOutcome)

def step (w : Worklist) : Label → Option Worklist
  | .take =>
    if w.current = none ∧ ∀ a ∈ w.attempts, a.outcome ≠ .closed then
      some { w with taken := w.taken + 1, current := some (w.taken, none) }
    else none
  | .assign height => match w.current with
    | some (task, none) =>
      if ∀ a ∈ w.attempts, a.height < height then
        some { w with current := some (task, some height) }
      else none
    | _ => none
  | .finish outcome => match w.current with
    | some (task, some height) => some { w with
        current := if outcome.final then none else some (task, none)
        attempts := w.attempts ++ [⟨task, height, outcome⟩] }
    | _ => none

/-- The first attempt of two belongs to an earlier task if it is final, and to no
later task in any case. -/
def Before (first second : Attempt) : Prop :=
  first.height < second.height ∧ first.task ≤ second.task ∧
    (first.outcome.final = true → first.task < second.task)

/-- The state of the work. -/
structure Orderly (w : Worklist) : Prop where
  ordered : w.attempts.Pairwise Before
  taken : ∀ a ∈ w.attempts, a.task < w.taken
  /-- The task in hand is the last one taken, and no attempt at it was final. -/
  inHand : ∀ task height, w.current = some (task, height) → task + 1 = w.taken ∧
    (∀ a ∈ w.attempts, a.outcome.final = true → a.task < task) ∧
    ∀ h, height = some h → ∀ a ∈ w.attempts, a.height < h
  /-- Every other task has had its final attempt. -/
  done : ∀ task < w.taken, (∀ height, w.current ≠ some (task, height)) →
    ∃ a ∈ w.attempts, a.task = task ∧ a.outcome.final = true

variable {w w' : Worklist} {label : Label}

theorem Orderly.init : Orderly {} where
  ordered := .nil
  taken := fun _ member => nomatch member
  inHand := fun _ _ holds => nomatch holds
  done := fun _ early => nomatch early

theorem Orderly.take (orderly : Orderly w) (free : w.current = none) :
    Orderly { w with taken := w.taken + 1, current := some (w.taken, none) } where
  ordered := orderly.ordered
  taken := fun a member => (orderly.taken a member).trans (Nat.lt_succ_self _)
  inHand := by
    rintro task height ⟨⟩
    exact ⟨rfl, fun a member _ => orderly.taken a member, fun _ none => nomatch none⟩
  done := by
    intro task early other
    have before : task < w.taken := by
      rcases Nat.lt_succ_iff_lt_or_eq.mp early with before | rfl
      · exact before
      · exact absurd rfl (other none)
    exact orderly.done task before (by simp [free])

theorem Orderly.assign {task height : Nat} (orderly : Orderly w)
    (here : w.current = some (task, none)) (above : ∀ a ∈ w.attempts, a.height < height) :
    Orderly { w with current := some (task, some height) } where
  ordered := orderly.ordered
  taken := orderly.taken
  inHand := by
    rintro task height ⟨⟩
    obtain ⟨last, unfinished, -⟩ := orderly.inHand task none here
    exact ⟨last, unfinished, fun h same => Option.some.inj same ▸ above⟩
  done := by
    intro task' early other
    apply orderly.done task' early
    intro height' holds
    rw [here] at holds
    cases holds
    exact other _ rfl

/-- An attempt that ends is the last one so far, and the only one that can be the
final attempt at the task in hand. -/
theorem Orderly.finish {task height : Nat} (orderly : Orderly w) (outcome : HeightOutcome)
    (here : w.current = some (task, some height)) :
    Orderly { w with
      current := if outcome.final then none else some (task, none)
      attempts := w.attempts ++ [⟨task, height, outcome⟩] } := by
  obtain ⟨last, unfinished, below⟩ := orderly.inHand task _ here
  refine ⟨?_, ?_, ?_, ?_⟩
  · refine List.pairwise_append.mpr ⟨orderly.ordered, List.pairwise_singleton _ _, ?_⟩
    intro a member b single
    cases List.mem_singleton.mp single
    have early := orderly.taken a member
    exact ⟨below height rfl a member, by dsimp only; omega, unfinished a member⟩
  · intro a member
    rcases List.mem_append.mp member with earlier | single
    · exact orderly.taken a earlier
    · cases List.mem_singleton.mp single
      dsimp only
      omega
  · intro task' height' holds
    dsimp only at holds ⊢
    split at holds
    · cases holds
    · rename_i open'
      cases holds
      refine ⟨last, ?_, fun _ none => nomatch none⟩
      intro a member final
      rcases List.mem_append.mp member with earlier | single
      · exact unfinished a earlier final
      · cases List.mem_singleton.mp single
        exact absurd final open'
  · intro task' early other
    by_cases own : task' = task
    · subst own
      refine ⟨_, List.mem_append_right _ (List.mem_singleton_self _), rfl, ?_⟩
      by_contra open'
      exact other none (by simp [open'])
    · obtain ⟨a, member, named, final⟩ := orderly.done task' early (by
        intro height' holds
        rw [here] at holds
        cases holds
        exact own rfl)
      exact ⟨a, List.mem_append_left _ member, named, final⟩

/-- Every step keeps the order of the work. -/
theorem Orderly.step (orderly : Orderly w) (taken : w.step label = some w') : Orderly w' := by
  cases label with
  | take =>
    obtain ⟨⟨free, -⟩, ⟨⟩⟩ := Option.ite_none_right_eq_some.mp taken
    exact orderly.take free
  | assign height =>
    simp only [Worklist.step] at taken
    split at taken
    · rename_i task here
      obtain ⟨above, ⟨⟩⟩ := Option.ite_none_right_eq_some.mp taken
      exact orderly.assign here above
    · cases taken
  | finish outcome =>
    simp only [Worklist.step] at taken
    split at taken
    · rename_i task height here
      cases taken
      exact orderly.finish outcome here
    · cases taken

theorem orderly_of_reachable (reached : Reachable (· = ({} : Worklist)) step w) : Orderly w := by
  refine reached.preserves ?_ fun w label w' _ orderly taken => orderly.step taken
  rintro start rfl
  exact .init

end Worklist
end Restaking
