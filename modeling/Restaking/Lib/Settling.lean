import Mathlib.Order.Lattice

/-! Questions whose answer changes at most once, from none to one that stays, and
what an answer kept from some other time is still worth. -/
namespace Restaking.Lib

variable {Time Question Answer : Type*} [LinearOrder Time]
variable {registry : Time → Question → Answer} {unset answer : Answer}
variable {kept time : Time} {question : Question}

/-- Once it is set, the answer to a question stays. -/
structure Settling (registry : Time → Question → Answer) (unset : Answer) : Prop where
  stays : ∀ {earlier later question}, earlier ≤ later → registry earlier question ≠ unset →
    registry later question = registry earlier question

/-- The answer is that of the given time, or of a later one. -/
def CurrentAt (registry : Time → Question → Answer) (time : Time) (question : Question)
    (answer : Answer) : Prop :=
  ∃ later, time ≤ later ∧ registry later question = answer

theorem currentAt_now : CurrentAt registry time question (registry time question) :=
  ⟨time, le_rfl, rfl⟩

/-- Whenever it was given, an answer is current unless it says that there is none
and meanwhile there is one. -/
theorem Settling.currentAt_iff (settling : Settling registry unset)
    (given : registry kept question = answer) :
    CurrentAt registry time question answer ↔
      (answer = unset → registry time question = unset) := by
  constructor
  · rintro ⟨later, after, same⟩ rfl
    by_contra isSet
    exact isSet ((settling.stays after isSet).symm.trans same)
  · intro fresh
    by_cases isSet : answer = unset
    · exact ⟨time, le_rfl, (fresh isSet).trans isSet.symm⟩
    · rcases le_total kept time with before | after
      · exact ⟨time, le_rfl, (settling.stays before (given ▸ isSet)).trans given⟩
      · exact ⟨kept, after, given⟩

end Restaking.Lib
