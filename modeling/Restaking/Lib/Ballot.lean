import Mathlib.Data.Fintype.Card
import Restaking.Lib.Threshold

/-! One question put to finitely many voters, who each cast at most one vote and
never take it back. A value can still win while its supporters and the undecided
make a quorum together, which is to say while its opponents are no more than the
faults tolerated. -/
namespace Restaking.Lib

/-- What each voter has voted for, if anything. -/
abbrev Ballot (V D : Type*) := V → Option D

namespace Ballot

variable {V D : Type*} [Fintype V] [DecidableEq D]

def voters (ballot : Ballot V D) (value : D) : Finset V := {i | ballot i = some value}

def undecided (ballot : Ballot V D) : Finset V := {i | ballot i = none}

/-- Those who voted for another value. -/
def opposed (ballot : Ballot V D) (value : D) : Finset V :=
  {i | ballot i ≠ none ∧ ballot i ≠ some value}

/-- Some value can still get a quorum. -/
def Winnable (ballot : Ballot V D) : Prop :=
  ∃ value, quorum (Fintype.card V) ≤ (ballot.voters value).card + ballot.undecided.card

/-- Those who oppose a value all vote for the same one. -/
def TwoWay (ballot : Ballot V D) (value : D) : Prop :=
  ∀ i j vote vote', ballot i = some vote → ballot j = some vote' → vote ≠ value → vote' ≠ value →
    vote = vote'

variable {ballot : Ballot V D} {value vote : D} {i : V}

@[simp] theorem mem_voters : i ∈ ballot.voters value ↔ ballot i = some value := by
  simp [voters]

@[simp] theorem mem_opposed :
    i ∈ ballot.opposed value ↔ ballot i ≠ none ∧ ballot i ≠ some value := by
  simp [opposed]

/-- Every voter supports a value, opposes it or has not voted. -/
theorem card_shares (ballot : Ballot V D) (value : D) :
    (ballot.voters value).card + ballot.undecided.card + (ballot.opposed value).card =
      Fintype.card V := by
  have decided : ballot.undecided.card + (Finset.univ.filter (ballot · ≠ none)).card =
      Fintype.card V :=
    Finset.card_filter_add_card_filter_not _
  have split := Finset.card_filter_add_card_filter_not (s := Finset.univ.filter (ballot · ≠ none))
    (fun i => ballot i = some value)
  rw [Finset.filter_filter, Finset.filter_filter] at split
  have supporters : Finset.univ.filter (fun i => ballot i ≠ none ∧ ballot i = some value) =
      ballot.voters value := by
    ext i
    simp only [Finset.mem_filter, Finset.mem_univ, true_and, mem_voters, and_iff_right_iff_imp]
    intro supports none
    rw [supports] at none
    cases none
  have opponents : Finset.univ.filter (fun i => ballot i ≠ none ∧ ¬ballot i = some value) =
      ballot.opposed value := by
    ext i
    simp
  rw [supporters, opponents] at split
  omega

theorem quorum_le_iff : quorum (Fintype.card V) ≤ (ballot.voters value).card + ballot.undecided.card ↔
    (ballot.opposed value).card ≤ maxFaults (Fintype.card V) := by
  have shares := ballot.card_shares value
  unfold quorum maxFaults
  omega

/-- A two-way vote stays winnable until more than the tolerated faults stand on
either side. -/
theorem TwoWay.winnable_iff (two : ballot.TwoWay value) : ballot.Winnable ↔
    (ballot.opposed value).card ≤ maxFaults (Fintype.card V) ∨
      (ballot.voters value).card ≤ maxFaults (Fintype.card V) := by
  simp only [Winnable, quorum_le_iff]
  constructor
  · rintro ⟨winner, few⟩
    by_cases same : winner = value
    · exact .inl (same ▸ few)
    · have against : ballot.voters value ⊆ ballot.opposed winner := by
        intro i supports
        rw [mem_voters] at supports
        simp [supports, Ne.symm same]
      exact .inr ((Finset.card_le_card against).trans few)
  · rintro (few | few)
    · exact ⟨value, few⟩
    · by_cases contested : ∃ i vote, ballot i = some vote ∧ vote ≠ value
      · obtain ⟨i, vote, votes, other⟩ := contested
        have against : ballot.opposed vote ⊆ ballot.voters value := by
          intro j opposes
          obtain ⟨voted, differs⟩ := mem_opposed.mp opposes
          obtain ⟨vote', votes'⟩ := Option.ne_none_iff_exists'.mp voted
          rw [mem_voters]
          by_contra elsewhere
          have other' : vote' ≠ value := by
            rintro rfl
            exact elsewhere votes'
          exact differs (two i j vote vote' votes votes' other other' ▸ votes')
        exact ⟨vote, (Finset.card_le_card against).trans few⟩
      · have unopposed : ballot.opposed value = ∅ := by
          apply Finset.eq_empty_of_forall_notMem
          intro i opposes
          obtain ⟨voted, differs⟩ := mem_opposed.mp opposes
          obtain ⟨vote, votes⟩ := Option.ne_none_iff_exists'.mp voted
          have other : vote ≠ value := by
            rintro rfl
            exact differs votes
          exact contested ⟨i, vote, votes, other⟩
        exact ⟨value, by simp [unopposed]⟩

variable [DecidableEq V]

/-- A voter votes. -/
def cast (ballot : Ballot V D) (i : V) (vote : D) : Ballot V D :=
  Function.update ballot i (some vote)

theorem card_voters_cast (fresh : ballot i = none) :
    ((ballot.cast i vote).voters value).card =
      (ballot.voters value).card + if vote = value then 1 else 0 := by
  split
  · rename_i same
    have joined : (ballot.cast i vote).voters value = insert i (ballot.voters value) := by
      ext j
      by_cases here : j = i <;> simp [cast, here, same]
    rw [joined, Finset.card_insert_of_notMem (by simp [fresh])]
  · rename_i other
    have kept : (ballot.cast i vote).voters value = ballot.voters value := by
      ext j
      by_cases here : j = i <;> simp [cast, here, other, fresh]
    rw [kept, Nat.add_zero]

theorem card_opposed_cast (fresh : ballot i = none) :
    ((ballot.cast i vote).opposed value).card =
      (ballot.opposed value).card + if vote = value then 0 else 1 := by
  split
  · rename_i same
    have kept : (ballot.cast i vote).opposed value = ballot.opposed value := by
      ext j
      by_cases here : j = i <;> simp [cast, here, same, fresh]
    rw [kept, Nat.add_zero]
  · rename_i other
    have joined : (ballot.cast i vote).opposed value = insert i (ballot.opposed value) := by
      ext j
      by_cases here : j = i <;> simp [cast, here, other]
    rw [joined, Finset.card_insert_of_notMem (by simp [fresh])]

/-- One more vote leaves a two-way ballot winnable: not both sides would have more
votes than the tolerated faults. -/
def Admits (ballot : Ballot V D) (value vote : D) : Prop :=
  if vote = value then
    (ballot.voters value).card < maxFaults (Fintype.card V) ∨
      (ballot.opposed value).card ≤ maxFaults (Fintype.card V)
  else
    (ballot.voters value).card ≤ maxFaults (Fintype.card V) ∨
      (ballot.opposed value).card < maxFaults (Fintype.card V)

instance : Decidable (ballot.Admits value vote) := by
  unfold Admits
  infer_instance

theorem winnable_cast_iff (fresh : ballot i = none) (two : (ballot.cast i vote).TwoWay value) :
    (ballot.cast i vote).Winnable ↔ ballot.Admits value vote := by
  rw [two.winnable_iff, card_voters_cast fresh, card_opposed_cast fresh, Admits]
  split <;> omega

end Ballot

/-- A quorum and more voters than the tolerated faults have one in common. -/
theorem quorum_intersects {V : Type*} [Fintype V] [DecidableEq V] {s t : Finset V}
    (most : quorum (Fintype.card V) ≤ s.card) (enough : maxFaults (Fintype.card V) < t.card) :
    ∃ i ∈ s, i ∈ t := by
  have many : Fintype.card V < s.card + t.card := by
    unfold quorum at most
    omega
  obtain ⟨i, both⟩ := Finset.inter_nonempty_of_card_lt_card_add_card (Finset.subset_univ s)
    (Finset.subset_univ t) many
  exact ⟨i, Finset.mem_inter.mp both⟩

end Restaking.Lib
