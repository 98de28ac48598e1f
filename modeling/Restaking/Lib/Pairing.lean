import Mathlib.Algebra.BigOperators.Group.List.Basic
import Mathlib.Algebra.Field.ZMod
import Mathlib.GroupTheory.SpecificGroups.Cyclic.Basic

/-! A bilinear, non-degenerate pairing of two groups of one prime order. Against
a fixed generator it tells the elements of the left group apart, so an equation
between two pairings is an equation between points, and equations of this kind
add up. -/
namespace Restaking.Lib

structure Pairing (r : Nat) (G₁ G₂ GT : Type*) [AddCommGroup G₁] [AddCommGroup G₂] [CommGroup GT]
    where
  pair : G₁ → G₂ → GT
  generator : G₂
  prime : r.Prime
  card_left : Nat.card G₁ = r
  card_right : Nat.card G₂ = r
  add_left : ∀ a b q, pair (a + b) q = pair a q * pair b q
  add_right : ∀ a p q, pair a (p + q) = pair a p * pair a q
  generator_ne_zero : generator ≠ 0
  nondegenerate : ∀ a, (∀ q, pair a q = 1) → a = 0

namespace Pairing

variable {r : Nat} {G₁ G₂ GT : Type*} [AddCommGroup G₁] [AddCommGroup G₂] [CommGroup GT]
variable (pairing : Pairing r G₁ G₂ GT) {a b : G₁} {q : G₂} {m n : Nat}

/-- The pairing with a fixed right argument. -/
def left (q : G₂) : G₁ →+ Additive GT :=
  AddMonoidHom.mk' (fun a => .ofMul (pairing.pair a q)) fun a b => pairing.add_left a b q

/-- The pairing with a fixed left argument. -/
def right (a : G₁) : G₂ →+ Additive GT :=
  AddMonoidHom.mk' (fun q => .ofMul (pairing.pair a q)) fun p q => pairing.add_right a p q

theorem pair_zero_left : pairing.pair 0 q = 1 := (pairing.left q).map_zero

theorem pair_zero_right : pairing.pair a 0 = 1 := (pairing.right a).map_zero

/-- A factor moves from one side to the other. -/
theorem pair_nsmul (n : Nat) : pairing.pair (n • a) q = pairing.pair a (n • q) :=
  (map_nsmul (pairing.left q) n a).trans (map_nsmul (pairing.right a) n q).symm

/-- Against the generator, different points have different pairings. -/
theorem pair_generator_inj :
    pairing.pair a pairing.generator = pairing.pair b pairing.generator ↔ a = b := by
  refine ⟨fun same => ?_, congrArg (pairing.pair · pairing.generator)⟩
  refine sub_eq_zero.mp (pairing.nondegenerate _ fun q => ?_)
  have : Fact r.Prime := ⟨pairing.prime⟩
  obtain ⟨n, rfl⟩ : q ∈ AddSubmonoid.multiples pairing.generator :=
    mem_multiples_of_prime_card pairing.card_right pairing.generator_ne_zero
  have trivially : pairing.pair (a - b) pairing.generator = 1 := by
    have split := (pairing.left pairing.generator).map_sub a b
    exact split.trans (sub_eq_zero.mpr same)
  have whole := map_nsmul (pairing.right (a - b)) n pairing.generator
  have each : pairing.right (a - b) pairing.generator = 0 := trivially
  rw [each, nsmul_zero] at whole
  exact whole

/-- Every element of the right group is a multiple of the generator by a residue. -/
theorem exists_val_nsmul (q : G₂) : ∃ scalar : ZMod r, q = scalar.val • pairing.generator := by
  have : Fact r.Prime := ⟨pairing.prime⟩
  obtain ⟨n, rfl⟩ : q ∈ AddSubmonoid.multiples pairing.generator :=
    mem_multiples_of_prime_card pairing.card_right pairing.generator_ne_zero
  have reduced := mod_natCard_nsmul pairing.generator n
  rw [pairing.card_right] at reduced
  exact ⟨n, by rw [ZMod.val_natCast, reduced]⟩

/-- Equations between pairings add up. -/
theorem pair_sum {ι : Type*} {points : ι → G₁} {keys : ι → G₂} {items : List ι}
    (each : ∀ i ∈ items, pairing.pair a (keys i) = pairing.pair (points i) pairing.generator) :
    pairing.pair a (items.map keys).sum =
      pairing.pair (items.map points).sum pairing.generator := by
  induction items with
  | nil => exact pairing.pair_zero_right.trans pairing.pair_zero_left.symm
  | cons i items ih =>
    have first := each i List.mem_cons_self
    have others := ih fun j member => each j (List.mem_cons_of_mem _ member)
    rw [List.map_cons, List.map_cons, List.sum_cons, List.sum_cons, pairing.add_right,
      pairing.add_left, first, others]

private theorem addOrderOf_of_card {G : Type*} [AddCommGroup G] (prime : r.Prime)
    (card : Nat.card G = r) {x : G} (nonzero : x ≠ 0) : addOrderOf x = r := by
  have : Fact r.Prime := ⟨prime⟩
  refine addOrderOf_eq_prime ?_ nonzero
  rw [← card]
  exact card_nsmul_eq_zero'

/-- Elements other than zero tell the same factors apart, whichever the group. -/
theorem nsmul_eq_iff (nonzero : a ≠ 0) :
    m • a = n • a ↔ m • pairing.generator = n • pairing.generator := by
  rw [nsmul_eq_nsmul_iff_modEq, nsmul_eq_nsmul_iff_modEq,
    addOrderOf_of_card pairing.prime pairing.card_left nonzero,
    addOrderOf_of_card pairing.prime pairing.card_right pairing.generator_ne_zero]

/-- Multiplication of residues, the smallest pairing there is. -/
def ofMul (r : Nat) [Fact r.Prime] : Pairing r (ZMod r) (ZMod r) (Multiplicative (ZMod r)) where
  pair a q := .ofAdd (a * q)
  generator := 1
  prime := Fact.out
  card_left := Nat.card_zmod r
  card_right := Nat.card_zmod r
  add_left a b q := congrArg Multiplicative.ofAdd (add_mul a b q)
  add_right a p q := congrArg Multiplicative.ofAdd (mul_add a p q)
  generator_ne_zero := one_ne_zero
  nondegenerate a trivially := by
    have one := ofAdd_eq_one.mp (trivially 1)
    rwa [mul_one] at one

end Pairing

end Restaking.Lib
