import Mathlib.Algebra.Order.Ring.Nat
import Mathlib.Data.List.Basic
import Mathlib.Data.Set.Function

/-! Elements spelled with a fixed number of bytes, not every string of that
length a spelling, and as the first such spelling the numbers below a bound, the
least significant byte first. -/
namespace Restaking.Lib

universe u

/-- How an element is spelled, and what a string of that length stands for. -/
structure Encoding (E : Type u) where
  size : Nat
  serialize : E → List UInt8
  deserialize : List UInt8 → Option E
  length_serialize : ∀ e, (serialize e).length = size

namespace Encoding

variable {E : Type u} {encoding : Encoding E} {bytes : List UInt8} {e e' : E}

/-- Every element has a spelling, and no other string stands for it. -/
structure Canonical (encoding : Encoding E) : Prop where
  exact : ∀ bytes e, encoding.deserialize bytes = some e ↔ bytes = encoding.serialize e

theorem Canonical.deserialize_serialize (canonical : encoding.Canonical) :
    encoding.deserialize (encoding.serialize e) = some e :=
  (canonical.exact _ e).mpr rfl

theorem Canonical.serialize_injective (canonical : encoding.Canonical) :
    Function.Injective encoding.serialize := by
  intro e e' same
  have first := canonical.deserialize_serialize (e := e)
  rw [same, canonical.deserialize_serialize] at first
  exact (Option.some.inj first).symm

end Encoding

/-! ### Little-endian numbers -/

namespace LittleEndian

variable {bytes : List UInt8} {n size : Nat}

/-- The lowest bytes of a number. -/
def digits : Nat → Nat → List UInt8
  | 0, _ => []
  | size + 1, n => (n % 256).toUInt8 :: digits size (n / 256)

/-- The number that bytes stand for. -/
def value (bytes : List UInt8) : Nat := bytes.foldr (fun b n => b.toNat + 256 * n) 0

theorem value_cons (b : UInt8) : value (b :: bytes) = b.toNat + 256 * value bytes := rfl

theorem length_digits : (digits size n).length = size := by
  induction size generalizing n with
  | zero => rfl
  | succ size ih => rw [digits, List.length_cons, ih]

theorem value_digits (fits : n < 256 ^ size) : value (digits size n) = n := by
  induction size generalizing n with
  | zero => exact (Nat.lt_one_iff.mp fits).symm
  | succ size ih =>
    have high : n / 256 < 256 ^ size := Nat.div_lt_of_lt_mul (by rwa [pow_succ'] at fits)
    have low : (n % 256).toUInt8.toNat = n % 256 := UInt8.toNat_ofNat_of_lt' (Nat.mod_lt n (by decide))
    rw [digits, value_cons, ih high, low, Nat.mod_add_div]

theorem digits_value (bytes : List UInt8) : digits bytes.length (value bytes) = bytes := by
  induction bytes with
  | nil => rfl
  | cons b bytes ih =>
    have bound := b.toNat_lt
    have low : (b.toNat + 256 * value bytes) % 256 = b.toNat := by omega
    have high : (b.toNat + 256 * value bytes) / 256 = value bytes := by omega
    rw [List.length_cons, digits, value_cons, low, high, ih, Nat.toUInt8, UInt8.ofNat_toNat]

theorem digits_injOn (size : Nat) : Set.InjOn (digits size) {n | n < 256 ^ size} := by
  intro n small m small' same
  rw [← value_digits small, same, value_digits small']

theorem digits_zero : digits size 0 = List.replicate size 0 := by
  induction size with
  | zero => rfl
  | succ size ih =>
    rw [digits, Nat.zero_div, ih]
    rfl

theorem digits_add (low high n : Nat) :
    digits (low + high) n = digits low n ++ digits high (n / 256 ^ low) := by
  induction low generalizing n with
  | zero => rw [Nat.zero_add, pow_zero, Nat.div_one, digits, List.nil_append]
  | succ low ih =>
    rw [Nat.add_right_comm, digits, ih, digits, List.cons_append, Nat.div_div_eq_div_mul, pow_succ']

/-- A number that fewer bytes hold is padded with zeros. -/
theorem digits_add_of_lt {low : Nat} (high : Nat) (fits : n < 256 ^ low) :
    digits (low + high) n = digits low n ++ List.replicate high 0 := by
  rw [digits_add, Nat.div_eq_of_lt fits, digits_zero]

/-- The numbers below a bound. A number that is not below it is refused. -/
def below (size bound : Nat) : Encoding (Fin bound) where
  size
  serialize n := digits size n
  deserialize bytes :=
    if within : bytes.length = size ∧ value bytes < bound then some ⟨value bytes, within.2⟩ else none
  length_serialize _ := length_digits

theorem below_canonical {bound : Nat} (fits : bound ≤ 256 ^ size) : (below size bound).Canonical where
  exact bytes n := by
    constructor
    · intro read
      obtain ⟨⟨rfl, small⟩, same⟩ := Option.dite_none_right_eq_some.mp read
      rw [← Option.some.inj same]
      exact (digits_value bytes).symm
    · rintro rfl
      have back : value (digits size n) = n := value_digits (n.isLt.trans_le fits)
      have within : (digits size (n : Nat)).length = size ∧ value (digits size n) < bound :=
        ⟨length_digits, back.symm ▸ n.isLt⟩
      exact Option.dite_none_right_eq_some.mpr ⟨within, congrArg some (Fin.ext back)⟩

end LittleEndian

end Restaking.Lib
