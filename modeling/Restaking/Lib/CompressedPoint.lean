import Mathlib.Algebra.Field.Defs
import Mathlib.Algebra.Ring.Basic
import Restaking.Lib.FixedWidth

/-! Points of a curve `y² = x³ + ax + b` spelled by `x` and the sign of `y`.
Compression asks nothing of a point, so points that are not on the curve have a
spelling too: that of another point, or one that decompression refuses. -/
namespace Restaking.Lib

/-- A point given by its coordinates, on the curve or not. -/
structure Affine (F : Type*) where
  x : F
  y : F
  infinity : Bool
  deriving DecidableEq

namespace Affine

variable {F : Type*}

def identity [Zero F] : Affine F := ⟨0, 0, true⟩

/-- Coordinates taken as they are. -/
def newUnchecked (x y : F) : Affine F := ⟨x, y, false⟩

end Affine

inductive PointFlags where
  | infinity
  | positive
  | negative
  deriving DecidableEq

/-- A curve over `F` and how its points are compressed. -/
structure Curve (F : Type*) where
  a : F
  b : F
  inSubgroup : Affine F → Bool
  /-- The sign: of an element and its negative, which one comes first. -/
  positive : F → Bool
  root : F → Option F
  size : Nat
  /-- An element of the field and the flags in the bits it leaves free. -/
  pack : F → PointFlags → List UInt8
  unpack : List UInt8 → Option (F × PointFlags)
  length_pack : ∀ x flags, (pack x flags).length = size

namespace Curve

section Definitions

variable {F : Type*} [Field F] (curve : Curve F)

def cubic (x : F) : F := x * x * x + curve.a * x + curve.b

def OnCurve (point : Affine F) : Prop := point.y * point.y = curve.cubic point.x

instance [DecidableEq F] (point : Affine F) : Decidable (curve.OnCurve point) :=
  inferInstanceAs (Decidable (_ = _))

def flags (point : Affine F) : PointFlags :=
  if point.infinity then .infinity else if curve.positive point.y then .positive else .negative

/-- `serialize_compressed`. -/
def compress (point : Affine F) : List UInt8 :=
  curve.pack (if point.infinity then 0 else point.x) (curve.flags point)

/-- The root or its negative, whichever has the sign of the flags. -/
def signed (y : F) (flags : PointFlags) : F :=
  if curve.positive y = decide (flags = .positive) then y else -y

/-- The point of the subgroup with this `x` and this sign of `y`. -/
def lift (x : F) (flags : PointFlags) : Option (Affine F) :=
  match curve.root (curve.cubic x) with
  | none => none
  | some y =>
    let point := Affine.newUnchecked x (curve.signed y flags)
    if curve.inSubgroup point then some point else none

/-- `deserialize_compressed`. -/
def decompress (bytes : List UInt8) : Option (Affine F) :=
  match curve.unpack bytes with
  | none => none
  | some (x, flags) => if flags = .infinity then some .identity else curve.lift x flags

/-- Compressed points. -/
def encoding : Encoding (Affine F) where
  size := curve.size
  serialize := curve.compress
  deserialize := curve.decompress
  length_serialize _ := curve.length_pack _ _

/-- The points worth a spelling. -/
structure Regular (point : Affine F) : Prop where
  finite : point.infinity = false
  onCurve : curve.OnCurve point
  inSubgroup : curve.inSubgroup point = true

/-- Points that differ at most in what compression leaves out. -/
def Alike (point other : Affine F) : Prop :=
  point.infinity = other.infinity ∧
    (point.infinity = false → point.x = other.x ∧ curve.positive point.y = curve.positive other.y)

/-- What the arithmetic and the packing promise. -/
structure Lawful : Prop where
  positive_neg : ∀ y, y ≠ 0 → curve.positive (-y) = !curve.positive y
  root_squared : ∀ v y, curve.root v = some y → y * y = v
  root_found : ∀ y, curve.root (y * y) ≠ none
  unpack_iff : ∀ bytes x flags, curve.unpack bytes = some (x, flags) ↔ bytes = curve.pack x flags
  /-- No point of the subgroup is its own negative, the identity apart. -/
  no_two_torsion : ∀ x, curve.inSubgroup (.newUnchecked x 0) = false

end Definitions

variable {F : Type*} [Field F] {curve : Curve F} {bytes : List UInt8} {x y : F}
variable {point other : Affine F} {flags : PointFlags}

theorem Lawful.pack_inj (lawful : curve.Lawful) {x' : F} {flags' : PointFlags} :
    curve.pack x flags = curve.pack x' flags' ↔ x = x' ∧ flags = flags' := by
  constructor
  · intro same
    have first := (lawful.unpack_iff _ x flags).mpr rfl
    rw [same, (lawful.unpack_iff _ x' flags').mpr rfl] at first
    cases first
    exact ⟨rfl, rfl⟩
  · rintro ⟨rfl, rfl⟩
    rfl

omit [Field F] in
theorem flags_finite (finite : point.infinity = false) :
    curve.flags point = if curve.positive point.y then .positive else .negative := by
  simp [Curve.flags, finite]

/-- Two points have one spelling exactly when they are alike. -/
theorem Lawful.compress_eq_iff (lawful : curve.Lawful) :
    curve.compress point = curve.compress other ↔ curve.Alike point other := by
  rw [compress, compress, lawful.pack_inj, Alike]
  cases finite : point.infinity <;> cases finite' : other.infinity <;>
    cases sign : curve.positive point.y <;> cases sign' : curve.positive other.y <;>
    simp [Curve.flags, finite, finite', sign, sign']

theorem signed_mul_self : curve.signed y flags * curve.signed y flags = y * y := by
  unfold signed
  split
  · rfl
  · exact neg_mul_neg y y

theorem Lawful.positive_signed (lawful : curve.Lawful) (nonzero : y ≠ 0) :
    curve.positive (curve.signed y flags) = decide (flags = .positive) := by
  unfold signed
  split
  · assumption
  · rename_i other
    rw [lawful.positive_neg y nonzero]
    exact (Bool.eq_not.mpr (Ne.symm other)).symm

/-- The stored sign picks out the one of the two roots that the point had. -/
theorem Lawful.signed_eq (lawful : curve.Lawful) {root : F} (same : root * root = y * y)
    (nonzero : y ≠ 0) (sign : curve.positive y = decide (flags = .positive)) :
    curve.signed root flags = y := by
  unfold signed
  rcases mul_self_eq_mul_self_iff.mp same with rfl | rfl
  · rw [if_pos sign]
  · rw [if_neg, neg_neg]
    rw [lawful.positive_neg y nonzero, sign]
    exact Bool.not_ne_self _

/-- Exactly the regular points are recovered from `x` and sign. -/
theorem Lawful.lift_iff (lawful : curve.Lawful) (finite : flags ≠ .infinity) :
    curve.lift x flags = some point ↔
      curve.Regular point ∧ point.x = x ∧ curve.flags point = flags := by
  have untwisted {point : Affine F} (regular : curve.Regular point) : point.y ≠ 0 := by
    intro zero
    have twisted := lawful.no_two_torsion point.x
    rw [← zero, show Affine.newUnchecked point.x point.y = point by
      rw [Affine.newUnchecked, ← regular.finite]] at twisted
    exact Bool.false_ne_true (twisted.symm.trans regular.inSubgroup)
  constructor
  · intro lifted
    unfold lift at lifted
    split at lifted
    · cases lifted
    · rename_i y found
      obtain ⟨member, same⟩ := Option.ite_none_right_eq_some.mp lifted
      cases same
      have squared := lawful.root_squared _ y found
      have regular : curve.Regular (.newUnchecked x (curve.signed y flags)) :=
        ⟨rfl, signed_mul_self.trans squared, member⟩
      have nonzero : y ≠ 0 := by
        rintro rfl
        refine untwisted regular (mul_self_eq_zero.mp ?_)
        exact signed_mul_self.trans (mul_zero 0)
      refine ⟨regular, rfl, ?_⟩
      rw [flags_finite rfl, show (Affine.newUnchecked x (curve.signed y flags)).y =
        curve.signed y flags from rfl, lawful.positive_signed nonzero]
      cases flags <;> simp_all
  · rintro ⟨regular, rfl, rfl⟩
    have sign : curve.positive point.y = decide (curve.flags point = .positive) := by
      rw [flags_finite regular.finite]
      cases curve.positive point.y <;> rfl
    obtain ⟨root, found⟩ := Option.ne_none_iff_exists'.mp (lawful.root_found point.y)
    have squared := lawful.root_squared _ root found
    rw [regular.onCurve] at found
    have picked := lawful.signed_eq squared (untwisted regular) sign
    have whole : Affine.newUnchecked point.x point.y = point := by
      rw [Affine.newUnchecked, ← regular.finite]
    simp only [lift, found, picked, whole, regular.inSubgroup, ↓reduceIte]

/-- **What decompression accepts.** A string is read as a point other than the
identity exactly when it is the spelling of that point and the point is
regular. -/
theorem Lawful.decompress_iff (lawful : curve.Lawful) :
    curve.decompress bytes = some point ∧ point.infinity = false ↔
      curve.Regular point ∧ bytes = curve.compress point := by
  constructor
  · rintro ⟨found, finite⟩
    unfold decompress at found
    split at found
    · cases found
    · rename_i x flags unpacked
      split at found
      · cases found
        cases finite
      · rename_i unflagged
        obtain ⟨regular, rfl, rfl⟩ := (lawful.lift_iff unflagged).mp found
        refine ⟨regular, ?_⟩
        rw [compress, finite]
        exact (lawful.unpack_iff _ _ _).mp unpacked
  · rintro ⟨regular, rfl⟩
    have unflagged : curve.flags point ≠ .infinity := by
      rw [flags_finite regular.finite]
      split <;> simp
    have unpacked : curve.unpack (curve.compress point) = some (point.x, curve.flags point) := by
      rw [lawful.unpack_iff, compress, regular.finite]
      rfl
    refine ⟨?_, regular.finite⟩
    rw [decompress, unpacked]
    dsimp only
    rw [if_neg unflagged]
    exact (lawful.lift_iff unflagged).mpr ⟨regular, rfl, rfl⟩

end Curve

end Restaking.Lib
