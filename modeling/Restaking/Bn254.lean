import Mathlib.Algebra.Field.ZMod
import Restaking.Lib.Codec
import Restaking.Lib.CompressedPoint
import Restaking.Wire

/-! The keys and signatures of the BN254 scheme (`core/src/bn254/mod.rs`). Each
keeps the bytes it is known by beside the element: equality compares both, the
order only the bytes. Reading checks the element; building a value from an
element or from coordinates does not. -/
namespace Restaking.Bn254
open Lib

variable {E C : Type}

/-- What the four types differ in: the spelling of their elements, the element
they refuse to read, and the texts of their errors. -/
structure Kind (E : Type) where
  encoding : Encoding E
  isZero : E → Bool
  context : String
  malformed : String
  zero : String

/-- The compressed bytes and the element. -/
structure WireValue (kind : Kind E) where
  raw : List UInt8
  key : E
  sized : raw.length = kind.encoding.size
  deriving DecidableEq

namespace WireValue

section Operations

variable (kind : Kind E)

/-- The checks of `Read::read_cfg` once it holds enough bytes. -/
def check (raw : List UInt8) (sized : raw.length = kind.encoding.size) :
    Except CodecError (WireValue kind) :=
  match kind.encoding.deserialize raw with
  | none => .error (.invalid kind.context kind.malformed)
  | some key =>
    if kind.isZero key then .error (.invalid kind.context kind.zero) else .ok { raw, key, sized }

/-- `Read::read_cfg`. -/
def readCfg : Reader CodecError (WireValue kind) := fun bytes =>
  if enough : kind.encoding.size ≤ bytes.length then
    (check kind (bytes.take kind.encoding.size) (List.length_take_of_le enough)).map
      (·, bytes.drop kind.encoding.size)
  else .error .endOfBuffer

/-- `TryFrom<&[u8]>`. -/
def tryFrom (value : List UInt8) : Except CodecError (WireValue kind) :=
  if value.length ≠ kind.encoding.size then .error (.invalidLength value.length)
  else (readCfg kind value).map (·.1)

/-- `From` of an element, which is taken as it is. -/
def ofElement (key : E) : WireValue kind where
  raw := kind.encoding.serialize key
  key
  sized := kind.encoding.length_serialize key

/-- `Write`, `Read` and `FixedSize`. -/
def codec : Codec CodecError (WireValue kind) where
  encode value := value.raw
  read := readCfg kind
  encodeSize _ := kind.encoding.size

def decode (bytes : List UInt8) : Except CodecError (WireValue kind) :=
  (codec kind).decode .extraData bytes

end Operations

/-- `Ord::cmp`. -/
def cmp {kind : Kind E} (value other : WireValue kind) : Ordering := compare value.raw other.raw

end WireValue

/-! ### The four types -/

/-- `PublicKey`. -/
def publicKey (points : Encoding E) (isZero : E → Bool) : Kind E where
  encoding := points
  isZero
  context := "bn254::PublicKey"
  malformed := "invalid G2 point"
  zero := "identity G2 point"

/-- `G1PublicKey`. -/
def g1PublicKey (points : Encoding E) (isZero : E → Bool) : Kind E where
  encoding := points
  isZero
  context := "bn254::G1PublicKey"
  malformed := "invalid G1 point"
  zero := "identity G1 point"

/-- `Signature`. -/
def signature (points : Encoding E) (isZero : E → Bool) : Kind E where
  encoding := points
  isZero
  context := "bn254::Signature"
  malformed := "invalid G1 point"
  zero := "identity G1 point"

/-- `PrivateKey`. -/
def privateKey (scalars : Encoding E) (isZero : E → Bool) : Kind E where
  encoding := scalars
  isZero
  context := "bn254::PrivateKey"
  malformed := "invalid scalar"
  zero := "zero scalar"

/-- `PrivateKey::try_from`, which makes its checks itself. -/
def PrivateKey.tryFrom (scalars : Encoding E) (isZero : E → Bool) (value : List UInt8) :
    Except CodecError (WireValue (privateKey scalars isZero)) :=
  if sized : value.length = (privateKey scalars isZero).encoding.size then WireValue.check _ value sized
  else .error (.invalidLength value.length)

section Coordinates

variable {Fq Fq2 : Type} (fromStr : String → Option Fq)

/-- The point of `G1PublicKey::create_from_g1_coordinates`. -/
def g1Coordinates (coordinates : String × String) : Option (Affine Fq) := do
  let x ← fromStr coordinates.1
  let y ← fromStr coordinates.2
  return .newUnchecked x y

/-- The point of `PublicKey::create_from_g2_coordinates`, from `x1`, `x2`, `y1`
and `y2`. -/
def g2Coordinates (fq2 : Fq → Fq → Fq2) (coordinates : (String × String) × String × String) :
    Option (Affine Fq2) := do
  let x1 ← fromStr coordinates.1.1
  let x2 ← fromStr coordinates.1.2
  let y1 ← fromStr coordinates.2.1
  let y2 ← fromStr coordinates.2.2
  return .newUnchecked (fq2 x1 x2) (fq2 y1 y2)

/-- `G1PublicKey::create_from_g1_coordinates`. -/
def createFromG1Coordinates (points : Encoding (Affine Fq)) (x y : String) :
    Option (WireValue (g1PublicKey points Affine.infinity)) :=
  (g1Coordinates fromStr (x, y)).map (WireValue.ofElement _)

/-- `PublicKey::create_from_g2_coordinates`. -/
def createFromG2Coordinates (fq2 : Fq → Fq → Fq2) (points : Encoding (Affine Fq2))
    (x1 x2 y1 y2 : String) : Option (WireValue (publicKey points Affine.infinity)) :=
  (g2Coordinates fromStr fq2 ((x1, x2), y1, y2)).map (WireValue.ofElement _)

end Coordinates

/-- The public constructors with their arguments. -/
inductive Source (E C : Type) where
  | read (bytes : List UInt8)
  | tryFrom (bytes : List UInt8)
  | ofElement (element : E)
  | coordinates (coordinates : C)

namespace Source

/-- The value a constructor yields, where it accepts its argument. -/
def construct (kind : Kind E) (point : C → Option E) : Source E C → Option (WireValue kind)
  | read bytes => (WireValue.readCfg kind bytes).toOption.map (·.1)
  | tryFrom bytes => (WireValue.tryFrom kind bytes).toOption
  | ofElement element => some (.ofElement kind element)
  | coordinates c => (point c).map (.ofElement kind)

/-- The element that an argument stands for. -/
def named (kind : Kind E) (point : C → Option E) : Source E C → Option E
  | read bytes => kind.encoding.deserialize (bytes.take kind.encoding.size)
  | tryFrom bytes => kind.encoding.deserialize bytes
  | ofElement element => some element
  | coordinates c => point c

/-- An element that is handed over, itself or by its coordinates, is regular. -/
def Sound (point : C → Option E) (regular : E → Prop) : Source E C → Prop
  | read _ | tryFrom _ => True
  | ofElement element => regular element
  | coordinates c => ∀ element, point c = some element → regular element

end Source

/-! ### What reading accepts -/

/-- Reading accepts the spellings of the regular elements and nothing else. -/
def Kind.Accepts (kind : Kind E) (regular : E → Prop) : Prop :=
  ∀ bytes key, kind.encoding.deserialize bytes = some key ∧ kind.isZero key = false ↔
    regular key ∧ bytes = kind.encoding.serialize key

variable {kind : Kind E} {regular : E → Prop} {alike : E → E → Prop} {point : C → Option E}
variable {value other : WireValue kind} {bytes rest : List UInt8} {source source' : Source E C}

namespace WireValue

/-- The values that reading can yield. -/
def Readable (regular : E → Prop) : Set (WireValue kind) :=
  {value | regular value.key ∧ value = ofElement kind value.key}

theorem check_ok {raw : List UInt8} {sized : raw.length = kind.encoding.size} :
    check kind raw sized = .ok value ↔
      raw = value.raw ∧ kind.encoding.deserialize raw = some value.key ∧
        kind.isZero value.key = false := by
  unfold check
  constructor
  · intro checked
    split at checked
    · cases checked
    · rename_i key found
      split at checked
      · cases checked
      · rename_i nonzero
        cases checked
        exact ⟨rfl, found, Bool.not_eq_true _ ▸ nonzero⟩
  · rintro ⟨rfl, found, nonzero⟩
    rw [found]
    dsimp only
    rw [if_neg (by rw [nonzero]; exact Bool.false_ne_true)]

theorem check_iff (accepts : kind.Accepts regular) {raw : List UInt8}
    {sized : raw.length = kind.encoding.size} :
    check kind raw sized = .ok value ↔ value ∈ Readable regular ∧ raw = value.raw := by
  rw [check_ok]
  constructor
  · rintro ⟨rfl, found⟩
    obtain ⟨good, spelled⟩ := (accepts _ _).mp found
    obtain ⟨raw, key, sized⟩ := value
    have spelled : raw = kind.encoding.serialize key := spelled
    subst spelled
    exact ⟨⟨good, rfl⟩, rfl⟩
  · rintro ⟨⟨good, same⟩, rfl⟩
    have spelled : value.raw = kind.encoding.serialize value.key := congrArg raw same
    exact ⟨rfl, (accepts _ _).mpr ⟨good, spelled⟩⟩

theorem readCfg_iff (accepts : kind.Accepts regular) :
    readCfg kind bytes = .ok (value, rest) ↔ value ∈ Readable regular ∧ bytes = value.raw ++ rest := by
  unfold readCfg
  constructor
  · intro read
    split at read
    · rename_i enough
      cases checked : check kind (bytes.take kind.encoding.size) (List.length_take_of_le enough) with
      | error error =>
        rw [checked] at read
        cases read
      | ok found =>
        rw [checked] at read
        cases read
        obtain ⟨readable, spelled⟩ := (check_iff accepts).mp checked
        exact ⟨readable, by rw [← spelled, List.take_append_drop]⟩
    · cases read
  · rintro ⟨readable, rfl⟩
    have enough : kind.encoding.size ≤ (value.raw ++ rest).length := by
      rw [List.length_append, value.sized]
      exact Nat.le_add_right _ _
    have front : (value.raw ++ rest).take kind.encoding.size = value.raw :=
      List.take_left' value.sized
    have back : (value.raw ++ rest).drop kind.encoding.size = rest := List.drop_left' value.sized
    have checked : check kind _ (List.length_take_of_le enough) = .ok value :=
      (check_iff accepts).mpr ⟨readable, front⟩
    rw [dif_pos enough, checked, back]
    rfl

theorem tryFrom_iff (accepts : kind.Accepts regular) :
    tryFrom kind bytes = .ok value ↔ value ∈ Readable regular ∧ bytes = value.raw := by
  unfold tryFrom
  constructor
  · intro tried
    split at tried
    · cases tried
    · rename_i sized
      cases read : readCfg kind bytes with
      | error error =>
        rw [read] at tried
        cases tried
      | ok found =>
        obtain ⟨found, rest⟩ := found
        rw [read] at tried
        cases tried
        obtain ⟨readable, rfl⟩ := (readCfg_iff accepts).mp read
        have nothing : rest = [] := by
          have lengths := not_not.mp sized
          rw [List.length_append, found.sized] at lengths
          exact List.length_eq_zero_iff.mp (by omega)
        exact ⟨readable, by rw [nothing, List.append_nil]⟩
  · rintro ⟨readable, rfl⟩
    have read : readCfg kind value.raw = .ok (value, []) :=
      (readCfg_iff accepts).mpr ⟨readable, (List.append_nil _).symm⟩
    rw [if_neg (not_not.mpr value.sized), read]
    rfl

theorem codec_lawful (accepts : kind.Accepts regular) : (codec kind).LawfulOn (Readable regular) where
  read_encode _ readable _ := (readCfg_iff accepts).mpr ⟨readable, rfl⟩
  consumed _ _ _ read := (readCfg_iff accepts).mp read
  measured value _ := (sized value).symm

theorem ofElement_inj {key key' : E} : ofElement kind key = ofElement kind key' ↔ key = key' :=
  ⟨congrArg WireValue.key, congrArg _⟩

/-- A value built from an element is decoded from its own bytes exactly when the
element is regular. -/
theorem decode_ofElement (accepts : kind.Accepts regular) {key : E} :
    decode kind (ofElement kind key).raw = .ok (ofElement kind key) ↔ regular key :=
  (codec_lawful accepts).decode_iff.trans ⟨fun readable => readable.1.1, fun good => ⟨⟨good, rfl⟩, rfl⟩⟩

end WireValue

/-- The private key's own checks are those of the others. -/
theorem PrivateKey.tryFrom_eq (scalars : Encoding E) (isZero : E → Bool) (bytes : List UInt8) :
    PrivateKey.tryFrom scalars isZero bytes =
      WireValue.tryFrom (privateKey scalars isZero) bytes := by
  unfold PrivateKey.tryFrom WireValue.tryFrom WireValue.readCfg
  by_cases sized : bytes.length = (privateKey scalars isZero).encoding.size
  · have front {raw : List UInt8} (same : raw = bytes) (sized' : raw.length = _) :
        WireValue.check (privateKey scalars isZero) raw sized' = WireValue.check _ bytes sized := by
      subst same
      rfl
    rw [dif_pos sized, if_neg (not_not.mpr sized), dif_pos sized.ge,
      front (List.take_of_length_le sized.le)]
    cases WireValue.check (privateKey scalars isZero) bytes sized <;> rfl
  · rw [dif_neg sized, if_pos sized]

/-- Whatever the constructor, its value is the one built from the element its
argument stands for. -/
theorem Source.construct_cases (accepts : kind.Accepts regular)
    (constructed : source.construct kind point = some value) :
    ∃ key, source.named kind point = some key ∧ value = .ofElement kind key ∧
      (source.Sound point regular ↔ regular key) := by
  have spelled (readable : value ∈ WireValue.Readable regular) :
      kind.encoding.deserialize value.raw = some value.key := by
    have raw : value.raw = kind.encoding.serialize value.key := congrArg WireValue.raw readable.2
    exact ((accepts _ _).mpr ⟨readable.1, raw⟩).1
  cases source with
  | read bytes =>
    obtain ⟨⟨found, rest⟩, read, rfl⟩ := Option.map_eq_some_iff.mp constructed
    have read : WireValue.readCfg kind bytes = .ok (found, rest) := by
      cases shape : WireValue.readCfg kind bytes <;> simp_all [Except.toOption]
    obtain ⟨readable, rfl⟩ := (WireValue.readCfg_iff accepts).mp read
    refine ⟨found.key, ?_, readable.2, iff_of_true trivial readable.1⟩
    rw [named, List.take_left' found.sized, spelled readable]
  | tryFrom bytes =>
    have tried : WireValue.tryFrom kind bytes = .ok value := by
      have constructed : (WireValue.tryFrom kind bytes).toOption = some value := constructed
      cases shape : WireValue.tryFrom kind bytes <;> simp_all [Except.toOption]
    obtain ⟨readable, rfl⟩ := (WireValue.tryFrom_iff accepts).mp tried
    exact ⟨value.key, spelled readable, readable.2, iff_of_true trivial readable.1⟩
  | ofElement key =>
    cases constructed
    exact ⟨key, rfl, rfl, Iff.rfl⟩
  | coordinates c =>
    obtain ⟨key, found, rfl⟩ := Option.map_eq_some_iff.mp constructed
    refine ⟨key, found, rfl, fun sound => sound key found, fun good key' found' => ?_⟩
    rw [found] at found'
    exact Option.some.inj found' ▸ good

/-- How the values of one type are faithful: each is decoded from its own bytes
exactly when its constructor was given a regular element, if any, and the order
agrees with equality on two of them exactly unless they come from different
elements that are alike, of which one is not regular. -/
def FaithfulExactly (kind : Kind E) (point : C → Option E) (regular : E → Prop)
    (alike : E → E → Prop) : Prop :=
  ∀ (source : Source E C) (value : WireValue kind), source.construct kind point = some value →
    (WireValue.decode kind value.raw = .ok value ↔ source.Sound point regular) ∧
    ∀ (source' : Source E C) (other : WireValue kind), source'.construct kind point = some other →
      ((value = other ↔ value.cmp other = .eq) ↔
        ¬ ∃ key key', source.named kind point = some key ∧ source'.named kind point = some key' ∧
          key ≠ key' ∧ alike key key') ∧
      (source.Sound point regular → source'.Sound point regular →
        (value = other ↔ value.cmp other = .eq))

theorem faithful_exactly (accepts : kind.Accepts regular)
    (spelling : ∀ key key', kind.encoding.serialize key = kind.encoding.serialize key' ↔ alike key key') :
    FaithfulExactly kind point regular alike := by
  intro source value constructed
  obtain ⟨key, named, rfl, sound⟩ := source.construct_cases accepts constructed
  refine ⟨(WireValue.decode_ofElement accepts).trans sound.symm, fun source' other constructed' => ?_⟩
  obtain ⟨key', named', rfl, sound'⟩ := source'.construct_cases accepts constructed'
  have ordered : (WireValue.ofElement kind key).cmp (.ofElement kind key') = .eq ↔ alike key key' :=
    Std.compare_eq_iff_eq.trans (spelling key key')
  have reflexive : key = key' → alike key key' := by
    rintro rfl
    exact (spelling key key).mp rfl
  rw [WireValue.ofElement_inj, ordered]
  refine ⟨⟨?_, ?_⟩, fun good good' => ⟨reflexive, fun same => ?_⟩⟩
  · rintro agree ⟨e, e', found, found', different, same⟩
    rw [named] at found
    rw [named'] at found'
    cases found
    cases found'
    exact different (agree.mpr same)
  · intro apart
    refine ⟨reflexive, fun same => by_contra fun different => ?_⟩
    exact apart ⟨key, key', named, named', different, same⟩
  · have read := (accepts _ key).mpr ⟨sound.mp good, rfl⟩
    have read' := (accepts _ key').mpr ⟨sound'.mp good', (spelling key key').mpr same⟩
    exact Option.some.inj (read.1.symm.trans read'.1)

theorem accepts_points {F : Type} [Field F] {curve : Curve F} (lawful : curve.Lawful) :
    ∀ bytes point, curve.encoding.deserialize bytes = some point ∧ point.infinity = false ↔
      curve.Regular point ∧ bytes = curve.encoding.serialize point :=
  fun _ _ => lawful.decompress_iff

/-- **Which keys and signatures are faithful.** Reading yields faithful values
only. A value built from a point, or from coordinates, is decoded from its own
bytes exactly when the point is on the curve, in the subgroup and not the
identity, a private key built from a scalar exactly when the scalar is not zero.
The order fails to tell two values apart exactly when they hold different points
with the same `x` and the same sign of `y`. -/
theorem faithful_values {Fq Fq2 Fr : Type} [Field Fq] [Field Fq2] [Zero Fr] [DecidableEq Fr]
    (g1 : Curve Fq) (g2 : Curve Fq2) (scalars : Encoding Fr) (fromStr : String → Option Fq)
    (fq2 : Fq → Fq → Fq2) (lawful1 : g1.Lawful) (lawful2 : g2.Lawful)
    (canonical : scalars.Canonical) :
    FaithfulExactly (publicKey g2.encoding Affine.infinity) (g2Coordinates fromStr fq2)
      g2.Regular g2.Alike ∧
    FaithfulExactly (g1PublicKey g1.encoding Affine.infinity) (g1Coordinates fromStr)
      g1.Regular g1.Alike ∧
    FaithfulExactly (privateKey scalars (· = 0)) (Empty.elim : Empty → Option Fr) (· ≠ 0) (· = ·) ∧
    FaithfulExactly (signature g1.encoding Affine.infinity) (Empty.elim : Empty → Option (Affine Fq))
      g1.Regular g1.Alike := by
  refine ⟨?_, ?_, ?_, ?_⟩
  · exact faithful_exactly (accepts_points lawful2) fun _ _ => lawful2.compress_eq_iff
  · exact faithful_exactly (accepts_points lawful1) fun _ _ => lawful1.compress_eq_iff
  · refine faithful_exactly (fun bytes key => ?_) fun key key' => canonical.serialize_injective.eq_iff
    rw [and_comm]
    exact and_congr decide_eq_false_iff_not (canonical.exact bytes key)
  · exact faithful_exactly (accepts_points lawful1) fun _ _ => lawful1.compress_eq_iff

section Examples

/-- The order of the curve's groups. -/
def scalarOrder : Nat :=
  21888242871839275222246405745257275088548364400416034343698204186575808495617

instance neZeroScalarOrder : NeZero scalarOrder := ⟨by decide⟩

/-- Scalars: 32 bytes, the least significant first. -/
def scalarEncoding : Encoding (Fin scalarOrder) := LittleEndian.below 32 scalarOrder

theorem scalarEncoding_canonical : scalarEncoding.Canonical :=
  LittleEndian.below_canonical (by decide)

instance factPrimeSeven : Fact (Nat.Prime 7) := ⟨by decide⟩

def packSmall (x : ZMod 7) : PointFlags → Fin 21
  | .infinity => ⟨x.val, by have := x.val_lt; omega⟩
  | .positive => ⟨7 + x.val, by have := x.val_lt; omega⟩
  | .negative => ⟨14 + x.val, by have := x.val_lt; omega⟩

def unpackSmall (n : Fin 21) : ZMod 7 × PointFlags :=
  ((n.val : ZMod 7), if n.val < 7 then .infinity else if n.val < 14 then .positive else .negative)

/-- `y² = x³ + 3` over seven elements: thirteen points, a group of prime order. -/
def smallCurve : Curve (ZMod 7) where
  a := 0
  b := 3
  inSubgroup point := point.y * point.y = point.x * point.x * point.x + 3
  positive y := y.val ≤ (-y).val
  root v := [0, 1, 2, 3, 4, 5, 6].find? fun y => y * y = v
  size := 1
  pack x flags := (LittleEndian.below 1 21).serialize (packSmall x flags)
  unpack bytes := ((LittleEndian.below 1 21).deserialize bytes).map unpackSmall
  length_pack _ _ := LittleEndian.length_digits

theorem smallCurve_lawful : smallCurve.Lawful where
  positive_neg := by decide
  root_squared := by decide
  root_found := by decide
  no_two_torsion := by decide
  unpack_iff bytes x flags := by
    have packed : ∀ (n : Fin 21) (x : ZMod 7), unpackSmall n = (x, flags) ↔ n = packSmall x flags := by
      cases flags <;> decide
    have canonical : (LittleEndian.below 1 21).Canonical := LittleEndian.below_canonical (by decide)
    refine Option.map_eq_some_iff.trans ⟨?_, ?_⟩
    · rintro ⟨n, found, same⟩
      rw [(canonical.exact _ _).mp found, (packed n x).mp same]
      rfl
    · rintro rfl
      exact ⟨packSmall x flags, canonical.deserialize_serialize, (packed _ x).mpr rfl⟩

def smallFromStr (s : String) : Option (ZMod 7) :=
  if s = "1" then some 1 else if s = "2" then some 2 else if s = "3" then some 3 else none

end Examples

/-- The private key of the scalar zero is not decoded from its own bytes. -/
theorem zero_private_key_refused :
    ¬ ∀ (source : Source (Fin scalarOrder) Empty) (value : WireValue (privateKey scalarEncoding (· = 0))),
      source.construct _ Empty.elim = some value →
        WireValue.decode _ value.raw = .ok value := by
  intro faithful
  have decoded := faithful (.ofElement 0) _ rfl
  revert decoded
  decide +kernel

/-- Two keys from coordinates over a small curve: of a point on it, and of one beside it
that has the same `x` and sign. The order takes the second for the first. -/
theorem key_beside_curve_taken_for_key_on_it : ∃ on off,
    createFromG1Coordinates smallFromStr smallCurve.encoding "1" "2" = some on ∧
    createFromG1Coordinates smallFromStr smallCurve.encoding "1" "3" = some off ∧
    WireValue.decode _ on.raw = .ok on ∧ WireValue.decode _ off.raw ≠ .ok off ∧
    ¬ (on = off ↔ on.cmp off = .eq) := by
  obtain ⟨-, keys, -, -⟩ := faithful_values smallCurve smallCurve scalarEncoding smallFromStr
    (fun a _ => a) smallCurve_lawful smallCurve_lawful scalarEncoding_canonical
  have onCurve : smallCurve.Regular (.newUnchecked 1 2) := ⟨rfl, by decide, by decide⟩
  have beside : ¬ smallCurve.Regular (.newUnchecked 1 3) := fun regular =>
    absurd regular.onCurve (by decide)
  have pointOn : g1Coordinates smallFromStr ("1", "2") = some (.newUnchecked 1 2) := by decide +kernel
  have pointOff : g1Coordinates smallFromStr ("1", "3") = some (.newUnchecked 1 3) := by decide +kernel
  obtain ⟨decodedOn, pairs⟩ := keys (.coordinates ("1", "2")) (.ofElement _ (.newUnchecked 1 2))
    (congrArg (Option.map _) pointOn)
  obtain ⟨decodedOff, -⟩ := keys (.coordinates ("1", "3")) (.ofElement _ (.newUnchecked 1 3))
    (congrArg (Option.map _) pointOff)
  obtain ⟨agree, -⟩ := pairs (.coordinates ("1", "3")) (.ofElement _ (.newUnchecked 1 3))
    (congrArg (Option.map _) pointOff)
  refine ⟨_, _, congrArg (Option.map _) pointOn, congrArg (Option.map _) pointOff,
    decodedOn.mpr fun point named => ?_, mt decodedOff.mp fun sound => ?_, mt agree.mp ?_⟩
  · rw [pointOn] at named
    exact Option.some.inj named ▸ onCurve
  · exact beside (sound _ pointOff)
  · exact not_not.mpr ⟨_, _, pointOn, pointOff, by decide, rfl, fun _ => ⟨rfl, by decide⟩⟩

end Restaking.Bn254
