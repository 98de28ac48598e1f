import Mathlib.Data.Set.Basic
import Mathlib.Data.List.Basic

/-! Values as byte strings. A reader takes a value off the front of a string or
fails; a codec pairs a reader with a writer. The laws ask that a reader finds
what was written, whatever follows, and that it consumes nothing but what would
have been written: then whole strings are decoded from one spelling each, and no
spelling begins another. -/
namespace Restaking.Lib

universe u v

/-- A value and the bytes that follow it, or an error. -/
def Reader (ε : Type v) (α : Type u) : Type (max u v) :=
  List UInt8 → Except ε (α × List UInt8)

namespace Reader

variable {ε : Type v} {α β : Type u} {bytes rest : List UInt8} {b : β}

instance : Monad (Reader ε) where
  pure a bytes := .ok (a, bytes)
  bind reader next bytes := match reader bytes with
    | .ok (a, rest) => next a rest
    | .error error => .error error

/-- A reader that fails. -/
def fail (error : ε) : Reader ε α := fun _ => .error error

/-- One byte, or the error of a string that ends too early. -/
def byte (short : ε) : Reader ε UInt8
  | [] => .error short
  | b :: rest => .ok (b, rest)

theorem bind_of_ok {reader : Reader ε α} {next : α → Reader ε β} {a : α}
    (read : reader bytes = .ok (a, rest)) : (reader >>= next) bytes = next a rest := by
  change (match reader bytes with
    | .ok (a, middle) => next a middle
    | .error error => .error error) = _
  rw [read]

theorem bind_ok {reader : Reader ε α} {next : α → Reader ε β} :
    (reader >>= next) bytes = .ok (b, rest) ↔
      ∃ a middle, reader bytes = .ok (a, middle) ∧ next a middle = .ok (b, rest) := by
  cases read : reader bytes with
  | error error =>
    have failed : (reader >>= next) bytes = .error error := by
      change (match reader bytes with
        | .ok (a, middle) => next a middle
        | .error error => .error error) = _
      rw [read]
    simp [failed]
  | ok found =>
    obtain ⟨a, middle⟩ := found
    rw [bind_of_ok read]
    simp

theorem pure_ok {b' : β} : (pure b : Reader ε β) bytes = .ok (b', rest) ↔ b' = b ∧ rest = bytes := by
  change Except.ok (b, bytes) = _ ↔ _
  simp [eq_comm]

theorem fail_ok {error : ε} : (fail error : Reader ε β) bytes = .ok (b, rest) ↔ False := by
  simp [fail]

theorem byte_ok {short : ε} {b : UInt8} : byte short bytes = .ok (b, rest) ↔ bytes = b :: rest := by
  cases bytes <;> simp [byte]

end Reader

/-- How values are written, read and measured. -/
structure Codec (ε : Type v) (α : Type u) where
  encode : α → List UInt8
  read : Reader ε α
  encodeSize : α → Nat

namespace Codec

variable {ε : Type v} {α : Type u} {codec : Codec ε α} {values : Set α}
variable {bytes bytes' rest : List UInt8} {a a' : α} {trailing : Nat → ε}

/-- A whole string as one value: nothing may follow it. -/
def decode (codec : Codec ε α) (trailing : Nat → ε) (bytes : List UInt8) : Except ε α :=
  match codec.read bytes with
  | .ok (a, []) => .ok a
  | .ok (_, rest) => .error (trailing rest.length)
  | .error error => .error error

/-- On these values, and on no others, what is written is what is read. -/
structure LawfulOn (codec : Codec ε α) (values : Set α) : Prop where
  read_encode : ∀ a ∈ values, ∀ rest, codec.read (codec.encode a ++ rest) = .ok (a, rest)
  consumed : ∀ bytes a rest, codec.read bytes = .ok (a, rest) →
    a ∈ values ∧ bytes = codec.encode a ++ rest
  measured : ∀ a ∈ values, codec.encodeSize a = (codec.encode a).length

/-- On all values. -/
abbrev Lawful (codec : Codec ε α) : Prop := codec.LawfulOn Set.univ

theorem decode_ok : codec.decode trailing bytes = .ok a ↔ codec.read bytes = .ok (a, []) := by
  unfold decode
  split <;> simp_all

namespace LawfulOn

theorem read_ok (lawful : codec.LawfulOn values) :
    codec.read bytes = .ok (a, rest) ↔ a ∈ values ∧ bytes = codec.encode a ++ rest := by
  constructor
  · exact lawful.consumed bytes a rest
  · rintro ⟨member, rfl⟩
    exact lawful.read_encode a member rest

/-- A string is decoded to a value exactly when it is the value's encoding. -/
theorem decode_iff (lawful : codec.LawfulOn values) :
    codec.decode trailing bytes = .ok a ↔ a ∈ values ∧ bytes = codec.encode a := by
  rw [decode_ok, lawful.read_ok, List.append_nil]

theorem encode_injOn (lawful : codec.LawfulOn values) : Set.InjOn codec.encode values := by
  intro a member a' member' same
  have first := lawful.read_encode a member []
  rw [same, lawful.read_encode a' member' []] at first
  cases first
  rfl

/-- No encoding begins another. -/
theorem eq_of_prefix (lawful : codec.LawfulOn values) (accepted : codec.decode trailing bytes = .ok a)
    (accepted' : codec.decode trailing bytes' = .ok a') (begins : bytes <+: bytes') :
    bytes = bytes' := by
  obtain ⟨member, rfl⟩ := lawful.decode_iff.mp accepted
  obtain ⟨more, rfl⟩ := begins
  have whole := decode_ok.mp accepted'
  rw [lawful.read_encode a member more] at whole
  cases whole
  exact (List.append_nil _).symm

end LawfulOn

end Codec

end Restaking.Lib
