import Restaking.Lib.Leb128
import Restaking.Wire

/-! The byte form of the router's directives (`core/src/wire/mod.rs`) and of the
counter's task (`examples/counter/common/src/types.rs`). The writer of numbers
and the codec of a task are parameters; what is read is exactly what is written
as long as they keep their laws. -/
namespace Restaking
open Lib Leb128

/-- The crate's `UInt` of a `u64`. -/
def uint64 : Codec CodecError UInt64 := Leb128.codec .endOfBuffer (.invalidVarint 8)

/-- `types.rs::CounterTaskData`. -/
structure CounterTaskData where
  round : UInt64
  deriving DecidableEq

namespace CounterTaskData

variable {uint : Codec CodecError UInt64}

/-- The counter's `Write`, `Read` and `EncodeSize`. -/
def codec (uint : Codec CodecError UInt64) : Codec CodecError CounterTaskData where
  encode task := uint.encode task.round
  read := do
    let round ← uint.read
    return { round }
  encodeSize task := uint.encodeSize task.round

theorem codec_lawful (leb : IsLeb128 uint) : (codec uint).Lawful where
  read_encode task _ rest :=
    Reader.bind_ok.mpr ⟨task.round, rest, leb.lawful.read_encode _ trivial rest, rfl⟩
  consumed bytes task rest read := by
    obtain ⟨round, middle, number, built⟩ := Reader.bind_ok.mp read
    obtain ⟨rfl, rfl⟩ := Reader.pure_ok.mp built
    exact leb.lawful.consumed bytes round rest number
  measured task _ := leb.lawful.measured task.round trivial

end CounterTaskData

namespace TaskDirective

def tagAnnounce : UInt8 := 0
def tagSkip : UInt8 := 1
def tagTipReport : UInt8 := 2

section Codec

variable {T : Type} (uint : Codec CodecError UInt64) (task : Codec CodecError T)

/-- `Write for TaskDirective`. -/
def write : TaskDirective T → List UInt8
  | announce height t => tagAnnounce :: (uint.encode height.toUInt64 ++ task.encode t)
  | skip height => tagSkip :: uint.encode height.toUInt64
  | tipReport height => tagTipReport :: uint.encode height.toUInt64

/-- `Read for TaskDirective`: the height is read before the tag is looked at. -/
def readCfg : Reader CodecError (TaskDirective T) := do
  let tag ← Reader.byte .endOfBuffer
  let height ← uint.read
  if tag = tagAnnounce then
    let t ← task.read
    return announce height.toNat t
  else if tag = tagSkip then return skip height.toNat
  else if tag = tagTipReport then return tipReport height.toNat
  else Reader.fail (.invalidEnum tag)

/-- `EncodeSize for TaskDirective`. -/
def encodeSize (directive : TaskDirective T) : Nat :=
  let tagAndHeight := 1 + uint.encodeSize directive.height.toUInt64
  match directive with
  | announce _ t => tagAndHeight + task.encodeSize t
  | skip _ | tipReport _ => tagAndHeight

def codec : Codec CodecError (TaskDirective T) where
  encode := write uint task
  read := readCfg uint task
  encodeSize := encodeSize uint task

/-- `DecodeExt::decode`. -/
def decode (bytes : List UInt8) : Except CodecError (TaskDirective T) :=
  (codec uint task).decode .extraData bytes

end Codec

variable {T : Type} {uint : Codec CodecError UInt64} {task : Codec CodecError T}
variable {bytes rest : List UInt8} {directive : TaskDirective T}

/-- The directives whose height is a `u64`. -/
def Sized : Set (TaskDirective T) := {directive | directive.height < 2 ^ 64}

/-- What a successful read found, step by step. -/
theorem readCfg_ok : readCfg uint task bytes = .ok (directive, rest) ↔
    ∃ tag height middle after, bytes = tag :: middle ∧ uint.read middle = .ok (height, after) ∧
      ((tag = tagAnnounce ∧ ∃ t, task.read after = .ok (t, rest) ∧
          directive = announce height.toNat t) ∨
        (tag = tagSkip ∧ after = rest ∧ directive = skip height.toNat) ∨
        (tag = tagTipReport ∧ after = rest ∧ directive = tipReport height.toNat)) := by
  unfold readCfg
  simp only [Reader.bind_ok, Reader.byte_ok]
  constructor
  · rintro ⟨tag, middle, rfl, height, after, number, read⟩
    refine ⟨tag, height, middle, after, rfl, number, ?_⟩
    split at read
    · rename_i announced
      obtain ⟨t, last, payload, built⟩ := Reader.bind_ok.mp read
      obtain ⟨same, rfl⟩ := Reader.pure_ok.mp built
      exact .inl ⟨announced, t, payload, same⟩
    · split at read
      · rename_i skipped
        obtain ⟨same, rfl⟩ := Reader.pure_ok.mp read
        exact .inr (.inl ⟨skipped, rfl, same⟩)
      · split at read
        · rename_i reported
          obtain ⟨same, rfl⟩ := Reader.pure_ok.mp read
          exact .inr (.inr ⟨reported, rfl, same⟩)
        · exact (Reader.fail_ok.mp read).elim
  · rintro ⟨tag, height, middle, after, rfl, number, found⟩
    refine ⟨tag, middle, rfl, height, after, number, ?_⟩
    rcases found with ⟨rfl, t, payload, rfl⟩ | ⟨rfl, rfl, rfl⟩ | ⟨rfl, rfl, rfl⟩
    · rw [if_pos rfl]
      exact Reader.bind_ok.mpr ⟨t, rest, payload, rfl⟩
    · rw [if_neg (by decide), if_pos rfl]
      rfl
    · rw [if_neg (by decide), if_neg (by decide), if_pos rfl]
      rfl

theorem write_read (leb : IsLeb128 uint) (lawful : task.Lawful) (sized : directive ∈ Sized)
    (rest : List UInt8) :
    readCfg uint task (write uint task directive ++ rest) = .ok (directive, rest) := by
  have number (height : Nat) (after : List UInt8) :=
    leb.lawful.read_encode height.toUInt64 trivial after
  have kept : directive.height.toUInt64.toNat = directive.height := UInt64.toNat_ofNat_of_lt' sized
  refine readCfg_ok.mpr ?_
  cases directive with
  | announce h t =>
    refine ⟨_, h.toUInt64, _, task.encode t ++ rest, rfl, ?_, .inl ⟨rfl, t, ?_, ?_⟩⟩
    · rw [List.append_eq, List.append_assoc]
      exact number h _
    · exact lawful.read_encode t trivial rest
    · exact congrArg (announce · t) kept.symm
  | skip h =>
    exact ⟨_, _, _, rest, rfl, number h rest, .inr (.inl ⟨rfl, rfl, congrArg skip kept.symm⟩)⟩
  | tipReport h =>
    exact ⟨_, _, _, rest, rfl, number h rest,
      .inr (.inr ⟨rfl, rfl, congrArg tipReport kept.symm⟩)⟩

theorem read_written (leb : IsLeb128 uint) (lawful : task.Lawful)
    (read : readCfg uint task bytes = .ok (directive, rest)) :
    directive ∈ Sized ∧ bytes = write uint task directive ++ rest := by
  obtain ⟨tag, height, middle, after, rfl, number, found⟩ := readCfg_ok.mp read
  obtain ⟨-, rfl⟩ := leb.lawful.consumed _ _ _ number
  have same : height.toNat.toUInt64 = height := UInt64.ofNat_toNat
  rcases found with ⟨rfl, t, payload, rfl⟩ | ⟨rfl, rfl, rfl⟩ | ⟨rfl, rfl, rfl⟩
  · obtain ⟨-, rfl⟩ := lawful.consumed _ _ _ payload
    exact ⟨height.toNat_lt, by simp [write, same]⟩
  · exact ⟨height.toNat_lt, by simp [write, same]⟩
  · exact ⟨height.toNat_lt, by simp [write, same]⟩

theorem length_write (leb : IsLeb128 uint) (lawful : task.Lawful) (directive : TaskDirective T) :
    encodeSize uint task directive = (write uint task directive).length := by
  have number (height : Nat) := leb.lawful.measured height.toUInt64 trivial
  cases directive with
  | announce h t =>
    have payload := lawful.measured t trivial
    simp only [encodeSize, write, height, number, payload, List.length_cons, List.length_append]
    omega
  | skip h =>
    simp only [encodeSize, write, height, number, List.length_cons]
    omega
  | tipReport h =>
    simp only [encodeSize, write, height, number, List.length_cons]
    omega

/-- A directive is read from what its writer wrote, and from nothing else. -/
theorem codec_lawful (leb : IsLeb128 uint) (lawful : task.Lawful) :
    (codec uint task).LawfulOn Sized where
  read_encode _ sized rest := write_read leb lawful sized rest
  consumed _ _ _ read := read_written leb lawful read
  measured directive _ := length_write leb lawful directive

/-- **Directives and their encodings correspond one to one.** For numbers in
LEB128 and a task with a lawful codec, every directive with a `u64` height is
decoded from its encoding, which has the announced size; nothing else is decoded
to it; and no encoding is a proper prefix of another. The counter's task has a
lawful codec. -/
theorem directive_codec_one_to_one (uint : Codec CodecError UInt64) (task : Codec CodecError T)
    (leb : IsLeb128 uint) (lawful : task.Lawful) :
    (∀ directive : TaskDirective T, directive.height < 2 ^ 64 →
      decode uint task (write uint task directive) = .ok directive ∧
        (write uint task directive).length = encodeSize uint task directive) ∧
    (∀ bytes directive, decode uint task bytes = .ok directive →
      directive.height < 2 ^ 64 ∧ bytes = write uint task directive) ∧
    (∀ directive directive' : TaskDirective T, directive.height < 2 ^ 64 →
      directive'.height < 2 ^ 64 → directive ≠ directive' →
      write uint task directive ≠ write uint task directive') ∧
    (∀ bytes directive, decode uint task bytes = .ok directive → ∀ bytes', bytes' ≠ bytes →
      bytes' <+: bytes ∨ bytes <+: bytes' →
      ∀ directive', decode uint task bytes' ≠ .ok directive') ∧
    (CounterTaskData.codec uint).Lawful := by
  have whole := codec_lawful leb lawful
  refine ⟨fun directive sized => ⟨whole.decode_iff.mpr ⟨sized, rfl⟩, ?_⟩, ?_, ?_, ?_,
    CounterTaskData.codec_lawful leb⟩
  · exact (length_write leb lawful directive).symm
  · exact fun bytes directive accepted => whole.decode_iff.mp accepted
  · exact fun directive directive' sized sized' => mt (whole.encode_injOn sized sized')
  · intro bytes directive accepted bytes' other nested directive' accepted'
    rcases nested with shorter | longer
    · exact other (whole.eq_of_prefix accepted' accepted shorter)
    · exact other (whole.eq_of_prefix accepted accepted' longer).symm

/-- The counter's directives over the crate's numbers. -/
theorem counter_directives_one_to_one :
    (∀ directive : TaskDirective CounterTaskData, directive.height < 2 ^ 64 →
      decode uint64 (CounterTaskData.codec uint64)
        (write uint64 (CounterTaskData.codec uint64) directive) = .ok directive) ∧
    decode uint64 (CounterTaskData.codec uint64) [0, 0xac, 0x02, 42] =
      .ok (announce 300 ⟨42⟩) := by
  have leb := isLeb128_codec CodecError.endOfBuffer (.invalidVarint 8)
  have laws := directive_codec_one_to_one uint64 (CounterTaskData.codec uint64) leb
    (CounterTaskData.codec_lawful leb)
  exact ⟨fun directive sized => (laws.1 directive sized).1, by decide +kernel⟩

end TaskDirective

end Restaking
