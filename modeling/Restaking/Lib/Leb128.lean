import Mathlib.Algebra.Group.Nat.Defs
import Restaking.Lib.Codec

/-! Variable-length numbers: groups of seven bits, the least significant first,
every byte but the last marked in its top bit. A number has many spellings, one
for each number of zero groups put at its end; a reader that refuses such a zero
group leaves one. -/
namespace Restaking.Lib.Leb128

/-- These bytes spell a number. -/
inductive Spells : List UInt8 → Nat → Prop where
  | last (b : UInt8) : b.toNat < 128 → Spells [b] b.toNat
  | more (b : UInt8) {bytes : List UInt8} {n : Nat} : 128 ≤ b.toNat → Spells bytes n →
      Spells (b :: bytes) (b.toNat - 128 + 128 * n)

/-- The last of several groups is zero. -/
def OverLong (bytes : List UInt8) : Prop := 1 < bytes.length ∧ bytes.getLast? = some 0

instance (bytes : List UInt8) : Decidable (OverLong bytes) := inferInstanceAs (Decidable (_ ∧ _))

/-- The shortest spelling. -/
def spell (n : Nat) : List UInt8 :=
  if n < 128 then [n.toUInt8] else (n % 128 + 128).toUInt8 :: spell (n / 128)
termination_by n
decreasing_by omega

/-- A codec of 64-bit numbers that writes the shortest spelling and reads no
other: it refuses a string that ends within a number, a zero group at the end,
and more than 64 bits. -/
structure IsLeb128 {ε : Type*} (codec : Codec ε UInt64) : Prop where
  writes : ∀ value, codec.encode value = spell value.toNat
  reads : ∀ bytes value rest, codec.read bytes = .ok (value, rest) ↔
    ∃ groups, bytes = groups ++ rest ∧ Spells groups value.toNat ∧ ¬ OverLong groups
  measures : ∀ value, codec.encodeSize value = (spell value.toNat).length

variable {bytes rest groups : List UInt8} {n : Nat}

private theorem toNat_toUInt8 (small : n < 256) : n.toUInt8.toNat = n := by
  simp [Nat.mod_eq_of_lt small]

theorem spell_of_lt (small : n < 128) : spell n = [n.toUInt8] := by
  rw [spell, if_pos small]

theorem spell_of_le (large : 128 ≤ n) : spell n = (n % 128 + 128).toUInt8 :: spell (n / 128) := by
  rw [spell, if_neg (by omega)]

theorem spells_spell (n : Nat) : Spells (spell n) n := by
  induction n using Nat.strongRecOn with
  | ind n ih =>
    rcases lt_or_ge n 128 with small | large
    · have byte := toNat_toUInt8 (show n < 256 by omega)
      have whole := Spells.last n.toUInt8 (by omega)
      rwa [byte, ← spell_of_lt small] at whole
    · have byte := toNat_toUInt8 (show n % 128 + 128 < 256 by omega)
      have whole := Spells.more (n % 128 + 128).toUInt8 (by omega) (ih (n / 128) (by omega))
      rwa [byte, ← spell_of_le large, Nat.add_sub_cancel, Nat.mod_add_div] at whole

theorem Spells.ne_nil (spells : Spells groups n) : groups ≠ [] := by
  cases spells <;> exact List.cons_ne_nil _ _

/-- Groups put in front leave the last one as it is. -/
theorem getLast?_cons_of_spells {b : UInt8} (spells : Spells groups n) :
    (b :: groups).getLast? = groups.getLast? := by
  obtain ⟨b', more, rfl⟩ := List.exists_cons_of_ne_nil spells.ne_nil
  rw [List.getLast?_cons_cons]

theorem overLong_cons {b : UInt8} (spells : Spells groups n) (last : groups.getLast? = some 0) :
    OverLong (b :: groups) := by
  refine ⟨?_, by rw [getLast?_cons_of_spells spells, last]⟩
  rw [List.length_cons]
  exact Nat.succ_lt_succ (List.length_pos_iff.mpr spells.ne_nil)

/-- Zero is spelled with zero groups alone. -/
theorem Spells.last_eq_zero (spells : Spells groups n) (zero : n = 0) : groups.getLast? = some 0 := by
  induction spells with
  | last b small =>
    have same : b = 0 := UInt8.toNat_inj.mp zero
    rw [same]
    rfl
  | more b marked spells ih =>
    rw [getLast?_cons_of_spells spells]
    exact ih (by omega)

/-- The shortest spelling is the only one without a zero group at its end. -/
theorem Spells.eq_spell (spells : Spells groups n) (short : ¬ OverLong groups) : groups = spell n := by
  induction spells with
  | last b small => rw [spell_of_lt small, Nat.toUInt8, UInt8.ofNat_toNat]
  | @more b bytes n marked spells ih =>
    have nonzero : n ≠ 0 := fun zero => short (overLong_cons spells (spells.last_eq_zero zero))
    have shortTail : ¬ OverLong bytes := fun long => short (overLong_cons spells long.2)
    have large : 128 ≤ b.toNat - 128 + 128 * n := by omega
    have bound := b.toNat_lt
    have low : (b.toNat - 128 + 128 * n) % 128 + 128 = b.toNat := by omega
    have high : (b.toNat - 128 + 128 * n) / 128 = n := by omega
    rw [spell_of_le large, low, high, ← ih shortTail, Nat.toUInt8, UInt8.ofNat_toNat]

theorem eq_zero_of_last (last : (spell n).getLast? = some 0) : n = 0 := by
  induction n using Nat.strongRecOn with
  | ind n ih =>
    rcases lt_or_ge n 128 with small | large
    · rw [spell_of_lt small] at last
      have zero : n.toUInt8 = 0 := by simpa using last
      rw [← toNat_toUInt8 (show n < 256 by omega), zero]
      rfl
    · rw [spell_of_le large, getLast?_cons_of_spells (spells_spell _)] at last
      have zero := ih (n / 128) (by omega) last
      omega

theorem not_overLong_spell (n : Nat) : ¬ OverLong (spell n) := by
  rintro ⟨long, last⟩
  rw [eq_zero_of_last last, spell_of_lt (by decide)] at long
  exact absurd long (by decide)

/-- **The codec's laws.** -/
theorem IsLeb128.lawful {ε : Type*} {codec : Codec ε UInt64} (leb : IsLeb128 codec) :
    codec.Lawful where
  read_encode value _ rest := by
    rw [leb.reads, leb.writes]
    exact ⟨spell value.toNat, rfl, spells_spell _, not_overLong_spell _⟩
  consumed bytes value rest read := by
    obtain ⟨groups, rfl, spells, short⟩ := (leb.reads bytes value rest).mp read
    rw [leb.writes, ← spells.eq_spell short]
    exact ⟨trivial, rfl⟩
  measured value _ := by rw [leb.measures, leb.writes]

/-! ### A codec -/

/-- The bytes up to the first unmarked one, and those after it. -/
def scan : List UInt8 → Option (List UInt8 × List UInt8)
  | [] => none
  | b :: bytes =>
    if b.toNat < 128 then some ([b], bytes)
    else (scan bytes).map fun (groups, rest) => (b :: groups, rest)

/-- The number that groups spell. -/
def value : List UInt8 → Nat
  | [] => 0
  | b :: groups => b.toNat % 128 + 128 * value groups

theorem Spells.value_eq (spells : Spells groups n) : value groups = n := by
  induction spells with
  | last b small =>
    rw [value, value, Nat.mod_eq_of_lt small]
    rfl
  | more b marked spells ih =>
    have bound := b.toNat_lt
    rw [value, ih]
    omega

theorem Spells.scan_eq (spells : Spells groups n) : scan (groups ++ rest) = some (groups, rest) := by
  induction spells with
  | last b small => exact if_pos small
  | more b marked spells ih =>
    rw [List.cons_append, scan, if_neg (Nat.not_lt.mpr marked), ih]
    rfl

theorem scan_spells (scanned : scan bytes = some (groups, rest)) :
    bytes = groups ++ rest ∧ Spells groups (value groups) := by
  induction bytes generalizing groups with
  | nil => cases scanned
  | cons b bytes ih =>
    rw [scan] at scanned
    split at scanned
    · rename_i small
      cases scanned
      have spells := Spells.last b small
      exact ⟨rfl, spells.value_eq.symm ▸ spells⟩
    · rename_i marked
      obtain ⟨⟨groups', rest'⟩, inner, same⟩ := Option.map_eq_some_iff.mp scanned
      cases same
      obtain ⟨rfl, spells⟩ := ih inner
      have more := Spells.more b (Nat.not_lt.mp marked) spells
      exact ⟨rfl, more.value_eq.symm ▸ more⟩

/-- A codec as described. `short` is the error of a string that ends within a
number, `invalid` that of a spelling it refuses. -/
def codec {ε : Type*} (short invalid : ε) : Codec ε UInt64 where
  encode number := spell number.toNat
  read bytes := match scan bytes with
    | none => .error short
    | some (groups, rest) =>
      if OverLong groups ∨ 2 ^ 64 ≤ value groups then .error invalid
      else .ok (.ofNat (value groups), rest)
  encodeSize number := (spell number.toNat).length

theorem isLeb128_codec {ε : Type*} (short invalid : ε) : IsLeb128 (codec short invalid) where
  writes _ := rfl
  measures _ := rfl
  reads bytes number rest := by
    dsimp only [codec]
    constructor
    · intro read
      split at read
      · cases read
      · rename_i groups rest' scanned
        split at read
        · cases read
        · rename_i accepted
          obtain ⟨short, fits⟩ := not_or.mp accepted
          obtain ⟨rfl, spells⟩ := scan_spells scanned
          cases read
          refine ⟨groups, rfl, ?_, short⟩
          rwa [UInt64.toNat_ofNat_of_lt' (Nat.not_le.mp fits)]
    · rintro ⟨groups, rfl, spells, short⟩
      have fits := number.toNat_lt
      rw [spells.scan_eq]
      dsimp only
      rw [if_neg (by rw [spells.value_eq]; exact not_or.mpr ⟨short, Nat.not_le.mpr fits⟩),
        spells.value_eq, UInt64.ofNat_toNat]

end Restaking.Lib.Leb128
