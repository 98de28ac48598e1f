import Restaking.Lib.FixedWidth
import Restaking.Wire

/-! The two digests a node can sign for a height, the counter task's and the skip
digest, and what their preimages share: nothing. The hash is a parameter that is
free of collisions on the preimages compared. -/
namespace Restaking
open Lib

variable {D : Type*} {sha256 : List UInt8 → D} {involved : Set (List UInt8)}
variable {application application' : List UInt8} {height height' round value : Nat}

/-- `abi_encode` of a `U256`: one word, the most significant byte first. -/
def abiEncode (value : Nat) : List UInt8 := (LittleEndian.digits 32 value).reverse

/-- `examples/counter/common/src/validator.rs::expected_digest`. -/
def expectedDigest (sha256 : List UInt8 → D) (round : Nat) : D := sha256 (abiEncode round)

/-- The bytes that `skip_digest` hashes. -/
def skipPreimage (application : List UInt8) (height : Nat) : List UInt8 :=
  application ++ skipDigestSuffix ++ toBeBytes height

theorem skipDigest_eq : skipDigest sha256 application height = sha256 (skipPreimage application height) :=
  rfl

/-- The big-endian bytes are the little-endian digits the other way round. -/
theorem toBeBytes_eq (value : Nat) : toBeBytes value = (LittleEndian.digits 8 value).reverse := by
  have byte (n : Nat) : (n % 256).toUInt8 = n.toUInt8 := UInt8.ofNat_mod_size
  simp only [toBeBytes, List.map_cons, List.map_nil, Nat.shiftRight_eq_div_pow, Nat.pow_zero,
    Nat.div_one, LittleEndian.digits, byte, Nat.div_div_eq_div_mul]
  rfl

theorem toBeBytes_injOn : Set.InjOn toBeBytes {height | height < 2 ^ 64} := by
  intro height within height' within' same
  rw [toBeBytes_eq, toBeBytes_eq] at same
  exact LittleEndian.digits_injOn 8 within within' (List.reverse_injective same)

/-- A `u64` fills the last eight bytes of its word. -/
theorem abiEncode_of_u64 (within : value < 2 ^ 64) :
    abiEncode value = List.replicate 24 0 ++ toBeBytes value := by
  rw [abiEncode, LittleEndian.digits_add_of_lt 24 within, List.reverse_append,
    List.reverse_replicate, toBeBytes_eq]

/-- Suffix and height have a fixed width, so the preimage determines where the
namespace ends. -/
theorem skipPreimage_inj (within : height < 2 ^ 64) (within' : height' < 2 ^ 64)
    (same : skipPreimage application height = skipPreimage application' height') :
    application = application' ∧ height = height' := by
  obtain ⟨front, back⟩ := List.append_inj' same rfl
  exact ⟨List.append_cancel_right front, toBeBytes_injOn within within' back⟩

/-- Where a skip preimage has its suffix, the word of a `u64` has zeros. -/
theorem skipPreimage_ne_abiEncode (within : round < 2 ^ 64) :
    skipPreimage application height ≠ abiEncode round := by
  intro same
  have padding : List.replicate 24 (0 : UInt8) = List.replicate 16 0 ++ List.replicate 8 0 := rfl
  rw [abiEncode_of_u64 within, padding] at same
  obtain ⟨front, -⟩ := List.append_inj' same rfl
  obtain ⟨-, suffix⟩ := List.append_inj' front rfl
  exact absurd suffix (by decide)

/-- `skip_digest` is one to one on heights and namespaces. -/
theorem skipDigest_inj (collisionFree : Set.InjOn sha256 involved)
    (hashed : skipPreimage application height ∈ involved)
    (hashed' : skipPreimage application' height' ∈ involved)
    (within : height < 2 ^ 64) (within' : height' < 2 ^ 64)
    (same : skipDigest sha256 application height = skipDigest sha256 application' height') :
    application = application' ∧ height = height' := by
  rw [skipDigest_eq, skipDigest_eq] at same
  exact skipPreimage_inj within within' (collisionFree hashed hashed' same)

theorem skipDigest_ne_expectedDigest (collisionFree : Set.InjOn sha256 involved)
    (hashed : skipPreimage application height ∈ involved) (hashed' : abiEncode round ∈ involved)
    (within : round < 2 ^ 64) :
    skipDigest sha256 application height ≠ expectedDigest sha256 round := by
  rw [skipDigest_eq, expectedDigest]
  intro same
  exact skipPreimage_ne_abiEncode within (collisionFree hashed hashed' same)

end Restaking
