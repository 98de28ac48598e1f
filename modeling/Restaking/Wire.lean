import Mathlib.Algebra.Group.Nat.Defs

/-! The directives of the router's broadcast channel, the digest of an
abandoned height, and the two numeric conventions every actor shares. Heights
are naturals: `u64` subtraction saturates in the source, as it does here, and
the three unchecked additions `height + 1` go through `succHeight` in a build that
checks for overflow and through `wrapHeight` in the release build. -/
namespace Restaking

/-- `core/src/consensus/mod.rs::PRUNE_SLACK`. -/
def pruneSlack : Nat := 1024

/-- `height + 1` on a `u64`, with overflow checks. At `u64::MAX` the addition panics,
which takes the process down: the actor has no further step. -/
def succHeight (height : Nat) : Option Nat :=
  if height + 1 < 2 ^ 64 then some (height + 1) else none

/-- `height + 1` on a `u64`, without overflow checks. At `u64::MAX` it is 0. -/
def wrapHeight (height : Nat) : Option Nat :=
  some (if height + 1 < 2 ^ 64 then height + 1 else 0)

theorem succHeight_eq {height next : Nat} (within : succHeight height = some next) :
    next = height + 1 := by
  unfold succHeight at within
  split at within
  · exact (Option.some.inj within).symm
  · cases within

theorem succHeight_of_lt {height : Nat} (within : height + 1 < 2 ^ 64) :
    succHeight height = some (height + 1) := if_pos within

/-- `core/src/wire/mod.rs::TaskDirective`. -/
inductive TaskDirective (T : Type*) where
  /-- Assigns a task to a height. -/
  | announce (height : Nat) (task : T)
  /-- Abandons a height. -/
  | skip (height : Nat)
  /-- Node to router: the node's engine tip, in answer to a directive below it. -/
  | tipReport (height : Nat)
  deriving DecidableEq

namespace TaskDirective

variable {T : Type*}

instance [DecidableEq T] : LawfulBEq (TaskDirective T) := inferInstance

/-- `TaskDirective::height`. -/
def height : TaskDirective T → Nat
  | announce height _ => height
  | skip height => height
  | tipReport height => height

/-- `matches!(directive, TaskDirective::Announce { .. })`. -/
def isAnnounce : TaskDirective T → Bool
  | announce _ _ => true
  | _ => false

/-- `matches!(directive, TaskDirective::Skip { .. })`. -/
def isSkip : TaskDirective T → Bool
  | skip _ => true
  | _ => false

/-- `matches!(directive, TaskDirective::TipReport { .. })`. -/
def isTipReport : TaskDirective T → Bool
  | tipReport _ => true
  | _ => false

end TaskDirective

/-- `SKIP_DIGEST_SUFFIX`, the bytes of `_SKIP_V1`. -/
def skipDigestSuffix : List UInt8 := [0x5f, 0x53, 0x4b, 0x49, 0x50, 0x5f, 0x56, 0x31]

/-- `u64::to_be_bytes`. -/
def toBeBytes (value : Nat) : List UInt8 :=
  [56, 48, 40, 32, 24, 16, 8, 0].map fun shift => (value >>> shift).toUInt8

/-- `skip_digest`: the sentinel a quorum signs for a height without a task.
`sha256` is the hash of the cryptography crate. -/
def skipDigest {D : Type*} (sha256 : List UInt8 → D) (application : List UInt8) (height : Nat) : D :=
  sha256 (application ++ skipDigestSuffix ++ toBeBytes height)

/-- `commonware_codec::Error`, as far as a reader of the model returns it. -/
inductive CodecError where
  | endOfBuffer
  | extraData (remaining : Nat)
  | invalidVarint (size : Nat)
  | invalidLength (length : Nat)
  | invalidEnum (tag : UInt8)
  | invalid (context message : String)
  deriving DecidableEq

end Restaking
