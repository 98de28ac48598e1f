import Restaking.Bn254
import Restaking.Lib.Pairing

/-! Signing and verifying under BN254 keys (`core/src/bn254/mod.rs`), over groups
of one prime order with a pairing. The curve arithmetic and the hashes belong to
other crates and are parameters here. -/
namespace Restaking.Bn254
open Lib

/-- `[u8; DIGEST_LENGTH]`. -/
abbrev Digest32 := { bytes : List UInt8 // bytes.length = 32 }

/-- What the module takes from other crates. -/
structure Primitives (r : Nat) (G₁ G₂ GT : Type) [AddCommGroup G₁] [AddCommGroup G₂]
    [CommGroup GT] where
  pairing : Pairing r G₁ G₂ GT
  mapToCurve : Digest32 → G₁
  sha256 : List UInt8 → Digest32
  /-- A namespace and a message in one string. -/
  unionUnique : List UInt8 → List UInt8 → List UInt8
  /-- Compressed points of either group. -/
  g1 : Encoding G₁
  g2 : Encoding G₂

namespace Primitives

variable {r : Nat} {G₁ G₂ GT : Type} [AddCommGroup G₁] [AddCommGroup G₂] [CommGroup GT]
variable [DecidableEq G₁] [DecidableEq G₂]

section Definitions

variable (crates : Primitives r G₁ G₂ GT)

abbrev PublicKey := WireValue (publicKey crates.g2 (· = 0))
abbrev G1PublicKey := WireValue (g1PublicKey crates.g1 (· = 0))
abbrev Signature := WireValue (signature crates.g1 (· = 0))

/-- The 32 bytes that stand for a message: itself, if it looks like a digest. -/
def payload (namespaceBytes message : List UInt8) : Digest32 :=
  if digest : namespaceBytes = [] ∧ message.length = 32 then ⟨message, digest.2⟩
  else crates.sha256
    (if namespaceBytes = [] then message else crates.unionUnique namespaceBytes message)

variable [DecidableEq GT]

/-- `PublicKey::verify_digest`. -/
def verifyDigest (publicKey : crates.PublicKey) (digest : Digest32) (signature : crates.Signature) :
    Bool :=
  crates.pairing.pair (crates.mapToCurve digest) publicKey.key =
    crates.pairing.pair signature.key crates.pairing.generator

/-- `Verifier for Bn254`, of whose fields only the public point is looked at. -/
def verify (publicPoint : G₂) (namespaceBytes message : List UInt8) (signature : crates.Signature) :
    Bool :=
  crates.pairing.pair (crates.mapToCurve (crates.payload namespaceBytes message)) publicPoint =
    crates.pairing.pair signature.key crates.pairing.generator

omit [DecidableEq G₂] [DecidableEq GT] in
/-- `aggregate_signatures`. -/
def aggregateSignatures (signatures : List crates.Signature) : Option crates.Signature :=
  some (.ofElement _ (signatures.map WireValue.key).sum)

/-- `aggregate_verify`. -/
def aggregateVerify (publics : List crates.PublicKey) (namespaceBytes : Option (List UInt8))
    (message : List UInt8) (signature : crates.Signature) : Bool :=
  crates.verify (publics.map WireValue.key).sum (namespaceBytes.getD []) message signature

end Definitions

variable {crates : Primitives r G₁ G₂ GT}

omit [DecidableEq G₁] [DecidableEq G₂] in
/-- A digest without a namespace stands for itself. -/
theorem payload_digest (digest : Digest32) : crates.payload [] digest.1 = digest :=
  dif_pos ⟨rfl, digest.2⟩

theorem aggregateVerify_digest [DecidableEq GT] {publics : List crates.PublicKey}
    {digest : Digest32} {signature : crates.Signature} :
    crates.aggregateVerify publics none digest.1 signature = true ↔
      crates.pairing.pair (crates.mapToCurve digest) (publics.map WireValue.key).sum =
        crates.pairing.pair signature.key crates.pairing.generator := by
  rw [aggregateVerify, verify, Option.getD_none, payload_digest, decide_eq_true_iff]

end Primitives

end Restaking.Bn254
