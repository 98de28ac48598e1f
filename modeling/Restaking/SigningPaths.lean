import Restaking.Multisig

/-! The paths on which a message is signed or a signature checked
(`core/src/bn254/mod.rs`). Each derives the 32 bytes that it maps to the curve by
itself, from a namespace and a message or from a digest; all of them have to
derive the same, and the check against the sum of several keys has to be the
check of the sum of their signatures. -/
namespace Restaking

/-- `bn254/mod.rs::Bn254`: a private scalar and the point of its public key. -/
structure Bn254 (r : Nat) (G₂ : Type) where
  privateScalar : ZMod r
  publicPoint : G₂

namespace Bn254
open Lib

namespace Primitives

variable {r : Nat} {G₁ G₂ GT : Type} [AddCommGroup G₁] [AddCommGroup G₂] [CommGroup GT]
variable [DecidableEq G₁] [DecidableEq G₂]

section Definitions

variable (crates : Primitives r G₁ G₂ GT)

omit [DecidableEq G₁] [DecidableEq G₂] in
/-- `Bn254::from_scalar`. -/
def fromScalar (scalar : ZMod r) : Bn254 r G₂ where
  privateScalar := scalar
  publicPoint := scalar.val • crates.pairing.generator

/-- `Signer::sign`. -/
def sign (signer : Bn254 r G₂) (namespaceBytes message : List UInt8) : crates.Signature :=
  let hash : Digest32 :=
    if digest : namespaceBytes = [] ∧ message.length = 32 then
      digest.elim fun _ sized => ⟨message, sized⟩
    else
      let payload :=
        if namespaceBytes = [] then message else crates.unionUnique namespaceBytes message
      crates.sha256 payload
  .ofElement _ (signer.privateScalar.val • crates.mapToCurve hash)

/-- `Bn254::sign_digest`. -/
def signDigest (signer : Bn254 r G₂) (digest : Digest32) : crates.Signature :=
  .ofElement _ (signer.privateScalar.val • crates.mapToCurve digest)

/-- `Signer::public_key`. -/
def publicKeyOf (signer : Bn254 r G₂) : crates.PublicKey := .ofElement _ signer.publicPoint

variable [DecidableEq GT]

/-- `Verifier::verify` of a signer. -/
def signerVerify (signer : Bn254 r G₂) (namespaceBytes message : List UInt8)
    (signature : crates.Signature) : Bool :=
  crates.verify signer.publicPoint namespaceBytes message signature

/-- `Verifier::verify` of a public key. -/
def publicKeyVerify (publicKey : crates.PublicKey) (namespaceBytes message : List UInt8)
    (signature : crates.Signature) : Bool :=
  let hash : Digest32 :=
    if digest : namespaceBytes = [] ∧ message.length = 32 then
      digest.elim fun _ sized => ⟨message, sized⟩
    else
      let payload :=
        if namespaceBytes = [] then message else crates.unionUnique namespaceBytes message
      crates.sha256 payload
  crates.pairing.pair (crates.mapToCurve hash) publicKey.key =
    crates.pairing.pair signature.key crates.pairing.generator

end Definitions

variable {crates : Primitives r G₁ G₂ GT}
variable {scalar : ZMod r} {namespaceBytes message : List UInt8} {signature : crates.Signature}

omit [DecidableEq G₂] in
theorem sign_eq (signer : Bn254 r G₂) : crates.sign signer namespaceBytes message =
    .ofElement _ (signer.privateScalar.val •
      crates.mapToCurve (crates.payload namespaceBytes message)) := rfl

omit [DecidableEq G₂] in
/-- The raw digest is its own payload. -/
theorem sign_digest (signer : Bn254 r G₂) (digest : Digest32) :
    crates.sign signer [] digest.1 = crates.signDigest signer digest := by
  rw [sign_eq, payload_digest, signDigest]

section Verify

variable [DecidableEq GT]

theorem publicKeyVerify_eq (publicKey : crates.PublicKey) :
    crates.publicKeyVerify publicKey namespaceBytes message signature =
      (crates.pairing.pair (crates.mapToCurve (crates.payload namespaceBytes message)) publicKey.key =
        crates.pairing.pair signature.key crates.pairing.generator : Bool) := rfl

omit [DecidableEq G₂] in
/-- The pairing check against a sum of keys is an equation between points. -/
theorem verify_sum_iff (scalars : List (ZMod r)) :
    crates.verify (scalars.map fun scalar => (crates.fromScalar scalar).publicPoint).sum
        namespaceBytes message signature = true ↔
      signature.key = (scalars.map fun scalar =>
        (crates.sign (crates.fromScalar scalar) namespaceBytes message).key).sum := by
  let hash := crates.mapToCurve (crates.payload namespaceBytes message)
  have each : ∀ scalar ∈ scalars,
      crates.pairing.pair hash (crates.fromScalar scalar).publicPoint =
        crates.pairing.pair (crates.sign (crates.fromScalar scalar) namespaceBytes message).key
          crates.pairing.generator :=
    fun scalar _ => (crates.pairing.pair_nsmul scalar.val).symm
  rw [verify, decide_eq_true_iff, crates.pairing.pair_sum each, crates.pairing.pair_generator_inj,
    eq_comm]

omit [DecidableEq G₂] in
theorem verify_iff : crates.verify (crates.fromScalar scalar).publicPoint namespaceBytes message
      signature = true ↔
    signature.key = (crates.sign (crates.fromScalar scalar) namespaceBytes message).key := by
  have one : crates.verify ([scalar].map fun scalar => (crates.fromScalar scalar).publicPoint).sum
      namespaceBytes message signature = true ↔ _ := verify_sum_iff [scalar]
  rwa [List.map_singleton, List.map_singleton, List.sum_singleton, List.sum_singleton] at one

/-- **All paths agree on the payload.** A key's own check and its signer's give one
answer, and accept the signature of the private scalar and no other point. On a
32-byte message without a namespace, signing and the three ways to verify are
those of the raw digest. Every list of keys belongs to a list of scalars; the
aggregate check of the keys, in any order, accepts the sum of the signatures of
the scalars and no other point. -/
theorem signing_paths_agree (crates : Primitives r G₁ G₂ GT) :
    (∀ (scalar : ZMod r) (publicKey : crates.PublicKey),
      publicKey.key = (crates.fromScalar scalar).publicPoint →
      (∀ namespaceBytes message (signature : crates.Signature),
        crates.publicKeyVerify publicKey namespaceBytes message signature =
          crates.signerVerify (crates.fromScalar scalar) namespaceBytes message signature ∧
        (crates.publicKeyVerify publicKey namespaceBytes message signature = true ↔
          signature.key = (crates.sign (crates.fromScalar scalar) namespaceBytes message).key)) ∧
      ∀ (digest : Digest32) (signature : crates.Signature),
        crates.sign (crates.fromScalar scalar) [] digest.1 =
          crates.signDigest (crates.fromScalar scalar) digest ∧
        crates.publicKeyVerify publicKey [] digest.1 signature =
          crates.verifyDigest publicKey digest signature ∧
        ∀ namespaceBytes : Option (List UInt8), namespaceBytes.getD [] = [] →
          crates.aggregateVerify [publicKey] namespaceBytes digest.1 signature =
            crates.verifyDigest publicKey digest signature) ∧
    (∀ keys : List crates.PublicKey, ∃ scalars : List (ZMod r),
      keys.map WireValue.key = scalars.map fun scalar => (crates.fromScalar scalar).publicPoint) ∧
    ∀ (keys : List crates.PublicKey) (scalars : List (ZMod r)),
      keys.map WireValue.key = scalars.map (fun scalar => (crates.fromScalar scalar).publicPoint) →
      ∀ namespaceBytes message (signature : crates.Signature) (reordered : List crates.PublicKey),
        reordered.Perm keys →
        (crates.aggregateVerify reordered namespaceBytes message signature = true ↔
          ∃ total, crates.aggregateSignatures (scalars.map fun scalar =>
              crates.sign (crates.fromScalar scalar) (namespaceBytes.getD []) message) = some total ∧
            signature.key = total.key) := by
  refine ⟨fun scalar publicKey same => ⟨fun namespaceBytes message signature => ⟨?_, ?_⟩,
    fun digest signature => ⟨sign_digest _ digest, ?_, fun namespaceBytes none => ?_⟩⟩,
    fun keys => ?_, fun keys scalars same namespaceBytes message signature reordered perm => ?_⟩
  · rw [signerVerify, ← same]
    rfl
  · rw [← verify_iff, ← same]
    rfl
  · rw [publicKeyVerify_eq, payload_digest, verifyDigest]
  · rw [aggregateVerify, none, verify, payload_digest, verifyDigest, List.map_singleton,
      List.sum_singleton]
  · induction keys with
    | nil => exact ⟨[], rfl⟩
    | cons key keys ih =>
      obtain ⟨scalars, others⟩ := ih
      obtain ⟨scalar, first⟩ := crates.pairing.exists_val_nsmul key.key
      exact ⟨scalar :: scalars, by rw [List.map_cons, List.map_cons, others, first]; rfl⟩
  · have sum : (reordered.map WireValue.key).sum =
        (scalars.map fun scalar => (crates.fromScalar scalar).publicPoint).sum := by
      rw [← same]
      exact (perm.map _).sum_eq
    rw [aggregateVerify, sum, verify_sum_iff]
    simp [aggregateSignatures, WireValue.ofElement, Function.comp_def]

end Verify

end Primitives

/-- The signature of the secret 3 passes all checks of its key, and the signatures of
1 and 2 pass the check of their two keys in the other order when they are added. -/
theorem small_signatures_verify :
    let signer (n : Nat) := smallCrates.fromScalar (residue n)
    let signed (n : Nat) := smallCrates.sign (signer n) [] smallDigest.1
    smallCrates.publicKeyVerify (smallCrates.publicKeyOf (signer 3)) [] smallDigest.1 (signed 3) ∧
      smallCrates.aggregateVerify [smallCrates.publicKeyOf (signer 3)] (some []) smallDigest.1
          (signed 3) =
        smallCrates.verifyDigest (smallCrates.publicKeyOf (signer 3)) smallDigest (signed 3) ∧
      smallCrates.aggregateVerify
        [smallCrates.publicKeyOf (signer 2), smallCrates.publicKeyOf (signer 1)] none smallDigest.1
        (.ofElement _ ((signed 1).key + (signed 2).key)) := by
  intro signer signed
  obtain ⟨single, -, several⟩ := Primitives.signing_paths_agree smallCrates
  obtain ⟨verifies, digests⟩ := single (residue 3) (smallCrates.publicKeyOf (signer 3)) rfl
  refine ⟨(verifies [] smallDigest.1 (signed 3)).2.mpr rfl,
    (digests smallDigest (signed 3)).2.2 (some []) rfl, ?_⟩
  refine (several [smallCrates.publicKeyOf (signer 1), smallCrates.publicKeyOf (signer 2)]
    [residue 1, residue 2] rfl none smallDigest.1 _ _ (.swap _ _ _)).mpr ⟨_, rfl, ?_⟩
  exact (congrArg ((signed 1).key + ·) (add_zero (signed 2).key)).symm
end Bn254
end Restaking
