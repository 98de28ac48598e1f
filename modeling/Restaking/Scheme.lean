import Mathlib.Data.List.Nodup
import Restaking.Lib.Threshold

/-! The verifier side of the BN254 multisig scheme (`core/src/bn254/scheme.rs`):
signer bitmaps, the quorum a certificate needs, and the keys a bitmap names. The
pairing check `aggregate_verify` is a parameter. Digests are 32 bytes, so
`item_digest` always finds them. -/
namespace Restaking
open Lib

/-- `Bn254Certificate`: a bitmap of participant indices and the aggregated
signature. -/
structure Bn254Certificate (S : Type*) where
  signers : List Bool
  signature : S
  deriving DecidableEq

namespace Bn254Certificate

variable {S : Type*}

/-- `Signers::iter`: the indices of the set bits in increasing order. -/
def indices (certificate : Bn254Certificate S) : List Nat :=
  (certificate.signers.zipIdx.filter (·.1)).map (·.2)

/-- `Signers::count`. -/
def count (certificate : Bn254Certificate S) : Nat := certificate.signers.countP id

@[simp] theorem length_indices (certificate : Bn254Certificate S) :
    certificate.indices.length = certificate.count := by
  have bits : certificate.signers = certificate.signers.zipIdx.map (·.1) := by simp
  rw [indices, List.length_map, count, bits, List.countP_map, List.countP_eq_length_filter, ← bits]
  rfl

theorem nodup_indices (certificate : Bn254Certificate S) : certificate.indices.Nodup := by
  have positions : (certificate.signers.zipIdx.map (·.2)).Nodup := by
    simp [List.nodup_range']
  exact positions.sublist ((List.filter_sublist).map _)

theorem mem_indices {certificate : Bn254Certificate S} {index : Nat} :
    index ∈ certificate.indices ↔ certificate.signers[index]? = some true := by
  rw [indices, List.mem_map]
  constructor
  · rintro ⟨⟨bit, position⟩, member, rfl⟩
    obtain ⟨listed, set⟩ := List.mem_filter.mp member
    rw [List.mem_zipIdx_iff_getElem?.mp listed]
    exact congrArg some set
  · intro set
    exact ⟨(true, index), List.mem_filter.mpr ⟨List.mem_zipIdx_iff_getElem?.mpr set, rfl⟩, rfl⟩

theorem lt_of_mem_indices {certificate : Bn254Certificate S} {index : Nat}
    (member : index ∈ certificate.indices) : index < certificate.signers.length := by
  obtain ⟨bit, set, rfl⟩ := List.mem_map.mp member
  simpa using List.snd_lt_of_mem_zipIdx (List.mem_of_mem_filter set)

end Bn254Certificate

/-- `Bn254Scheme` without a signer: the keys of the participants, one G1 key for
each G2 key. -/
structure Bn254Scheme (D P G S : Type*) where
  participants : List P
  g1Keys : List G
  distinct : participants.Nodup
  nonempty : participants ≠ []
  aligned : participants.length = g1Keys.length
  /-- `aggregate_verify`: one pairing check over the sum of the keys. -/
  aggregateVerify : List P → D → S → Bool

namespace Bn254Scheme

variable {D P G S : Type*} {scheme : Bn254Scheme D P G S} {certificate : Bn254Certificate S}
variable {digest : D}

/-- `signer_g2_keys`: the keys the bitmap names, indices without a key left out. -/
def signerG2Keys (scheme : Bn254Scheme D P G S) (certificate : Bn254Certificate S) : List P :=
  certificate.indices.filterMap (scheme.participants[·]?)

/-- `signer_g1_points`. -/
def signerG1Points (scheme : Bn254Scheme D P G S) (certificate : Bn254Certificate S) : List G :=
  certificate.indices.filterMap (scheme.g1Keys[·]?)

/-- `verify_certificate` under the fault model of the aggregation engine. -/
def verifyCertificate (scheme : Bn254Scheme D P G S) (digest : D)
    (certificate : Bn254Certificate S) : Bool :=
  if certificate.signers.length ≠ scheme.participants.length then false
  else if certificate.count < quorum scheme.participants.length then false
  else match certificate.indices.mapM (scheme.participants[·]?) with
    | none => false
    | some publics => scheme.aggregateVerify publics digest certificate.signature

private theorem length_filterMap_getElem? {α : Type*} {keys : List α} {positions : List Nat}
    (within : ∀ index ∈ positions, index < keys.length) :
    (positions.filterMap (keys[·]?)).length = positions.length := by
  induction positions with
  | nil => rfl
  | cons index rest ih =>
    obtain ⟨key, first⟩ : ∃ key, keys[index]? = some key :=
      ⟨_, List.getElem?_eq_getElem (within index (by simp))⟩
    simp [first, ih fun later member => within later (by simp [member])]

private theorem nodup_filterMap_getElem? {α : Type*} {keys : List α} {positions : List Nat}
    (distinct : keys.Nodup) (nodup : positions.Nodup) :
    (positions.filterMap (keys[·]?)).Nodup := by
  apply nodup.filterMap
  intro i j key atI atJ
  obtain ⟨boundI, rfl⟩ := List.getElem?_eq_some_iff.mp atI
  obtain ⟨boundJ, same⟩ := List.getElem?_eq_some_iff.mp atJ
  exact ((distinct.getElem_inj_iff).mp same).symm

theorem verified_length (verified : scheme.verifyCertificate digest certificate = true) :
    certificate.signers.length = scheme.participants.length := by
  unfold verifyCertificate at verified
  split at verified
  · cases verified
  · rename_i sized
    exact not_not.mp sized

/-- A verified certificate names a quorum of distinct participants, and as many
G1 points. -/
theorem verified_signers (verified : scheme.verifyCertificate digest certificate = true) :
    quorum scheme.participants.length ≤ (scheme.signerG2Keys certificate).length ∧
      (scheme.signerG2Keys certificate).Nodup ∧
      (scheme.signerG2Keys certificate).length = (scheme.signerG1Points certificate).length := by
  have sized := verified_length verified
  unfold verifyCertificate at verified
  rw [if_neg (not_not.mpr sized)] at verified
  split at verified
  · cases verified
  · rename_i enough
    have within : ∀ index ∈ certificate.indices, index < scheme.participants.length :=
      fun index member => (Bn254Certificate.lt_of_mem_indices member).trans_eq sized
    have keys := length_filterMap_getElem? within
    have points := length_filterMap_getElem? (scheme.aligned ▸ within)
    rw [Bn254Certificate.length_indices] at keys points
    exact ⟨(not_lt.mp enough).trans_eq keys.symm,
      nodup_filterMap_getElem? scheme.distinct certificate.nodup_indices,
      keys.trans points.symm⟩

end Bn254Scheme
end Restaking
