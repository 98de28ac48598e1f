import Restaking.Scheme
import Restaking.Signing

/-! The certificates of the BN254 multisig scheme (`core/src/bn254/scheme.rs`):
how acks become a certificate, which certificates verify, and which byte strings
are decoded to one. An item is signed by its digest alone. -/
namespace Restaking.Bn254
open Lib

/-- `Item`: a height and a digest of any width. -/
structure Item where
  height : Nat
  digest : List UInt8

/-- `item_digest`. -/
def itemDigest (item : Item) : Option Digest32 :=
  if sized : item.digest.length = 32 then some ⟨item.digest, sized⟩ else none

/-- `Signers::from`, which panics (`none`) on an index that is out of range or listed
twice. -/
def signersFrom (participants : Nat) (signers : List Nat) : Option (List Bool) :=
  if signers.Nodup ∧ ∀ signer ∈ signers, signer < participants then
    some ((List.range participants).map (· ∈ signers))
  else none

theorem signersFrom_distinct {participants : Nat} {signers : List Nat} (distinct : signers.Nodup)
    (within : ∀ signer ∈ signers, signer < participants) :
    signersFrom participants signers =
      some ((List.range participants).map fun index => decide (index ∈ signers)) :=
  if_pos ⟨distinct, within⟩

/-- The codec of the crate's `Signers`, configured by an upper bound. -/
structure SignersCodec where
  write : List Bool → List UInt8
  readCfg : Nat → Reader CodecError (List Bool)
  encodeSize : List Bool → Nat

/-- With this bound, it is lawful on the bitmaps of at most that length. -/
def SignersCodec.Canonical (signers : SignersCodec) (bound : Nat) : Prop :=
  (Codec.mk signers.write (signers.readCfg bound) signers.encodeSize).LawfulOn
    {bits | bits.length ≤ bound}

namespace Primitives

variable {r : Nat} {G₁ G₂ GT : Type} [AddCommGroup G₁] [AddCommGroup G₂] [CommGroup GT]
variable [DecidableEq G₁] [DecidableEq G₂]

section Definitions

variable (crates : Primitives r G₁ G₂ GT)

abbrev Scheme := Bn254Scheme Digest32 crates.PublicKey crates.G1PublicKey crates.Signature

abbrev Certificate := Bn254Certificate crates.Signature

/-- An ack: an index and a signature, `none` where the bytes of `Lazy` do not
decode. -/
structure Attestation where
  signer : Nat
  signature : Option crates.Signature

/-- One turn of the loop of `assemble`. -/
def entry (scheme : crates.Scheme) (attestation : crates.Attestation) :
    Option (Nat × crates.Signature) :=
  if scheme.participants.length ≤ attestation.signer then none
  else attestation.signature.map (attestation.signer, ·)

/-- `assemble` under a fault model. The outer `none` is a panic. -/
def assemble (scheme : crates.Scheme) (quorumOf : Nat → Nat)
    (attestations : List crates.Attestation) : Option (Option crates.Certificate) :=
  match attestations.mapM (crates.entry scheme) with
  | none => some none
  | some entries =>
    if entries.length < quorumOf scheme.participants.length then some none
    else match signersFrom scheme.participants.length (entries.map (·.1)) with
      | none => none
      | some signers => some ((crates.aggregateSignatures (entries.map (·.2))).map
          fun signature => { signers, signature })

/-- `Write`, `Read` and `EncodeSize` for `Bn254Certificate`. -/
def certificateCodec (signers : SignersCodec) (maxParticipants : Nat) :
    Codec CodecError crates.Certificate where
  encode certificate := signers.write certificate.signers ++ certificate.signature.raw
  read := do
    let bits ← signers.readCfg maxParticipants
    if bits.countP id = 0 then
      Reader.fail (.invalid "bn254::Bn254Certificate" "Certificate contains no signers")
    else
      let signature ← WireValue.readCfg _
      return { signers := bits, signature }
  encodeSize certificate := signers.encodeSize certificate.signers + crates.g1.size

/-- `certificate_codec_config`. -/
def certificateCodecConfig (scheme : crates.Scheme) : Nat := scheme.participants.length

/-- Decoding under the scheme's configuration. -/
def decodeCertificate (signers : SignersCodec) (scheme : crates.Scheme) (bytes : List UInt8) :
    Except CodecError crates.Certificate :=
  (crates.certificateCodec signers (crates.certificateCodecConfig scheme)).decode .extraData bytes

/-- The point of a participant's key. -/
def keyAt (scheme : crates.Scheme) (index : Nat) : G₂ :=
  (scheme.participants[index]?).elim 0 WireValue.key

/-- The sum of the keys that a bitmap names. -/
def keySum (scheme : crates.Scheme) (indices : List Nat) : G₂ :=
  (indices.map (crates.keyAt scheme)).sum

variable [DecidableEq GT]

/-- `Bn254Scheme::verifier`, its participants validated. -/
def verifier (participants : List crates.PublicKey) (g1Keys : List crates.G1PublicKey)
    (distinct : participants.Nodup) (nonempty : participants ≠ [])
    (aligned : participants.length = g1Keys.length) : crates.Scheme where
  participants
  g1Keys
  distinct
  nonempty
  aligned
  aggregateVerify publics digest signature := crates.aggregateVerify publics none digest.1 signature

/-- `verify_attestation`. -/
def verifyAttestation (scheme : crates.Scheme) (item : Item) (attestation : crates.Attestation) :
    Bool :=
  match scheme.participants[attestation.signer]? with
  | none => false
  | some publicKey => match attestation.signature with
    | none => false
    | some signature => match itemDigest item with
      | none => false
      | some digest => crates.verifyDigest publicKey digest signature

/-- `verify_certificate` under a fault model. -/
def verifyCertificate (scheme : crates.Scheme) (quorumOf : Nat → Nat) (item : Item)
    (certificate : crates.Certificate) : Bool :=
  if certificate.signers.length ≠ scheme.participants.length then false
  else if certificate.count < quorumOf scheme.participants.length then false
  else match itemDigest item with
    | none => false
    | some digest => match certificate.indices.mapM (scheme.participants[·]?) with
      | none => false
      | some publics => crates.aggregateVerify publics none digest.1 certificate.signature

end Definitions

variable {crates : Primitives r G₁ G₂ GT} {scheme : crates.Scheme} {quorumOf : Nat → Nat}
variable {item : Item} {digest : Digest32} {certificate : crates.Certificate}
variable {attestations other : List crates.Attestation} {indices : List Nat}

theorem itemDigest_eq_some : itemDigest item = some digest ↔ item.digest = digest.1 := by
  unfold itemDigest
  constructor
  · intro found
    obtain ⟨_, same⟩ := Option.dite_none_right_eq_some.mp found
    exact congrArg Subtype.val (Option.some.inj same)
  · intro same
    exact Option.dite_none_right_eq_some.mpr ⟨same ▸ digest.2, congrArg some (Subtype.ext same)⟩

/-! ### Verifying -/

/-- The keys that indices name, each by its own position. -/
theorem mapM_participants (within : ∀ index ∈ indices, index < scheme.participants.length) :
    ∃ publics, indices.mapM (scheme.participants[·]?) = some publics ∧
      publics.map WireValue.key = indices.map (crates.keyAt scheme) := by
  induction indices with
  | nil => exact ⟨[], rfl, rfl⟩
  | cons index indices ih =>
    obtain ⟨publics, named, keys⟩ := ih fun other member => within other (List.mem_cons_of_mem _ member)
    have found := List.getElem?_eq_getElem (within index List.mem_cons_self)
    refine ⟨_ :: publics, by rw [List.mapM_cons, found, named]; rfl, ?_⟩
    rw [List.map_cons, List.map_cons, keys, keyAt, found]
    rfl

section Verify

variable [DecidableEq GT]

/-- What a certificate has to satisfy. -/
theorem verifyCertificate_iff :
    crates.verifyCertificate scheme quorumOf item certificate = true ↔
      certificate.signers.length = scheme.participants.length ∧
      quorumOf scheme.participants.length ≤ certificate.count ∧
      ∃ digest, itemDigest item = some digest ∧
        crates.pairing.pair (crates.mapToCurve digest)
            (crates.keySum scheme certificate.indices) =
          crates.pairing.pair certificate.signature.key crates.pairing.generator := by
  unfold verifyCertificate
  by_cases sized : certificate.signers.length = scheme.participants.length
  · rw [if_neg (not_not.mpr sized)]
    by_cases enough : quorumOf scheme.participants.length ≤ certificate.count
    · rw [if_neg (not_lt.mpr enough)]
      have within : ∀ index ∈ certificate.indices, index < scheme.participants.length :=
        fun index member => (Bn254Certificate.lt_of_mem_indices member).trans_eq sized
      obtain ⟨publics, named, keys⟩ := mapM_participants within
      cases digest : itemDigest item with
      | none => simp
      | some digest =>
        rw [named]
        dsimp only
        rw [aggregateVerify_digest, keys]
        simp [sized, enough, keySum]
    · rw [if_pos (not_le.mp enough)]
      simp [enough]
  · rw [if_pos sized]
    simp [sized]

/-- The check of a 32-byte digest as `Bn254Scheme` has it, under the fault model of the
engine. -/
theorem verifyCertificate_verifier {participants : List crates.PublicKey}
    {g1Keys : List crates.G1PublicKey} {distinct : participants.Nodup}
    {nonempty : participants ≠ []} {aligned : participants.length = g1Keys.length}
    (named : itemDigest item = some digest) :
    crates.verifyCertificate (crates.verifier participants g1Keys distinct nonempty aligned) quorum
        item certificate =
      (crates.verifier participants g1Keys distinct nonempty aligned).verifyCertificate digest
        certificate := by
  unfold verifyCertificate Bn254Scheme.verifyCertificate
  rw [named]
  dsimp only
  cases certificate.indices.mapM
    ((crates.verifier participants g1Keys distinct nonempty aligned).participants[·]?) <;> rfl

theorem verifyAttestation_iff {attestation : crates.Attestation} :
    crates.verifyAttestation scheme item attestation = true ↔
      attestation.signer < scheme.participants.length ∧ ∃ signature digest,
        attestation.signature = some signature ∧ itemDigest item = some digest ∧
        crates.pairing.pair (crates.mapToCurve digest) (crates.keyAt scheme attestation.signer) =
          crates.pairing.pair signature.key crates.pairing.generator := by
  unfold verifyAttestation keyAt
  cases found : scheme.participants[attestation.signer]? with
  | none =>
    have outside := List.getElem?_eq_none_iff.mp found
    simp [Nat.not_lt.mpr outside]
  | some publicKey =>
    have inside := (List.getElem?_eq_some_iff.mp found).1
    cases attestation.signature with
    | none => simp
    | some signature =>
      cases itemDigest item with
      | none => simp
      | some digest => simp [verifyDigest, inside]

end Verify

/-! ### Assembling -/

section Assemble

variable (crates) in
/-- What the loop of `assemble` collects from acks that it does not refuse. -/
def entries (attestations : List crates.Attestation) : List (Nat × crates.Signature) :=
  attestations.filterMap fun attestation => attestation.signature.map (attestation.signer, ·)

/-- An ack that the loop does not refuse. -/
def Admitted (scheme : crates.Scheme) (attestation : crates.Attestation) : Prop :=
  attestation.signer < scheme.participants.length ∧ attestation.signature.isSome

theorem Admitted.of_verified [DecidableEq GT] {attestation : crates.Attestation}
    (verified : crates.verifyAttestation scheme item attestation = true) :
    Admitted scheme attestation := by
  obtain ⟨inside, signature, -, decoded, -⟩ := verifyAttestation_iff.mp verified
  exact ⟨inside, Option.isSome_iff_exists.mpr ⟨signature, decoded⟩⟩

theorem signer_lt (admitted : ∀ a ∈ attestations, Admitted scheme a) :
    ∀ signer ∈ attestations.map Attestation.signer, signer < scheme.participants.length := by
  intro signer member
  obtain ⟨a, present, rfl⟩ := List.mem_map.mp member
  exact (admitted a present).1

theorem mapM_entry (admitted : ∀ a ∈ attestations, Admitted scheme a) :
    attestations.mapM (crates.entry scheme) = some (crates.entries attestations) := by
  induction attestations with
  | nil => rfl
  | cons a attestations ih =>
    obtain ⟨inside, decoded⟩ := admitted a List.mem_cons_self
    obtain ⟨signature, decoded⟩ := Option.isSome_iff_exists.mp decoded
    have others := ih fun b member => admitted b (List.mem_cons_of_mem _ member)
    have first : crates.entry scheme a = some (a.signer, signature) := by
      rw [entry, if_neg (Nat.not_le.mpr inside), decoded]
      rfl
    rw [List.mapM_cons, first, others]
    simp [entries, decoded]

theorem mapM_entry_refused {a : crates.Attestation} (member : a ∈ attestations)
    (refused : ¬ Admitted scheme a) : attestations.mapM (crates.entry scheme) = none := by
  have none : crates.entry scheme a = none := by
    unfold entry
    split
    · rfl
    · rename_i inside
      have undecoded : a.signature = Option.none := by
        by_contra decoded
        exact refused ⟨Nat.not_le.mp inside, Option.isSome_iff_ne_none.mpr decoded⟩
      rw [undecoded]
      rfl
  induction attestations with
  | nil => cases member
  | cons b attestations ih =>
    rw [List.mapM_cons]
    rcases List.mem_cons.mp member with rfl | later
    · rw [none]
      rfl
    · rw [ih later]
      cases crates.entry scheme b <;> rfl

theorem map_fst_entries (admitted : ∀ a ∈ attestations, Admitted scheme a) :
    (crates.entries attestations).map (·.1) = attestations.map Attestation.signer := by
  induction attestations with
  | nil => rfl
  | cons a attestations ih =>
    obtain ⟨signature, decoded⟩ := Option.isSome_iff_exists.mp (admitted a List.mem_cons_self).2
    have others := ih fun b member => admitted b (List.mem_cons_of_mem _ member)
    simp only [entries, List.filterMap_cons, decoded, Option.map_some, List.map_cons] at others ⊢
    rw [others]

variable (crates) in
/-- The certificate that acks add up to. -/
def gathered (scheme : crates.Scheme) (attestations : List crates.Attestation) :
    crates.Certificate where
  signers := (List.range scheme.participants.length).map (· ∈ attestations.map Attestation.signer)
  signature := .ofElement _ ((crates.entries attestations).map fun entry => entry.2.key).sum

theorem length_entries (admitted : ∀ a ∈ attestations, Admitted scheme a) :
    (crates.entries attestations).length = attestations.length := by
  have signers := congrArg List.length (map_fst_entries admitted)
  rwa [List.length_map, List.length_map] at signers

/-- What `assemble` makes of acks it does not refuse. It never panics on those of
distinct signers. -/
theorem assemble_admitted (admitted : ∀ a ∈ attestations, Admitted scheme a)
    (distinct : (attestations.map Attestation.signer).Nodup) :
    crates.assemble scheme quorumOf attestations =
      some (if attestations.length < quorumOf scheme.participants.length then none
        else some (crates.gathered scheme attestations)) := by
  unfold assemble
  rw [mapM_entry admitted]
  dsimp only
  rw [length_entries admitted, map_fst_entries admitted,
    signersFrom_distinct distinct (signer_lt admitted)]
  split
  · rfl
  · simp [aggregateSignatures, gathered, List.map_map, Function.comp_def]

theorem mem_indices_gathered {index : Nat} :
    index ∈ (crates.gathered scheme attestations).indices ↔
      index < scheme.participants.length ∧ index ∈ attestations.map Attestation.signer := by
  rw [Bn254Certificate.mem_indices, gathered, List.getElem?_map, Option.map_eq_some_iff]
  constructor
  · rintro ⟨position, found, set⟩
    obtain ⟨inside, rfl⟩ := List.getElem?_eq_some_iff.mp found
    rw [List.getElem_range] at set
    exact ⟨by simpa using inside, of_decide_eq_true set⟩
  · rintro ⟨inside, member⟩
    exact ⟨index, List.getElem?_range inside, decide_eq_true member⟩

/-- Each signer is named once, if each signed once. -/
theorem indices_gathered (admitted : ∀ a ∈ attestations, Admitted scheme a)
    (distinct : (attestations.map Attestation.signer).Nodup) :
    (crates.gathered scheme attestations).indices.Perm (attestations.map Attestation.signer) := by
  refine (List.perm_ext_iff_of_nodup (Bn254Certificate.nodup_indices _) distinct).mpr fun index => ?_
  rw [mem_indices_gathered]
  exact and_iff_right_of_imp (signer_lt admitted index)

/-- The order of the acks does not matter. -/
theorem gathered_perm (reordered : other.Perm attestations) :
    crates.gathered scheme other = crates.gathered scheme attestations := by
  have signers : (List.range scheme.participants.length).map
      (fun index => decide (index ∈ other.map Attestation.signer)) =
      (List.range scheme.participants.length).map
        (fun index => decide (index ∈ attestations.map Attestation.signer)) :=
    List.map_congr_left fun index _ => decide_eq_decide.mpr (reordered.map _).mem_iff
  have points : ((crates.entries other).map fun entry => entry.2.key).sum =
      ((crates.entries attestations).map fun entry => entry.2.key).sum :=
    ((reordered.filterMap _).map _).sum_eq
  rw [gathered, gathered, signers, points]

/-- Acks that verify one by one verify together. -/
theorem gathered_verifies [DecidableEq GT]
    (distinct : (attestations.map Attestation.signer).Nodup)
    (verified : ∀ a ∈ attestations, crates.verifyAttestation scheme item a = true)
    (enough : quorumOf scheme.participants.length ≤ attestations.length)
    (named : itemDigest item = some digest) {item' : Item} (same : item'.digest = item.digest) :
    crates.verifyCertificate scheme quorumOf item' (crates.gathered scheme attestations) = true := by
  have admitted : ∀ a ∈ attestations, Admitted scheme a :=
    fun a member => Admitted.of_verified (verified a member)
  have signers := indices_gathered admitted distinct
  have named' : itemDigest item' = some digest := by
    rw [itemDigest_eq_some, same]
    exact itemDigest_eq_some.mp named
  refine verifyCertificate_iff.mpr ⟨by simp [gathered], ?_, digest, named', ?_⟩
  · rw [← Bn254Certificate.length_indices, signers.length_eq, List.length_map]
    exact enough
  · have keys : crates.keySum scheme (crates.gathered scheme attestations).indices =
        ((crates.entries attestations).map fun entry => crates.keyAt scheme entry.1).sum := by
      rw [keySum, (signers.map _).sum_eq, ← map_fst_entries admitted, List.map_map]
      rfl
    rw [keys]
    refine crates.pairing.pair_sum fun entry member => ?_
    obtain ⟨a, present, shape⟩ := List.mem_filterMap.mp member
    obtain ⟨signature, decoded, rfl⟩ := Option.map_eq_some_iff.mp shape
    obtain ⟨-, signature', digest', decoded', named'', valid⟩ := verifyAttestation_iff.mp (verified a present)
    rw [decoded] at decoded'
    rw [named] at named''
    cases decoded'
    cases named''
    exact valid

end Assemble

/-- **From acks to a certificate and back.** Whatever the participants and the
fault model, acks of distinct signers that verify for an item are assembled only
from a quorum on; then, in whatever order, to one certificate, whose bitmap has
the size of the participant set and marks exactly the signers, and which verifies
for every item with the same digest. An ack with an index out of range or without
a signature stops the assembly before it can panic. -/
theorem assembled_certificate_verifies [DecidableEq GT] (crates : Primitives r G₁ G₂ GT)
    (scheme : crates.Scheme) (quorumOf : Nat → Nat) :
    (∀ (item : Item) (attestations : List crates.Attestation), item.digest.length = 32 →
      (attestations.map Attestation.signer).Nodup →
      (∀ a ∈ attestations, crates.verifyAttestation scheme item a = true) →
      (attestations.length < quorumOf scheme.participants.length →
        crates.assemble scheme quorumOf attestations = some none) ∧
      (quorumOf scheme.participants.length ≤ attestations.length → ∃ certificate : crates.Certificate,
        (∀ other, other.Perm attestations →
          crates.assemble scheme quorumOf other = some (some certificate)) ∧
        certificate.signers.length = scheme.participants.length ∧
        (∀ index, index ∈ certificate.indices ↔ ∃ a ∈ attestations, a.signer = index) ∧
        ∀ item' : Item, item'.digest = item.digest →
          crates.verifyCertificate scheme quorumOf item' certificate = true)) ∧
    ∀ attestations : List crates.Attestation,
      (∃ a ∈ attestations, scheme.participants.length ≤ a.signer ∨ a.signature = none) →
      crates.assemble scheme quorumOf attestations = some none := by
  constructor
  · intro item attestations sized distinct verified
    have admitted : ∀ a ∈ attestations, Admitted scheme a :=
      fun a member => Admitted.of_verified (verified a member)
    have named : itemDigest item = some ⟨item.digest, sized⟩ := itemDigest_eq_some.mpr rfl
    refine ⟨fun few => ?_, fun enough => ⟨crates.gathered scheme attestations, ?_, ?_, ?_, ?_⟩⟩
    · rw [assemble_admitted admitted distinct, if_pos few]
    · intro other reordered
      rw [assemble_admitted (fun a member => admitted a (reordered.mem_iff.mp member))
          ((reordered.map _).nodup_iff.mpr distinct),
        gathered_perm reordered, reordered.length_eq, if_neg (Nat.not_lt.mpr enough)]
    · simp [gathered]
    · intro index
      rw [(indices_gathered admitted distinct).mem_iff, List.mem_map]
    · exact fun item' same => gathered_verifies distinct verified enough named same
  · rintro attestations ⟨a, member, reason⟩
    have refused : ¬ Admitted scheme a := by
      rintro ⟨inside, decoded⟩
      rcases reason with outside | undecoded
      · exact Nat.not_lt.mpr outside inside
      · rw [undecoded] at decoded
        cases decoded
    rw [assemble, mapM_entry_refused member refused]

/-! ### Accepting -/

section Accept

variable {signers : SignersCodec} {sk : Nat → Nat} {bytes bytes' : List UInt8}
variable {certificate' : crates.Certificate}

/-- The certificates that a bound admits and decoding can yield. -/
def Decodable (bound : Nat) : Set crates.Certificate :=
  {certificate | certificate.signers.length ≤ bound ∧ certificate.count ≠ 0 ∧
    certificate.signature ∈ WireValue.Readable (· ≠ 0)}

omit [DecidableEq G₂] in
/-- Nothing but certificates that name a signer and carry a point other than the
identity is decoded, each from its own bytes. -/
theorem certificateCodec_lawful {bound : Nat} (canonical : signers.Canonical bound)
    (accepts : (signature crates.g1 (· = 0)).Accepts (· ≠ 0)) :
    (crates.certificateCodec signers bound).LawfulOn (Decodable bound) where
  read_encode certificate decodable rest := by
    obtain ⟨short, nonempty, readable⟩ := decodable
    have bitmap := canonical.read_encode certificate.signers short
      (certificate.signature.raw ++ rest)
    have point : WireValue.readCfg _ (certificate.signature.raw ++ rest) =
        .ok (certificate.signature, rest) := (WireValue.readCfg_iff accepts).mpr ⟨readable, rfl⟩
    have front : (crates.certificateCodec signers bound).encode certificate ++ rest =
        signers.write certificate.signers ++ (certificate.signature.raw ++ rest) :=
      List.append_assoc _ _ _
    rw [front]
    refine Reader.bind_ok.mpr ⟨certificate.signers, certificate.signature.raw ++ rest, bitmap, ?_⟩
    have marked : ¬ certificate.signers.countP id = 0 := nonempty
    rw [if_neg marked]
    exact Reader.bind_ok.mpr ⟨certificate.signature, rest, point, rfl⟩
  consumed bytes certificate rest read := by
    obtain ⟨bits, middle, bitmap, read⟩ := Reader.bind_ok.mp read
    split at read
    · exact (Reader.fail_ok.mp read).elim
    · rename_i nonempty
      obtain ⟨signature, after, point, built⟩ := Reader.bind_ok.mp read
      obtain ⟨rfl, rfl⟩ := Reader.pure_ok.mp built
      obtain ⟨short, rfl⟩ := canonical.consumed _ _ _ bitmap
      obtain ⟨readable, rfl⟩ := (WireValue.readCfg_iff accepts).mp point
      exact ⟨⟨short, nonempty, readable⟩, (List.append_assoc _ _ _).symm⟩
  measured certificate decodable := by
    have bitmap := canonical.measured certificate.signers decodable.1
    have point := certificate.signature.sized
    simp only [certificateCodec, List.length_append] at bitmap ⊢
    rw [bitmap, point]
    rfl

theorem keySum_eq (keys : ∀ index < scheme.participants.length,
      crates.keyAt scheme index = sk index • crates.pairing.generator)
    (within : ∀ index ∈ indices, index < scheme.participants.length) :
    crates.keySum scheme indices = (indices.map sk).sum • crates.pairing.generator := by
  induction indices with
  | nil => exact (zero_nsmul _).symm
  | cons index indices ih =>
    have others := ih fun other member => within other (List.mem_cons_of_mem _ member)
    unfold keySum at others ⊢
    rw [List.map_cons, List.map_cons, List.sum_cons, List.sum_cons, others,
      keys index (within index List.mem_cons_self), add_nsmul]

variable [DecidableEq GT]

variable (crates) in
/-- Decoded under the scheme's configuration and verified for the item. -/
def Accepted (signers : SignersCodec) (scheme : crates.Scheme) (quorumOf : Nat → Nat) (item : Item)
    (bytes : List UInt8) (certificate : crates.Certificate) : Prop :=
  crates.decodeCertificate signers scheme bytes = .ok certificate ∧
    crates.verifyCertificate scheme quorumOf item certificate = true

variable (crates) in
/-- The point that the marked signers' secrets make of a digest. -/
def signedBy (sk : Nat → Nat) (digest : Digest32) (certificate : crates.Certificate) : G₁ :=
  (certificate.indices.map sk).sum • crates.mapToCurve digest

theorem accepted_iff (canonical : signers.Canonical scheme.participants.length)
    (accepts : (signature crates.g1 (· = 0)).Accepts (· ≠ 0))
    (positive : 1 ≤ quorumOf scheme.participants.length)
    (keys : ∀ index < scheme.participants.length,
      crates.keyAt scheme index = sk index • crates.pairing.generator)
    (named : itemDigest item = some digest) :
    crates.Accepted signers scheme quorumOf item bytes certificate ↔
      bytes = signers.write certificate.signers ++ certificate.signature.raw ∧
      certificate.signers.length = scheme.participants.length ∧
      quorumOf scheme.participants.length ≤ certificate.count ∧
      certificate.signature = .ofElement _ (crates.signedBy sk digest certificate) ∧
      crates.signedBy sk digest certificate ≠ 0 := by
  have lawful := certificateCodec_lawful canonical accepts
  have equation (sized : certificate.signers.length = scheme.participants.length) :
      crates.pairing.pair (crates.mapToCurve digest) (crates.keySum scheme certificate.indices) =
        crates.pairing.pair certificate.signature.key crates.pairing.generator ↔
      crates.signedBy sk digest certificate = certificate.signature.key := by
    have within : ∀ index ∈ certificate.indices, index < scheme.participants.length :=
      fun index member => (Bn254Certificate.lt_of_mem_indices member).trans_eq sized
    rw [keySum_eq keys within, ← crates.pairing.pair_nsmul, crates.pairing.pair_generator_inj]
    rfl
  unfold Accepted decodeCertificate certificateCodecConfig
  rw [lawful.decode_iff, verifyCertificate_iff]
  constructor
  · rintro ⟨⟨⟨-, -, nonzero, built⟩, spelled⟩, sized, enough, digest', named', valid⟩
    rw [named] at named'
    cases named'
    have point := (equation sized).mp valid
    rw [← point] at nonzero built
    exact ⟨spelled, sized, enough, built, nonzero⟩
  · rintro ⟨spelled, sized, enough, built, nonzero⟩
    have point : certificate.signature.key = crates.signedBy sk digest certificate :=
      congrArg WireValue.key built
    refine ⟨⟨⟨sized.le, by omega, ?_, ?_⟩, spelled⟩, sized, enough, digest, named,
      (equation sized).mpr point.symm⟩
    · rw [point]
      exact nonzero
    · rw [point]
      exact built

/-- **Which certificates are accepted.** For a fault model that asks for a signer,
a byte string is decoded and verified exactly when it spells a certificate whose
bitmap has the size of the participant set, marks a quorum, and comes with the
point that the marked signers' secrets make of the digest, which is not the
identity. So each bitmap is accepted in one spelling at most, and one signature
under two bitmaps only if their keys have the same sum. -/
theorem certificates_accepted_exactly (crates : Primitives r G₁ G₂ GT) (scheme : crates.Scheme)
    (quorumOf : Nat → Nat) (positive : 1 ≤ quorumOf scheme.participants.length)
    (signers : SignersCodec) (canonical : signers.Canonical scheme.participants.length)
    (points : ∀ bytes point, point ≠ 0 →
      (crates.g1.deserialize bytes = some point ↔ bytes = crates.g1.serialize point))
    (sk : Nat → Nat) (keys : ∀ index < scheme.participants.length,
      crates.keyAt scheme index = sk index • crates.pairing.generator)
    (item : Item) (digest : Digest32) (named : item.digest = digest.1) :
    (∀ bytes certificate, crates.Accepted signers scheme quorumOf item bytes certificate ↔
      bytes = signers.write certificate.signers ++ certificate.signature.raw ∧
      certificate.signers.length = scheme.participants.length ∧
      quorumOf scheme.participants.length ≤ certificate.count ∧
      certificate.signature = .ofElement _ (crates.signedBy sk digest certificate) ∧
      crates.signedBy sk digest certificate ≠ 0) ∧
    (∀ bytes bytes' certificate certificate',
      crates.Accepted signers scheme quorumOf item bytes certificate →
      crates.Accepted signers scheme quorumOf item bytes' certificate' →
      certificate.signers = certificate'.signers → bytes = bytes') ∧
    ∀ bytes bytes' certificate certificate',
      crates.Accepted signers scheme quorumOf item bytes certificate →
      crates.Accepted signers scheme quorumOf item bytes' certificate' →
      certificate.signature = certificate'.signature →
      crates.keySum scheme certificate.indices = crates.keySum scheme certificate'.indices := by
  have accepts : (signature crates.g1 (· = 0)).Accepts (· ≠ 0) := by
    intro bytes point
    have nonzero : decide (point = 0) = false ↔ point ≠ 0 := decide_eq_false_iff_not
    exact (and_comm.trans (and_congr_left' nonzero)).trans (and_congr_right (points bytes point))
  have exactly (bytes : List UInt8) (certificate : crates.Certificate) :
      crates.Accepted signers scheme quorumOf item bytes certificate ↔ _ :=
    accepted_iff canonical accepts positive keys (itemDigest_eq_some.mpr named)
  refine ⟨exactly, ?_, ?_⟩
  · intro bytes bytes' certificate certificate' accepted accepted' same
    obtain ⟨rfl, -, -, built, -⟩ := (exactly _ _).mp accepted
    obtain ⟨rfl, -, -, built', -⟩ := (exactly _ _).mp accepted'
    have point : crates.signedBy sk digest certificate = crates.signedBy sk digest certificate' := by
      rw [signedBy, signedBy, Bn254Certificate.indices, Bn254Certificate.indices, same]
    rw [same, built, built', point]
  · intro bytes bytes' certificate certificate' accepted accepted' same
    obtain ⟨-, sized, -, built, nonzero⟩ := (exactly _ _).mp accepted
    obtain ⟨-, sized', -, built', -⟩ := (exactly _ _).mp accepted'
    have point : crates.signedBy sk digest certificate = crates.signedBy sk digest certificate' := by
      rw [built, built'] at same
      exact WireValue.ofElement_inj.mp same
    have base : crates.mapToCurve digest ≠ 0 := by
      intro identity
      exact nonzero (by rw [signedBy, identity, nsmul_zero])
    rw [keySum_eq keys fun index member => (Bn254Certificate.lt_of_mem_indices member).trans_eq sized,
      keySum_eq keys fun index member => (Bn254Certificate.lt_of_mem_indices member).trans_eq sized']
    exact (crates.pairing.nsmul_eq_iff base).mp point

end Accept

end Primitives

section Examples

open Primitives

/-- Residues modulo 7 for all groups; a digest is mapped to its first byte. -/
def smallCrates : Primitives 7 (ZMod 7) (ZMod 7) (Multiplicative (ZMod 7)) where
  pairing := .ofMul 7
  mapToCurve digest := (digest.1.headD 0).toNat
  sha256 _ := ⟨List.replicate 32 0, rfl⟩
  unionUnique namespaceBytes message := namespaceBytes ++ message
  g1 := LittleEndian.below 1 7
  g2 := LittleEndian.below 1 7

def residue (n : Nat) : ZMod 7 := n

/-- Three participants with the secrets 1, 2 and 3. -/
def smallScheme : smallCrates.Scheme :=
  smallCrates.verifier [.ofElement _ (residue 1), .ofElement _ (residue 2), .ofElement _ (residue 3)]
    [.ofElement _ (residue 1), .ofElement _ (residue 2), .ofElement _ (residue 3)] (by decide) (by simp) rfl

def smallDigest : Digest32 := ⟨List.replicate 32 2, rfl⟩

def smallItem (height : Nat) : Item := ⟨height, smallDigest.1⟩

def packBits (bits : List Bool) : UInt8 :=
  (bits.foldr (fun (bit : Bool) (packed : Nat) => bit.toNat + 2 * packed) 0).toUInt8

def unpackBits (length : Nat) (packed : UInt8) : List Bool :=
  (List.range length).map packed.toNat.testBit

/-- Bitmaps of fewer than eight bits: their length, and one byte unless it is 0. -/
def smallSigners : SignersCodec where
  write bits := bits.length.toUInt8 :: if bits = [] then [] else [packBits bits]
  readCfg bound := do
    let length ← Reader.byte .endOfBuffer
    if bound < length.toNat then Reader.fail (.invalidLength length.toNat)
    else if length.toNat = 0 then return []
    else
      let packed ← Reader.byte .endOfBuffer
      if packed.toNat < 2 ^ length.toNat then return unpackBits length.toNat packed
      else Reader.fail (.invalidLength packed.toNat)
  encodeSize bits := if bits = [] then 1 else 2

theorem unpack_pack {bits : List Bool} (few : bits.length ≤ 3) :
    unpackBits bits.length (packBits bits) = bits ∧ (packBits bits).toNat < 2 ^ bits.length := by
  match bits, few with
  | [], _ => decide
  | [a], _ => revert a; decide
  | [a, b], _ => revert a b; decide
  | [a, b, c], _ => revert a b c; decide
  | _ :: _ :: _ :: _ :: _, many =>
    simp only [List.length_cons] at many
    omega

theorem pack_unpack {length : Nat} (few : length ≤ 3) {packed : UInt8}
    (fits : packed.toNat < 2 ^ length) : packBits (unpackBits length packed) = packed := by
  have all : ∀ length : Fin 4, ∀ packed : Fin 8, packed.val < 2 ^ length.val →
      packBits (unpackBits length packed.val.toUInt8) = packed.val.toUInt8 := by
    decide
  have small : packed.toNat < 8 := fits.trans_le (Nat.pow_le_pow_right (by decide) few)
  have packs := all ⟨length, by omega⟩ ⟨packed.toNat, small⟩ fits
  rwa [Nat.toUInt8, UInt8.ofNat_toNat] at packs

theorem smallSigners_canonical : smallSigners.Canonical 3 where
  read_encode bits few rest := by
    have few : bits.length ≤ 3 := few
    have length : bits.length.toUInt8.toNat = bits.length := UInt8.toNat_ofNat_of_lt' (few.trans_lt (by decide))
    have inside : ¬ 3 < bits.length := by omega
    obtain ⟨unpacked, fits⟩ := unpack_pack few
    refine Reader.bind_ok.mpr ⟨_, _, Reader.byte_ok.mpr rfl, ?_⟩
    rw [length, if_neg inside]
    by_cases empty : bits = []
    · subst empty
      rfl
    · have some : bits.length ≠ 0 := mt List.length_eq_zero_iff.mp empty
      rw [if_neg some, if_neg empty]
      refine Reader.bind_ok.mpr ⟨packBits bits, rest, rfl, ?_⟩
      rw [if_pos fits, unpacked]
      rfl
  consumed bytes bits rest read := by
    obtain ⟨length, middle, first, found⟩ := Reader.bind_ok.mp read
    obtain rfl := Reader.byte_ok.mp first
    split at found
    · exact (Reader.fail_ok.mp found).elim
    · rename_i inside
      split at found
      · rename_i zero
        obtain ⟨rfl, rfl⟩ := Reader.pure_ok.mp found
        have none : length = 0 := UInt8.toNat_inj.mp zero
        exact ⟨Nat.zero_le _, by rw [none]; rfl⟩
      · rename_i nonzero
        obtain ⟨packed, after, second, unpacked⟩ := Reader.bind_ok.mp found
        obtain rfl := Reader.byte_ok.mp second
        split at unpacked
        · rename_i fits
          obtain ⟨rfl, rfl⟩ := Reader.pure_ok.mp unpacked
          have size : (unpackBits length.toNat packed).length = length.toNat := by simp [unpackBits]
          have some : unpackBits length.toNat packed ≠ [] := by
            intro empty
            rw [empty] at size
            exact nonzero size.symm
          refine ⟨size.trans_le (Nat.not_lt.mp inside), ?_⟩
          dsimp only [smallSigners]
          rw [size, if_neg some, pack_unpack (Nat.not_lt.mp inside) fits, Nat.toUInt8,
            UInt8.ofNat_toNat]
          rfl
        · exact (Reader.fail_ok.mp unpacked).elim
  measured bits _ := by
    dsimp only [smallSigners]
    split <;> rfl

/-- The acks of all three participants, the last one first. -/
def smallAcks : List smallCrates.Attestation :=
  [⟨2, some (.ofElement _ (residue 6))⟩, ⟨0, some (.ofElement _ (residue 2))⟩, ⟨1, some (.ofElement _ (residue 4))⟩]

/-- The bitmap of all three and the sum of their signatures, 12 modulo 7. -/
def smallCertificate : smallCrates.Certificate := ⟨[true, true, true], .ofElement _ (residue 5)⟩

end Examples

/-- Three acks make one certificate, which verifies at every height. -/
theorem three_acks_certify : ∃ certificate : smallCrates.Certificate,
    smallCrates.assemble smallScheme quorum smallAcks = some (some certificate) ∧
      ∀ height, smallCrates.verifyCertificate smallScheme quorum (smallItem height) certificate = true := by
  obtain ⟨assembled, -⟩ := Primitives.assembled_certificate_verifies smallCrates smallScheme quorum
  obtain ⟨-, enough⟩ := assembled (smallItem 0) smallAcks (by decide) (by decide) (by decide +kernel)
  obtain ⟨certificate, ordered, -, -, verifies⟩ := enough (by decide)
  exact ⟨certificate, ordered _ (.refl _), fun height => verifies (smallItem height) rfl⟩

/-- Its bytes, and no others with this bitmap, are accepted. -/
theorem three_acks_accepted :
    smallCrates.Accepted smallSigners smallScheme quorum (smallItem 0) [3, 7, 5] smallCertificate ∧
      ∀ bytes certificate, certificate.signers = [true, true, true] →
        smallCrates.Accepted smallSigners smallScheme quorum (smallItem 0) bytes certificate →
          bytes = [3, 7, 5] := by
  have canonical : (LittleEndian.below 1 7).Canonical := LittleEndian.below_canonical (by decide)
  obtain ⟨exactly, unique, -⟩ := Primitives.certificates_accepted_exactly smallCrates smallScheme
    quorum (by decide) smallSigners smallSigners_canonical
    (fun bytes point _ => canonical.exact bytes point) (· + 1) (by decide +kernel) (smallItem 0)
    smallDigest rfl
  have accepted := (exactly [3, 7, 5] smallCertificate).mpr (by decide +kernel)
  exact ⟨accepted, fun bytes certificate bitmap accepted' =>
    unique bytes [3, 7, 5] certificate smallCertificate accepted' accepted bitmap⟩

end Restaking.Bn254
