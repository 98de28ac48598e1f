import Restaking.Router
import Restaking.SigningPaths

/-! The participant set that every process builds for itself out of the operators it
finds registered (`eigenlayer/src/network.rs`, `examples/counter/router/src/app.rs`,
`examples/counter/node/src/app.rs`). An ack and a certificate only carry positions in
this set, so the sets of all processes have to agree however each lists its operators. -/
namespace Restaking.Bn254
open Lib

/-- The sorted collections of the crate `commonware-utils`. -/
structure Collections {E : Type} (kind : Kind E) (V : Type) where
  mapFromIterDedup : List (WireValue kind × V) → List (WireValue kind × V)
  setFromIterDedup : List (WireValue kind) → List (WireValue kind)
  /-- `Set::index`. -/
  index : List (WireValue kind) → WireValue kind → Option Nat

/-- The order of `WireValue.cmp`. -/
def WireValue.Before {E : Type} {kind : Kind E} (value other : WireValue kind) : Prop :=
  value.cmp other = .lt

/-- Keys that were made from their elements. -/
def Spelled {E : Type} {kind : Kind E} (keys : List (WireValue kind)) : Prop :=
  ∀ key ∈ keys, key = .ofElement kind key.key

/-- What the crate documents: collections are sorted, hold each key once, and of several
entries with one key the first. -/
structure Collections.Lawful {E V : Type} {kind : Kind E} [DecidableEq E]
    (collections : Collections kind V) : Prop where
  map_sorted : ∀ pairs, Spelled (pairs.map Prod.fst) →
    (collections.mapFromIterDedup pairs).Pairwise (·.1.Before ·.1)
  map_first : ∀ pairs, Spelled (pairs.map Prod.fst) → ∀ key value,
    (key, value) ∈ collections.mapFromIterDedup pairs ↔ pairs.lookup key = some value
  set_sorted : ∀ keys, Spelled keys → (collections.setFromIterDedup keys).Pairwise WireValue.Before
  set_mem : ∀ keys, Spelled keys → ∀ key, key ∈ collections.setFromIterDedup keys ↔ key ∈ keys
  index : ∀ keys, Spelled keys → keys.Pairwise WireValue.Before → ∀ element position,
    collections.index keys (.ofElement kind element) = some position ↔
      keys[position]? = some (.ofElement kind element)

namespace WireValue

variable {E : Type} {kind : Kind E} {value other : WireValue kind}

theorem cmp_swap : value.cmp other = (other.cmp value).swap := by
  unfold cmp
  exact Std.OrientedCmp.eq_swap

theorem Before.irrefl (before : value.Before value) : False := by
  have equal : value.cmp value = .eq := Std.compare_eq_iff_eq.mpr rfl
  rw [Before, equal] at before
  cases before

theorem Before.asymm (before : value.Before other) : ¬ other.Before value := by
  intro after
  have swapped : value.cmp other = (other.cmp value).swap := cmp_swap
  rw [before, after] at swapped
  cases swapped

/-- Entries sorted by key are distinct, and determined by which they are. -/
theorem eq_of_sorted {α : Type} (key : α → WireValue kind) {xs ys : List α}
    (sorted : xs.Pairwise fun x y => (key x).Before (key y))
    (sorted' : ys.Pairwise fun x y => (key x).Before (key y)) (same : ∀ x, x ∈ xs ↔ x ∈ ys) :
    xs = ys := by
  have distinct {xs : List α} (sorted : xs.Pairwise fun x y => (key x).Before (key y)) :
      xs.Nodup := by
    apply List.Pairwise.imp _ sorted
    rintro x _ before rfl
    exact before.irrefl
  exact ((List.perm_ext_iff_of_nodup (distinct sorted) (distinct sorted')).mpr same).eq_of_pairwise
    (fun _ _ _ _ before after => absurd after before.asymm) sorted sorted'

theorem nodup_of_sorted {keys : List (WireValue kind)} (sorted : keys.Pairwise Before) :
    keys.Nodup := by
  apply List.Pairwise.imp _ sorted
  rintro key _ before rfl
  exact before.irrefl

end WireValue

/-- The operators of the quorum as one process lists them, and what its operator-info
service knows about each. -/
structure Registry (A G₁ G₂ : Type) where
  operators : List A
  operatorInfo : A → Option (G₁ × G₂)

namespace Registry

variable {A G₁ G₂ : Type} [DecidableEq G₂]

omit [DecidableEq G₂] in
/-- There are operators, and keys for each. -/
def Complete (registry : Registry A G₁ G₂) : Prop :=
  registry.operators ≠ [] ∧
    ∀ operator ∈ registry.operators, (registry.operatorInfo operator).isSome

omit [DecidableEq G₂] in
/-- The keys that a registry knows, in its order. -/
def keys (registry : Registry A G₁ G₂) : List (G₁ × G₂) :=
  registry.operators.filterMap registry.operatorInfo

/-- The G1 key of the first operator with the G2 key. -/
def g1Key (registry : Registry A G₁ G₂) (g2Key : G₂) : Option G₁ :=
  (registry.keys.find? (·.2 = g2Key)).map (·.1)

theorem isSome_g1Key {registry : Registry A G₁ G₂} {g2Key : G₂} :
    (registry.g1Key g2Key).isSome ↔ ∃ operator ∈ registry.operators, ∃ g1Key,
      registry.operatorInfo operator = some (g1Key, g2Key) := by
  simp only [g1Key, Option.isSome_map, List.find?_isSome, keys, List.mem_filterMap,
    decide_eq_true_eq]
  constructor
  · rintro ⟨⟨g1Key, _⟩, ⟨operator, listed, info⟩, rfl⟩
    exact ⟨operator, listed, g1Key, info⟩
  · rintro ⟨operator, listed, g1Key, info⟩
    exact ⟨_, ⟨operator, listed, info⟩, rfl⟩

end Registry

namespace Primitives

variable {r : Nat} {G₁ G₂ GT A : Type} [AddCommGroup G₁] [AddCommGroup G₂] [CommGroup GT]
variable [DecidableEq G₁] [DecidableEq G₂]

section Definitions

variable (crates : Primitives r G₁ G₂ GT)

/-- `CommonwarePublicKeys`. -/
structure CommonwarePublicKeys where
  g1PubKey : crates.G1PublicKey
  g2PubKey : crates.PublicKey

/-- `CommonwarePublicKeys::from_bls_keys`. -/
def fromBlsKeys (g1PubKey : G₁) (g2PubKey : G₂) : crates.CommonwarePublicKeys where
  g1PubKey := .ofElement _ g1PubKey
  g2PubKey := .ofElement _ g2PubKey

abbrev KeyCollections := Collections (publicKey crates.g2 (· = 0)) crates.G1PublicKey

/-- The `pub_keys` that `get_operator_states` gives each operator. -/
def pubKeys (registry : Registry A G₁ G₂) : List (Option crates.CommonwarePublicKeys) :=
  registry.operators.map fun operator =>
    (registry.operatorInfo operator).map fun keys => crates.fromBlsKeys keys.1 keys.2

/-- `key_map` in the two `main` functions, which panic (`none`) without operators and on
one without keys. -/
def keyMap (collections : crates.KeyCollections)
    (operators : List (Option crates.CommonwarePublicKeys)) :
    Option (List (crates.PublicKey × crates.G1PublicKey)) :=
  if operators.isEmpty then none
  else (operators.mapM id).map fun keys =>
    collections.mapFromIterDedup (keys.map fun keys => (keys.g2PubKey, keys.g1PubKey))

/-- `Bn254Scheme::signer`, once it has validated the participants. -/
structure SigningScheme [DecidableEq GT] where
  scheme : crates.Scheme
  /-- `me`. -/
  me : Nat
  signer : Bn254 r G₂

variable [DecidableEq GT]

/-- `Bn254Scheme::verifier`; `none` where `validate_participants` panics. A set holds no
key twice. -/
def validated (participants : List crates.PublicKey) (g1Keys : List crates.G1PublicKey) :
    Option crates.Scheme :=
  if valid : participants.Nodup ∧ participants ≠ [] ∧ participants.length = g1Keys.length then
    some (crates.verifier participants g1Keys valid.1 valid.2.1 valid.2.2)
  else none

/-- The scheme of the router. -/
def verifierScheme (collections : crates.KeyCollections)
    (operators : List (Option crates.CommonwarePublicKeys)) : Option crates.Scheme :=
  (crates.keyMap collections operators).bind fun keyMap =>
    crates.validated (collections.setFromIterDedup (keyMap.map Prod.fst)) (keyMap.map Prod.snd)

/-- The scheme of a node, which panics if its own key is not registered. -/
def signingScheme (collections : crates.KeyCollections)
    (operators : List (Option crates.CommonwarePublicKeys)) (signer : Bn254 r G₂) :
    Option crates.SigningScheme :=
  (crates.verifierScheme collections operators).bind fun scheme =>
    (collections.index scheme.participants (crates.publicKeyOf signer)).map fun me =>
      { scheme, me, signer }

/-- `Scheme::sign`. -/
def SigningScheme.sign {crates : Primitives r G₁ G₂ GT} (node : crates.SigningScheme) (item : Item) :
    Option crates.Attestation :=
  (itemDigest item).map fun digest =>
    { signer := node.me, signature := some (crates.signDigest node.signer digest) }

end Definitions

variable {crates : Primitives r G₁ G₂ GT} {collections : crates.KeyCollections}
variable {registry other : Registry A G₁ G₂} {signer : Bn254 r G₂}

variable (crates) in
/-- The pairs that the key map is made of. -/
def spelledPairs (keys : List (G₁ × G₂)) : List (crates.PublicKey × crates.G1PublicKey) :=
  keys.map fun keys => (.ofElement _ keys.2, .ofElement _ keys.1)

/-- Operators without keys are the only ones that stop the construction. -/
theorem mapM_pubKeys : (crates.pubKeys registry).mapM id =
    if ∀ operator ∈ registry.operators, (registry.operatorInfo operator).isSome then
      some (registry.keys.map fun keys => crates.fromBlsKeys keys.1 keys.2)
    else none := by
  obtain ⟨operators, operatorInfo⟩ := registry
  induction operators with
  | nil => rfl
  | cons operator operators ih =>
    simp only [pubKeys, Registry.keys, List.map_cons, List.mapM_cons] at ih ⊢
    rw [ih]
    cases info : operatorInfo operator with
    | none => simp [info]
    | some keys =>
      by_cases all : ∀ operator ∈ operators, (operatorInfo operator).isSome = true
      · rw [if_pos all, if_pos (List.forall_mem_cons.mpr ⟨by rw [info]; rfl, all⟩)]
        simp [info]
      · rw [if_neg all, if_neg fun both => all (List.forall_mem_cons.mp both).2]
        simp

theorem spelled_spelledPairs (keys : List (G₁ × G₂)) :
    Spelled ((crates.spelledPairs keys).map Prod.fst) := by
  intro key member
  simp only [spelledPairs, List.map_map, List.mem_map] at member
  obtain ⟨keys, -, rfl⟩ := member
  rfl

theorem lookup_spelledPairs (keys : List (G₁ × G₂)) (g2Key : G₂) :
    (crates.spelledPairs keys).lookup (.ofElement _ g2Key) =
      ((keys.find? (·.2 = g2Key)).map (·.1)).map (.ofElement _) := by
  induction keys with
  | nil => rfl
  | cons first keys ih =>
    unfold spelledPairs at ih ⊢
    rw [List.map_cons, List.lookup_cons]
    by_cases same : first.2 = g2Key
    · simp [same]
    · have apart : ((.ofElement _ g2Key : crates.PublicKey) == .ofElement _ first.2) = false :=
        beq_false_of_ne fun equal => same (WireValue.ofElement_inj.mp equal).symm
      rw [apart, List.find?_cons_of_neg (by simpa using same)]
      exact ih

/-- The key map of a registry: each G2 key with the G1 key that came first. -/
theorem mem_mapFromIterDedup (lawful : collections.Lawful) {key : crates.PublicKey}
    {value : crates.G1PublicKey} :
    (key, value) ∈ collections.mapFromIterDedup (crates.spelledPairs registry.keys) ↔
      ∃ g2Key g1Key, registry.g1Key g2Key = some g1Key ∧ key = .ofElement _ g2Key ∧
        value = .ofElement _ g1Key := by
  rw [lawful.map_first _ (spelled_spelledPairs _)]
  constructor
  · intro found
    obtain ⟨before, after, shape, -⟩ := List.lookup_eq_some_iff.mp found
    have listed : key ∈ (crates.spelledPairs registry.keys).map Prod.fst := by simp [shape]
    have spelled := spelled_spelledPairs _ key listed
    rw [spelled, lookup_spelledPairs] at found
    obtain ⟨g1Key, first, rfl⟩ := Option.map_eq_some_iff.mp found
    exact ⟨key.key, g1Key, first, spelled, rfl⟩
  · rintro ⟨g2Key, g1Key, first, rfl, rfl⟩
    rw [lookup_spelledPairs]
    exact Option.map_eq_some_iff.mpr ⟨g1Key, first, rfl⟩

/-- The key map is sorted, and its keys are the participants. -/
theorem setFromIterDedup_keys (lawful : collections.Lawful) (registry : Registry A G₁ G₂) :
    let keyMap := collections.mapFromIterDedup (crates.spelledPairs registry.keys)
    Spelled (keyMap.map Prod.fst) ∧ (keyMap.map Prod.fst).Pairwise WireValue.Before ∧
      collections.setFromIterDedup (keyMap.map Prod.fst) = keyMap.map Prod.fst := by
  intro keyMap
  have spelled : Spelled (keyMap.map Prod.fst) := by
    intro key member
    obtain ⟨⟨_, value⟩, listed, rfl⟩ := List.mem_map.mp member
    obtain ⟨g2Key, -, -, rfl, -⟩ := (mem_mapFromIterDedup lawful).mp listed
    rfl
  have sorted : (keyMap.map Prod.fst).Pairwise WireValue.Before :=
    List.pairwise_map.mpr (lawful.map_sorted _ (spelled_spelledPairs _))
  exact ⟨spelled, sorted, WireValue.eq_of_sorted id (lawful.set_sorted _ spelled) sorted
    fun key => lawful.set_mem _ spelled key⟩

theorem keyMap_pubKeys {keyMap : List (crates.PublicKey × crates.G1PublicKey)} :
    crates.keyMap collections (crates.pubKeys registry) = some keyMap ↔
      registry.Complete ∧
        keyMap = collections.mapFromIterDedup (crates.spelledPairs registry.keys) := by
  have empty : (crates.pubKeys registry).isEmpty = true ↔ registry.operators = [] := by
    simp [pubKeys]
  unfold Primitives.keyMap Registry.Complete
  rw [mapM_pubKeys]
  by_cases none : registry.operators = []
  · simp [none, empty.mpr none]
  · rw [if_neg (mt empty.mp none)]
    by_cases all : ∀ operator ∈ registry.operators, (registry.operatorInfo operator).isSome = true
    · rw [if_pos all, Option.map_some, List.map_map]
      exact ⟨fun same => ⟨⟨none, all⟩, (Option.some.inj same).symm⟩,
        fun ⟨_, same⟩ => congrArg some same.symm⟩
    · rw [if_neg all]
      exact ⟨by rintro ⟨⟩, fun ⟨complete, _⟩ => absurd complete.2 all⟩

variable [DecidableEq GT] {scheme : crates.Scheme}

theorem validated_eq_some {participants : List crates.PublicKey}
    {g1Keys : List crates.G1PublicKey} (built : crates.validated participants g1Keys = some scheme) :
    scheme.participants = participants ∧ scheme.g1Keys = g1Keys := by
  obtain ⟨_, same⟩ := Option.dite_none_right_eq_some.mp built
  cases same
  exact ⟨rfl, rfl⟩

/-- What a scheme is built of. -/
theorem verifierScheme_pubKeys (lawful : collections.Lawful)
    (built : crates.verifierScheme collections (crates.pubKeys registry) = some scheme) :
    scheme.participants =
        (collections.mapFromIterDedup (crates.spelledPairs registry.keys)).map Prod.fst ∧
      scheme.g1Keys =
        (collections.mapFromIterDedup (crates.spelledPairs registry.keys)).map Prod.snd := by
  obtain ⟨keyMap, shape, valid⟩ := Option.bind_eq_some_iff.mp built
  obtain ⟨-, rfl⟩ := keyMap_pubKeys.mp shape
  rw [(setFromIterDedup_keys lawful registry).2.2] at valid
  exact validated_eq_some valid

/-- The router's check of a certificate is the crate's. -/
theorem verifierScheme_verifyCertificate {operators : List (Option crates.CommonwarePublicKeys)}
    (built : crates.verifierScheme collections operators = some scheme) {item : Item}
    {digest : Digest32} (named : itemDigest item = some digest) (certificate : crates.Certificate) :
    scheme.verifyCertificate digest certificate =
      crates.verifyCertificate scheme quorum item certificate := by
  obtain ⟨keyMap, -, valid⟩ := Option.bind_eq_some_iff.mp built
  obtain ⟨-, ⟨⟩⟩ := Option.dite_none_right_eq_some.mp valid
  exact (verifyCertificate_verifier named).symm

/-- Only a registry that is not complete stops the construction. -/
theorem isSome_verifierScheme (lawful : collections.Lawful) :
    (crates.verifierScheme collections (crates.pubKeys registry)).isSome ↔ registry.Complete := by
  constructor
  · intro built
    obtain ⟨scheme, built⟩ := Option.isSome_iff_exists.mp built
    obtain ⟨keyMap, shape, -⟩ := Option.bind_eq_some_iff.mp built
    exact (keyMap_pubKeys.mp shape).1
  · intro complete
    obtain ⟨-, sorted, keys⟩ := setFromIterDedup_keys lawful registry
    unfold verifierScheme
    rw [keyMap_pubKeys.mpr ⟨complete, rfl⟩, Option.bind_some, keys, validated, dif_pos]
    · rfl
    · refine ⟨WireValue.nodup_of_sorted sorted, ?_, by simp⟩
      obtain ⟨operator, listed⟩ := List.exists_mem_of_ne_nil _ complete.1
      obtain ⟨⟨g1Key, g2Key⟩, info⟩ := Option.isSome_iff_exists.mp (complete.2 operator listed)
      obtain ⟨first, found⟩ := Option.isSome_iff_exists.mp
        (Registry.isSome_g1Key.mpr ⟨operator, listed, g1Key, info⟩)
      exact List.ne_nil_of_mem (List.mem_map_of_mem
        ((mem_mapFromIterDedup lawful).mpr ⟨g2Key, first, found, rfl, rfl⟩))

/-- The position of a participant and what stands there. -/
theorem participants_getElem? (lawful : collections.Lawful)
    (built : crates.verifierScheme collections (crates.pubKeys registry) = some scheme)
    {position : Nat} {key : crates.PublicKey} (found : scheme.participants[position]? = some key) :
    ∃ g2Key g1Key, registry.g1Key g2Key = some g1Key ∧ key = .ofElement _ g2Key ∧
      scheme.g1Keys[position]? = some (.ofElement _ g1Key) := by
  obtain ⟨participants, g1Keys⟩ := verifierScheme_pubKeys lawful built
  rw [participants, List.getElem?_map] at found
  obtain ⟨⟨_, value⟩, here, rfl⟩ := Option.map_eq_some_iff.mp found
  obtain ⟨g2Key, g1Key, first, spelled, rfl⟩ :=
    (mem_mapFromIterDedup lawful).mp (List.mem_of_getElem? here)
  refine ⟨g2Key, g1Key, first, spelled, ?_⟩
  rw [g1Keys, List.getElem?_map, here]
  rfl

/-- Registries that resolve each key alike make one scheme, however they list it. -/
theorem scheme_eq (lawful : collections.Lawful) {B : Type} {other : Registry B G₁ G₂}
    (alike : other.g1Key = registry.g1Key) {scheme' : crates.Scheme}
    (built : crates.verifierScheme collections (crates.pubKeys registry) = some scheme)
    (built' : crates.verifierScheme collections (crates.pubKeys other) = some scheme') :
    scheme' = scheme := by
  have maps : collections.mapFromIterDedup (crates.spelledPairs other.keys) =
      collections.mapFromIterDedup (crates.spelledPairs registry.keys) := by
    refine WireValue.eq_of_sorted Prod.fst (lawful.map_sorted _ (spelled_spelledPairs _))
      (lawful.map_sorted _ (spelled_spelledPairs _)) ?_
    rintro ⟨key, value⟩
    rw [mem_mapFromIterDedup lawful, mem_mapFromIterDedup lawful, alike]
  obtain ⟨keyMap, shape, valid⟩ := Option.bind_eq_some_iff.mp built
  obtain ⟨keyMap', shape', valid'⟩ := Option.bind_eq_some_iff.mp built'
  obtain ⟨-, rfl⟩ := keyMap_pubKeys.mp shape
  obtain ⟨-, rfl⟩ := keyMap_pubKeys.mp shape'
  rw [maps, valid] at valid'
  exact (Option.some.inj valid').symm

/-- The participants are the keys of the operators. -/
theorem mem_participants (lawful : collections.Lawful)
    (built : crates.verifierScheme collections (crates.pubKeys registry) = some scheme)
    {key : crates.PublicKey} :
    key ∈ scheme.participants ↔ ∃ g2Key, (registry.g1Key g2Key).isSome ∧ key = .ofElement _ g2Key := by
  constructor
  · intro member
    obtain ⟨position, found⟩ := List.mem_iff_getElem?.mp member
    obtain ⟨g2Key, g1Key, first, spelled, -⟩ := participants_getElem? lawful built found
    exact ⟨g2Key, by rw [first]; rfl, spelled⟩
  · rintro ⟨g2Key, known, rfl⟩
    obtain ⟨g1Key, first⟩ := Option.isSome_iff_exists.mp known
    rw [(verifierScheme_pubKeys lawful built).1]
    exact List.mem_map_of_mem ((mem_mapFromIterDedup lawful).mpr ⟨g2Key, g1Key, first, rfl, rfl⟩)

theorem sorted_participants (lawful : collections.Lawful)
    (built : crates.verifierScheme collections (crates.pubKeys registry) = some scheme) :
    scheme.participants.Pairwise WireValue.Before := by
  rw [(verifierScheme_pubKeys lawful built).1]
  exact (setFromIterDedup_keys lawful registry).2.1

/-- **Every process builds the same participant set.** A scheme is built exactly where there
are operators and each has keys. Its participants are the G2 keys of the operators in
increasing order, each aligned with the G1 key of the first operator that has it. Two
processes whose operators have the same G2 keys give each key the same position,
whatever order they list them in and whatever G1 keys they hold; if they also resolve
each to the same G1 key, they have the same scheme. -/
theorem participants_shared (lawful : collections.Lawful) (registry : Registry A G₁ G₂) :
    ((crates.verifierScheme collections (crates.pubKeys registry)).isSome ↔ registry.Complete) ∧
    ∀ scheme, crates.verifierScheme collections (crates.pubKeys registry) = some scheme →
      scheme.participants.Pairwise WireValue.Before ∧
      (∀ key, key ∈ scheme.participants ↔ ∃ operator ∈ registry.operators, ∃ g1Key g2Key,
        registry.operatorInfo operator = some (g1Key, g2Key) ∧ key = .ofElement _ g2Key) ∧
      (∀ (position : Nat) g2Key, scheme.participants[position]? = some (.ofElement _ g2Key) → ∃ g1Key,
        registry.g1Key g2Key = some g1Key ∧
          scheme.g1Keys[position]? = some (.ofElement _ g1Key)) ∧
      ∀ (B : Type) (other : Registry B G₁ G₂) (scheme' : crates.Scheme),
        crates.verifierScheme collections (crates.pubKeys other) = some scheme' →
        ((∀ g2Key, (other.g1Key g2Key).isSome ↔ (registry.g1Key g2Key).isSome) →
          scheme'.participants = scheme.participants) ∧
        (other.g1Key = registry.g1Key → scheme' = scheme) := by
  refine ⟨isSome_verifierScheme lawful, fun scheme built => ⟨sorted_participants lawful built,
    fun key => ?_, fun position g2Key found => ?_, fun B other scheme' built' =>
      ⟨fun alike => ?_, fun alike => scheme_eq lawful alike built built'⟩⟩⟩
  · rw [mem_participants lawful built]
    constructor
    · rintro ⟨g2Key, known, rfl⟩
      obtain ⟨operator, listed, g1Key, info⟩ := Registry.isSome_g1Key.mp known
      exact ⟨operator, listed, g1Key, g2Key, info, rfl⟩
    · rintro ⟨operator, listed, g1Key, g2Key, info, rfl⟩
      exact ⟨g2Key, Registry.isSome_g1Key.mpr ⟨operator, listed, g1Key, info⟩, rfl⟩
  · obtain ⟨_, g1Key, first, same, aligned⟩ := participants_getElem? lawful built found
    rw [WireValue.ofElement_inj.mp same]
    exact ⟨g1Key, first, aligned⟩
  · refine WireValue.eq_of_sorted id (sorted_participants lawful built')
      (sorted_participants lawful built) fun key => ?_
    rw [mem_participants lawful built', mem_participants lawful built]
    simp only [alike]

/-! ### Acks and certificates between processes -/

variable {node : crates.SigningScheme} {scalar : ZMod r} {item : Item} {digest : Digest32}

/-- A node finds itself where the router has its key. -/
theorem signingScheme_joined (lawful : collections.Lawful) {B : Type} {other : Registry B G₁ G₂}
    (alike : other.g1Key = registry.g1Key)
    (built : crates.verifierScheme collections (crates.pubKeys registry) = some scheme)
    (joined : crates.signingScheme collections (crates.pubKeys other) (crates.fromScalar scalar) =
      some node) :
    node.signer = crates.fromScalar scalar ∧
      scheme.participants[node.me]? = some (crates.publicKeyOf (crates.fromScalar scalar)) := by
  obtain ⟨own, built', found⟩ := Option.bind_eq_some_iff.mp joined
  obtain ⟨me, index, rfl⟩ := Option.map_eq_some_iff.mp found
  obtain rfl := scheme_eq lawful alike built built'
  have spelled : Spelled own.participants := by
    intro key member
    obtain ⟨g2Key, -, rfl⟩ := (mem_participants lawful built).mp member
    rfl
  exact ⟨rfl, (lawful.index _ spelled (sorted_participants lawful built) _ _).mp index⟩

/-- What a node sends for an item. -/
theorem sign_eq_some (named : itemDigest item = some digest) : node.sign item =
    some { signer := node.me, signature := some (crates.signDigest node.signer digest) } := by
  rw [SigningScheme.sign, named]
  rfl

/-- An ack verifies where its key stands. -/
theorem verifyAttestation_signed (named : itemDigest item = some digest)
    (signer : node.signer = crates.fromScalar scalar)
    (here : scheme.participants[node.me]? = some (crates.publicKeyOf (crates.fromScalar scalar))) :
    crates.verifyAttestation scheme item
      { signer := node.me, signature := some (crates.signDigest node.signer digest) } = true := by
  refine verifyAttestation_iff.mpr ⟨(List.getElem?_eq_some_iff.mp here).1, _, digest, rfl, named, ?_⟩
  rw [keyAt, here, signer]
  exact (crates.pairing.pair_nsmul scalar.val).symm

/-- A node that has built its scheme from operators that resolve like the router's. -/
def Joined (collections : crates.KeyCollections) (registry : Registry A G₁ G₂)
    (node : crates.SigningScheme) : Prop :=
  ∃ (B : Type) (other : Registry B G₁ G₂) (scalar : ZMod r), other.g1Key = registry.g1Key ∧
    crates.signingScheme collections (crates.pubKeys other) (crates.fromScalar scalar) = some node

omit [DecidableEq GT] in
/-- The keys of a certificate, G1 or G2, are those at the positions of the acks. -/
theorem mem_keys_gathered {K : Type} {keys : List K} {attestations : List crates.Attestation}
    (admitted : ∀ a ∈ attestations, Admitted scheme a)
    (distinct : (attestations.map Attestation.signer).Nodup) {key : K} :
    key ∈ (crates.gathered scheme attestations).indices.filterMap (keys[·]?) ↔
      ∃ a ∈ attestations, keys[a.signer]? = some key := by
  rw [List.mem_filterMap]
  constructor
  · rintro ⟨position, member, found⟩
    rw [(indices_gathered admitted distinct).mem_iff] at member
    obtain ⟨a, listed, rfl⟩ := List.mem_map.mp member
    exact ⟨a, listed, found⟩
  · rintro ⟨a, listed, found⟩
    exact ⟨a.signer, (indices_gathered admitted distinct).mem_iff.mpr (List.mem_map_of_mem listed),
      found⟩

/-- Nodes with different keys have different positions. -/
theorem nodup_positions {nodes : List crates.SigningScheme}
    (own : ∀ node ∈ nodes, scheme.participants[node.me]? = some (crates.publicKeyOf node.signer))
    (distinct : (nodes.map (·.signer.publicPoint)).Nodup) :
    (nodes.map SigningScheme.me).Nodup := by
  refine List.Nodup.map_on ?_ (List.Nodup.of_map _ distinct)
  intro node listed node' listed' same
  have here := own node' listed'
  rw [← same, own node listed] at here
  exact List.inj_on_of_nodup_map distinct listed listed'
    (WireValue.ofElement_inj.mp (Option.some.inj here))

/-- **Acks of registered nodes certify.** The ack of every joined node verifies at the
router, at the position of the node's own key. From a quorum of nodes on, the acks are
assembled, in any order, to a certificate that verifies, at the router's reporter among
others, and that names exactly these nodes: by their G2 keys, and by the G1 keys they
are registered with. -/
theorem registered_nodes_certify (lawful : collections.Lawful) (registry : Registry A G₁ G₂)
    (built : crates.verifierScheme collections (crates.pubKeys registry) = some scheme)
    (nodes : List crates.SigningScheme) (joined : ∀ node ∈ nodes, Joined collections registry node)
    (distinct : (nodes.map (·.signer.publicPoint)).Nodup) (item : Item)
    (sized : item.digest.length = 32) :
    (∀ node ∈ nodes, ∃ ack, node.sign item = some ack ∧
      crates.verifyAttestation scheme item ack = true ∧
        scheme.participants[ack.signer]? = some (crates.publicKeyOf node.signer)) ∧
    (quorum scheme.participants.length ≤ nodes.length → ∃ certificate : crates.Certificate,
      (∀ acks, acks.Perm (nodes.filterMap (·.sign item)) →
        crates.assemble scheme quorum acks = some (some certificate)) ∧
      crates.verifyCertificate scheme quorum item certificate = true ∧
      (∀ cfg : Router.Config Digest32 crates.PublicKey crates.G1PublicKey crates.Signature,
        cfg.scheme = scheme → ∀ height,
          cfg.verify ⟨height, ⟨item.digest, sized⟩, certificate⟩ = true) ∧
      (∀ key, key ∈ scheme.signerG2Keys certificate ↔
        ∃ node ∈ nodes, key = crates.publicKeyOf node.signer) ∧
      ∀ key, key ∈ scheme.signerG1Points certificate ↔ ∃ node ∈ nodes, ∃ g1Key,
        registry.g1Key node.signer.publicPoint = some g1Key ∧ key = .ofElement _ g1Key) := by
  have named : itemDigest item = some ⟨item.digest, sized⟩ := itemDigest_eq_some.mpr rfl
  let ack (node : crates.SigningScheme) : crates.Attestation :=
    { signer := node.me, signature := some (crates.signDigest node.signer ⟨item.digest, sized⟩) }
  have own : ∀ node ∈ nodes, crates.verifyAttestation scheme item (ack node) = true ∧
      scheme.participants[node.me]? = some (crates.publicKeyOf node.signer) := by
    intro node member
    obtain ⟨B, other, scalar, alike, builds⟩ := joined node member
    obtain ⟨signer, here⟩ := signingScheme_joined lawful alike built builds
    exact ⟨verifyAttestation_signed named signer here, signer ▸ here⟩
  have acks : nodes.filterMap (·.sign item) = nodes.map ack := by
    rw [← List.filterMap_eq_map]
    exact List.filterMap_congr fun node _ => sign_eq_some named
  refine ⟨fun node member => ⟨ack node, sign_eq_some named, own node member⟩, fun enough => ?_⟩
  have verified : ∀ a ∈ nodes.map ack, crates.verifyAttestation scheme item a = true :=
    List.forall_mem_map.mpr fun node listed => (own node listed).1
  have admitted : ∀ a ∈ nodes.map ack, Admitted scheme a :=
    fun a member => Admitted.of_verified (verified a member)
  have positions : ((nodes.map ack).map Attestation.signer).Nodup := by
    rw [List.map_map]
    exact nodup_positions (fun node listed => (own node listed).2) distinct
  have reaches : quorum scheme.participants.length ≤ (nodes.map ack).length := by
    rwa [List.length_map]
  have verifies : crates.verifyCertificate scheme quorum item
      (crates.gathered scheme (nodes.map ack)) = true :=
    gathered_verifies positions verified reaches named rfl
  refine ⟨crates.gathered scheme (nodes.map ack), ?_, verifies, ?_, fun key => ?_, fun key => ?_⟩
  · intro other reordered
    rw [acks] at reordered
    rw [assemble_admitted (fun a member => admitted a (reordered.mem_iff.mp member))
        ((reordered.map _).nodup_iff.mpr positions),
      gathered_perm reordered, reordered.length_eq, if_neg (Nat.not_lt.mpr reaches)]
  · rintro cfg rfl height
    exact (verifierScheme_verifyCertificate built named _).trans verifies
  · rw [Bn254Scheme.signerG2Keys, mem_keys_gathered admitted positions]
    simp only [List.mem_map, exists_exists_and_eq_and]
    refine exists_congr fun node => and_congr_right fun listed => ?_
    rw [(own node listed).2, Option.some.injEq, eq_comm]
  · rw [Bn254Scheme.signerG1Points, mem_keys_gathered admitted positions]
    simp only [List.mem_map, exists_exists_and_eq_and]
    refine exists_congr fun node => and_congr_right fun listed => ?_
    obtain ⟨_, g1Key, first, same, here⟩ := participants_getElem? lawful built (own node listed).2
    rw [here, Option.some.injEq, WireValue.ofElement_inj.mp same, first]
    constructor
    · rintro rfl
      exact ⟨g1Key, rfl, rfl⟩
    · rintro ⟨_, ⟨⟩, rfl⟩
      rfl

end Primitives

section Examples

variable {E K V : Type} {kind : Kind E} [DecidableEq E]

/-- The first entry of each key. -/
def firstEntries [DecidableEq K] : List (K × V) → List (K × V)
  | [] => []
  | entry :: entries => entry :: (firstEntries entries).filter (·.1 ≠ entry.1)

theorem mem_firstEntries [DecidableEq K] {entries : List (K × V)} {key : K} {value : V} :
    (key, value) ∈ firstEntries entries ↔ entries.lookup key = some value := by
  induction entries with
  | nil => simp [firstEntries]
  | cons first entries ih =>
    obtain ⟨here, kept⟩ := first
    rw [firstEntries, List.mem_cons, List.mem_filter, ih, List.lookup_cons]
    by_cases same : key = here
    · simp [same, eq_comm]
    · simp [same, beq_false_of_ne same]

theorem lookup_units [DecidableEq K] {keys : List K} {key : K} :
    (keys.map (·, ())).lookup key = some () ↔ key ∈ keys := by
  induction keys with
  | nil => simp
  | cons first keys ih =>
    rw [List.map_cons, List.lookup_cons, List.mem_cons, ← ih]
    by_cases same : key = first
    · simp [same]
    · simp [same, beq_false_of_ne same]

theorem nodup_firstEntries [DecidableEq K] (entries : List (K × V)) :
    ((firstEntries entries).map Prod.fst).Nodup := by
  induction entries with
  | nil => exact .nil
  | cons first entries ih =>
    refine List.nodup_cons.mpr ⟨?_, ih.sublist (List.filter_sublist.map _)⟩
    intro again
    obtain ⟨entry, member, same⟩ := List.mem_map.mp again
    exact absurd same (by simpa using (List.mem_filter.mp member).2)

/-- Sorting by key, as the crate's collections do once they hold each key once. -/
def sortByKey (entries : List (WireValue kind × V)) : List (WireValue kind × V) :=
  entries.insertionSort fun entry other => (entry.1.cmp other.1).isLE

omit [DecidableEq E] in
theorem sortByKey_sorted (canonical : kind.encoding.Canonical)
    {entries : List (WireValue kind × V)} (spelled : Spelled (entries.map Prod.fst))
    (distinct : (entries.map Prod.fst).Nodup) :
    (sortByKey entries).Pairwise (·.1.Before ·.1) := by
  let order (entry other : WireValue kind × V) : Prop := (entry.1.cmp other.1).isLE
  have total : Std.Total order := by
    refine ⟨fun entry other => ?_⟩
    have swapped : other.1.cmp entry.1 = (entry.1.cmp other.1).swap := WireValue.cmp_swap
    unfold order
    rw [swapped]
    cases entry.1.cmp other.1 <;> simp
  have transitive : IsTrans _ order := ⟨fun _ _ _ => Std.TransOrd.isLE_trans (α := List UInt8)⟩
  have sorted : (sortByKey entries).Pairwise order := List.pairwise_insertionSort order entries
  have perm : (sortByKey entries).Perm entries := List.perm_insertionSort _ entries
  have apart : (sortByKey entries).Pairwise (·.1 ≠ ·.1) :=
    List.pairwise_map.mp ((perm.map Prod.fst).nodup_iff.mpr distinct)
  refine (sorted.and apart).imp_of_mem ?_
  rintro entry other member member' ⟨least, different⟩
  refine (Ordering.isLE_iff_eq_lt_or_eq_eq.mp least).resolve_right fun equal => different ?_
  have at_entry := spelled _ (List.mem_map_of_mem (perm.mem_iff.mp member))
  have at_other := spelled _ (List.mem_map_of_mem (perm.mem_iff.mp member'))
  have raw : entry.1.raw = other.1.raw := Std.compare_eq_iff_eq.mp equal
  rw [at_entry, at_other] at raw ⊢
  exact WireValue.ofElement_inj.mpr (canonical.serialize_injective raw)

/-- The collections as they are documented. -/
def sortedCollections (kind : Kind E) (V : Type) : Collections kind V where
  mapFromIterDedup pairs := sortByKey (firstEntries pairs)
  setFromIterDedup keys := (sortByKey (firstEntries (keys.map (·, ())))).map Prod.fst
  index keys key := keys.idxOf? key

theorem sortedCollections_lawful (canonical : kind.encoding.Canonical) :
    (sortedCollections kind V).Lawful := by
  have kept {W : Type} {pairs : List (WireValue kind × W)} (spelled : Spelled (pairs.map Prod.fst)) :
      Spelled ((firstEntries pairs).map Prod.fst) := by
    intro key member
    obtain ⟨⟨_, value⟩, listed, rfl⟩ := List.mem_map.mp member
    obtain ⟨before, after, shape, -⟩ := List.lookup_eq_some_iff.mp (mem_firstEntries.mp listed)
    exact spelled _ (by simp [shape])
  have units {keys : List (WireValue kind)} (spelled : Spelled keys) :
      Spelled ((keys.map (·, ())).map Prod.fst) := by
    simpa [List.map_map, Function.comp_def] using spelled
  constructor
  · exact fun pairs spelled => sortByKey_sorted canonical (kept spelled) (nodup_firstEntries pairs)
  · intro pairs _ key value
    exact (List.mem_insertionSort _).trans mem_firstEntries
  · intro keys spelled
    exact List.pairwise_map.mpr
      (sortByKey_sorted canonical (kept (units spelled)) (nodup_firstEntries _))
  · intro keys _ key
    have unit : key ∈ ((sortedCollections kind V).setFromIterDedup keys) ↔
        (key, ()) ∈ firstEntries (keys.map (·, ())) := by
      refine List.mem_map.trans ⟨?_, fun member => ⟨_, (List.mem_insertionSort _).mpr member, rfl⟩⟩
      rintro ⟨entry, member, rfl⟩
      exact (List.mem_insertionSort _).mp member
    rw [unit, mem_firstEntries, lookup_units]
  · intro keys _ sorted element position
    refine List.idxOf?_eq_some_iff.trans (Iff.trans ?_ List.getElem?_eq_some_iff.symm)
    refine exists_congr fun inside => and_iff_left_of_imp ?_
    intro here earlier before again
    have distinct := WireValue.nodup_of_sorted sorted
    exact before.ne (distinct.getElem_inj_iff.mp (again.trans here.symm))

/-- Three operators with the secrets 1, 2 and 3, listed in some order. -/
def smallRegistry (operators : List Nat) : Registry Nat (ZMod 7) (ZMod 7) where
  operators
  operatorInfo operator := some (residue operator, residue operator)

def smallCollections : smallCrates.KeyCollections := sortedCollections _ _

theorem smallCollections_lawful : smallCollections.Lawful :=
  sortedCollections_lawful (LittleEndian.below_canonical (by decide))

def smallNode (listing : List Nat) (secret : Nat) : Option smallCrates.SigningScheme :=
  smallCrates.signingScheme smallCollections (smallCrates.pubKeys (smallRegistry listing))
    (smallCrates.fromScalar (residue secret))

end Examples

/-- The operators in two orders make one scheme. -/
theorem reordered_operators_same_scheme : ∃ scheme,
    smallCrates.verifierScheme smallCollections
        (smallCrates.pubKeys (smallRegistry [1, 2, 3])) = some scheme ∧
      smallCrates.verifierScheme smallCollections
        (smallCrates.pubKeys (smallRegistry [3, 1, 2])) = some scheme := by
  have complete (first : Nat) (rest : List Nat) : (smallRegistry (first :: rest)).Complete :=
    ⟨List.cons_ne_nil _ _, fun _ _ => rfl⟩
  obtain ⟨built, shared⟩ :=
    Primitives.participants_shared smallCollections_lawful (smallRegistry [1, 2, 3])
  obtain ⟨built', -⟩ :=
    Primitives.participants_shared smallCollections_lawful (smallRegistry [3, 1, 2])
  obtain ⟨scheme, here⟩ := Option.isSome_iff_exists.mp (built.mpr (complete 1 [2, 3]))
  obtain ⟨scheme', there⟩ := Option.isSome_iff_exists.mp (built'.mpr (complete 3 [1, 2]))
  obtain ⟨-, -, -, others⟩ := shared scheme here
  have alike : (smallRegistry [3, 1, 2]).g1Key = (smallRegistry [1, 2, 3]).g1Key := by
    funext key
    revert key
    decide
  exact ⟨scheme, here, (others Nat _ scheme' there).2 alike ▸ there⟩

/-- Three nodes that list the operators in three orders certify an item at the router. -/
theorem small_nodes_certify : ∃ (scheme : smallCrates.Scheme)
      (nodes : List smallCrates.SigningScheme) (certificate : smallCrates.Certificate),
    smallCrates.verifierScheme smallCollections
        (smallCrates.pubKeys (smallRegistry [1, 2, 3])) = some scheme ∧
      [smallNode [3, 2, 1] 1, smallNode [2, 1, 3] 2, smallNode [1, 2, 3] 3] = nodes.map some ∧
      smallCrates.assemble scheme quorum (nodes.filterMap (·.sign (smallItem 0))) =
        some (some certificate) ∧
      smallCrates.verifyCertificate scheme quorum (smallItem 0) certificate = true := by
  have three : (smallCrates.verifierScheme smallCollections
      (smallCrates.pubKeys (smallRegistry [1, 2, 3]))).map (·.participants.length) = some 3 := by
    decide +kernel
  obtain ⟨scheme, built, size⟩ := Option.map_eq_some_iff.mp three
  have alike (listing : List Nat) (same : ∀ key, (smallRegistry listing).g1Key key =
      (smallRegistry [1, 2, 3]).g1Key key) {secret : Nat} {node : smallCrates.SigningScheme}
      (found : smallNode listing secret = some node) :
      Primitives.Joined smallCollections (smallRegistry [1, 2, 3]) node ∧
        node.signer.publicPoint = (smallCrates.fromScalar (residue secret)).publicPoint := by
    refine ⟨⟨Nat, _, residue secret, funext same, found⟩, ?_⟩
    rw [(Primitives.signingScheme_joined smallCollections_lawful (funext same) built found).1]
  have present : (smallNode [3, 2, 1] 1).isSome ∧ (smallNode [2, 1, 3] 2).isSome ∧
      (smallNode [1, 2, 3] 3).isSome := by decide +kernel
  obtain ⟨a, first⟩ := Option.isSome_iff_exists.mp present.1
  obtain ⟨b, second⟩ := Option.isSome_iff_exists.mp present.2.1
  obtain ⟨c, third⟩ := Option.isSome_iff_exists.mp present.2.2
  obtain ⟨joinsA, keyA⟩ := alike [3, 2, 1] (by decide) first
  obtain ⟨joinsB, keyB⟩ := alike [2, 1, 3] (by decide) second
  obtain ⟨joinsC, keyC⟩ := alike [1, 2, 3] (fun _ => rfl) third
  have distinct : ([a, b, c].map (·.signer.publicPoint)).Nodup := by
    simp only [List.map_cons, List.map_nil, keyA, keyB, keyC]
    decide +kernel
  obtain ⟨-, enough⟩ := Primitives.registered_nodes_certify smallCollections_lawful
    (smallRegistry [1, 2, 3]) built [a, b, c] (by simp [joinsA, joinsB, joinsC]) distinct
    (smallItem 0) (by decide)
  obtain ⟨certificate, assembled, verified, -⟩ := enough (by rw [size]; exact le_rfl)
  refine ⟨scheme, [a, b, c], certificate, built, ?_, assembled _ (.refl _), verified⟩
  rw [first, second, third]
  rfl

end Restaking.Bn254
