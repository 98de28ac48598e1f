import Restaking.Lib.Run
import Restaking.Lib.Settling
import Restaking.Submitting

/-! Whose addresses an attempt passes to the retriever: those the registry has for
the signers, unless the cache holds the zero address that a lookup before a
registration returned. -/
namespace Restaking.Submitter
open Lib

variable {T D P G S H A N : Type*} {config : Config D P G S H A}
variable {certificate : Bn254Certificate S} {index : Nat}

/-! ### Signers and participants -/

/-- The participants, each with both keys. -/
def Config.participants (config : Config D P G S H A) : List (P × G) :=
  config.scheme.participants.zip config.scheme.g1Keys

/-- The two filters of `submit` keep the same indices. -/
theorem signers_eq (certificate : Bn254Certificate S) :
    config.signers certificate = certificate.indices.filterMap (config.participants[·]?) := by
  rw [Config.signers, Bn254Scheme.signerG2Keys, Bn254Scheme.signerG1Points, Config.participants]
  induction certificate.indices with
  | nil => rfl
  | cons index rest ih =>
    have aligned := config.scheme.aligned
    by_cases within : index < config.scheme.participants.length
    · have within' : index < config.scheme.g1Keys.length := aligned ▸ within
      simp [within, within', ih]
    · have beyond : ¬ index < config.scheme.g1Keys.length := aligned ▸ within
      simp [within, beyond, ih]

theorem signers_subset {signer : P × G} (member : signer ∈ config.signers certificate) :
    signer ∈ config.participants := by
  rw [signers_eq] at member
  obtain ⟨index, -, found⟩ := List.mem_filterMap.mp member
  exact List.mem_of_getElem? found

theorem participants_getElem? {key : P} {g1 : G} :
    config.participants[index]? = some (key, g1) ↔
      config.scheme.participants[index]? = some key ∧ config.scheme.g1Keys[index]? = some g1 :=
  List.getElem?_zip_eq_some

/-- No participant is listed twice, so its G2 key determines its G1 key. -/
theorem participants_unique {key : P} {g1 g1' : G} (member : (key, g1) ∈ config.participants)
    (member' : (key, g1') ∈ config.participants) : g1 = g1' := by
  obtain ⟨i, found⟩ := List.mem_iff_getElem?.mp member
  obtain ⟨j, found'⟩ := List.mem_iff_getElem?.mp member'
  obtain ⟨first, second⟩ := participants_getElem?.mp found
  obtain ⟨first', second'⟩ := participants_getElem?.mp found'
  have same : i = j :=
    (List.getElem?_inj (List.getElem?_eq_some_iff.mp first).1 config.scheme.distinct).mp
      (first.trans first'.symm)
  subst same
  exact Option.some.inj (second.symm.trans second')

/-- A verified certificate names participants only, one for each set bit. -/
theorem indices_found {digest : D}
    (verified : config.scheme.verifyCertificate digest certificate = true) :
    ∀ index ∈ certificate.indices, ∃ signer, config.participants[index]? = some signer := by
  intro index member
  have within : index < config.scheme.participants.length :=
    (Bn254Certificate.lt_of_mem_indices member).trans_eq (Bn254Scheme.verified_length verified)
  have within' := within.trans_eq config.scheme.aligned
  exact ⟨_, participants_getElem?.mpr
    ⟨List.getElem?_eq_getElem within, List.getElem?_eq_getElem within'⟩⟩

/-! ### Accepted certificates -/

/-- One call of `submit` and what the endpoints answer to it. -/
structure Request (T D S H A N : Type*) where
  certified : Certificate D (Bn254Certificate S)
  task : T
  answers : Answers H A N

namespace Request

variable {request : Request T D S H A N} {registry : Nat → H → A}

/-- An accepted certificate, and lookups that return what the registry has at the
reference block where they do not fail. -/
structure Genuine (config : Config D P G S H A) (registry : Nat → H → A)
    (request : Request T D S H A N) : Prop where
  verified : config.scheme.verifyCertificate request.certified.digest
    request.certified.certificate = true
  honest : ∀ block slot hash address, request.answers.blockNumber = .ok block →
    request.answers.pubkeyHashToOperator slot hash = .ok address → registry block hash = address

/-- The check of the key set passes. -/
theorem Genuine.consistent (genuine : request.Genuine config registry) :
    ¬ config.Inconsistent request.certified.certificate := by
  obtain ⟨enough, -, same⟩ := Bn254Scheme.verified_signers genuine.verified
  rintro (none | uneven)
  · rw [none, List.length_nil] at enough
    have participants := List.length_pos_iff.mpr config.scheme.nonempty
    exact absurd enough (not_le.mpr (quorum_pos participants))
  · exact uneven same

end Request

variable [LinearOrder P] {cache cache' : OrderedMap P A} {registry : Nat → H → A}
variable {lookup : Nat → H → Except String A} {signers : List (P × G)}
variable {operators operators' : List (Option A)} {misses : List (Nat × P × H)}
variable {c : Certificate D (Bn254Certificate S)} {task : T} {answers : Answers H A N}

/-! ### Slots -/

/-- The address of a signer, on file before the attempt or looked up by it. -/
inductive Resolved (config : Config D P G S H A) (cache : OrderedMap P A)
    (lookup : Nat → H → Except String A) : P × G → A → Prop where
  | hit {key : P} {g1 : G} {address : A} (cached : cache.get? key = some address) :
      Resolved config cache lookup (key, g1) address
  | miss {key : P} {g1 : G} {hash : H} {slot : Nat} {address : A} (absent : cache.get? key = none)
      (hashed : config.pubkeyHash g1 = .ok hash) (answered : lookup slot hash = .ok address) :
      Resolved config cache lookup (key, g1) address

private theorem map_eq_ok {α β : Type*} {f : α → β} {outcome : Except String α} {b : β}
    (mapped : outcome.map f = .ok b) : ∃ a, outcome = .ok a ∧ f a = b := by
  cases outcome with
  | error error => cases mapped
  | ok a => exact ⟨a, rfl, Except.ok.inj mapped⟩

theorem takeHits_cons {key : P} {g1 : G}
    (taken : config.takeHits cache index ((key, g1) :: signers) = .ok (operators, misses)) :
    (∃ address later, cache.get? key = some address ∧
      config.takeHits cache (index + 1) signers = .ok (later, misses) ∧
      operators = some address :: later) ∨
    ∃ hash later rest, cache.get? key = none ∧ config.pubkeyHash g1 = .ok hash ∧
      config.takeHits cache (index + 1) signers = .ok (later, rest) ∧
      operators = none :: later ∧ misses = (index, key, hash) :: rest := by
  rw [Config.takeHits] at taken
  cases cached : cache.get? key with
  | some address =>
    rw [cached] at taken
    obtain ⟨⟨later, rest⟩, tail, same⟩ := map_eq_ok taken
    cases same
    exact .inl ⟨address, later, rfl, tail, rfl⟩
  | none =>
    rw [cached] at taken
    cases hashed : config.pubkeyHash g1 with
    | error error =>
      rw [hashed] at taken
      cases taken
    | ok hash =>
      rw [hashed] at taken
      obtain ⟨⟨later, rest⟩, tail, same⟩ := map_eq_ok taken
      cases same
      exact .inr ⟨hash, later, rest, rfl, rfl, tail, rfl, rfl⟩

/-- The answers come back to the slots they were asked for. The slots before
`done` are filled. -/
theorem writeBack_resolved {done : List (Option A)} {file : OrderedMap P A}
    (taken : config.takeHits cache done.length signers = .ok (operators, misses))
    (written : Config.writeBack lookup misses file (done ++ operators) = (cache', .ok operators')) :
    ∃ addresses, operators' = done ++ addresses.map some ∧
      List.Forall₂ (Resolved config cache lookup) signers addresses := by
  induction signers generalizing done operators misses file with
  | nil =>
    cases taken
    cases written
    exact ⟨[], rfl, .nil⟩
  | cons signer signers ih =>
    have onward (address : A) (later : List (Option A)) :
        done ++ some address :: later = (done ++ [some address]) ++ later := by simp
    have next (address : A) : (done ++ [some address]).length = done.length + 1 := by simp
    rcases takeHits_cons taken with ⟨address, later, cached, tail, rfl⟩ |
      ⟨hash, later, rest, absent, hashed, tail, rfl, rfl⟩
    · rw [onward] at written
      obtain ⟨addresses, rfl, resolved⟩ := ih (next address ▸ tail) written
      exact ⟨address :: addresses, (onward _ _).symm, .cons (.hit cached) resolved⟩
    · rw [Config.writeBack] at written
      cases answered : lookup done.length hash with
      | error error =>
        rw [answered] at written
        cases written
      | ok address =>
        have filled : (done ++ none :: later).set done.length (some address) =
            (done ++ [some address]) ++ later := by simp
        simp only [answered, filled] at written
        obtain ⟨addresses, rfl, resolved⟩ := ih (next address ▸ tail) written
        exact ⟨address :: addresses, (onward _ _).symm, .cons (.miss absent hashed answered) resolved⟩

private theorem mapM_id_map_some {α : Type*} (addresses : List α) :
    (addresses.map some).mapM id = some addresses := by
  induction addresses with
  | nil => rfl
  | cons address addresses ih => simp [ih]

/-- The resolution ends with its first phase or with its second, and only a full
row of slots is passed on. -/
theorem resolveOperators_cases {resolution : Except String (List A)}
    (resolved : config.resolveOperators lookup cache signers = (cache', resolution)) :
    (cache' = cache ∧ ∃ error, resolution = .error error) ∨
    ∃ operators misses outcome, config.takeHits cache 0 signers = .ok (operators, misses) ∧
      Config.writeBack lookup misses cache operators = (cache', outcome) ∧
      ∀ addresses, resolution = .ok addresses →
        ∃ slots, outcome = .ok slots ∧ slots.mapM id = some addresses := by
  unfold Config.resolveOperators at resolved
  cases taken : config.takeHits cache 0 signers with
  | error error =>
    rw [taken] at resolved
    cases resolved
    exact .inl ⟨rfl, error, rfl⟩
  | ok found =>
    obtain ⟨operators, misses⟩ := found
    right
    refine ⟨operators, misses, (Config.writeBack lookup misses cache operators).2, rfl, ?_⟩
    cases written : Config.writeBack lookup misses cache operators with
    | mk file outcome =>
      simp only [taken, written] at resolved
      cases outcome with
      | error error =>
        cases resolved
        exact ⟨rfl, nofun⟩
      | ok slots =>
        cases full : slots.mapM id with
        | none =>
          simp only [full] at resolved
          cases resolved
          exact ⟨rfl, nofun⟩
        | some addresses =>
          simp only [full] at resolved
          cases resolved
          exact ⟨rfl, fun _ same => ⟨slots, rfl, full.trans (congrArg some (Except.ok.inj same))⟩⟩

/-- Each operator stands at the slot of its signer. -/
theorem resolveOperators_resolved {addresses : List A}
    (resolved : config.resolveOperators lookup cache signers = (cache', .ok addresses)) :
    List.Forall₂ (Resolved config cache lookup) signers addresses := by
  rcases resolveOperators_cases resolved with ⟨-, error, failed⟩ |
    ⟨operators, misses, outcome, taken, written, full⟩
  · cases failed
  · obtain ⟨slots, rfl, passed⟩ := full addresses rfl
    have none : ([] : List (Option A)).length = 0 := rfl
    rw [← none] at taken
    obtain ⟨addresses', rfl, each⟩ := writeBack_resolved taken written
    rw [List.nil_append, mapM_id_map_some] at passed
    cases passed
    exact each

/-! ### What is on file -/

/-- Every address on file is what the registry had for the participant at some
block. -/
def Filed (config : Config D P G S H A) (registry : Nat → H → A) (cache : OrderedMap P A) : Prop :=
  ∀ key address, cache.get? key = some address → ∃ g1 hash block,
    (key, g1) ∈ config.participants ∧ config.pubkeyHash g1 = .ok hash ∧ registry block hash = address

theorem takeHits_misses (taken : config.takeHits cache index signers = .ok (operators, misses)) :
    ∀ miss ∈ misses, ∃ g1, (miss.2.1, g1) ∈ signers ∧ config.pubkeyHash g1 = .ok miss.2.2 := by
  induction signers generalizing index operators misses with
  | nil =>
    cases taken
    exact nofun
  | cons signer signers ih =>
    intro miss member
    rcases takeHits_cons taken with ⟨_, _, _, tail, _⟩ | ⟨hash, _, rest, _, hashed, tail, _, rfl⟩
    · obtain ⟨g1, listed, hashed⟩ := ih tail miss member
      exact ⟨g1, List.mem_cons_of_mem _ listed, hashed⟩
    · rcases List.mem_cons.mp member with rfl | member
      · exact ⟨signer.2, List.mem_cons_self, hashed⟩
      · obtain ⟨g1, listed, hashed⟩ := ih tail miss member
        exact ⟨g1, List.mem_cons_of_mem _ listed, hashed⟩

/-- However many lookups fail, what is written was answered. -/
theorem Filed.writeBack {block : Nat} (filed : Filed config registry cache)
    (known : ∀ miss ∈ misses, ∃ g1, (miss.2.1, g1) ∈ config.participants ∧
      config.pubkeyHash g1 = .ok miss.2.2)
    (honest : ∀ slot hash address, lookup slot hash = .ok address → registry block hash = address) :
    Filed config registry (Config.writeBack lookup misses cache operators).1 := by
  induction misses generalizing cache operators with
  | nil => exact filed
  | cons miss misses ih =>
    obtain ⟨slot, key, hash⟩ := miss
    rw [Config.writeBack]
    cases answered : lookup slot hash with
    | error error => exact filed
    | ok address =>
      apply ih _ fun miss later => known miss (List.mem_cons_of_mem _ later)
      intro key' address' found
      rw [OrderedMap.get?_insert] at found
      split at found
      · rename_i same
        subst same
        cases found
        obtain ⟨g1, member, hashed⟩ := known _ List.mem_cons_self
        exact ⟨g1, hash, block, member, hashed, honest _ _ _ answered⟩
      · exact filed key' address' found

theorem Filed.resolveOperators {block : Nat} {resolution : Except String (List A)}
    (filed : Filed config registry cache) (known : ∀ signer ∈ signers, signer ∈ config.participants)
    (honest : ∀ slot hash address, lookup slot hash = .ok address → registry block hash = address)
    (resolved : config.resolveOperators lookup cache signers = (cache', resolution)) :
    Filed config registry cache' := by
  rcases resolveOperators_cases resolved with ⟨rfl, -⟩ | ⟨operators, misses, outcome, taken, written, -⟩
  · exact filed
  · have kept : Filed config registry (Config.writeBack lookup misses cache operators).1 := by
      apply filed.writeBack _ honest
      intro miss member
      obtain ⟨g1, listed, hashed⟩ := takeHits_misses taken miss member
      exact ⟨g1, known _ listed, hashed⟩
    rw [written] at kept
    exact kept

/-! ### Runs of submissions -/

namespace Request

variable {request : Request T D S H A N} {block : Nat} {zero : A}

def submit (request : Request T D S H A N) (config : Config D P G S H A) (cache : OrderedMap P A) :
    Attempt T D P A N :=
  config.submit cache request.certified request.task request.answers

/-- Whatever fails on the way, the cache holds registered addresses. -/
theorem Genuine.filed (genuine : request.Genuine config registry)
    (filed : Filed config registry cache) :
    Filed config registry (request.submit config cache).operatorCache := by
  have known : ∀ signer ∈ config.signers request.certified.certificate,
      signer ∈ config.participants := fun _ member => signers_subset member
  generalize made : request.submit config cache = attempt
  have comes : config.Comes cache request.certified request.task request.answers attempt :=
    made ▸ Config.submit_comes
  cases comes with
  | refused error => exact filed
  | stopped error read resolved =>
    exact filed.resolveOperators known (fun _ _ _ => genuine.honest _ _ _ _ read) resolved
  | retrieved consistent read resolved handled =>
    exact filed.resolveOperators known (fun _ _ _ => genuine.honest _ _ _ _ read) resolved

end Request

/-- The cache after one more submission. -/
def cacheStep (config : Config D P G S H A) (cache : OrderedMap P A)
    (request : Request T D S H A N) : Option (OrderedMap P A) :=
  some (request.submit config cache).operatorCache

theorem filed_of_run {requests : List (Request T D S H A N)}
    (run : RunWhere (cacheStep config) (fun _ request => request.Genuine config registry)
      .empty requests cache) : Filed config registry cache := by
  apply run.preserves _ nofun
  rintro before request after filed genuine ⟨⟩
  exact genuine.filed filed

/-! ### Agreement with the registry -/

/-- The operator is the one of the participant at the index, at the block or later. -/
def Agrees (config : Config D P G S H A) (registry : Nat → H → A) (block index : Nat)
    (operator : A) : Prop :=
  ∃ g1 hash, config.scheme.g1Keys[index]? = some g1 ∧ config.pubkeyHash g1 = .ok hash ∧
    CurrentAt registry block hash operator

/-- The cache has the zero address for the participant at the index, who is
registered at the block. -/
def Stale (config : Config D P G S H A) (registry : Nat → H → A) (zero : A)
    (cache : OrderedMap P A) (block index : Nat) : Prop :=
  ∃ key g1 hash, config.participants[index]? = some (key, g1) ∧ config.pubkeyHash g1 = .ok hash ∧
    cache.get? key = some zero ∧ registry block hash ≠ zero

/-- A signer's operator agrees exactly where the cache is not stale for it. -/
theorem Resolved.agrees_iff {zero operator : A} {block : Nat} {signer : P × G}
    (settling : Settling registry zero) (filed : Filed config registry cache)
    (honest : ∀ slot hash address, lookup slot hash = .ok address → registry block hash = address)
    (found : config.participants[index]? = some signer)
    (resolved : Resolved config cache lookup signer operator) :
    Agrees config registry block index operator ↔ ¬ Stale config registry zero cache block index := by
  obtain ⟨hash, hashed, source⟩ : ∃ hash, config.pubkeyHash signer.2 = .ok hash ∧
      ((cache.get? signer.1 = some operator ∧ ∃ kept, registry kept hash = operator) ∨
        (cache.get? signer.1 = none ∧ registry block hash = operator)) := by
    cases resolved with
    | hit cached =>
      obtain ⟨g1, hash, kept, member, hashed, given⟩ := filed _ _ cached
      obtain rfl := participants_unique member (List.mem_of_getElem? found)
      exact ⟨hash, hashed, .inl ⟨cached, kept, given⟩⟩
    | miss absent hashed answered => exact ⟨_, hashed, .inr ⟨absent, honest _ _ _ answered⟩⟩
  have agrees : Agrees config registry block index operator ↔ CurrentAt registry block hash operator := by
    constructor
    · rintro ⟨g1, hash', listed, hashed', current⟩
      obtain rfl := Option.some.inj (listed.symm.trans (participants_getElem?.mp found).2)
      obtain rfl := Except.ok.inj (hashed'.symm.trans hashed)
      exact current
    · exact fun current => ⟨signer.2, hash, (participants_getElem?.mp found).2, hashed, current⟩
  have stale : Stale config registry zero cache block index ↔
      cache.get? signer.1 = some zero ∧ registry block hash ≠ zero := by
    constructor
    · rintro ⟨key, g1, hash', found', hashed', cached, registered⟩
      obtain rfl := Option.some.inj (found'.symm.trans found)
      obtain rfl := Except.ok.inj (hashed'.symm.trans hashed)
      exact ⟨cached, registered⟩
    · exact fun ⟨cached, registered⟩ => ⟨_, _, hash, found, hashed, cached, registered⟩
  rw [agrees, stale]
  rcases source with ⟨cached, kept, given⟩ | ⟨absent, now⟩
  · rw [settling.currentAt_iff given, cached, Option.some_inj, not_and_not_right]
  · rw [absent]
    exact iff_of_true (now ▸ currentAt_now) nofun

private theorem forall₂_filterMap_left {α β γ : Type*} {f : α → Option β} {R : β → γ → Prop}
    {xs : List α} {zs : List γ} (found : ∀ x ∈ xs, ∃ y, f x = some y)
    (related : List.Forall₂ R (xs.filterMap f) zs) :
    List.Forall₂ (fun x z => ∃ y, f x = some y ∧ R y z) xs zs := by
  induction xs generalizing zs with
  | nil =>
    cases related
    exact .nil
  | cons x xs ih =>
    obtain ⟨y, here⟩ := found x List.mem_cons_self
    rw [List.filterMap_cons_some here] at related
    cases related with
    | cons first rest => exact .cons ⟨y, here, first⟩ (ih (fun x later => found x (.tail _ later)) rest)

private theorem forall₂_iff_of_forall₂ {α β : Type*} {Q R : α → β → Prop} {W : α → Prop}
    {xs : List α} {ys : List β} (base : List.Forall₂ Q xs ys)
    (decides : ∀ x y, Q x y → (R x y ↔ W x)) : List.Forall₂ R xs ys ↔ ∀ x ∈ xs, W x := by
  induction base with
  | nil => exact iff_of_true .nil nofun
  | cons first _ ih => rw [List.forall₂_cons, List.forall_mem_cons, decides _ _ first, ih]

/-- In every run of submissions, a submission that gets to the retriever passes one
operator for each set bit, in their order, and they all agree with the registry
exactly if the cache is stale for none of the signers. -/
theorem operators_agree_iff_not_stale (config : Config D P G S H A) {zero : A}
    (settling : Settling registry zero) {requests : List (Request T D S H A N)}
    (run : RunWhere (cacheStep config) (fun _ request => request.Genuine config registry)
      .empty requests cache)
    {request : Request T D S H A N} (genuine : request.Genuine config registry) :
    ¬ config.Inconsistent request.certified.certificate ∧
    ∀ call, (request.submit config cache).retriever = some call →
      request.answers.blockNumber = .ok call.blockNumber ∧
      call.operators.length = request.certified.certificate.count ∧
      (List.Forall₂ (Agrees config registry call.blockNumber)
          request.certified.certificate.indices call.operators ↔
        ∀ index ∈ request.certified.certificate.indices,
          ¬ Stale config registry zero cache call.blockNumber index) := by
  refine ⟨genuine.consistent, fun call called => ?_⟩
  generalize made : request.submit config cache = attempt at called
  have comes : config.Comes cache request.certified request.task request.answers attempt :=
    made ▸ Config.submit_comes
  cases comes with
  | refused error => cases called
  | stopped error read resolved => cases called
  | retrieved consistent read resolved handled =>
    cases called
    have each := resolveOperators_resolved resolved
    rw [signers_eq] at each
    have slots := forall₂_filterMap_left (indices_found genuine.verified) each
    refine ⟨read, slots.length_eq.symm.trans (Bn254Certificate.length_indices _), ?_⟩
    apply forall₂_iff_of_forall₂ slots
    rintro index operator ⟨signer, found, resolved⟩
    exact resolved.agrees_iff settling (filed_of_run run)
      (fun _ _ _ => genuine.honest _ _ _ _ read) found

/-! ### One operator, registered at block 10 -/

def soloRegistry (block : Nat) (_ : List UInt8) : Nat := if block < 10 then 0 else 7

theorem soloRegistry_settling : Settling soloRegistry 0 where
  stays := by
    intro earlier later question after isSet
    unfold soloRegistry at isSet ⊢
    split at isSet
    · exact absurd rfl isSet
    · rw [if_neg (by omega), if_neg (by omega)]

def soloRequest (block : Nat) : Request Unit (List UInt8) Unit (List UInt8) Nat Unit where
  certified := ⟨1, [0x01], ⟨[true], ()⟩⟩
  task := ()
  answers :=
    { blockNumber := .ok block
      pubkeyHashToOperator := fun _ hash => .ok (soloRegistry block hash)
      nonSignerStakes := .ok ()
      handleVerification := .ok ⟨"0x01", some block, none, some true, none⟩ }

theorem soloRequest_genuine (block : Nat) : (soloRequest block).Genuine soloConfig soloRegistry where
  verified := rfl
  honest := by
    rintro _ slot hash address ⟨⟩ ⟨⟩
    rfl

/-- The address that a submission before the registration has cached is passed on
after it. -/
theorem unregistered_operator_kept :
    Settling soloRegistry 0 ∧ ∃ cache call,
      RunWhere (cacheStep soloConfig) (fun _ request => request.Genuine soloConfig soloRegistry)
        .empty [soloRequest 5] cache ∧
      (soloRequest 10).Genuine soloConfig soloRegistry ∧
      ((soloRequest 10).submit soloConfig cache).retriever = some call ∧
      ¬ List.Forall₂ (Agrees soloConfig soloRegistry call.blockNumber)
        (soloRequest 10).certified.certificate.indices call.operators := by
  refine ⟨soloRegistry_settling, _, _, .cons (soloRequest_genuine 5) rfl .nil,
    soloRequest_genuine 10, rfl, ?_⟩
  rintro (_ | ⟨⟨g1, hash, listed, hashed, later, after, same⟩, _⟩)
  have registered : 10 ≤ later := after
  have passed : soloRegistry later hash = 0 := same
  rw [soloRegistry, if_neg (not_lt.mpr registered)] at passed
  cases passed

/-- Once registered, the operator is passed on from the cache. -/
theorem registered_operator_kept :
    ∃ cache call,
      RunWhere (cacheStep soloConfig) (fun _ request => request.Genuine soloConfig soloRegistry)
        .empty [soloRequest 11] cache ∧
      ((soloRequest 10).submit soloConfig cache).retriever = some call ∧
      List.Forall₂ (Agrees soloConfig soloRegistry call.blockNumber)
        (soloRequest 10).certified.certificate.indices call.operators := by
  have run : RunWhere (cacheStep soloConfig)
      (fun _ request => request.Genuine soloConfig soloRegistry) .empty [soloRequest 11] _ :=
    .cons (soloRequest_genuine 11) rfl .nil
  obtain ⟨-, calls⟩ := operators_agree_iff_not_stale soloConfig soloRegistry_settling run
    (soloRequest_genuine 10)
  refine ⟨_, _, run, rfl, (calls _ rfl).2.2.mpr ?_⟩
  rintro (_ | index) member ⟨key, g1, hash, found, hashed, cached, registered⟩
  · cases found
    exact absurd cached (by decide)
  · cases found

end Restaking.Submitter
