import Restaking.Submitter
import Restaking.TaskDigests

/-! `Submitter::run` (`router/src/submitter.rs`) with every read of its attempts,
one certificate after the other. What the endpoints answer is handed in with each
attempt. -/
namespace Restaking
open Lib

/-- `executor.rs::ExecutionResult`. -/
structure ExecutionResult where
  transactionHash : String
  blockNumber : Option Nat
  gasUsed : Option Nat
  status : Option Bool
  contractAddress : Option String
  deriving DecidableEq

/-- The `G1Point` of the bindings. -/
structure G1Point where
  X : Nat
  Y : Nat
  deriving DecidableEq

namespace Submitter

/-- What the endpoints answer during one attempt. -/
structure Answers (H A N : Type*) where
  /-- `get_block_number`. -/
  blockNumber : Except String Nat
  /-- `pubkeyHashToOperator` at the reference block, for the lookup of each slot. -/
  pubkeyHashToOperator : Nat → H → Except String A
  /-- `getNonSignerStakesAndSignature`. -/
  nonSignerStakes : Except String N
  /-- `handle_verification`. -/
  handleVerification : Except String ExecutionResult

/-- The arguments of `getNonSignerStakesAndSignature`. The block number is also
the block it is read at. -/
structure RetrieverCall (A : Type*) where
  registryCoordinator : A
  quorumNumbers : List UInt8
  sigma : G1Point
  operators : List A
  blockNumber : Nat
  deriving DecidableEq

/-- The arguments of `handle_verification`. -/
structure VerificationCall (T D N : Type*) where
  height : Nat
  msgHash : D
  quorumNumbers : List UInt8
  referenceBlockNumber : Nat
  nonSignerData : N
  task : T

/-- One attempt: the calls it got to, its result and the cache it leaves. -/
structure Attempt (T D P A N : Type*) [LinearOrder P] where
  operatorCache : OrderedMap P A
  retriever : Option (RetrieverCall A) := none
  verification : Option (VerificationCall T D N) := none
  result : Except String ExecutionResult

/-- What `Submitter::new` is given beside the channels, and the foreign functions
that `submit` calls. -/
structure Config (D P G S H A : Type*) where
  scheme : Bn254Scheme D P G S
  namespaceBytes : List UInt8
  quorumNumbers : List UInt8
  registryCoordinator : A
  sha256 : List UInt8 → D
  keccak256 : List UInt8 → H
  /-- `U256::from_str`. -/
  parseU256 : String → Except String Nat
  /-- `G1PublicKey::get_x`. -/
  getX : G → String
  /-- `G1PublicKey::get_y`. -/
  getY : G → String
  /-- `convert_to_g1_point`, both coordinates through `to_string`. -/
  convertToG1Point : S → Except String (String × String)

namespace Config

variable {T D P G S H A N : Type*} (config : Config D P G S H A)

/-- `skip_digest` under the application's namespace. -/
def skip (height : Nat) : D := skipDigest config.sha256 config.namespaceBytes height

/-- The coordinates parsed, as `pubkey_hash` and `submit` do. -/
def parsePoint (x y : String) : Except String G1Point :=
  match config.parseU256 x with
  | .error error => .error ("Failed to parse X coordinate: " ++ error)
  | .ok x => match config.parseU256 y with
    | .error error => .error ("Failed to parse Y coordinate: " ++ error)
    | .ok y => .ok ⟨x, y⟩

/-- `pubkey_hash`. -/
def pubkeyHash (g1 : G) : Except String H :=
  (config.parsePoint (config.getX g1) (config.getY g1)).map fun point =>
    config.keccak256 (abiEncode point.X ++ abiEncode point.Y)

/-- The sigma that goes on-chain. -/
def sigma (signature : S) : Except String G1Point :=
  match config.convertToG1Point signature with
  | .error error => .error ("Failed to convert to G1 point: " ++ error)
  | .ok (x, y) => config.parsePoint x y

variable [LinearOrder P]

/-- Phase 1 of the operator resolution: the operators on file, and the slot, key
and hash of each that is missing. -/
def takeHits (cache : OrderedMap P A) :
    Nat → List (P × G) → Except String (List (Option A) × List (Nat × P × H))
  | _, [] => .ok ([], [])
  | index, (operator, g1) :: signers =>
    match cache.get? operator with
    | some address =>
      (takeHits cache (index + 1) signers).map fun (operators, misses) =>
        (some address :: operators, misses)
    | none => match config.pubkeyHash g1 with
      | .error error => .error error
      | .ok hash =>
        (takeHits cache (index + 1) signers).map fun (operators, misses) =>
          (none :: operators, (index, operator, hash) :: misses)

/-- Phase 2: each answer is written to the cache and to its slot. The first failed
lookup ends it, with the answers before it in the cache. -/
def writeBack (lookup : Nat → H → Except String A) :
    List (Nat × P × H) → OrderedMap P A → List (Option A) →
      OrderedMap P A × Except String (List (Option A))
  | [], cache, operators => (cache, .ok operators)
  | (index, operator, hash) :: misses, cache, operators =>
    match lookup index hash with
    | .error error => (cache, .error ("Failed to get operator from pubkey hash: " ++ error))
    | .ok address =>
      writeBack lookup misses (cache.insert operator address) (operators.set index (some address))

/-- Both phases, then the check that no slot is left open. -/
def resolveOperators (lookup : Nat → H → Except String A) (cache : OrderedMap P A)
    (signers : List (P × G)) : OrderedMap P A × Except String (List A) :=
  match config.takeHits cache 0 signers with
  | .error error => (cache, .error error)
  | .ok (operators, misses) =>
    match writeBack lookup misses cache operators with
    | (cache, .error error) => (cache, .error error)
    | (cache, .ok operators) => match operators.mapM id with
      | none => (cache, .error "Failed to resolve all operator addresses")
      | some operators => (cache, .ok operators)

/-- The first check of `submit`. -/
def Inconsistent (certificate : Bn254Certificate S) : Prop :=
  config.scheme.signerG2Keys certificate = [] ∨
    (config.scheme.signerG2Keys certificate).length ≠
      (config.scheme.signerG1Points certificate).length

instance instDecidableInconsistent (certificate : Bn254Certificate S) :
    Decidable (config.Inconsistent certificate) :=
  inferInstanceAs (Decidable (_ ∨ _))

/-- The keys of the signers, G2 key and G1 key in pairs. -/
def signers (certificate : Bn254Certificate S) : List (P × G) :=
  (config.scheme.signerG2Keys certificate).zip (config.scheme.signerG1Points certificate)

/-- `submit`. -/
def submit (cache : OrderedMap P A) (c : Certificate D (Bn254Certificate S)) (task : T)
    (answers : Answers H A N) : Attempt T D P A N :=
  if config.Inconsistent c.certificate then
    let g2 := (config.scheme.signerG2Keys c.certificate).length
    let g1 := (config.scheme.signerG1Points c.certificate).length
    { operatorCache := cache
      result := .error s!"signer bitmap resolved to an inconsistent key set ({g2} G2 / {g1} G1)" }
  else match config.sigma c.certificate.signature with
  | .error error => { operatorCache := cache, result := .error error }
  | .ok sigma => match answers.blockNumber with
  | .error error =>
    { operatorCache := cache, result := .error ("Failed to get block number: " ++ error) }
  | .ok block =>
  match config.resolveOperators answers.pubkeyHashToOperator cache (config.signers c.certificate) with
  | (operatorCache, .error error) => { operatorCache, result := .error error }
  | (operatorCache, .ok operators) =>
    if 2 ^ 32 ≤ block then
      { operatorCache
        result := .error ("block number overflows u32: " ++
          "out of range integral type conversion attempted") }
    else
      let retriever : RetrieverCall A :=
        { registryCoordinator := config.registryCoordinator
          quorumNumbers := config.quorumNumbers
          sigma, operators, blockNumber := block }
      match answers.nonSignerStakes with
      | .error error =>
        { operatorCache, retriever := some retriever
          result := .error ("Failed to get non-signer stakes and signature: " ++ error) }
      | .ok nonSignerData =>
        { operatorCache, retriever := some retriever
          verification := some
            { height := c.height, msgHash := c.digest, quorumNumbers := config.quorumNumbers
              referenceBlockNumber := block, nonSignerData, task }
          result := answers.handleVerification }

variable {config} {cache : OrderedMap P A} {c : Certificate D (Bn254Certificate S)} {task : T}
variable {answers : Answers H A N}

/-- What an attempt can come to. -/
inductive Comes (config : Config D P G S H A) (cache : OrderedMap P A)
    (c : Certificate D (Bn254Certificate S)) (task : T) (answers : Answers H A N) :
    Attempt T D P A N → Prop where
  /-- Nothing is looked up. -/
  | refused (error : String) : Comes config cache c task answers { operatorCache := cache, result := .error error }
  /-- The operators were looked up, and that is all. -/
  | stopped {block : Nat} {operatorCache : OrderedMap P A} {resolution : Except String (List A)}
      (error : String) (read : answers.blockNumber = .ok block)
      (resolved : config.resolveOperators answers.pubkeyHashToOperator cache
        (config.signers c.certificate) = (operatorCache, resolution)) :
      Comes config cache c task answers { operatorCache, result := .error error }
  /-- The retriever was called. -/
  | retrieved {block : Nat} {operatorCache : OrderedMap P A} {sigma : G1Point} {operators : List A}
      {verification : Option (VerificationCall T D N)} {result : Except String ExecutionResult}
      (consistent : ¬ config.Inconsistent c.certificate) (read : answers.blockNumber = .ok block)
      (resolved : config.resolveOperators answers.pubkeyHashToOperator cache
        (config.signers c.certificate) = (operatorCache, .ok operators))
      (handled : (verification = none ∧ ∃ error, result = .error error) ∨
        ∃ data, verification = some ⟨c.height, c.digest, config.quorumNumbers, block, data, task⟩ ∧
          result = answers.handleVerification) :
      Comes config cache c task answers
        { operatorCache, verification, result
          retriever := some ⟨config.registryCoordinator, config.quorumNumbers, sigma, operators, block⟩ }

/-- The attempt is taken apart in the order in which `submit` can fail. -/
theorem submit_comes : Comes config cache c task answers (config.submit cache c task answers) := by
  unfold submit
  by_cases inconsistent : config.Inconsistent c.certificate
  · rw [if_pos inconsistent]
    exact .refused _
  rw [if_neg inconsistent]
  cases config.sigma c.certificate.signature with
  | error error => exact .refused _
  | ok sigma =>
    cases read : answers.blockNumber with
    | error error => exact .refused _
    | ok block =>
      cases resolved : config.resolveOperators answers.pubkeyHashToOperator cache
          (config.signers c.certificate) with
      | mk operatorCache resolution =>
        cases resolution with
        | error error => exact .stopped error read resolved
        | ok operators =>
          dsimp only
          split
          · exact .stopped _ read resolved
          · cases answers.nonSignerStakes with
            | error error => exact .retrieved inconsistent read resolved (.inl ⟨rfl, _, rfl⟩)
            | ok data => exact .retrieved inconsistent read resolved (.inr ⟨data, rfl, rfl⟩)

/-- Only the handler makes an attempt succeed, and a call of it is about the
certificate and its task. -/
theorem submit_calls {attempt : Attempt T D P A N}
    (made : config.submit cache c task answers = attempt) :
    (∀ call, attempt.verification = some call →
      call.height = c.height ∧ call.msgHash = c.digest ∧ call.task = task ∧
        attempt.result = answers.handleVerification) ∧
      ∀ result, attempt.result = .ok result → attempt.verification.isSome = true := by
  have comes : Comes config cache c task answers attempt := made ▸ submit_comes
  cases comes with
  | refused error => exact ⟨nofun, nofun⟩
  | stopped error read resolved => exact ⟨nofun, nofun⟩
  | retrieved consistent read resolved handled =>
    rcases handled with ⟨rfl, error, rfl⟩ | ⟨data, rfl, rfl⟩
    · exact ⟨nofun, nofun⟩
    · refine ⟨?_, fun _ _ => rfl⟩
      rintro call ⟨⟩
      exact ⟨rfl, rfl, rfl, rfl⟩

end Config

/-! ### The loop and the actor -/

section Actor

variable {T D P G S H A N : Type*} [LinearOrder P]

/-- What the submitter keeps from one certificate to the next. -/
structure Book (T D P A N : Type*) [LinearOrder P] where
  operatorCache : OrderedMap P A := .empty
  /-- Record: the attempts made. -/
  attempts : List (Attempt T D P A N) := []
  /-- Record: the resolutions sent. -/
  resolutions : List Resolution := []

namespace Book

/-- `notify`. -/
def notify (book : Book T D P A N) (height : Nat) (kind : ResolutionKind) : Book T D P A N :=
  { book with resolutions := book.resolutions ++ [⟨height, kind⟩] }

/-- An attempt has returned. -/
def keep (book : Book T D P A N) (attempt : Attempt T D P A N) : Book T D P A N :=
  { book with operatorCache := attempt.operatorCache, attempts := book.attempts ++ [attempt] }

end Book

/-- What one certificate meets: the assignments as they are read, unless the lock
is poisoned, and the answers to each attempt. -/
structure Visit (T D S H A N : Type*) where
  certified : Certificate D (Bn254Certificate S)
  assignments : Option (OrderedMap Nat (Assignment T D))
  answers : Nat → Answers H A N

namespace Config

variable (config : Config D P G S H A)

/-- The submission loop, at the attempt that the job is about to make. -/
def submissionLoop (answers : Nat → Answers H A N) (job : Submission T D (Bn254Certificate S))
    (book : Book T D P A N) : Book T D P A N :=
  let attempt := config.submit book.operatorCache job.certified job.task (answers job.attempt)
  match attempt.result with
  | .ok result =>
    (book.keep attempt).notify job.certified.height (.executed (result.status.getD true))
  | .error _ =>
    if job.attempt ≤ maxRetries then
      submissionLoop answers { job with attempt := job.attempt + 1, backoff := 2 * job.backoff }
        (book.keep attempt)
    else (book.keep attempt).notify job.certified.height (.executed false)
termination_by maxRetries + 1 - job.attempt

variable [DecidableEq D]

/-- `handle_certified`. -/
def handleCertified (book : Book T D P A N) (visit : Visit T D S H A N) : Book T D P A N :=
  let c := visit.certified
  if c.digest = config.skip c.height then book.notify c.height .skipped
  else match Assignment.matching (visit.assignments.bind (·.get? c.height)) c with
  | none => book.notify c.height .foreign
  | some job => config.submissionLoop visit.answers job book

/-- `run`, on the certificates received so far. -/
def run (visits : List (Visit T D S H A N)) : Book T D P A N :=
  visits.foldl config.handleCertified {}

end Config
end Actor

/-- A deployment with one operator, for concrete runs. -/
def soloConfig : Config (List UInt8) Nat Nat Unit (List UInt8) Nat where
  scheme :=
    { participants := [1], g1Keys := [1]
      distinct := List.nodup_singleton 1
      nonempty := List.cons_ne_nil 1 []
      aligned := rfl
      aggregateVerify := fun _ _ _ => true }
  namespaceBytes := [0x61]
  quorumNumbers := [0x00]
  registryCoordinator := 9
  sha256 := id
  keccak256 := id
  parseU256 := fun text => .ok (if text = "1" then 1 else 2)
  getX := fun _ => "1"
  getY := fun _ => "2"
  convertToG1Point := fun _ => .ok ("1", "2")

end Submitter
end Restaking
