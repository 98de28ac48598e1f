import Restaking.DirectiveCodec
import Restaking.OwnCertificates
import Restaking.TaskDigests

/-! The counter application (`examples/counter`): tasks that carry the round read
from a contract, and validators that sign a round only while the contract shows it.
The contract is the chain's; what it shows to the router and to each operator at
any time is the environment's to choose. -/
namespace Restaking
open Lib

variable {D G S : Type*}

/-- `number.to::<u64>()` of a `U256`. A larger number panics. -/
def toU64 (number : Nat) : Option UInt64 :=
  if number < 2 ^ 64 then some (UInt64.ofNat number) else none

theorem toU64_eq_some {number : Nat} {round : UInt64} :
    toU64 number = some round ↔ number = round.toNat := by
  unfold toU64
  constructor
  · intro converted
    obtain ⟨within, ⟨⟩⟩ := Option.ite_none_right_eq_some.mp converted
    exact (UInt64.toNat_ofNat_of_lt' within).symm
  · rintro rfl
    rw [if_pos round.toNat_lt, UInt64.ofNat_toNat]

/-- A read of `Counter.number()`, or the error of the call. -/
abbrev NumberRead := Except String Nat

namespace CounterTaskSource

/-- `read_round`: the first read that succeeds, out of those made so far. -/
def readRound : List NumberRead → Option UInt64
  | [] => none
  | .error _ :: reads => readRound reads
  | .ok number :: _ => toU64 number

/-- `next_task`. -/
def nextTask (sha256 : List UInt8 → D) (reads : List NumberRead) :
    Option (SequencedTask CounterTaskData D) :=
  (readRound reads).map fun round =>
    { task := { round }, announce := { round }, digest := expectedDigest sha256 round.toNat }

/-- A task of the counter: the view announced is the whole task, and the digest is
its round's. -/
theorem nextTask_eq {sha256 : List UInt8 → D} {reads : List NumberRead}
    {sequenced : SequencedTask CounterTaskData D} (next : nextTask sha256 reads = some sequenced) :
    sequenced.announce = sequenced.task ∧
      sequenced.digest = expectedDigest sha256 sequenced.task.round.toNat := by
  obtain ⟨round, -, rfl⟩ := Option.map_eq_some_iff.mp next
  exact ⟨rfl, rfl⟩

end CounterTaskSource

/-- `CounterValidator::expected_digest` after the call of `number()`. The outer
`none` is a panic. -/
def CounterValidator.expectedDigest (sha256 : List UInt8 → D) (read : NumberRead)
    (task : CounterTaskData) : Option (Except String D) :=
  match read with
  | .error error => some (.error error)
  | .ok number => (toU64 number).map fun current =>
    if task.round ≠ current then
      .error s!"stale round: task carries {task.round}, contract is at {current}"
    else .ok (Restaking.expectedDigest sha256 task.round.toNat)

/-- The validator signs a task's round exactly when that is what it reads. -/
theorem CounterValidator.expectedDigest_eq_ok {sha256 : List UInt8 → D} {number : Nat}
    {task : CounterTaskData} {digest : D} :
    expectedDigest sha256 (.ok number) task = some (.ok digest) ↔
      number = task.round.toNat ∧ digest = Restaking.expectedDigest sha256 number := by
  simp only [expectedDigest, Option.map_eq_some_iff, toU64_eq_some]
  constructor
  · rintro ⟨current, rfl, returned⟩
    split at returned
    · cases returned
    · rename_i same
      rw [not_not.mp same] at returned ⊢
      exact ⟨rfl, (Except.ok.inj returned).symm⟩
  · rintro ⟨rfl, rfl⟩
    exact ⟨task.round, rfl, if_neg (not_not.mpr rfl)⟩

namespace Cluster

variable {n : Nat} [DecidableEq D]

/-- The counter's deployment. `shows` are the numbers that an operator's reads of the
contract can return. -/
structure CounterConfig (n : Nat) (D G S : Type*) where
  router : Router.Config D (Fin n) G S
  sized : router.scheme.participants = List.finRange n
  shows : Fin n → Nat → Bool
  retryBudget : Nat
  window : Nat
  minReportInterval : Nat

/-- The deployment with the counter's validators. -/
def CounterConfig.deployment (counter : CounterConfig n D G S) : Config n CounterTaskData D G S where
  router := counter.router
  sized := counter.sized
  validates i task digest := counter.shows i task.round.toNat &&
    digest = expectedDigest counter.router.sha256 task.round.toNat
  retryBudget := counter.retryBudget
  window := counter.window
  minReportInterval := counter.minReportInterval

/-- The deployment's validators are the counter's, on some number that the contract
shows the operator. -/
theorem CounterConfig.validates_iff {counter : CounterConfig n D G S} {i : Fin n}
    {task : CounterTaskData} {digest : D} :
    counter.deployment.validates i task digest = true ↔ ∃ number, counter.shows i number = true ∧
      CounterValidator.expectedDigest counter.router.sha256 (.ok number) task =
        some (.ok digest) := by
  simp only [deployment, Bool.and_eq_true, decide_eq_true_eq, CounterValidator.expectedDigest_eq_ok]
  constructor
  · rintro ⟨shown, same⟩
    exact ⟨_, shown, rfl, same⟩
  · rintro ⟨number, shown, rfl, same⟩
    exact ⟨shown, same⟩

variable {counter : CounterConfig n D G S} {c : Cluster n CounterTaskData D S}
variable {faulty : Finset (Fin n)}

/-- The sequencer's tasks come from the counter's source, whatever its reads return.
The source is never exhausted. -/
def Sourced (counter : CounterConfig n D G S) : Label n CounterTaskData D S → Prop
  | .router (.task none) => False
  | .router (.task (some sequenced)) =>
    ∃ reads, CounterTaskSource.nextTask counter.router.sha256 reads = some sequenced
  | _ => True

/-- A state of the first life of the counter's deployment. -/
abbrev InCounterLife (counter : CounterConfig n D G S) (faulty : Finset (Fin n))
    (c : Cluster n CounterTaskData D S) : Prop :=
  ReachableWhere (· = init counter.deployment) (step counter.deployment)
    (fun c label => Lawful faulty c label ∧ Sourced counter label) c

/-- An honest operator can read the round of a task. -/
def Seen (counter : CounterConfig n D G S) (faulty : Finset (Fin n)) (task : CounterTaskData) :
    Prop :=
  ∃ i ∉ faulty, counter.shows i task.round.toNat = true

theorem Sourced.supplies {label : Label n CounterTaskData D S} (sourced : Sourced counter label) :
    Supplies counter.deployment faulty label := by
  unfold Supplies
  split
  · rename_i sequenced
    obtain ⟨reads, next⟩ := sourced
    obtain ⟨view, digest⟩ := CounterTaskSource.nextTask_eq next
    intro i _ signed valid
    obtain ⟨number, -, validated⟩ := CounterConfig.validates_iff.mp valid
    obtain ⟨rfl, rfl⟩ := CounterValidator.expectedDigest_eq_ok.mp validated
    rw [digest, view]
  · trivial

theorem InCounterLife.first (life : InCounterLife counter faulty c) :
    InFirstLife counter.deployment faulty c := by
  obtain ⟨start, labels, begins, run⟩ := life
  refine ⟨start, labels, begins, run.weaken ?_⟩
  rintro c label ⟨lawful, sourced⟩
  exact ⟨lawful, sourced.supplies⟩

/-- The sequencer's tasks announce themselves whole, under their rounds' digests. -/
theorem InCounterLife.tasks (life : InCounterLife counter faulty c) :
    Router.Tasks (fun sequenced => sequenced.announce = sequenced.task ∧
      sequenced.digest = expectedDigest counter.router.sha256 sequenced.task.round.toNat)
      c.router.sequencer := by
  let inv : Cluster n CounterTaskData D S → Prop := fun c =>
    Router.Tasks (fun sequenced => sequenced.announce = sequenced.task ∧
      sequenced.digest = expectedDigest counter.router.sha256 sequenced.task.round.toNat)
      c.router.sequencer
  suffices held : inv c from held
  refine ReachableWhere.preserves life ?_ ?_
  · rintro start rfl
    exact ⟨fun _ holds => (nomatch holds), fun _ member => (nomatch member)⟩
  · rintro c label c' - tasks ⟨-, sourced⟩ taken
    cases step_stepped taken with
    | @routed label router routed =>
      show Router.Tasks _ router.sequencer
      rcases Router.step_sequenced routed with same | sequenced
      · rw [same.sequencer]
        exact tasks
      · apply tasks.sequenced _ sequenced
        rintro task rfl
        obtain ⟨reads, next⟩ := sourced
        exact CounterTaskSource.nextTask_eq next
    | skipped _ _ => simpa [inv] using tasks
    | accepted _ _ => simpa [inv] using tasks
    | exhausted _ _ => simpa [inv] using tasks
    | _ => exact tasks

/-- **Only rounds that were seen reach the chain.** In every run of the first life of
the counter's deployment, with at most the tolerated number of faulty operators,
whatever the contract shows to whom and when: a certificate that reaches the router
carries its height's skip digest or the digest of the round assigned to the height,
and then an honest operator can read that round from the contract; what the handler
is given is the digest of its task's round, which an honest operator can read; and
no task is ever robbed of its height by a foreign certificate. -/
theorem executed_rounds_seen (life : InCounterLife counter faulty c)
    (few : faulty.card ≤ maxFaults n) :
    (∀ cert ∈ c.router.reporter.reported, cert.digest = counter.router.skip cert.height ∨
        ∃ call, (cert.height, call) ∈ c.router.sequencer.assigned ∧
          cert.digest = expectedDigest counter.router.sha256 call.sequenced.task.round.toNat ∧
          Seen counter faulty call.sequenced.task) ∧
      (∀ execution ∈ c.router.submitter.executions,
        execution.msgHash =
            expectedDigest counter.router.sha256 execution.task.round.toNat ∧
          Seen counter faulty execution.task) ∧
      ∀ call h, c.router.sequencer.phase ≠ .releasing call h (.resolved .foreign) := by
  have home := InFirstLife.home life.first few
  have whole : InLife counter.deployment c := life.first.inLife
  have ledger := (InLife.router whole).ledger.2
  have certified : ∀ cert ∈ c.router.reporter.reported,
      cert.digest = counter.router.skip cert.height ∨
        ∃ call, (cert.height, call) ∈ c.router.sequencer.assigned ∧
          cert.digest = expectedDigest counter.router.sha256 call.sequenced.task.round.toNat ∧
          Seen counter faulty call.sequenced.task := by
    intro cert reported
    have acked := home.certified.reported cert reported
    obtain ⟨i, honest, signed⟩ := acked.honest home.truthful counter.deployment.inhabited few
    rcases (InLife.agreed whole i).signed cert.height cert.digest signed with skip | ⟨task, sent, valid⟩
    · exact .inl skip
    · obtain ⟨call, member, rfl⟩ := whole.assigned sent
      obtain ⟨number, shown, validated⟩ := CounterConfig.validates_iff.mp valid
      obtain ⟨rfl, digest⟩ := CounterValidator.expectedDigest_eq_ok.mp validated
      have view := (life.tasks.assigned _ member).1
      rw [view] at shown digest
      exact .inr ⟨call, member, digest, i, honest, shown⟩
  refine ⟨certified, ?_, home.undisplaced⟩
  intro execution called
  have origins := (InLife.router whole).origins
  obtain ⟨⟨cert, task⟩, picked, rfl⟩ := origins.executions execution called
  obtain ⟨⟨reported, -⟩, real, call, member, -, same⟩ := origins.picked _ picked
  obtain rfl : call.sequenced.task = task := same
  rcases certified cert reported with skip | ⟨other, member', digest, seen⟩
  · exact absurd skip real
  · have one := ledger.assigned_unique member member' rfl
    obtain rfl : call = other := congrArg Prod.snd one
    exact ⟨digest, seen⟩

section Examples

/-- Four operators to whom the contract shows round 5. -/
def counterAtFive : CounterConfig 4 Nat Unit Unit where
  router := {
    sha256 := fun bytes => (bytes.map UInt8.toNat).sum
    namespaceBytes := []
    scheme := {
      participants := List.finRange 4
      g1Keys := List.replicate 4 ()
      distinct := List.nodup_finRange _
      nonempty := by simp
      aligned := by simp
      aggregateVerify := fun _ _ _ => true }
    roundTimeout := 10
    rebroadcastInterval := 1 }
  sized := rfl
  shows := fun _ number => number = 5
  retryBudget := 0
  window := 8
  minReportInterval := 0

/-- The source hands out round 5, which its second read returned. -/
def RoundFive : Label 4 CounterTaskData Nat Unit → Prop
  | .router (.task none) => False
  | .router (.task (some sequenced)) => sequenced.task.round = 5 ∧
      sequenced.announce.round = 5 ∧ sequenced.digest = 5
  | _ => True

instance {label : Label 4 CounterTaskData Nat Unit} : Decidable (RoundFive label) := by
  unfold RoundFive
  split <;> infer_instance

theorem RoundFive.sourced {label : Label 4 CounterTaskData Nat Unit} (five : RoundFive label) :
    Sourced counterAtFive label := by
  unfold Sourced
  split
  · exact five
  · rename_i sequenced
    obtain ⟨⟨task⟩, ⟨view⟩, digest⟩ := sequenced
    obtain ⟨rfl, rfl, rfl⟩ : task = 5 ∧ view = 5 ∧ digest = 5 := five
    have digest : expectedDigest counterAtFive.router.sha256 5 = 5 := by decide +kernel
    refine ⟨[.error "timeout", .ok 5], ?_⟩
    simp [CounterTaskSource.nextTask, CounterTaskSource.readRound, toU64, digest]
  · trivial

/-- An operator hears of round 5, reads it from the contract and signs. -/
def signsFive (i : Fin 4) : List (Label 4 CounterTaskData Nat Unit) :=
  [.deliver i (.announce 0 ⟨5⟩), .propose i 0, .resume i 0, .validated i 0 (some 5)]

end Examples

/-- Round 5 is certified by three operators and handed to the handler. -/
theorem round_five_executed : ∃ c : Cluster 4 CounterTaskData Nat Unit,
    c.router.submitter.executions = [⟨0, 5, ⟨5⟩⟩] ∧
      ∀ execution ∈ c.router.submitter.executions,
        execution.msgHash =
            expectedDigest counterAtFive.router.sha256 execution.task.round.toNat ∧
          Seen counterAtFive ∅ execution.task := by
  let starts : List (Router.Label CounterTaskData Nat (Fin 4) Unit) :=
    [.elapse settleDelay, .sequence, .report, .sequence, .sequence,
      .task (some ⟨⟨5⟩, ⟨5⟩, 5⟩), .sequence, .report, .sequence, .sequence, .sequence]
  let executes : List (Router.Label CounterTaskData Nat (Fin 4) Unit) :=
    [.activity (.certified ⟨0, 5, ⟨[true, true, true, false], ()⟩⟩), .report, .receive, .look,
      .attempt true]
  let labels : List (Label 4 CounterTaskData Nat Unit) := starts.map .router ++
    signsFive 0 ++ signsFive 1 ++ signsFive 2 ++ executes.map .router
  let passed (c : Cluster 4 CounterTaskData Nat Unit) : Bool :=
    c.router.submitter.executions = [⟨0, 5, ⟨5⟩⟩]
  obtain ⟨c, run, reached⟩ : ∃ c, RunWhere (step counterAtFive.deployment)
      (fun c label => Lawful ∅ c label ∧ RoundFive label) (init counterAtFive.deployment) labels c ∧
      passed c = true := runWhere_of_exec_any (by decide +kernel)
  have life : InCounterLife counterAtFive ∅ c :=
    ⟨_, labels, rfl, run.weaken fun _ _ allowed => ⟨allowed.1, allowed.2.sourced⟩⟩
  exact ⟨c, of_decide_eq_true reached, (executed_rounds_seen life (by decide)).2.1⟩

end Cluster
end Restaking
