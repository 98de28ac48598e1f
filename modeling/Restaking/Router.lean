import Restaking.Lib.Run
import Restaking.Submitter

/-! The router: sequencer, certificate reporter, submitter and tip-report intake
as one transition system. A step is the work of one actor between two accesses
to state that another actor can reach: a mailbox, a channel, a lock. Everything
the actors do not decide (time, engine activity, tip reports, tasks, results of
calls) arrives with the label.

Every actor keeps a record of what it has done. No step reads the records. -/
namespace Restaking
open Lib

/-- A certificate of the BN254 scheme. -/
abbrev Cert (D S : Type*) := Certificate D (Bn254Certificate S)

namespace Router

/-- What the router is started with. -/
structure Config (D P G S : Type*) where
  sha256 : List UInt8 → D
  namespaceBytes : List UInt8
  scheme : Bn254Scheme D P G S
  roundTimeout : Nat
  rebroadcastInterval : Nat

variable {T D P G S : Type*}

/-- The digest that abandons a height. -/
def Config.skip (cfg : Config D P G S) (height : Nat) : D :=
  skipDigest cfg.sha256 cfg.namespaceBytes height

/-- `Certificate::verify` with the verifier scheme. -/
def Config.verify (cfg : Config D P G S) (c : Cert D S) : Bool :=
  cfg.scheme.verifyCertificate c.digest c.certificate

/-- A resolution together with the certificate it was given for. -/
structure Notice (D S : Type*) where
  resolution : Resolution
  cause : Cert D S

/-- The answer to a tip query. -/
structure TipAnswer where
  tip : Nat
  /-- Record: the heights that the reporter had put on file when it answered. -/
  certified : List Nat

/-- A call of `handle_verification`. -/
structure Execution (T D : Type*) where
  height : Nat
  msgHash : D
  task : T
  deriving DecidableEq

/-- The reporter actor and its mailbox. -/
structure ReporterActor (D S : Type*) where
  up : Bool := true
  inbox : List (CertReporter.Message D (Bn254Certificate S)) := []
  log : CertReporter D := {}
  /-- Record: the certificates the engine reported. -/
  reported : List (Cert D S) := []
  /-- Record: the heights put on file, those pruned since among them. -/
  recorded : List Nat := []
  /-- Record: the certificates handed to the submitter. -/
  forwarded : List (Cert D S) := []

/-- The submitter actor. -/
structure SubmitterActor (T D S : Type*) where
  up : Bool := true
  state : Submitter T D (Bn254Certificate S) := .idle
  /-- Record: the certificates that met their assignment, each with its task. -/
  picked : List (Cert D S × T) := []
  /-- Record: the calls of the handler. -/
  executions : List (Execution T D) := []
  /-- Record: the attempts at a submission that failed, by their numbers. -/
  failures : List (Cert D S × Nat) := []
  /-- Record: the resolutions sent. -/
  notified : List (Notice D S) := []

/-- The sequencer actor. -/
structure SequencerActor (T D S : Type*) where
  nextHeight : Nat := 0
  phase : Phase T D := .settling settleDelay
  /-- Record: the calls of `next_task` that returned a task. -/
  calls : Nat := 0
  /-- Record: the assignments made. -/
  assigned : List (Nat × Call T D) := []
  /-- Record: the drives begun, each with its time. -/
  drives : List (Nat × Nat) := []
  /-- Record: the directives broadcast, each with its time. -/
  sent : List (Nat × TaskDirective T) := []
  /-- Record: the resolutions received. -/
  consumed : List (Notice D S) := []
  /-- Record: the heights whose own drive received their resolution. -/
  resolved : List Nat := []
  /-- Record: the heights given up, each with the safe tip read. -/
  superseded : List (Nat × Nat) := []
  /-- Record: the heights behind the tip answers received. -/
  known : List Nat := []

end Router

/-- The state of the router. -/
structure Router (T D P S : Type*) [LinearOrder P] where
  now : Nat := 0
  tipReports : TipReports P
  assignments : OrderedMap Nat (Assignment T D) := .empty
  /-- The lock of `assignments` is poisoned. Only the sequencer writes under it,
  and neither insertion nor removal panics. -/
  poisoned : Bool := false
  dispatchTime : OrderedMap Nat Nat := .empty
  reporter : Router.ReporterActor D S := {}
  /-- The answer to the sequencer's tip query. -/
  tipAnswer : Option Router.TipAnswer := none
  /-- The answer to the sequencer's certificate query. -/
  getAnswer : Option (Option D) := none
  /-- The channel from the reporter to the submitter. -/
  certified : List (Cert D S) := []
  submitter : Router.SubmitterActor T D S := {}
  /-- The channel from the submitter to the sequencer. -/
  resolutions : List (Router.Notice D S) := []
  sequencer : Router.SequencerActor T D S := {}

namespace Router

variable {T D P G S : Type*} [LinearOrder P]

inductive Label (T D P S : Type*) where
  /-- Time passes. -/
  | elapse (duration : Nat)
  /-- The engine reports an activity. -/
  | activity (activity : Activity D (Bn254Certificate S))
  /-- A message arrives on the directive channel. -/
  | message (peer : P) (payload : Option (TaskDirective T))
  /-- The reporter is gone. -/
  | reporterStops
  /-- The submitter is gone. -/
  | submitterStops
  /-- The reporter handles its next message. -/
  | report
  /-- A query finds the reporter gone. -/
  | unanswered
  /-- The submitter takes the next certificate. -/
  | receive
  /-- The submitter reads the assignment. -/
  | look
  /-- A submission attempt calls the handler, or fails before it does. -/
  | attempt (reaches : Bool)
  /-- The handler returns: a receipt's status, or an error. -/
  | outcome (result : Option (Option Bool))
  /-- The sleep between two attempts ends. -/
  | retry
  /-- The sequencer's next step where it has no choice. -/
  | sequence
  /-- `next_task` returns. -/
  | task (next : Option (SequencedTask T D))
  /-- `select!` takes the resolution branch. -/
  | resolution
  /-- `select!` takes the timer branch. -/
  | tick

/-- The router before its first step. -/
def init (cfg : Config D P G S) : Router T D P S :=
  { tipReports := .new cfg.scheme.participants.length }

/-- `self.tip_reports.safe_tip()`. -/
def safeTip (s : Router T D P S) : Nat := s.tipReports.safeTip

/-- `report`: enqueue to the mailbox. -/
def enqueue (s : Router T D P S) (activity : Activity D (Bn254Certificate S)) : Router T D P S :=
  { s with reporter := { s.reporter with
      inbox := s.reporter.inbox ++ (CertReporter.message activity).toList
      reported := match activity with
        | .certified c => s.reporter.reported ++ [c]
        | _ => s.reporter.reported } }

/-- One iteration of `CertReporter::run`. A certificate that goes to the consumer has
just been put on file. -/
def report (cfg : Config D P G S) (s : Router T D P S) (succ : Nat → Option Nat := succHeight) :
    Option (Router T D P S) :=
  if !s.reporter.up then none
  else match s.reporter.inbox with
    | [] => none
    | .certified c :: inbox =>
      (s.reporter.log.handleCertified cfg.verify c succ).map fun handled =>
        if s.submitter.up then
          { s with
            certified := s.certified ++ handled.2.toList
            reporter := { s.reporter with
              inbox, log := handled.1
              recorded := s.reporter.recorded ++ handled.2.toList.map Certificate.height
              forwarded := s.reporter.forwarded ++ handled.2.toList } }
        else { s with reporter := { s.reporter with
          inbox, log := handled.1
          recorded := s.reporter.recorded ++ handled.2.toList.map Certificate.height } }
    | .tip height :: inbox => some { s with
        reporter := { s.reporter with inbox, log := s.reporter.log.advanceTip height } }
    | .getTip :: inbox => some { s with
        tipAnswer := some ⟨s.reporter.log.tip, s.reporter.recorded⟩
        reporter := { s.reporter with inbox } }
    | .get height :: inbox => some { s with
        getAnswer := some (s.reporter.log.certified.get? height)
        reporter := { s.reporter with inbox } }

/-- `receiver.await.unwrap_or(..)` of a query to a reporter that is gone. -/
def unanswered (s : Router T D P S) : Option (Router T D P S) :=
  if s.reporter.up then none
  else match s.sequencer.phase with
    | .startingTip => some { s with tipAnswer := s.tipAnswer.or (some ⟨0, []⟩) }
    | .awaitingTip _ => some { s with tipAnswer := s.tipAnswer.or (some ⟨0, []⟩) }
    | .polling _ _ => some { s with getAnswer := s.getAnswer.or (some none) }
    | _ => none

/-- `Submitter::notify`. -/
def notify (s : Router T D P S) (c : Cert D S) (kind : ResolutionKind) : Router T D P S :=
  { s with
    resolutions := s.resolutions ++ [⟨⟨c.height, kind⟩, c⟩]
    submitter := { s.submitter with
      state := .idle, notified := s.submitter.notified ++ [⟨⟨c.height, kind⟩, c⟩] } }

/-- An attempt at a submission ends with an error. -/
def recordFailure (s : Router T D P S) (job : Submission T D (Bn254Certificate S)) :
    Router T D P S :=
  { s with submitter := { s.submitter with
      failures := s.submitter.failures ++ [(job.certified, job.attempt)] } }

/-- The two error arms of the submission loop. -/
def failed (s : Router T D P S) (job : Submission T D (Bn254Certificate S)) : Router T D P S :=
  if job.attempt ≤ maxRetries then
    { s with submitter := { (s.recordFailure job).submitter with
        state := .sleeping { job with backoff := 2 * job.backoff } (s.now + job.backoff) } }
  else (s.recordFailure job).notify job.certified (.executed false)

/-- `Submitter::run` takes a certificate; `handle_certified` up to the lock. -/
def receive [DecidableEq D] (cfg : Config D P G S) (s : Router T D P S) : Option (Router T D P S) :=
  match s.submitter.state, s.certified with
  | .idle, c :: certified =>
    if c.digest = cfg.skip c.height then some ({ s with certified }.notify c .skipped)
    else some { s with certified, submitter := { s.submitter with state := .lookup c } }
  | _, _ => none

/-- `handle_certified` reads the assignment. -/
def look [DecidableEq D] (s : Router T D P S) : Option (Router T D P S) :=
  match s.submitter.state with
  | .lookup c =>
    match Assignment.matching (if s.poisoned then none else s.assignments.get? c.height) c with
    | none => some (s.notify c .foreign)
    | some job => some { s with submitter := { s.submitter with
        state := .submitting job, picked := s.submitter.picked ++ [(c, job.task)] } }
  | _ => none

/-- `submit` up to the call of the handler. A bitmap that names no keys fails
every attempt. -/
def attempt (cfg : Config D P G S) (s : Router T D P S) (reaches : Bool) :
    Option (Router T D P S) :=
  match s.submitter.state with
  | .submitting job =>
    if (cfg.scheme.signerG2Keys job.certified.certificate).isEmpty ||
        (cfg.scheme.signerG2Keys job.certified.certificate).length !=
          (cfg.scheme.signerG1Points job.certified.certificate).length || !reaches then
      some (s.failed job)
    else some { s with submitter := { s.submitter with
        state := .calling job
        executions := s.submitter.executions ++
          [⟨job.certified.height, job.certified.digest, job.task⟩] } }
  | _ => none

/-- The handler returns to the submission loop. -/
def outcome (s : Router T D P S) (result : Option (Option Bool)) : Option (Router T D P S) :=
  match s.submitter.state with
  | .calling job => match result with
    | some status => some (s.notify job.certified (.executed (status.getD true)))
    | none => some (s.failed job)
  | _ => none

/-- The next turn of the submission loop. -/
def retry (s : Router T D P S) : Option (Router T D P S) :=
  match s.submitter.state with
  | .sleeping job wake =>
    if wake ≤ s.now then some { s with submitter := { s.submitter with
        state := .submitting { job with attempt := job.attempt + 1 } } }
    else none
  | _ => none

/-- One `try_recv` of `drain_resolutions` that finds a resolution, as the other
resolutions of `drive_height` are treated: the height is never assigned again. -/
def passOver (s : Router T D P S) (notice : Notice D S) (rest : List (Notice D S))
    (phase : Phase T D) (succ : Nat → Option Nat := succHeight) : Option (Router T D P S) :=
  (succ notice.resolution.height).map fun next =>
    { s with
      resolutions := rest
      sequencer := { s.sequencer with
        phase
        nextHeight := max s.sequencer.nextHeight next
        consumed := s.sequencer.consumed ++ [notice] } }

/-- `self.broadcast(directive)`. -/
def broadcast (s : Router T D P S) (directive : TaskDirective T) (phase : Phase T D) :
    Router T D P S :=
  { s with sequencer := { s.sequencer with
      phase, sent := s.sequencer.sent ++ [(s.now, directive)] } }

/-- The timer branch after the reporter answered. -/
def rebroadcast (cfg : Config D P G S) (s : Router T D P S) (call : Call T D) (drive : Drive)
    (answer : Option D) : Router T D P S :=
  if answer.isSome then
    { s with
      getAnswer := none
      sequencer := { s.sequencer with
        phase := .selecting call { drive with certified := true }
          (s.now + cfg.rebroadcastInterval) } }
  else if drive.height < s.safeTip then
    { s with
      getAnswer := none
      sequencer := { s.sequencer with
        phase := .releasing call drive.height .superseded
        superseded := s.sequencer.superseded ++ [(drive.height, s.safeTip)] } }
  else
    { s with getAnswer := none }.broadcast
      (if drive.skipping || drive.deadline ≤ s.now then .skip drive.height
        else .announce drive.height call.sequenced.announce)
      (.selecting call { drive with skipping := drive.skipping || drive.deadline ≤ s.now }
        (s.now + cfg.rebroadcastInterval))

/-- The sequencer's steps outside `next_task` and `select!`. -/
def sequence (cfg : Config D P G S) (s : Router T D P S) (succ : Nat → Option Nat := succHeight) :
    Option (Router T D P S) :=
  match s.sequencer.phase with
  | .settling wake =>
    if wake ≤ s.now then some { s with
      reporter := { s.reporter with inbox := s.reporter.inbox ++ [.getTip] }
      sequencer := { s.sequencer with phase := .startingTip } }
    else none
  | .startingTip => s.tipAnswer.map fun answer =>
    { s with
      tipAnswer := none
      sequencer := { s.sequencer with
        phase := .draining
        nextHeight := max answer.tip s.safeTip
        known := s.sequencer.known ++ answer.certified } }
  | .draining => match s.resolutions with
    | notice :: rest => s.passOver notice rest .draining succ
    | [] => some { s with sequencer := { s.sequencer with phase := .awaitingTask } }
  | .redraining call => match s.resolutions with
    | notice :: rest => s.passOver notice rest (.redraining call) succ
    | [] => some { s with
      reporter := { s.reporter with inbox := s.reporter.inbox ++ [.getTip] }
      sequencer := { s.sequencer with phase := .awaitingTip call } }
  | .awaitingTip call => s.tipAnswer.bind fun answer =>
    (succ (max (max s.sequencer.nextHeight answer.tip) s.safeTip)).map fun next =>
      { s with
        tipAnswer := none
        sequencer := { s.sequencer with
          phase := .inserting call (max (max s.sequencer.nextHeight answer.tip) s.safeTip)
          nextHeight := next
          known := s.sequencer.known ++ answer.certified } }
  | .inserting call height =>
    if s.poisoned then some { s with sequencer := { s.sequencer with phase := .draining } }
    else some { s with
      assignments := s.assignments.insert height ⟨call.sequenced.digest, call.sequenced.task⟩
      sequencer := { s.sequencer with
        phase := .starting call height
        assigned := s.sequencer.assigned ++ [(height, call)] } }
  | .starting call height =>
    some ({ s with
      dispatchTime := stampDispatchTime s.dispatchTime height s.now
      sequencer := { s.sequencer with drives := s.sequencer.drives ++ [(height, s.now)] }
      }.broadcast (.announce height call.sequenced.announce)
        (.selecting call { height, deadline := s.now + cfg.roundTimeout }
          (s.now + cfg.rebroadcastInterval)))
  | .polling call drive => s.getAnswer.map (s.rebroadcast cfg call drive)
  | .releasing call height outcome => some { s with
      assignments := if s.poisoned then s.assignments else s.assignments.erase height
      sequencer := { s.sequencer with phase := .after call outcome } }
  | .awaitingTask => none
  | .selecting _ _ _ => none
  | .stopped => none

/-- `source.next_task()` returns. -/
def task (s : Router T D P S) (next : Option (SequencedTask T D)) : Option (Router T D P S) :=
  match s.sequencer.phase, next with
  | .awaitingTask, none => some { s with sequencer := { s.sequencer with phase := .stopped } }
  | .awaitingTask, some sequenced => some { s with sequencer := { s.sequencer with
      phase := .redraining ⟨s.sequencer.calls, sequenced⟩, calls := s.sequencer.calls + 1 } }
  | _, _ => none

/-- The resolution branch of `select!`. -/
def resolution (cfg : Config D P G S) (s : Router T D P S)
    (succ : Nat → Option Nat := succHeight) : Option (Router T D P S) :=
  match s.sequencer.phase with
  | .selecting call drive _ => match s.resolutions with
    | notice :: rest =>
      if notice.resolution.height = drive.height then some { s with
        resolutions := rest
        sequencer := { s.sequencer with
          phase := .releasing call drive.height (.resolved notice.resolution.kind)
          consumed := s.sequencer.consumed ++ [notice]
          resolved := s.sequencer.resolved ++ [drive.height] } }
      else s.passOver notice rest (.selecting call drive (s.now + cfg.rebroadcastInterval)) succ
    | [] =>
      if s.submitter.up then none
      else some { s with sequencer := { s.sequencer with
        phase := .releasing call drive.height .closed } }
  | _ => none

/-- The timer branch of `select!` up to its query. -/
def tick (cfg : Config D P G S) (s : Router T D P S) : Option (Router T D P S) :=
  match s.sequencer.phase with
  | .selecting call drive wake =>
    if s.now < wake then none
    else if drive.certified then some { s with sequencer := { s.sequencer with
      phase := .selecting call drive (s.now + cfg.rebroadcastInterval) } }
    else some { s with
      reporter := { s.reporter with inbox := s.reporter.inbox ++ [.get drive.height] }
      sequencer := { s.sequencer with phase := .polling call drive } }
  | _ => none

/-- One step of the router in a build that adds 1 to a height by `succ`. -/
def stepWith [DecidableEq D] (succ : Nat → Option Nat) (cfg : Config D P G S)
    (s : Router T D P S) : Label T D P S → Option (Router T D P S)
  | .elapse duration => some { s with now := s.now + duration }
  | .activity activity => some (s.enqueue activity)
  | .message peer payload => some { s with
      tipReports := s.tipReports.ingest cfg.scheme.participants peer payload }
  | .reporterStops => some { s with reporter := { s.reporter with up := false } }
  | .submitterStops => some { s with submitter := { s.submitter with up := false } }
  | .report => s.report cfg succ
  | .unanswered => s.unanswered
  | .receive => if s.submitter.up then s.receive cfg else none
  | .look => if s.submitter.up then s.look else none
  | .attempt reaches => if s.submitter.up then s.attempt cfg reaches else none
  | .outcome result => if s.submitter.up then s.outcome result else none
  | .retry => if s.submitter.up then s.retry else none
  | .sequence => s.sequence cfg succ
  | .task next => s.task next
  | .resolution => s.resolution cfg succ
  | .tick => s.tick cfg

/-- One step of the router, with overflow checks. -/
abbrev step [DecidableEq D] (cfg : Config D P G S) (s : Router T D P S) (label : Label T D P S) :
    Option (Router T D P S) :=
  stepWith succHeight cfg s label

end Router
end Restaking
