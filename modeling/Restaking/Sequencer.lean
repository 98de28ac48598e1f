import Restaking.CertReporter

/-! The data of the height sequencer (`router/src/sequencer.rs`) and the tables it
shares with the submitter and the tip-report intake. What it does with them,
step by step, is in `Restaking.Router`. -/
namespace Restaking
open Lib

/-- `sequencer.rs::SequencedTask`. -/
structure SequencedTask (T D : Type*) where
  task : T
  /-- The view broadcast to nodes. -/
  announce : T
  /-- The digest a correct node signs for this task. -/
  digest : D

/-- `sequencer.rs::Assignment`. -/
structure Assignment (T D : Type*) where
  digest : D
  task : T

/-- `sequencer.rs::ResolutionKind`. -/
inductive ResolutionKind where
  | executed (success : Bool)
  | skipped
  | foreign
  deriving DecidableEq

/-- `sequencer.rs::Resolution`. -/
structure Resolution where
  height : Nat
  kind : ResolutionKind
  deriving DecidableEq

/-- `sequencer.rs::HeightOutcome`. -/
inductive HeightOutcome where
  | resolved (kind : ResolutionKind)
  | superseded
  | closed
  deriving DecidableEq

/-- `SETTLE_DELAY`, in milliseconds. -/
def settleDelay : Nat := 2000

/-- `stamp_dispatch_time`. -/
def stampDispatchTime (times : OrderedMap Nat Nat) (height now : Nat) : OrderedMap Nat Nat :=
  (times.filterKeys (height ≤ ·)).insert height now

/-- `sequencer.rs::TipReports`. -/
structure TipReports (P : Type*) [LinearOrder P] where
  /-- Highest tip reported per participant. -/
  reports : OrderedMap P Nat
  /-- Faults tolerated by the engine's quorum rule. -/
  maxFaults : Nat

namespace TipReports

variable {T P : Type*} [LinearOrder P]

/-- `TipReports::new`. -/
def new (participantCount : Nat) : TipReports P := ⟨.empty, Lib.maxFaults participantCount⟩

/-- `record`: the maximum per peer. -/
def record (tips : TipReports P) (peer : P) (tip : Nat) : TipReports P :=
  { tips with reports := tips.reports.insert peer (max (tips.reports.getD peer 0) tip) }

/-- `safe_tip`: the `(f+1)`-th highest report. -/
def safeTip (tips : TipReports P) : Nat := kthHighest tips.reports.values tips.maxFaults

/-- One iteration of `ingest_tip_reports`. `payload` is `none` where the bytes
do not decode. -/
def ingest (tips : TipReports P) (participants : List P) (peer : P)
    (payload : Option (TaskDirective T)) : TipReports P :=
  if peer ∉ participants then tips
  else match payload with
    | some (.tipReport height) => tips.record peer height
    | _ => tips

/-- A recorded tip never lowers the safe tip. -/
theorem safeTip_le_record (tips : TipReports P) (peer : P) (tip : Nat) :
    tips.safeTip ≤ (tips.record peer tip).safeTip := by
  refine kthHighest_mono fun t => OrderedMap.countP_values_le fun other reported found pass => ?_
  by_cases same : other = peer
  · subst same
    refine ⟨max (tips.reports.getD other 0) tip, by simp [record], ?_⟩
    simp only [OrderedMap.getD, found, decide_eq_true_eq] at pass ⊢
    exact pass.trans (le_max_left _ _)
  · exact ⟨reported, by simp [record, same, found], pass⟩

theorem safeTip_le_ingest (tips : TipReports P) (participants : List P) (peer : P)
    (payload : Option (TaskDirective T)) :
    tips.safeTip ≤ (tips.ingest participants peer payload).safeTip := by
  unfold ingest
  split
  · exact le_rfl
  · split
    · exact safeTip_le_record _ _ _
    · exact le_rfl

end TipReports

/-- One call of `TaskSource::next_task` that returned a task. -/
structure Call (T D : Type*) where
  /-- The position of the call among those that returned. -/
  id : Nat
  sequenced : SequencedTask T D

/-- The local variables of `drive_height`. -/
structure Drive where
  height : Nat
  deadline : Nat
  skipping : Bool := false
  certified : Bool := false

/-- Where the sequencer waits, or which shared state it touches next. -/
inductive Phase (T D : Type*) where
  /-- `sleep(SETTLE_DELAY)`, until the given time. -/
  | settling (wake : Nat)
  /-- The tip query of the start. -/
  | startingTip
  /-- `drain_resolutions` at the head of the outer loop. -/
  | draining
  /-- `source.next_task()`. -/
  | awaitingTask
  /-- `drain_resolutions` at the head of the assignment loop. -/
  | redraining (call : Call T D)
  /-- The tip query before an assignment. -/
  | awaitingTip (call : Call T D)
  /-- `assignments.insert`. -/
  | inserting (call : Call T D) (height : Nat)
  /-- The dispatch stamp and the first broadcast of `drive_height`. -/
  | starting (call : Call T D) (height : Nat)
  /-- `select!`, with the sleep that ends at the given time. -/
  | selecting (call : Call T D) (drive : Drive) (wake : Nat)
  /-- The certificate query of the timer branch. -/
  | polling (call : Call T D) (drive : Drive)
  /-- `assignments.remove` and the match on the outcome. -/
  | releasing (call : Call T D) (height : Nat) (outcome : HeightOutcome)
  | stopped

namespace Phase

variable {T D : Type*}

/-- The height whose assignment is in the map: from the insertion until the
removal. -/
def driven : Phase T D → Option Nat
  | starting _ height => some height
  | selecting _ drive _ => some drive.height
  | polling _ drive => some drive.height
  | releasing _ height _ => some height
  | _ => none

/-- The height that `drive_height` is waiting for. -/
def waiting : Phase T D → Option Nat
  | starting _ height => some height
  | selecting _ drive _ => some drive.height
  | polling _ drive => some drive.height
  | _ => none

/-- The task the sequencer holds. -/
def held : Phase T D → Option (Call T D)
  | redraining call => some call
  | awaitingTip call => some call
  | inserting call _ => some call
  | starting call _ => some call
  | selecting call _ _ => some call
  | polling call _ => some call
  | releasing call _ _ => some call
  | _ => none

/-- The local variables of the drive under way. -/
def drive? : Phase T D → Option Drive
  | selecting _ drive _ => some drive
  | polling _ drive => some drive
  | _ => none

/-- The height chosen for a drive that has not begun. -/
def ahead : Phase T D → Option Nat
  | inserting _ height => some height
  | starting _ height => some height
  | _ => none

/-- What the match on the outcome continues with. -/
def after (call : Call T D) : HeightOutcome → Phase T D
  | .resolved (.executed _) => draining
  | .resolved .skipped => draining
  | .resolved .foreign => redraining call
  | .superseded => redraining call
  | .closed => stopped

theorem waiting_eq_none {phase : Phase T D} (outside : phase.driven = none) :
    phase.waiting = none := by
  cases phase <;> first | rfl | cases outside

/-- The sequencer waits only for the height it drives. -/
theorem driven_of_waiting {phase : Phase T D} {h : Nat} (waits : phase.waiting = some h) :
    phase.driven = some h := by
  cases phase <;> first | exact waits | cases waits

@[simp] theorem drive?_after (call : Call T D) (outcome : HeightOutcome) :
    (after call outcome).drive? = none := by
  cases outcome with
  | resolved kind => cases kind <;> rfl
  | superseded => rfl
  | closed => rfl

@[simp] theorem ahead_after (call : Call T D) (outcome : HeightOutcome) :
    (after call outcome).ahead = none := by
  cases outcome with
  | resolved kind => cases kind <;> rfl
  | superseded => rfl
  | closed => rfl

@[simp] theorem driven_after (call : Call T D) (outcome : HeightOutcome) :
    (after call outcome).driven = none := by
  cases outcome with
  | resolved kind => cases kind <;> rfl
  | superseded => rfl
  | closed => rfl

end Phase

end Restaking
