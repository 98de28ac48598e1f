import Restaking.Lib.OrderedMap
import Restaking.Wire

/-! The node's activity sink (`node/src/reporter.rs`) and the directive intake
beside it (`node/src/task_book.rs::ingest`). The two share one cell: the
reporter is the only writer of `tip_handle`, the intake answers stale
directives with what it reads there. -/
namespace Restaking
open Lib

/-- A certificate as the engine reports it: the item it covers and the
scheme's certificate. -/
structure Certificate (D C : Type*) where
  height : Nat
  digest : D
  certificate : C
  deriving DecidableEq

/-- `commonware_consensus::aggregation::types::Activity`. -/
inductive Activity (D C : Type*) where
  | certified (certificate : Certificate D C)
  | tip (height : Nat)
  | ack (height : Nat)

namespace NodeReporter

/-- The consumer side of a certificate tap. -/
inductive Tap where
  | listening
  | gone
  deriving DecidableEq

/-- What handling one activity does outside the actor. -/
inductive Effect (D C : Type*) where
  /-- `tap.send(observation)` reached the consumer. -/
  | observe (observation : Certificate D C)
  /-- `task_book.prune_below(floor)`. -/
  | pruneBelow (floor : Nat)

variable {D C : Type*}

/-- The floors among these effects. -/
def floors (effects : List (Effect D C)) : List Nat :=
  effects.filterMap fun
    | .pruneBelow floor => some floor
    | .observe _ => none

/-- The observations among these effects. -/
def observations (effects : List (Effect D C)) : List (Certificate D C) :=
  effects.filterMap fun
    | .pruneBelow _ => none
    | .observe observation => some observation

end NodeReporter

/-- `reporter.rs::NodeReporter`. -/
structure NodeReporter where
  /-- The certificate tap, if one is installed. -/
  tap : Option NodeReporter.Tap := none
  /-- Highest height observed through a certificate or a tip. -/
  tipHandle : Nat := 0
  /-- Heights already counted as certified. -/
  certified : OrderedMap Nat Unit := .empty
  /-- Certificates observed. -/
  certifiedCounter : Nat := 0
  /-- Certificates observed that carry the skip digest. -/
  skippedCounter : Nat := 0

namespace NodeReporter

variable {D C : Type*}

/-- `advance`. -/
def advance (reporter : NodeReporter) (height : Nat) : NodeReporter × List (Effect D C) :=
  if height ≤ reporter.tipHandle then (reporter, [])
  else if 0 < height - pruneSlack then
    ({ reporter with
        tipHandle := height
        certified := reporter.certified.splitOff (height - pruneSlack) },
      [.pruneBelow (height - pruneSlack)])
  else ({ reporter with tipHandle := height }, [])

variable [DecidableEq D]

/-- One iteration of `run`. -/
def handle (skip : Nat → D) (reporter : NodeReporter) :
    Activity D C → NodeReporter × List (Effect D C)
  | .certified c =>
    if (reporter.certified.get? c.height).isSome then (reporter, [])
    else
      let skipped := if c.digest = skip c.height then 1 else 0
      let observed := if reporter.tap = some .listening then [.observe c] else []
      let (reporter, effects) := { reporter with
        certified := reporter.certified.insert c.height ()
        certifiedCounter := reporter.certifiedCounter + 1
        skippedCounter := reporter.skippedCounter + skipped }.advance c.height
      (reporter, observed ++ effects)
  | .tip height => reporter.advance height
  | .ack _ => (reporter, [])

omit [DecidableEq D] in
theorem advance_tipHandle (reporter : NodeReporter) (height : Nat) :
    (advance (D := D) (C := C) reporter height).1.tipHandle = max reporter.tipHandle height := by
  unfold advance
  split
  · rename_i lower
    exact (max_eq_left lower).symm
  · rename_i higher
    split <;> exact (max_eq_right (not_le.mp higher).le).symm

/-- The mirror moves to a tip or to a newly certified height, whichever way the
activity names it, and never down. -/
theorem handle_tipHandle (skip : Nat → D) (reporter : NodeReporter) (activity : Activity D C) :
    (reporter.handle skip activity).1.tipHandle = match activity with
      | .certified c => if (reporter.certified.get? c.height).isSome then reporter.tipHandle
          else max reporter.tipHandle c.height
      | .tip height => max reporter.tipHandle height
      | .ack _ => reporter.tipHandle := by
  cases activity with
  | certified c =>
    simp only [handle]
    split
    · rfl
    · exact advance_tipHandle _ _
  | tip height => exact advance_tipHandle _ _
  | ack height => rfl

omit [DecidableEq D] in
/-- A floor is requested as the mirror moves, at the distance below it. -/
theorem advance_effects (reporter : NodeReporter) (height : Nat) :
    (advance (D := D) (C := C) reporter height).2 =
      if reporter.tipHandle < height ∧ 0 < height - pruneSlack then [.pruneBelow (height - pruneSlack)]
      else [] := by
  unfold advance
  by_cases lower : height ≤ reporter.tipHandle
  · simp [lower, not_lt.mpr lower]
  · by_cases positive : 0 < height - pruneSlack <;> simp [lower, not_le.mp lower, positive]

theorem tipHandle_le_handle (skip : Nat → D) (reporter : NodeReporter) (activity : Activity D C) :
    reporter.tipHandle ≤ (reporter.handle skip activity).1.tipHandle := by
  rw [handle_tipHandle]
  cases activity with
  | certified c =>
    dsimp only
    split
    · exact le_rfl
    · exact le_max_left _ _
  | tip height => exact le_max_left _ _
  | ack height => exact le_rfl

/-- Every floor that is requested is the new mirror's. -/
theorem handle_floor {skip : Nat → D} {reporter : NodeReporter} {activity : Activity D C} {floor : Nat}
    (requested : .pruneBelow floor ∈ (reporter.handle skip activity).2) :
    0 < floor ∧ floor = (reporter.handle skip activity).1.tipHandle - pruneSlack ∧
      reporter.tipHandle < (reporter.handle skip activity).1.tipHandle := by
  have ofAdvance : ∀ {before : NodeReporter} {height : Nat},
      .pruneBelow floor ∈ (advance (D := D) (C := C) before height).2 →
      0 < floor ∧ floor = max before.tipHandle height - pruneSlack ∧
        before.tipHandle < max before.tipHandle height := by
    intro before height member
    rw [advance_effects] at member
    split at member
    · rename_i moves
      rw [Effect.pruneBelow.inj (List.mem_singleton.mp member), max_eq_right moves.1.le]
      exact ⟨moves.2, rfl, moves.1⟩
    · cases member
  cases activity with
  | certified c =>
    simp only [handle] at requested ⊢
    split at requested
    · cases requested
    · rename_i fresh
      rw [if_neg fresh]
      rcases List.mem_append.mp requested with observed | advanced
      · split at observed
        · cases List.mem_singleton.mp observed
        · cases observed
      · rw [advance_tipHandle]
        exact ofAdvance advanced
  | tip height =>
    simp only [handle] at requested ⊢
    rw [advance_tipHandle]
    exact ofAdvance requested
  | ack height => cases requested

end NodeReporter

/-- The loop state of `ingest`. -/
structure Ingest where
  /-- When the last tip report was sent. -/
  lastReport : Option Nat := none
  /-- When the last warning about an unreachable height was logged. -/
  lastBeyondWindowWarning : Option Nat := none

namespace Ingest

variable {T P : Type*} [DecidableEq P]

/-- `last.is_none_or(|at| at.elapsed() >= min_report_interval)`. -/
def due (last : Option Nat) (now minReportInterval : Nat) : Bool :=
  last.all fun sent => minReportInterval ≤ now - sent

/-- `beyond_window`, with the saturating sum of a `u64`. -/
def beyondWindow (height tip window : Nat) : Bool := min (tip + window) (2 ^ 64 - 1) ≤ height

/-- What `ingest` does with one message besides its own state: the directive it
delivers to the task book and the tip it reports to the router. -/
structure Outcome (T : Type*) where
  deliver : Option (TaskDirective T) := none
  report : Option Nat := none

/-- One iteration of `ingest`. `payload` is `none` where the bytes do not
decode; `tip` is the value read from the shared cell. -/
def handle (ingest : Ingest) (router peer : P) (window minReportInterval now tip : Nat)
    (payload : Option (TaskDirective T)) : Ingest × Outcome T :=
  if peer ≠ router then (ingest, {})
  else match payload with
    | none => (ingest, {})
    | some (.tipReport _) => (ingest, {})
    | some directive =>
      let height := directive.height
      let stale := height < tip && due ingest.lastReport now minReportInterval
      let unreachable := beyondWindow height tip window &&
        due ingest.lastBeyondWindowWarning now minReportInterval
      ({ lastReport := if stale then some now else ingest.lastReport
         lastBeyondWindowWarning :=
           if unreachable then some now else ingest.lastBeyondWindowWarning },
        { deliver := some directive, report := if stale then some tip else none })

/-- A report names the tip that was read, and answers a directive below it. -/
theorem handle_report {ingest : Ingest} {router peer : P} {window minReportInterval now tip : Nat}
    {payload : Option (TaskDirective T)} {reported : Nat}
    (sent : (ingest.handle router peer window minReportInterval now tip payload).2.report =
      some reported) :
    reported = tip ∧ ∃ directive, payload = some directive ∧ directive.height < tip := by
  unfold handle at sent
  split at sent
  · cases sent
  · split at sent
    · cases sent
    · cases sent
    · rename_i directive _
      simp only [Option.ite_none_right_eq_some, Bool.and_eq_true, decide_eq_true_eq,
        Option.some.injEq] at sent
      exact ⟨sent.2.symm, directive, rfl, sent.1.1⟩

/-- The last report keeps its time or is the one sent now. -/
theorem handle_lastReport (ingest : Ingest) (router peer : P) (window minReportInterval now tip : Nat)
    (payload : Option (TaskDirective T)) :
    (ingest.handle router peer window minReportInterval now tip payload).1.lastReport =
        ingest.lastReport ∨
      (ingest.handle router peer window minReportInterval now tip payload).1.lastReport =
        some now := by
  unfold handle
  split
  · exact .inl rfl
  · split
    · exact .inl rfl
    · exact .inl rfl
    · dsimp only
      split
      · exact .inr rfl
      · exact .inl rfl

/-- A directive below the tip is answered once the last report is old enough. -/
theorem handle_stale {ingest : Ingest} {router : P} {window minReportInterval now tip height : Nat}
    (below : height < tip) (waited : ∀ sent ∈ ingest.lastReport, sent + minReportInterval ≤ now) :
    (ingest.handle router router window minReportInterval now tip
      (some (.skip height : TaskDirective T))).2.report = some tip := by
  have dueNow : due ingest.lastReport now minReportInterval = true := by
    apply (Option.all_eq_true _ _).mpr
    intro sent member
    have old := waited sent member
    exact decide_eq_true (by omega)
  simp [handle, TaskDirective.height, below, dueNow]

end Ingest
end Restaking
