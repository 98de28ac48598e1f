import Restaking.Lib.RateLimit
import Restaking.NodeReporter

/-! The directive intake of a node (`node/src/task_book.rs::ingest`) over everything it
receives. The task book gets every directive of the router that decodes, in order;
the replies to the router and the warnings are two rate limits, side by side. -/
namespace Restaking
open Lib

/-- A message as `ingest` meets it: the bytes' payload, `none` where they do not
decode, the time, and the tip read from the shared cell. -/
structure Arrival (T P : Type*) where
  peer : P
  payload : Option (TaskDirective T)
  now : Nat
  tip : Nat

namespace Ingest

variable {T P : Type*} [DecidableEq P]

/-- What the message brings to the task book. -/
def directive? (router : P) (a : Arrival T P) : Option (TaskDirective T) :=
  if a.peer ≠ router then none
  else match a.payload with
    | some (.tipReport _) => none
    | payload => payload

/-- A directive for a height below the tip. -/
def stale (router : P) (a : Arrival T P) : Bool :=
  (directive? router a).any (·.height < a.tip)

/-- A directive for a height that the engine cannot propose. -/
def unreachable (router : P) (window : Nat) (a : Arrival T P) : Bool :=
  (directive? router a).any (beyondWindow ·.height a.tip window)

variable (router : P) (window minReportInterval : Nat)

/-- One iteration of `ingest`, and the time if it warns. -/
def receive (ingest : Ingest) (a : Arrival T P) : Ingest × Outcome T × Option Nat :=
  let (ingest', outcome) :=
    ingest.handle router a.peer window minReportInterval a.now a.tip a.payload
  (ingest', outcome,
    if unreachable router window a && due ingest.lastBeyondWindowWarning a.now minReportInterval
    then some a.now else none)

/-- What `ingest` has done. -/
structure Log (T : Type*) where
  delivered : List (TaskDirective T) := []
  /-- The tip reports, each with its time. -/
  reports : List (Nat × Nat) := []
  warnings : List Nat := []

/-- `ingest`, from a state of its loop. -/
def consume : Ingest → List (Arrival T P) → Log T
  | _, [] => {}
  | ingest, a :: arrivals =>
    let (ingest', outcome, warning) := receive router window minReportInterval ingest a
    let later := consume ingest' arrivals
    { delivered := outcome.deliver.toList ++ later.delivered
      reports := (outcome.report.map (a.now, ·)).toList ++ later.reports
      warnings := warning.toList ++ later.warnings }

variable {router window minReportInterval} {ingest : Ingest} {a : Arrival T P}
variable {arrivals : List (Arrival T P)}

/-- One message, by what it brings. -/
theorem receive_eq : receive router window minReportInterval ingest a =
    ({ lastReport :=
          if stale router a && due ingest.lastReport a.now minReportInterval then some a.now
          else ingest.lastReport,
        lastBeyondWindowWarning :=
          if unreachable router window a &&
              due ingest.lastBeyondWindowWarning a.now minReportInterval then some a.now
          else ingest.lastBeyondWindowWarning },
      { deliver := directive? router a,
        report := if stale router a && due ingest.lastReport a.now minReportInterval
          then some a.tip else none },
      if unreachable router window a && due ingest.lastBeyondWindowWarning a.now minReportInterval
      then some a.now else none) := by
  obtain ⟨peer, payload, now, tip⟩ := a
  unfold receive handle stale unreachable directive?
  by_cases other : peer ≠ router
  · simp [other]
  · cases payload with
    | none => simp [other]
    | some directive => cases directive <;> simp [other]

theorem consume_delivered : (consume router window minReportInterval ingest arrivals).delivered =
    arrivals.filterMap (directive? router) := by
  induction arrivals generalizing ingest with
  | nil => rfl
  | cons a arrivals ih =>
    simp only [consume, receive_eq, ih]
    cases brings : directive? router a <;> simp [brings]

/-- The reports are a rate limit on stale directives. -/
theorem consume_reports :
    (consume router window minReportInterval ingest arrivals).reports.map Prod.fst =
      throttle minReportInterval ingest.lastReport (arrivals.map fun a => (a.now, stale router a)) := by
  induction arrivals generalizing ingest with
  | nil => rfl
  | cons a arrivals ih =>
    simp only [consume, receive_eq, List.map_append, ih, List.map_cons, throttle]
    by_cases fires : (stale router a && due ingest.lastReport a.now minReportInterval) = true
    · rw [if_pos fires, if_pos fires]
      simp only [due] at fires
      rw [if_pos fires]
      rfl
    · rw [if_neg fires, if_neg fires]
      simp only [due] at fires
      rw [if_neg fires]
      rfl

/-- The warnings are a rate limit on unreachable directives. -/
theorem consume_warnings :
    (consume router window minReportInterval ingest arrivals).warnings =
      throttle minReportInterval ingest.lastBeyondWindowWarning
        (arrivals.map fun a => (a.now, unreachable router window a)) := by
  induction arrivals generalizing ingest with
  | nil => rfl
  | cons a arrivals ih =>
    simp only [consume, receive_eq, ih, List.map_cons, throttle]
    by_cases fires : (unreachable router window a &&
        due ingest.lastBeyondWindowWarning a.now minReportInterval) = true
    · rw [if_pos fires, if_pos fires]
      simp only [due] at fires
      rw [if_pos fires]
      rfl
    · rw [if_neg fires, if_neg fires]
      simp only [due] at fires
      rw [if_neg fires]
      rfl

/-- A report answers a directive below the tip, with the tip that was read. -/
theorem consume_answers {report : Nat × Nat}
    (sent : report ∈ (consume router window minReportInterval ingest arrivals).reports) :
    ∃ a ∈ arrivals, stale router a = true ∧ report = (a.now, a.tip) := by
  induction arrivals generalizing ingest with
  | nil => cases sent
  | cons a arrivals ih =>
    simp only [consume, receive_eq] at sent
    rcases List.mem_append.mp sent with now | later
    · obtain ⟨tip, fires, rfl⟩ := Option.map_eq_some_iff.mp (Option.mem_toList.mp now)
      obtain ⟨both, ⟨⟩⟩ := Option.ite_none_right_eq_some.mp fires
      exact ⟨a, List.mem_cons_self, (Bool.and_eq_true_iff.mp both).1, rfl⟩
    · obtain ⟨other, member, answers⟩ := ih later
      exact ⟨other, List.mem_cons_of_mem _ member, answers⟩

/-- **The intake delivers everything and reports at its rate.** Over any messages whose
times do not decrease, the task book gets the router's decodable announcements and
skips, in order and each once. Tip reports are at least an interval apart, each
answers a directive below the tip with that tip, and no such directive comes without
a report at its time or less than an interval before. The same holds of the warnings
about heights beyond the engine's window. -/
theorem intake_paced {log : Log T} (sorted : arrivals.Pairwise (·.now ≤ ·.now))
    (logged : consume router window minReportInterval {} arrivals = log) :
    log.delivered = arrivals.filterMap (directive? router) ∧
      (log.reports.Pairwise fun first second => first.1 + minReportInterval ≤ second.1) ∧
      (∀ report ∈ log.reports, ∃ a ∈ arrivals, stale router a = true ∧ report = (a.now, a.tip)) ∧
      (∀ a ∈ arrivals, stale router a = true → ∃ report ∈ log.reports,
        report.1 ≤ a.now ∧ (report.1 = a.now ∨ a.now < report.1 + minReportInterval)) ∧
      (log.warnings.Pairwise fun first second => first + minReportInterval ≤ second) ∧
      (∀ warning ∈ log.warnings, ∃ a ∈ arrivals, unreachable router window a = true ∧
        warning = a.now) ∧
      ∀ a ∈ arrivals, unreachable router window a = true → ∃ warning ∈ log.warnings,
        warning ≤ a.now ∧ (warning = a.now ∨ a.now < warning + minReportInterval) := by
  subst logged
  have times (wanted : Arrival T P → Bool) :
      ((arrivals.map fun a => (a.now, wanted a)).map Prod.fst).Pairwise (· ≤ ·) := by
    rw [List.map_map]
    exact List.pairwise_map.mpr sorted
  have fresh (events : List (Nat × Bool)) :
      ∀ sent ∈ (none : Option Nat), ∀ event ∈ events, sent ≤ event.1 := by rintro _ ⟨⟩
  have wants {wanted : Arrival T P → Bool} {a : Arrival T P} (member : a ∈ arrivals)
      (holds : wanted a = true) : (a.now, true) ∈ arrivals.map fun a => (a.now, wanted a) :=
    List.mem_map.mpr ⟨a, member, by rw [holds]⟩
  refine ⟨consume_delivered, ?_, fun report => consume_answers, ?_, ?_, ?_, ?_⟩
  · have spaced : ((consume router window minReportInterval {} arrivals).reports.map
        Prod.fst).Pairwise (fun first second => first + minReportInterval ≤ second) := by
      rw [consume_reports]
      exact (throttle_spaced (times (stale router)) (fresh _)).1
    exact List.pairwise_map.mp spaced
  · intro a member below
    obtain ⟨sent, fired, close⟩ : ∃ sent ∈ (consume router window minReportInterval {}
        arrivals).reports.map Prod.fst,
        sent ≤ a.now ∧ (sent = a.now ∨ a.now < sent + minReportInterval) := by
      rw [consume_reports]
      exact throttle_covers (times (stale router)) (fresh _) (wants member below)
    obtain ⟨report, logged, rfl⟩ := List.mem_map.mp fired
    exact ⟨report, logged, close⟩
  · rw [consume_warnings]
    exact (throttle_spaced (times (unreachable router window)) (fresh _)).1
  · intro warning logged
    rw [consume_warnings] at logged
    obtain ⟨a, member, event⟩ := List.mem_map.mp (wanted_of_mem_throttle logged)
    obtain ⟨rfl, above⟩ := Prod.mk.inj event
    exact ⟨a, member, above, rfl⟩
  · intro a member above
    rw [consume_warnings]
    exact throttle_covers (times (unreachable router window)) (fresh _) (wants member above)

/-- Heights 2 and 3 arrive below tip 9 within one interval, then height 40 beyond its
window of 8. -/
def burst : List (Arrival String Nat) :=
  [⟨0, some (.announce 2 "a"), 10, 9⟩, ⟨0, none, 11, 9⟩, ⟨0, some (.skip 3), 12, 9⟩,
    ⟨0, some (.announce 40 "b"), 13, 9⟩]

/-- One report and one warning for the burst. -/
theorem burst_reported_once :
    (consume 0 8 5 {} burst).reports = [(10, 9)] ∧ (consume 0 8 5 {} burst).warnings = [13] ∧
      ∃ report ∈ (consume 0 8 5 {} burst).reports,
        report.1 ≤ 12 ∧ (report.1 = 12 ∨ 12 < report.1 + 5) := by
  have sorted : burst.Pairwise (·.now ≤ ·.now) := by decide
  have skipped : ⟨0, some (.skip 3), 12, 9⟩ ∈ burst := by simp [burst]
  obtain ⟨-, -, -, covered, -⟩ := intake_paced sorted rfl
  exact ⟨rfl, rfl, covered _ skipped rfl⟩

end Ingest
end Restaking
