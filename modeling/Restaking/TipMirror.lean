import Mathlib.Order.MinMax
import Restaking.Lib.Run
import Restaking.NodeReporter

/-! One node's engine, its activity sink and its directive intake together. The
engine is the environment: it certifies heights inside its window in any order,
raises its tip over certified heights, and reports both into the sink's mailbox.
The intake answers a directive below the mirror with the mirror. The question is
when that answer is true of the engine at the moment it is given. -/
namespace Restaking
open Lib

namespace TipMirror

/-- The engine's tip and the heights it holds a certificate for. -/
structure Engine where
  tip : Nat
  certified : List Nat

/-- A reply of the intake, with the engine's tip at that moment. -/
structure Reply where
  /-- The height of the directive that was answered. -/
  directive : Nat
  /-- The height of the `TipReport`. -/
  reported : Nat
  engineTip : Nat
  deriving DecidableEq

/-- The values the node is started with. -/
structure Config (D P : Type*) where
  sha256 : List UInt8 → D
  namespaceBytes : List UInt8
  router : P
  window : Nat
  minReportInterval : Nat

inductive Label (T D C P : Type*) where
  /-- Time passes. -/
  | elapse (duration : Nat)
  /-- The engine completes a certificate inside its window. -/
  | certify (certificate : Certificate D C)
  /-- The engine's tip moves up over certified heights. -/
  | raise (tip : Nat)
  /-- The engine repeats an activity of its journal. -/
  | replay (activity : Activity D C)
  /-- The sink handles the next activity of its mailbox. -/
  | report
  /-- The intake handles a message of the directive channel. -/
  | directive (peer : P) (payload : Option (TaskDirective T))

end TipMirror

/-- The node's state, with every reply sent so far. -/
structure TipMirror (D C : Type*) where
  now : Nat := 0
  engine : TipMirror.Engine
  mailbox : List (Activity D C) := []
  reporter : NodeReporter := {}
  ingest : Ingest := {}
  replies : List TipMirror.Reply := []

namespace TipMirror

variable {T D C P : Type*} [DecidableEq D] [DecidableEq P]
variable {cfg : Config D P} {s s' : TipMirror D C} {label : Label T D C P}

/-- What the journal can hold. -/
def Engine.journaled (engine : Engine) : Activity D C → Bool
  | .certified c => c.height ∈ engine.certified
  | .tip height => height ≤ engine.tip
  | .ack _ => true

def step (cfg : Config D P) (s : TipMirror D C) : Label T D C P → Option (TipMirror D C)
  | .elapse duration => some { s with now := s.now + duration }
  | .certify c =>
    if c.height < s.engine.tip + cfg.window ∧ c.height ∉ s.engine.certified then
      some { s with
        engine := { s.engine with certified := c.height :: s.engine.certified }
        mailbox := s.mailbox ++ [.certified c] }
    else none
  | .raise tip =>
    if s.engine.tip < tip ∧ ∀ h < tip, h ∈ s.engine.certified then
      some { s with
        engine := { s.engine with tip := tip }
        mailbox := s.mailbox ++ [.tip tip] }
    else none
  | .replay activity =>
    if s.engine.journaled activity then some { s with mailbox := s.mailbox ++ [activity] }
    else none
  | .report => match s.mailbox with
    | [] => none
    | activity :: mailbox => some { s with
        mailbox := mailbox
        reporter := (s.reporter.handle (skipDigest cfg.sha256 cfg.namespaceBytes) activity).1 }
  | .directive peer payload =>
    let handled := s.ingest.handle cfg.router peer cfg.window cfg.minReportInterval s.now
      s.reporter.tipHandle payload
    some { s with
      ingest := handled.1
      replies := s.replies ++ handled.2.report.toList.map fun reported =>
        { directive := payload.elim 0 TaskDirective.height, reported, engineTip := s.engine.tip } }

/-- A node as it starts: whatever the engine's journal holds, the sink and the
intake are fresh. -/
structure Starts (s : TipMirror D C) : Prop where
  certified : ∀ h < s.engine.tip, h ∈ s.engine.certified
  mailbox : s.mailbox = []
  reporter : s.reporter = {}
  ingest : s.ingest = {}
  replies : s.replies = []

/-- Every reply named a height at or below the engine's tip, in answer to a
directive below the engine's tip. -/
def Truthful (s : TipMirror D C) : Prop :=
  ∀ reply ∈ s.replies, reply.directive < reply.engineTip ∧ reply.reported ≤ reply.engineTip

/-- A certificate that the sink takes out of its mailbox for the first time is
not above both the mirror and the engine's tip. -/
def inOrder (s : TipMirror D C) (label : Label T D C P) : Bool :=
  match label, s.mailbox with
  | .report, .certified c :: _ => (s.reporter.certified.get? c.height).isSome ||
      c.height ≤ max s.reporter.tipHandle s.engine.tip
  | _, _ => true

/-- The side condition on runs that `inOrder` tests. -/
abbrev InOrder (s : TipMirror D C) (label : Label T D C P) : Prop := s.inOrder label = true

/-- What holds in every run: reports lie in the past, tips in the mailbox have
been reached. -/
structure Sound (s : TipMirror D C) : Prop where
  lastReport : ∀ sent ∈ s.ingest.lastReport, sent ≤ s.now
  tips : ∀ height, .tip height ∈ s.mailbox → height ≤ s.engine.tip

omit [DecidableEq D] in
theorem Starts.sound (starts : Starts s) : Sound s where
  lastReport := by simp [starts.ingest]
  tips := by simp [starts.mailbox]

theorem Sound.step (sound : Sound s) (taken : step cfg s label = some s') : Sound s' := by
  obtain ⟨lastReport, tips⟩ := sound
  cases label with
  | elapse duration =>
    cases taken
    exact ⟨fun sent member => (lastReport sent member).trans (Nat.le_add_right _ _), tips⟩
  | certify c =>
    obtain ⟨-, ⟨⟩⟩ := Option.ite_none_right_eq_some.mp taken
    exact ⟨lastReport, by simpa using tips⟩
  | raise tip =>
    obtain ⟨⟨higher, -⟩, ⟨⟩⟩ := Option.ite_none_right_eq_some.mp taken
    refine ⟨lastReport, fun height member => ?_⟩
    rcases List.mem_append.mp member with earlier | last
    · exact (tips height earlier).trans higher.le
    · cases List.mem_singleton.mp last
      exact le_rfl
  | replay activity =>
    obtain ⟨journaled, ⟨⟩⟩ := Option.ite_none_right_eq_some.mp taken
    refine ⟨lastReport, fun height member => ?_⟩
    rcases List.mem_append.mp member with earlier | last
    · exact tips height earlier
    · cases List.mem_singleton.mp last
      simpa [Engine.journaled] using journaled
  | report =>
    simp only [TipMirror.step] at taken
    split at taken
    · cases taken
    · rename_i waiting
      cases taken
      exact ⟨lastReport, fun height member => tips height (by simp [waiting, member])⟩
  | directive peer payload =>
    cases taken
    refine ⟨fun sent member => ?_, tips⟩
    rcases s.ingest.handle_lastReport cfg.router peer cfg.window cfg.minReportInterval s.now
      s.reporter.tipHandle payload with kept | stamped
    · exact lastReport sent (kept ▸ member)
    · rw [stamped] at member
      exact (Option.mem_some_iff.mp member).symm.le

/-- What an in-order run keeps: the mirror follows the engine's tip from below. -/
structure Follows (s : TipMirror D C) : Prop where
  mirror : s.reporter.tipHandle ≤ s.engine.tip
  truthful : Truthful s

omit [DecidableEq D] in
theorem Starts.follows (starts : Starts s) : Follows s where
  mirror := by simp [starts.reporter]
  truthful := by simp [Truthful, starts.replies]

theorem Follows.step (follows : Follows s) (sound : Sound s) (inOrder : InOrder s label)
    (taken : step cfg s label = some s') : Follows s' := by
  obtain ⟨mirror, truthful⟩ := follows
  cases label with
  | elapse duration =>
    cases taken
    exact ⟨mirror, truthful⟩
  | certify c =>
    obtain ⟨-, ⟨⟩⟩ := Option.ite_none_right_eq_some.mp taken
    exact ⟨mirror, truthful⟩
  | raise tip =>
    obtain ⟨⟨higher, -⟩, ⟨⟩⟩ := Option.ite_none_right_eq_some.mp taken
    exact ⟨mirror.trans higher.le, truthful⟩
  | replay activity =>
    obtain ⟨-, ⟨⟩⟩ := Option.ite_none_right_eq_some.mp taken
    exact ⟨mirror, truthful⟩
  | report =>
    simp only [TipMirror.step] at taken
    split at taken
    · cases taken
    · rename_i activity mailbox waiting
      cases taken
      refine ⟨?_, truthful⟩
      rw [NodeReporter.handle_tipHandle]
      cases activity with
      | certified c =>
        cases counted : s.reporter.certified.get? c.height with
        | some _ => simpa [counted] using mirror
        | none =>
          have within : c.height ≤ max s.reporter.tipHandle s.engine.tip := by
            simpa [InOrder, TipMirror.inOrder, waiting, counted] using inOrder
          rw [max_eq_right mirror] at within
          simpa [counted] using ⟨mirror, within⟩
      | tip height => exact max_le mirror (sound.tips height (by simp [waiting]))
      | ack height => exact mirror
  | directive peer payload =>
    cases taken
    refine ⟨mirror, fun reply member => ?_⟩
    rcases List.mem_append.mp member with earlier | last
    · exact truthful reply earlier
    · obtain ⟨reported, sent, rfl⟩ := List.mem_map.mp last
      obtain ⟨rfl, directive, rfl, below⟩ := Ingest.handle_report (Option.mem_toList.mp sent)
      exact ⟨below.trans_le mirror, mirror⟩

theorem truthful_of_in_order (reached : ReachableWhere Starts (step (T := T) cfg) InOrder s) :
    Truthful s := by
  have kept : Follows s := reached.preserves (fun _ starts => starts.follows)
    fun s label s' earlier follows inOrder taken =>
      follows.step (earlier.preserves (fun _ starts => starts.sound)
        fun _ _ _ _ sound taken => sound.step taken) inOrder taken
  exact kept.truthful

/-- Consuming a certificate out of order puts the mirror above the tip. -/
theorem mirror_above_of_not_inOrder (outOfOrder : ¬ InOrder s label)
    (taken : step cfg s label = some s') : s'.engine.tip < s'.reporter.tipHandle := by
  cases label with
  | report =>
    simp only [TipMirror.step] at taken
    split at taken
    · cases taken
    · rename_i activity mailbox waiting
      cases taken
      cases activity with
      | certified c =>
        simp only [InOrder, inOrder, waiting, Bool.or_eq_true, decide_eq_true_eq, not_or,
          not_le] at outOfOrder
        obtain ⟨fresh, above⟩ := outOfOrder
        rw [NodeReporter.handle_tipHandle]
        dsimp only
        rw [if_neg fresh]
        exact lt_max_iff.mpr (.inr ((le_max_right _ _).trans_lt above))
      | tip height => simp [InOrder, inOrder, waiting] at outOfOrder
      | ack height => simp [InOrder, inOrder, waiting] at outOfOrder
  | _ => exact absurd rfl outOfOrder

omit [DecidableEq D] in
/-- Whatever the mirror claims above the tip, a directive at the tip makes the
intake say. -/
theorem untruthful_of_mirror_above [DecidableEq D] (sound : Sound s)
    (above : s.engine.tip < s.reporter.tipHandle) :
    ∃ labels s', Run (step (T := T) cfg) s labels s' ∧ ¬ Truthful s' := by
  let later : TipMirror D C := { s with now := s.now + cfg.minReportInterval }
  let asked : Label T D C P := .directive cfg.router (some (.skip s.engine.tip))
  have waited : ∀ sent ∈ later.ingest.lastReport, sent + cfg.minReportInterval ≤ later.now :=
    fun sent member => Nat.add_le_add_right (sound.lastReport sent member) _
  have answered : (later.ingest.handle cfg.router cfg.router cfg.window cfg.minReportInterval
      later.now s.reporter.tipHandle (some (.skip s.engine.tip : TaskDirective T))).2.report =
        some s.reporter.tipHandle := Ingest.handle_stale above waited
  refine ⟨[.elapse cfg.minReportInterval, asked], _, .cons trivial rfl (.cons trivial rfl .nil), ?_⟩
  intro truthful
  have told := truthful
    { directive := s.engine.tip, reported := s.reporter.tipHandle, engineTip := s.engine.tip }
  refine absurd (told ?_).1 (lt_irrefl _)
  apply List.mem_append_right _
  rw [answered]
  exact List.mem_singleton.mpr rfl

/-- **When tip reports are truthful.** As long as every certificate the sink
takes in lies at or below the mirror or the engine's tip, no report overstates
the tip; and after a certificate above both, some continuation of the run
answers a directive with a tip the engine has not reached. -/
theorem tip_reports_truthful_when_in_order (cfg : Config D P) :
    (∀ s : TipMirror D C, ReachableWhere Starts (step (T := T) cfg) InOrder s → Truthful s) ∧
      ∀ (s s' : TipMirror D C) (label : Label T D C P), Reachable Starts (step (T := T) cfg) s →
        ¬ InOrder s label → step cfg s label = some s' →
        ∃ labels s'', Run (step (T := T) cfg) s' labels s'' ∧ ¬ Truthful s'' := by
  refine ⟨fun s reached => truthful_of_in_order reached, fun s s' label reached outOfOrder taken => ?_⟩
  have sound : Sound s' := (reached.next taken).preserves (fun _ starts => starts.sound)
    fun _ _ _ _ sound taken => sound.step taken
  exact untruthful_of_mirror_above sound (mirror_above_of_not_inOrder outOfOrder taken)

section Examples

/-- A window of eight heights, reports at any distance. -/
def smallWindow : Config Nat Unit where
  sha256 := List.length
  namespaceBytes := []
  router := ()
  window := 8
  minReportInterval := 0

def fresh : TipMirror Nat Unit := { engine := { tip := 0, certified := [] } }

theorem fresh_starts : Starts fresh where
  certified := by simp [fresh]
  mailbox := rfl
  reporter := rfl
  ingest := rfl
  replies := rfl

/-- Height 5 certifies while the engine still needs height 0: a directive for
height 3 is answered with a tip of 5. -/
theorem out_of_order_certificate_overstates_tip :
    ∃ s : TipMirror Nat Unit, Reachable Starts (step (T := Unit) smallWindow) s ∧ ¬ Truthful s := by
  let labels : List (Label Unit Nat Unit Unit) :=
    [.certify ⟨5, 1, ()⟩, .report, .directive () (some (.announce 3 ()))]
  let overstated (s : TipMirror Nat Unit) : Bool :=
    s.replies.any fun reply => reply.engineTip < reply.reported
  have ran : (exec (guarded (step smallWindow) fun _ _ => True) fresh labels).any overstated =
      true := by
    decide +kernel
  obtain ⟨s, life, reached⟩ := Reachable.of_exec_any fresh_starts ran
  refine ⟨s, life, ?_⟩
  intro truthful
  obtain ⟨reply, member, above⟩ := List.any_eq_true.mp reached
  exact absurd (truthful reply member).2 (not_le.mpr (by simpa using above))

/-- Heights 0 and 1 certify in order, the tip moves to 2, and a directive for
height 0 is answered with 2. -/
theorem in_order_certificates_report_tip :
    ∃ s : TipMirror Nat Unit, s.replies = [⟨0, 2, 2⟩] ∧ Truthful s := by
  let labels : List (Label Unit Nat Unit Unit) := [.certify ⟨0, 1, ()⟩, .report, .certify ⟨1, 1, ()⟩,
    .raise 2, .report, .report, .directive () (some (.announce 0 ()))]
  let reported (s : TipMirror Nat Unit) : Bool := s.replies = [⟨0, 2, 2⟩]
  have ran : (exec (guarded (step smallWindow) InOrder) fresh labels).any reported = true := by
    decide +kernel
  obtain ⟨s, life, replied⟩ := ReachableWhere.of_exec_any fresh_starts ran
  exact ⟨s, of_decide_eq_true replied, (tip_reports_truthful_when_in_order smallWindow).1 s life⟩

end Examples

end TipMirror
end Restaking
