import Restaking.NodeReporter
import Restaking.Scheme

/-! The router's sink for engine activity (`router/src/reporter.rs`). It keeps the
first verified certificate of every height, answers the sequencer's queries in
mailbox order and hands each certificate it keeps to the submitter. -/
namespace Restaking
open Lib

namespace CertReporter

/-- `reporter.rs::Message`, without the responders: the sequencer has at most
one query outstanding. -/
inductive Message (D C : Type*) where
  | certified (certificate : Certificate D C)
  | tip (height : Nat)
  | getTip
  | get (height : Nat)

/-- `CertReporterMailbox::report`: own acks are not enqueued. -/
def message {D C : Type*} : Activity D C → Option (Message D C)
  | .certified certificate => some (.certified certificate)
  | .tip height => some (.tip height)
  | .ack _ => none

end CertReporter

/-- `reporter.rs::CertReporter`. -/
structure CertReporter (D : Type*) where
  /-- Certified digest per height. -/
  certified : OrderedMap Nat D := .empty
  /-- Next height the engine needs a certificate for. -/
  tip : Nat := 0

namespace CertReporter

variable {D C : Type*} {reporter reporter' : CertReporter D} {verify : Certificate D C → Bool}
variable {c : Certificate D C} {forward : Option (Certificate D C)}

/-- `advance_tip`. -/
def advanceTip (reporter : CertReporter D) (tip : Nat) : CertReporter D :=
  if tip ≤ reporter.tip then reporter
  else { tip, certified := reporter.certified.splitOff (tip - pruneSlack) }

/-- `handle_certified`: the new state and the certificate that goes to the
consumer. `succ` adds 1 to a height as the build does. -/
def handleCertified (verify : Certificate D C → Bool) (reporter : CertReporter D)
    (c : Certificate D C) (succ : Nat → Option Nat := succHeight) :
    Option (CertReporter D × Option (Certificate D C)) :=
  if (reporter.certified.get? c.height).isSome then some (reporter, none)
  else if !verify c then some (reporter, none)
  else (succ c.height).map fun next =>
    ({ reporter with certified := reporter.certified.insert c.height c.digest }.advanceTip next,
      some c)

/-- Every height on record lies below the tip. -/
def BelowTip (reporter : CertReporter D) : Prop :=
  ∀ h digest, reporter.certified.get? h = some digest → h < reporter.tip

@[simp] theorem advanceTip_tip (tip : Nat) :
    (reporter.advanceTip tip).tip = max reporter.tip tip := by
  unfold advanceTip
  split
  · rename_i lower
    exact (max_eq_left lower).symm
  · rename_i higher
    exact (max_eq_right (not_le.mp higher).le).symm

/-- Pruning only forgets. -/
theorem advanceTip_get? {tip h : Nat} {digest : D}
    (found : (reporter.advanceTip tip).certified.get? h = some digest) :
    reporter.certified.get? h = some digest := by
  unfold advanceTip at found
  split at found
  · exact found
  · rw [OrderedMap.get?_splitOff] at found
    split at found
    · exact found
    · cases found

theorem belowTip_advanceTip (below : BelowTip reporter) (tip : Nat) :
    BelowTip (reporter.advanceTip tip) := by
  intro h digest found
  rw [advanceTip_tip]
  exact (below h digest (advanceTip_get? found)).trans_le (le_max_left _ _)

/-- A certificate is kept back, or it verified, its height was not on record,
and it is forwarded. -/
theorem handleCertified_cases
    (handled : reporter.handleCertified verify c = some (reporter', forward)) :
    (reporter' = reporter ∧ forward = none) ∨
      (reporter.certified.get? c.height = none ∧ verify c = true ∧ forward = some c ∧
        reporter' = { reporter with
          certified := reporter.certified.insert c.height c.digest }.advanceTip (c.height + 1)) := by
  unfold handleCertified at handled
  split at handled
  · cases handled
    exact .inl ⟨rfl, rfl⟩
  · rename_i fresh
    split at handled
    · cases handled
      exact .inl ⟨rfl, rfl⟩
    · rename_i valid
      obtain ⟨next, within, ⟨⟩⟩ := Option.map_eq_some_iff.mp handled
      rw [succHeight_eq within]
      exact .inr ⟨by simpa using fresh, by simpa using valid, rfl, rfl⟩

theorem belowTip_record (below : BelowTip reporter) (height : Nat) (digest : D) :
    BelowTip ({ reporter with certified := reporter.certified.insert height digest
      }.advanceTip (height + 1)) := by
  intro h found present
  rw [advanceTip_tip]
  have kept := advanceTip_get? present
  simp only [OrderedMap.get?_insert] at kept
  split at kept
  · rename_i here
    subst here
    exact lt_max_iff.mpr (.inr (Nat.lt_succ_self _))
  · exact lt_max_iff.mpr (.inl (below h found kept))

end CertReporter
end Restaking
