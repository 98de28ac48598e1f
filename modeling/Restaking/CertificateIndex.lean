import Restaking.CertReporter
import Restaking.Lib.FirstSeen
import Restaking.Lib.Run

/-! What the router's certificate sink forwards and answers over its whole life.
The table that dedupes is the one that is pruned and the one that is queried;
certificates come out of order, repeatedly, with conflicting digests and with
signatures that do not verify. As long as none comes from below the pruning
floor, the first verified certificate of each height is forwarded, and a query
finds it until the tip has moved past it. -/
namespace Restaking
open Lib

namespace CertReporter

variable {D C : Type*}

/-- What a query is answered. -/
inductive Answer (D : Type*) where
  | tip (height : Nat)
  | digest (height : Nat) (found : Option D)

/-- The actor with everything it has sent. -/
structure Served (D C : Type*) where
  reporter : CertReporter D := {}
  /-- What went to the consumer. -/
  forwarded : List (Certificate D C) := []
  answers : List (Answer D) := []

/-- One iteration of `run`. -/
def handle (verify : Certificate D C → Bool) (served : Served D C) :
    Message D C → Option (Served D C)
  | .certified c => (served.reporter.handleCertified verify c).map fun handled =>
    { served with reporter := handled.1, forwarded := served.forwarded ++ handled.2.toList }
  | .tip height => some { served with reporter := served.reporter.advanceTip height }
  | .getTip => some { served with answers := served.answers ++ [.tip served.reporter.tip] }
  | .get height => some { served with
      answers := served.answers ++ [.digest height (served.reporter.certified.get? height)] }

/-- The certificates among these messages. -/
def certificates (messages : List (Message D C)) : List (Certificate D C) :=
  messages.filterMap fun
    | .certified c => some c
    | .tip _ | .getTip | .get _ => none

/-- The tip a message is evidence for. -/
def tipOf (verify : Certificate D C → Bool) : Message D C → Nat
  | .certified c => if verify c then c.height + 1 else 0
  | .tip height => height
  | .getTip | .get _ => 0

/-- The maximum of the reported tips and the heights above verified ones. -/
def nextNeeded (verify : Certificate D C → Bool) (messages : List (Message D C)) : Nat :=
  messages.foldl (fun tip message => max tip (tipOf verify message)) 0

/-- No certificate is reported for a height below the pruning floor. -/
def InReach (verify : Certificate D C → Bool) (messages : List (Message D C)) : Prop :=
  ∀ before c after, messages = before ++ .certified c :: after →
    nextNeeded verify before - pruneSlack ≤ c.height

/-- The first verified certificate of each height. -/
def firstVerified (verify : Certificate D C → Bool) (messages : List (Message D C)) :
    List (Certificate D C) :=
  firstPer (·.height) ((certificates messages).filter verify)

/-- What every run without stray certificates keeps. -/
structure Indexed (verify : Certificate D C → Bool) (messages : List (Message D C))
    (served : Served D C) : Prop where
  tracks : Tracks (·.height) (·.digest) served.reporter.certified served.forwarded
    (served.reporter.tip - pruneSlack)
  tip : served.reporter.tip = nextNeeded verify messages
  forwarded : served.forwarded = firstVerified verify messages

section Steps

variable {verify : Certificate D C → Bool} {served : Served D C} {messages : List (Message D C)}
variable {message : Message D C} {reporter : CertReporter D} {kept : List (Certificate D C)}

theorem tracks_advanceTip (tracks : Tracks (·.height) (·.digest) reporter.certified kept
    (reporter.tip - pruneSlack)) (tip : Nat) :
    Tracks (·.height) (·.digest) (reporter.advanceTip tip).certified kept
      ((reporter.advanceTip tip).tip - pruneSlack) := by
  unfold advanceTip
  split
  · exact tracks
  · rename_i higher
    exact tracks.splitOff (Nat.sub_le_sub_right (not_le.mp higher).le _)

theorem nextNeeded_append : nextNeeded verify (messages ++ [message]) =
    max (nextNeeded verify messages) (tipOf verify message) := by
  simp [nextNeeded, List.foldl_append]

theorem firstVerified_append_other (other : ∀ c, message = .certified c → verify c = false) :
    firstVerified verify (messages ++ [message]) = firstVerified verify messages := by
  unfold firstVerified certificates
  rw [List.filterMap_append, List.filter_append]
  cases message with
  | certified c => simp [other c rfl]
  | tip height => simp
  | getTip => simp
  | get height => simp

theorem firstVerified_append_verified {c : Certificate D C} (valid : verify c = true) :
    firstVerified verify (messages ++ [.certified c]) =
      if c.height ∈ (firstVerified verify messages).map (·.height) then firstVerified verify messages
      else firstVerified verify messages ++ [c] := by
  have last : (certificates (messages ++ [.certified c])).filter verify =
      (certificates messages).filter verify ++ [c] := by
    simp [certificates, valid]
  rw [firstVerified, last, firstPer_append]
  rfl

/-- The tip is above every verified height. -/
theorem succ_le_nextNeeded {c : Certificate D C}
    (member : c ∈ (certificates messages).filter verify) :
    c.height + 1 ≤ nextNeeded verify messages := by
  induction messages using List.reverseRecOn with
  | nil => cases member
  | append_singleton messages message ih =>
    rw [nextNeeded_append]
    rw [certificates, List.filterMap_append, ← certificates, List.filter_append] at member
    rcases List.mem_append.mp member with earlier | last
    · exact (ih earlier).trans (le_max_left _ _)
    · cases message with
      | certified c' =>
        obtain ⟨same, valid⟩ := List.mem_filter.mp last
        obtain rfl : c = c' := by simpa using same
        exact (if_pos valid).symm.le.trans (le_max_right _ _)
      | tip => simp at last
      | getTip => simp at last
      | get => simp at last

/-- A certificate that does not verify leaves the actor as it was. -/
theorem handle_unverified {c : Certificate D C} (invalid : verify c = false) :
    handle verify served (.certified c) = some served := by
  have kept : served.reporter.handleCertified verify c = some (served.reporter, none) := by
    unfold handleCertified
    split
    · rfl
    · rw [if_pos (by simp [invalid])]
  rw [handle, kept]
  simp

/-- So does one for a height on record, whatever its digest. -/
theorem handle_recorded {c : Certificate D C}
    (recorded : (served.reporter.certified.get? c.height).isSome) :
    handle verify served (.certified c) = some served := by
  rw [handle, handleCertified, if_pos recorded]
  simp

theorem handle_fresh {c : Certificate D C} (fresh : served.reporter.certified.get? c.height = none)
    (valid : verify c = true) (within : c.height + 1 < 2 ^ 64) :
    handle verify served (.certified c) = some { served with
      reporter := { served.reporter with
        certified := served.reporter.certified.insert c.height c.digest }.advanceTip (c.height + 1)
      forwarded := served.forwarded ++ [c] } := by
  rw [handle, handleCertified, if_neg (by simp [fresh]), if_neg (by simp [valid]),
    succHeight_of_lt within]
  rfl

theorem Indexed.unverified {c : Certificate D C} (indexed : Indexed verify messages served)
    (invalid : verify c = false) : Indexed verify (messages ++ [.certified c]) served := by
  refine ⟨indexed.tracks, ?_, ?_⟩
  · rw [nextNeeded_append, tipOf, invalid, indexed.tip]
    exact (max_eq_left (Nat.zero_le _)).symm
  · rw [firstVerified_append_other fun c' same => by cases same; exact invalid]
    exact indexed.forwarded

theorem Indexed.repeated {c : Certificate D C} (indexed : Indexed verify messages served)
    (valid : verify c = true) (seen : c.height ∈ served.forwarded.map (·.height)) :
    Indexed verify (messages ++ [.certified c]) served := by
  rw [indexed.forwarded] at seen
  refine ⟨indexed.tracks, ?_, ?_⟩
  · obtain ⟨c', member, same⟩ := List.mem_map.mp (mem_map_firstPer.mp seen)
    have reached := succ_le_nextNeeded member
    rw [nextNeeded_append, tipOf, if_pos valid, indexed.tip, ← same]
    exact (max_eq_left reached).symm
  · rw [firstVerified_append_verified valid, if_pos seen]
    exact indexed.forwarded

theorem Indexed.next (indexed : Indexed verify messages served)
    (reach : ∀ c, message = .certified c → nextNeeded verify messages - pruneSlack ≤ c.height)
    (within : ∀ c, message = .certified c → c.height + 1 < 2 ^ 64) :
    ∃ served', handle verify served message = some served' ∧
      Indexed verify (messages ++ [message]) served' := by
  cases message with
  | tip height =>
    refine ⟨_, rfl, tracks_advanceTip indexed.tracks height, ?_, ?_⟩
    · rw [nextNeeded_append, ← indexed.tip]
      exact advanceTip_tip height
    · rw [firstVerified_append_other (by simp)]
      exact indexed.forwarded
  | getTip | get height =>
    refine ⟨_, rfl, indexed.tracks, ?_, ?_⟩
    · rw [nextNeeded_append, tipOf, Nat.max_zero]
      exact indexed.tip
    · rw [firstVerified_append_other (by simp)]
      exact indexed.forwarded
  | certified c =>
    cases valid : verify c with
    | false => exact ⟨served, handle_unverified valid, indexed.unverified valid⟩
    | true =>
      have above : served.reporter.tip - pruneSlack ≤ c.height := indexed.tip ▸ reach c rfl
      have known := indexed.tracks.isSome_iff above
      by_cases seen : c.height ∈ served.forwarded.map (·.height)
      · exact ⟨served, handle_recorded (known.mpr seen), indexed.repeated valid seen⟩
      · have fresh : served.reporter.certified.get? c.height = none := by
          simpa using mt known.mp seen
        refine ⟨_, handle_fresh fresh valid (within c rfl), ?_, ?_, ?_⟩
        · exact tracks_advanceTip (indexed.tracks.insert above seen) (c.height + 1)
        · rw [nextNeeded_append, tipOf, if_pos valid, ← indexed.tip]
          exact advanceTip_tip (c.height + 1)
        · rw [indexed.forwarded] at seen
          rw [firstVerified_append_verified valid, if_neg seen, ← indexed.forwarded]

theorem indexed_of_inReach (reach : InReach verify messages)
    (within : ∀ c, .certified c ∈ messages → c.height + 1 < 2 ^ 64) :
    ∃ served, exec (handle verify) {} messages = some served ∧ Indexed verify messages served := by
  induction messages using List.reverseRecOn with
  | nil => exact ⟨{}, rfl, Tracks.empty, rfl, rfl⟩
  | append_singleton messages message ih =>
    have earlier : InReach verify messages :=
      fun before c after split => reach before c (after ++ [message]) (by simp [split])
    obtain ⟨served, ran, indexed⟩ := ih earlier fun c member => within c (by simp [member])
    have reachNow : ∀ c, message = .certified c → nextNeeded verify messages - pruneSlack ≤ c.height := by
      rintro c rfl
      exact reach messages c [] rfl
    have withinNow : ∀ c, message = .certified c → c.height + 1 < 2 ^ 64 := by
      rintro c rfl
      exact within c (by simp)
    obtain ⟨served', handled, next⟩ := indexed.next reachNow withinNow
    exact ⟨served', by rw [exec_snoc, ran]; exact handled, next⟩

end Steps

/-- **The first verified certificate of each height, once.** With no certificate
from below the pruning floor and none at the last height, the actor never
stops; what it forwarded is the first verified certificate of each height, in
order; a certificate that does not verify changes nothing; and the next query is
answered with the highest evidence for a tip, or with the digest forwarded for
the height unless the tip has left the height behind. -/
theorem heights_forwarded_once (verify : Certificate D C → Bool) (messages : List (Message D C))
    (reach : InReach verify messages)
    (within : ∀ c, .certified c ∈ messages → c.height + 1 < 2 ^ 64) :
    ∃ served, exec (handle verify) {} messages = some served ∧
      served.forwarded = firstPer (·.height) ((certificates messages).filter verify) ∧
      (∀ c, verify c = false → handle verify served (.certified c) = some served) ∧
      handle verify served .getTip = some { served with
        answers := served.answers ++ [.tip (nextNeeded verify messages)] } ∧
      ∀ height, ∃ found, handle verify served (.get height) = some { served with
          answers := served.answers ++ [.digest height found] } ∧
        ∀ digest, found = some digest ↔
          (∃ c ∈ served.forwarded, c.height = height ∧ c.digest = digest) ∧
            nextNeeded verify messages - pruneSlack ≤ height := by
  obtain ⟨served, ran, indexed⟩ := indexed_of_inReach reach within
  refine ⟨served, ran, indexed.forwarded, fun c => handle_unverified, ?_, fun height => ?_⟩
  · rw [← indexed.tip]
    rfl
  · refine ⟨served.reporter.certified.get? height, rfl, fun digest => ?_⟩
    rw [indexed.tracks height digest, indexed.tip]
    exact and_comm

/-- Near the start nothing is pruned. -/
theorem InReach.of_low {verify : Certificate D C → Bool} {messages : List (Message D C)}
    (low : nextNeeded verify messages ≤ pruneSlack) : InReach verify messages := by
  rintro before c after rfl
  have grows : nextNeeded verify before ≤ nextNeeded verify (before ++ .certified c :: after) := by
    rw [nextNeeded, nextNeeded, List.foldl_append, ← nextNeeded]
    generalize nextNeeded verify before = tip
    induction (.certified c :: after : List (Message D C)) generalizing tip with
    | nil => exact le_rfl
    | cons message rest ih => exact (le_max_left _ _).trans (ih _)
  omega

/-- Three certificates for height 5: the first does not verify, the others do
and differ in their digest. -/
def conflicting : List (Message Nat Bool) :=
  [.certified ⟨5, 1, false⟩, .certified ⟨5, 2, true⟩, .certified ⟨5, 3, true⟩]

theorem first_verified_certificate_forwarded :
    ∃ served, exec (handle fun c : Certificate Nat Bool => c.certificate) {} conflicting =
        some served ∧ served.forwarded = [⟨5, 2, true⟩] := by
  have reach : InReach (fun c : Certificate Nat Bool => c.certificate) conflicting :=
    .of_low (by decide)
  have within : ∀ c, .certified c ∈ conflicting → c.height + 1 < 2 ^ 64 := by
    simp [conflicting]
  obtain ⟨served, ran, forwarded, -⟩ :=
    heights_forwarded_once (fun c => c.certificate) conflicting reach within
  exact ⟨served, ran, forwarded.trans (by decide +kernel)⟩

end CertReporter
end Restaking
