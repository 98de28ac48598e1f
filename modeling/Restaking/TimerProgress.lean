import Restaking.OnChain
import Restaking.Progress
import Restaking.Queries
import Restaking.SafeTip

/-! A height without a certificate does not hold up the sequencer in silence. On a
fair run on which the engine reports only so many certificates, the timer of a
drive comes to its turn: the drive is released, or its skip directive is
broadcast; and once the safe tip lies above the height, the drive is released. -/
namespace Restaking.Router
open Lib

variable {T D P G S : Type*} [LinearOrder P]
variable {cfg : Config D P G S} {s s' : Router T D P S} {label : Label T D P S}

/-! ## Steps of a drive -/

section Steps

variable [DecidableEq D] {call : Call T D} {drive : Drive}

/-- A drive keeps its deadline until it ends. -/
theorem drive_of_step (taken : step cfg s label = some s')
    (driving : s.sequencer.phase.drive? = some drive) :
    (∃ drive', s'.sequencer.phase.drive? = some drive' ∧ drive'.deadline = drive.deadline) ∨
      ∃ call outcome, s'.sequencer.phase = .releasing call drive.height outcome := by
  rcases step_sequenced taken with kept | sequenced
  · exact .inl ⟨drive, by rw [kept.sequencer]; exact driving, rfl⟩
  · cases sequenced with
    | latched here _ | announced here _ _ _ _ | abandoned here _ _ _ | idled here _ | polled here _ _ =>
      rw [here] at driving
      cases driving
      exact .inl ⟨_, rfl, rfl⟩
    | gaveUp here _ _ | resolved here _ _ | closed here _ _ =>
      rw [here] at driving
      cases driving
      exact .inr ⟨_, _, rfl⟩
    | passedOver _ origin =>
      rcases origin with ⟨here, -⟩ | ⟨call, here, -⟩ | ⟨call, drive, wake, here, -, rfl, -⟩
      · rw [here] at driving; cases driving
      · rw [here] at driving; cases driving
      · rw [here] at driving
        cases driving
        exact .inl ⟨_, rfl, rfl⟩
    | settled here | started here | drained here | asked here | chosen here | dropped here
    | inserted here | begun here | released here | exhausted here | taken here =>
      rw [here] at driving
      cases driving

/-- A poll ends with a step of the sequencer. -/
theorem polling_of_step (taken : step cfg s label = some s')
    (here : s.sequencer.phase = .polling call drive) (other : label ≠ .sequence) :
    s'.sequencer.phase = .polling call drive := by
  rcases step_sequenced taken with kept | sequenced
  · rw [kept.sequencer]
    exact here
  · cases sequenced with
    | passedOver _ origin =>
      rcases origin with ⟨there, -⟩ | ⟨call, there, -⟩ | ⟨call, drive, wake, there, -⟩ <;>
        cases here.symm.trans there
    | exhausted there | taken there | resolved there | closed there | idled there
    | polled there => cases here.symm.trans there
    | _ => exact absurd rfl other

/-- Tip reports only raise the safe tip. -/
theorem step_safeTip (taken : step cfg s label = some s') : s.safeTip ≤ s'.safeTip := by
  rcases step_cases taken with environment | reported | submitted | sequenced
  · cases environment with
    | message peer payload => exact TipReports.safeTip_le_ingest _ _ _ _
    | _ => exact le_rfl
  · cases reported <;> exact le_rfl
  · cases submitted <;> exact le_rfl
  · cases sequenced <;> exact le_rfl

/-- Where no resolution arrives, a wait in `select!` lasts until the timer fires. -/
theorem selecting_of_step {wake : Nat} (taken : step cfg s label = some s')
    (here : s.sequencer.phase = .selecting call drive wake) (up : s.submitter.up = true)
    (uncertified : drive.certified = false)
    (consumed : s'.sequencer.consumed.length = s.sequencer.consumed.length) :
    s'.sequencer.phase = .selecting call drive wake ∨ s'.sequencer.phase = .polling call drive := by
  rcases step_sequenced taken with kept | sequenced
  · exact .inl (by rw [kept.sequencer]; exact here)
  · cases sequenced with
    | polled there =>
      cases here.symm.trans there
      exact .inr rfl
    | idled there certified =>
      cases here.symm.trans there
      rw [uncertified] at certified
      cases certified
    | closed _ _ down =>
      rw [up] at down
      cases down
    | passedOver | resolved => simp at consumed
    | settled there | started there | drained there | asked there | chosen there | dropped there
    | inserted there | begun there | released there | exhausted there | taken there | latched there
    | gaveUp there | announced there | abandoned there => cases here.symm.trans there

omit [DecidableEq D] in
theorem tick_polls {wake : Nat} (taken : s.tick cfg = some s')
    (here : s.sequencer.phase = .selecting call drive wake) (uncertified : drive.certified = false) :
    s'.sequencer.phase = .polling call drive := by
  simp only [tick, here, uncertified, Bool.false_eq_true, if_false] at taken
  obtain ⟨-, ⟨⟩⟩ := Option.ite_none_left_eq_some.mp taken
  rfl

omit [DecidableEq D] in
/-- What an unanswered poll comes to. -/
theorem poll_cases (taken : s.sequence cfg = some s')
    (here : s.sequencer.phase = .polling call drive) (silent : s.getAnswer = some none) :
    s'.sequencer.phase = .releasing call drive.height .superseded ∨
      s.safeTip ≤ drive.height ∧
        (drive.deadline ≤ s.now → (s.now, .skip drive.height) ∈ s'.sequencer.sent) := by
  simp only [sequence, here, silent, Option.map_some, Option.some.injEq] at taken
  subst taken
  unfold rebroadcast
  rw [if_neg (by simp)]
  split
  · exact .inl rfl
  · rename_i low
    refine .inr ⟨not_lt.mp low, fun late => ?_⟩
    simp [broadcast, late]

end Steps

/-! ## Fair runs with a timer -/

variable [DecidableEq D] {b : Behaviour (step (T := T) cfg)}

/-- A fair run whose timer is not passed over for ever and on which the engine reports
only so many certificates, so that `select!` is not always woken by resolutions
before its timer ends. -/
structure Timely (b : Behaviour (step (T := T) cfg)) : Prop extends Fair b where
  timer : b.WeaklyFair (· = .tick)
  finite : ∃ bound, ∀ n, (b.state n).reporter.reported.length ≤ bound

/-- The height is in drive from some time on. -/
def Stuck (b : Behaviour (step (T := T) cfg)) (h n : Nat) : Prop :=
  ∀ m ≥ n, (b.state m).sequencer.phase.driven = some h

namespace Timely

variable {h n m : Nat}

/-- From some time on no resolution arrives. -/
theorem settles (timely : Timely b) : ∃ last, ∀ m ≥ last,
    (b.state m).sequencer.consumed.length = (b.state last).sequencer.consumed.length := by
  obtain ⟨bound, finite⟩ := timely.finite
  have within (n : Nat) : (b.state n).sequencer.consumed.length ≤ bound := by
    have life := timely.life n
    have reported := (InLife.polled life).bounded
    have forwarded := congrArg List.length (InLife.deliveries life).conserved
    have notified := congrArg List.length (InLife.ledger life).1.channel
    have bounded := finite n
    simp only [List.length_append, List.length_map] at forwarded notified
    omega
  exact LeadsTo.settles (fun n m later => (run_grows later).2.2.length_le) within

theorem not_handed_on (timely : Timely b) (stuck : Stuck b h n) (later : n ≤ m) :
    ¬ HandedOn (b.state m) h := by
  rintro ⟨c, forwarded, height⟩
  obtain ⟨j, latest, free⟩ := timely.released forwarded height
  exact free (stuck j (later.trans latest))

theorem not_releasing (timely : Timely b) (stuck : Stuck b h n) (later : n ≤ m) (call : Call T D)
    (outcome : HeightOutcome) : (b.state m).sequencer.phase ≠ .releasing call h outcome := by
  intro here
  obtain ⟨j, latest, free⟩ := timely.releases h m ⟨call, outcome, here⟩
  exact free (stuck j (later.trans latest))

/-- The timer fires. -/
theorem ticks (timely : Timely b) {call : Call T D} {drive : Drive} (wake : Nat) {last : Nat}
    (settled : ∀ m ≥ last, (b.state m).sequencer.consumed.length =
      (b.state last).sequencer.consumed.length)
    (uncertified : drive.certified = false) :
    LeadsTo (fun n => last ≤ n ∧ (b.state n).sequencer.phase = .selecting call drive wake)
      fun n => (b.state n).sequencer.phase = .polling call drive := by
  refine timely.timer.leadsTo ?_ ?_ ?_
  · rintro n ⟨late, here⟩
    refine (selecting_of_step (b.next n) here (timely.up n).2 uncertified ?_).imp_left fun same =>
      ⟨late.trans (Nat.le_succ n), same⟩
    rw [settled n late, settled (n + 1) (late.trans (Nat.le_succ n))]
  · rintro n ⟨-, here⟩ turn
    have taken := b.next n
    rw [turn] at taken
    exact tick_polls taken here uncertified
  · intro n always
    obtain ⟨late, passed⟩ := timely.clock wake
    refine ⟨max n late, le_max_left _ _, fun m later => ⟨.tick, rfl, ?_⟩⟩
    have here := (always m (by omega)).2
    have awake : wake ≤ (b.state m).now := passed.trans (run_now (by omega))
    simp [step, stepWith, tick, here, uncertified, not_lt.mpr awake]

/-- A poll comes to an end. -/
theorem poll_ends (timely : Timely b) {call : Call T D} {drive : Drive}
    (here : (b.state n).sequencer.phase = .polling call drive) :
    ∃ m ≥ n, (b.state m).sequencer.phase = .polling call drive ∧ b.label m = .sequence := by
  by_contra never
  have lasting (m : Nat) (later : n ≤ m) : (b.state m).sequencer.phase = .polling call drive := by
    induction m, later using Nat.le_induction with
    | base => exact here
    | succ m later ih =>
      exact polling_of_step (b.next m) ih fun turn => never ⟨m, later, ih, turn⟩
  have driven : (b.state n).sequencer.phase.driven = some drive.height := by rw [here]; rfl
  obtain ⟨m, later, attentive⟩ := timely.attends drive.height n driven
  simp [Attentive, lasting m later, Phase.driven] at attentive

/-- A drive that does not end polls the reporter again and again, in vain. -/
theorem turns (timely : Timely b) (stuck : Stuck b h n) (later : n ≤ m) :
    ∃ k ≥ m, ∃ call drive, (b.state k).sequencer.phase = .polling call drive ∧ drive.height = h ∧
      (b.state k).getAnswer = some none ∧ b.label k = .sequence := by
  obtain ⟨last, settled⟩ := timely.settles
  obtain ⟨j, reached, attentive⟩ := timely.attends h (max m last) (stuck _ (by omega))
  have driven := stuck j (by omega)
  obtain ⟨call, drive, wake, here⟩ | ⟨call, outcome, here⟩ | free := attentive
  · have own : drive.height = h := by
      rw [here] at driven
      exact Option.some.inj driven
    have uncertified : drive.certified = false := by
      by_contra certified
      refine timely.not_handed_on stuck (show n ≤ j by omega) (own ▸ ?_)
      exact (InLife.polled (timely.life j)).latched (timely.up j).1 (timely.up j).2 drive
        (by rw [here]; rfl) (by simpa using certified)
    obtain ⟨p, after, polling⟩ := timely.ticks wake settled uncertified j ⟨by omega, here⟩
    obtain ⟨k, ends, asks, turn⟩ := timely.poll_ends polling
    refine ⟨k, by omega, call, drive, asks, own, ?_, turn⟩
    have taken := b.next k
    rw [turn] at taken
    simp only [step, stepWith, sequence, asks] at taken
    obtain ⟨answer, found, -⟩ := Option.map_eq_some_iff.mp taken
    cases answer with
    | none => exact found
    | some digest =>
      refine absurd ?_ (timely.not_handed_on stuck (show n ≤ k by omega))
      exact (InLife.polled (timely.life k)).answered (timely.up k).1 (timely.up k).2 digest h found
        ((asked_eq asks).trans (congrArg some own))
  · exact absurd here (timely.not_releasing stuck (by omega) call outcome)
  · exact absurd driven free

/-- Its deadline stays what it is. -/
theorem deadline (timely : Timely b) (stuck : Stuck b h n) (later : n ≤ m) {drive : Drive}
    (driving : (b.state m).sequencer.phase.drive? = some drive) {k : Nat} (after : m ≤ k) :
    ∃ drive', (b.state k).sequencer.phase.drive? = some drive' ∧
      drive'.deadline = drive.deadline := by
  induction k, after using Nat.le_induction with
  | base => exact ⟨drive, driving, rfl⟩
  | succ k after ih =>
    obtain ⟨drive', driving', same⟩ := ih
    rcases drive_of_step (b.next k) driving' with ⟨drive'', driving'', same'⟩ | ⟨call, outcome, ended⟩
    · exact ⟨drive'', driving'', same'.trans same⟩
    · have own : drive'.height = h := by
        have driven := stuck k (by omega)
        cases here : (b.state k).sequencer.phase with
        | selecting | polling =>
          rw [here] at driven driving'
          cases driving'
          exact Option.some.inj driven
        | _ =>
          rw [here] at driving'
          cases driving'
      rw [own] at ended
      exact absurd ended (timely.not_releasing stuck (by omega) call outcome)

end Timely

theorem run_safeTip {n m : Nat} (later : n ≤ m) : (b.state n).safeTip ≤ (b.state m).safeTip := by
  induction m, later using Nat.le_induction with
  | base => exact le_rfl
  | succ m later ih => exact ih.trans (step_safeTip (b.next m))

/-- **No drive hangs in silence.** On a fair run with finitely many certificates every
drive ends, unless the safe tip never rises above its height and its skip directive
is broadcast again and again. -/
theorem drive_ends_or_skips (timely : Timely b) (h n : Nat) :
    (∃ m ≥ n, (b.state m).sequencer.phase.driven ≠ some h) ∨
      (∀ m ≥ n, (b.state m).safeTip ≤ h) ∧
        ∀ t, ∃ m ≥ n, ∃ t' ≥ t, (t', .skip h) ∈ (b.state m).sequencer.sent := by
  by_cases free : ∃ m ≥ n, (b.state m).sequencer.phase.driven ≠ some h
  · exact .inl free
  have stuck : Stuck b h n := fun m later => not_not.mp fun ends => free ⟨m, later, ends⟩
  have turn (m : Nat) (later : n ≤ m) : ∃ k ≥ m, ∃ drive, drive.height = h ∧
      (b.state k).sequencer.phase.drive? = some drive ∧ (b.state k).safeTip ≤ h ∧
      (drive.deadline ≤ (b.state k).now →
        ((b.state k).now, .skip h) ∈ (b.state (k + 1)).sequencer.sent) := by
    obtain ⟨k, after, call, drive, here, rfl, silent, turn⟩ := timely.turns stuck later
    have taken := b.next k
    rw [turn] at taken
    rcases poll_cases taken here silent with ended | ⟨low, skips⟩
    · exact absurd ended (timely.not_releasing stuck (by omega) call _)
    · exact ⟨k, after, drive, rfl, by rw [here]; rfl, low, skips⟩
  refine .inr ⟨fun m later => ?_, fun t => ?_⟩
  · obtain ⟨k, after, -, -, -, low, -⟩ := turn m later
    exact (run_safeTip after).trans low
  · obtain ⟨k, after, drive, -, driving, -⟩ := turn n le_rfl
    obtain ⟨late, passed⟩ := timely.clock (max t drive.deadline)
    obtain ⟨j, last, drive', -, driving', -, skips⟩ := turn (max k late) (by omega)
    obtain ⟨drive'', driving'', same⟩ := timely.deadline stuck after driving (show k ≤ j by omega)
    cases driving'.symm.trans driving''
    have now : (b.state late).now ≤ (b.state j).now := run_now (by omega)
    exact ⟨j + 1, by omega, (b.state j).now, by omega, skips (by omega)⟩

/-! ## Enough tip reports -/

/-- A participant's report stays in the table. -/
theorem reached_of_step {peer : P} {height : Nat} (taken : step cfg s label = some s')
    (reached : s.tipReports.Reached peer height) : s'.tipReports.Reached peer height := by
  rcases step_cases taken with environment | reported | submitted | sequenced
  · cases environment with
    | message sender payload => exact TipReports.reached_ingest.mpr (.inl reached)
    | _ => exact reached
  · cases reported <;> exact reached
  · cases submitted <;> exact reached
  · cases sequenced <;> exact reached

theorem run_reached {peer : P} {height n m : Nat} (later : n ≤ m)
    (reached : (b.state n).tipReports.Reached peer height) :
    (b.state m).tipReports.Reached peer height := by
  induction m, later using Nat.le_induction with
  | base => exact reached
  | succ m later ih => exact reached_of_step (b.next m) ih

theorem InLife.maxFaults (life : InLife cfg s) :
    s.tipReports.maxFaults = Lib.maxFaults cfg.scheme.participants.length := by
  let inv (s : Router T D P S) : Prop :=
    s.tipReports.maxFaults = Lib.maxFaults cfg.scheme.participants.length
  suffices kept : inv s from kept
  refine Reachable.preserves life ?_ fun s label s' _ same taken => ?_
  · rintro start rfl
    rfl
  · rcases step_cases taken with environment | reported | submitted | sequenced
    · cases environment with
      | message sender payload => exact TipReports.ingest_maxFaults.trans same
      | _ => exact same
    · cases reported <;> exact same
    · cases submitted <;> exact same
    · cases sequenced <;> exact same

/-- A height that more peers than may be faulty have reached is safe. -/
theorem le_safeTip_of_reached {tips : TipReports P} {peers : Finset P} {height : Nat}
    (positive : 0 < height) (many : tips.maxFaults < peers.card)
    (reached : ∀ peer ∈ peers, tips.Reached peer height) : height ≤ tips.safeTip := by
  rw [TipReports.safeTip, le_kthHighest_iff positive, OrderedMap.countP_values]
  have within : peers ⊆ (tips.reports.keysWhere (height ≤ ·)).toFinset := by
    intro peer member
    rw [List.mem_toFinset, OrderedMap.mem_keysWhere_iff]
    obtain ⟨tip, found, enough⟩ := reached peer member
    exact ⟨tip, found, by simpa using enough⟩
  have card := Finset.card_le_card within
  rw [List.toFinset_card_of_nodup (OrderedMap.nodup_keysWhere _)] at card
  omega

/-- **A dead height is given up.** On a fair run with finitely many certificates, a
height that more participants than may be faulty report a tip above is released,
whatever has become of its certificate. -/
theorem reported_height_released (timely : Timely b) {h : Nat} (n : Nat) (peers : Finset P)
    (members : ∀ peer ∈ peers, peer ∈ cfg.scheme.participants)
    (many : Lib.maxFaults cfg.scheme.participants.length < peers.card)
    (reports : ∀ peer ∈ peers, ∃ m tip, h < tip ∧ b.label m = .message peer (some (.tipReport tip))) :
    ∃ m ≥ n, (b.state m).sequencer.phase.driven ≠ some h := by
  rcases drive_ends_or_skips timely h n with released | ⟨low, -⟩
  · exact released
  have received : ∀ peer ∈ peers, ∃ m, ∀ k ≥ m, (b.state k).tipReports.Reached peer (h + 1) := by
    intro peer member
    obtain ⟨m, tip, above, sent⟩ := reports peer member
    refine ⟨m + 1, fun k later => run_reached later ?_⟩
    have taken := b.next m
    rw [sent] at taken
    rw [← Option.some.inj taken]
    exact TipReports.reached_ingest.mpr (.inr ⟨rfl, members peer member, tip, above, rfl⟩)
  choose! time after using received
  let last := max n (peers.sup time)
  have enough : h + 1 ≤ (b.state last).safeTip := by
    refine le_safeTip_of_reached (Nat.succ_pos h) ?_ fun peer member => after peer member last ?_
    · rw [InLife.maxFaults (timely.life last)]
      exact many
    · exact (Finset.le_sup member).trans (le_max_right _ _)
  exact absurd (low last (le_max_left _ _)) (by omega)

section Examples

variable {labels : List SoloLabel}

theorem Settling.timely (settling : Settling labels) : Timely (soloBehaviour settling) where
  toFair := settling.fair
  timer := Behaviour.weaklyFair_of_idle fun n later => (settling.not_enabled n later).2.2.2.2
  finite := ⟨1, fun n => by
    have alive := settling.sound_always n
    simp only [Router.sound, Bool.and_eq_true, decide_eq_true_eq] at alive
    exact alive.2⟩

theorem solo_drive_ends_or_skips :
    let b := soloBehaviour soloTask_settling
    (b.state 11).sequencer.phase.driven = some 0 ∧
      ((∃ m ≥ 11, (b.state m).sequencer.phase.driven ≠ some 0) ∨
        (∀ m ≥ 11, (b.state m).safeTip ≤ 0) ∧
          ∀ t, ∃ m ≥ 11, ∃ t' ≥ t, (t', .skip 0) ∈ (b.state m).sequencer.sent) :=
  ⟨by decide +kernel, drive_ends_or_skips soloTask_settling.timely 0 11⟩

/-- The only participant reports a tip above height 0, and the task moves to height 1. -/
def soloWedged : List SoloLabel := soloStart ++ soloAssign 10 1 ++
  [.message 0 (some (.tipReport 1)), .elapse 1, .tick, .report, .sequence] ++ soloReassign ++
  soloExecute 1 1 ++ soloRelease

theorem soloWedged_settling : Settling soloWedged :=
  ⟨by decide +kernel, by decide +kernel, by decide +kernel⟩

theorem solo_dead_height_released :
    let b := soloBehaviour soloWedged_settling
    (b.state 11).sequencer.phase.driven = some 0 ∧
      ∃ m ≥ 11, (b.state m).sequencer.phase.driven ≠ some 0 :=
  ⟨by decide +kernel, reported_height_released soloWedged_settling.timely 11 {0}
    (by decide) (by decide) fun peer member => ⟨11, 1, by decide, by
      rw [Finset.mem_singleton.mp member]
      rfl⟩⟩

end Examples
end Restaking.Router
