import Restaking.RouterSteps

/-! The router as it is shipped. A build without overflow checks adds 1 to `u64::MAX`
and gets 0. Where no addition overflows it takes the steps of the build with overflow
checks. Where one does, a certificate or a resolution of the last height leaves the
tip or the counter alone, and the assignment of the last height makes the counter fall
back, so the next task is assigned to the same height again. As long as no height that
is assigned is the last one, heights are assigned once and in increasing order. -/
namespace Restaking
open Lib

theorem wrapHeight_of_lt {height : Nat} (within : height + 1 < 2 ^ 64) :
    wrapHeight height = succHeight height := by
  rw [wrapHeight, succHeight, if_pos within, if_pos within]

theorem wrapHeight_of_le {height : Nat} (last : 2 ^ 64 ≤ height + 1) :
    wrapHeight height = some 0 := by
  rw [wrapHeight, if_neg (not_lt.mpr last)]

namespace Router

variable {T D P G S : Type*} [LinearOrder P]
variable {cfg : Config D P G S} {s s' : Router T D P S} {label : Label T D P S}

/-! ## Where no addition overflows -/

/-- The height that a step adds 1 to. -/
def added (cfg : Config D P G S) (s : Router T D P S) : Label T D P S → Option Nat
  | .report => match s.reporter.inbox with
    | .certified c :: _ =>
      if (s.reporter.log.certified.get? c.height).isSome || !cfg.verify c then none
      else some c.height
    | _ => none
  | .sequence => match s.sequencer.phase with
    | .draining => s.resolutions.head?.map (·.resolution.height)
    | .redraining _ => s.resolutions.head?.map (·.resolution.height)
    | .awaitingTip _ =>
      s.tipAnswer.map fun answer => max (max s.sequencer.nextHeight answer.tip) s.safeTip
    | _ => none
  | .resolution => match s.sequencer.phase with
    | .selecting _ drive _ =>
      (s.resolutions.head?.map (·.resolution.height)).filter (· ≠ drive.height)
    | _ => none
  | _ => none

/-- The step adds 1 to no last height. -/
def Bounded (cfg : Config D P G S) (s : Router T D P S) (label : Label T D P S) : Prop :=
  ∀ h ∈ added cfg s label, h + 1 < 2 ^ 64

instance : Decidable (Bounded cfg s label) := by
  unfold Bounded
  infer_instance

theorem bounded_elapse (duration : Nat) : Bounded cfg s (.elapse duration) :=
  fun _ adds => nomatch adds

variable {succ succ' : Nat → Option Nat}

private theorem report_congr (same : ∀ h ∈ added cfg s .report, succ h = succ' h) :
    s.report cfg succ = s.report cfg succ' := by
  unfold report
  split
  · rfl
  · split
    case h_2 c inbox waiting =>
      have handled : s.reporter.log.handleCertified cfg.verify c succ =
          s.reporter.log.handleCertified cfg.verify c succ' := by
        unfold CertReporter.handleCertified
        split
        · rfl
        · split
          · rfl
          · rw [same c.height (by simp_all [added])]
      rw [handled]
    all_goals rfl

private theorem sequence_congr (same : ∀ h ∈ added cfg s .sequence, succ h = succ' h) :
    s.sequence cfg succ = s.sequence cfg succ' := by
  unfold sequence
  split
  case h_3 draining =>
    split
    · rename_i notice rest waiting
      rw [passOver, passOver, same notice.resolution.height (by simp [added, draining, waiting])]
    · rfl
  case h_4 call redraining =>
    split
    · rename_i notice rest waiting
      rw [passOver, passOver, same notice.resolution.height (by simp [added, redraining, waiting])]
    · rfl
  case h_5 call awaiting =>
    cases answered : s.tipAnswer with
    | none => rfl
    | some answer =>
      rw [Option.bind_some, Option.bind_some, same _ (by simp [added, awaiting, answered])]
  all_goals rfl

private theorem resolution_congr (same : ∀ h ∈ added cfg s .resolution, succ h = succ' h) :
    s.resolution cfg succ = s.resolution cfg succ' := by
  unfold resolution
  split
  · rename_i call drive wake selecting
    split
    · rename_i notice rest waiting
      split
      · rfl
      · rename_i other
        rw [passOver, passOver,
          same notice.resolution.height (by simp [added, selecting, waiting, other])]
    · rfl
  · rfl

/-- A step depends on the addition at that height only. -/
theorem stepWith_congr [DecidableEq D] (same : ∀ h ∈ added cfg s label, succ h = succ' h) :
    stepWith succ cfg s label = stepWith succ' cfg s label := by
  cases label with
  | report => exact report_congr same
  | sequence => exact sequence_congr same
  | resolution => exact resolution_congr same
  | _ => rfl

/-- How a step goes on after the addition, by the height and the sum. -/
inductive Continued (s : Router T D P S) (h next : Nat) :
    Label T D P S → Router T D P S → Prop where
  /-- A certificate of the height is put on file. -/
  | recorded {certified reporter} : Continued s h next .report { s with certified, reporter }
  /-- A resolution of the height is passed over. -/
  | passedOver {label notice rest phase} :
      (s.sequencer.phase = .draining ∧ phase = .draining ∨
        (∃ call, s.sequencer.phase = .redraining call ∧ phase = .redraining call) ∨
        ∃ call drive wake wake', s.sequencer.phase = .selecting call drive wake ∧
          phase = .selecting call drive wake') →
      Continued s h next label { s with
        resolutions := rest
        sequencer := { s.sequencer with
          phase
          nextHeight := max s.sequencer.nextHeight next
          consumed := s.sequencer.consumed ++ [notice] } }
  /-- The height is chosen for a task. -/
  | chosen {call answer} : s.sequencer.phase = .awaitingTip call → s.tipAnswer = some answer →
      h = max (max s.sequencer.nextHeight answer.tip) s.safeTip →
      Continued s h next .sequence { s with
        tipAnswer := none
        sequencer := { s.sequencer with
          phase := .inserting call h
          nextHeight := next
          known := s.sequencer.known ++ answer.certified } }

private theorem report_added {h : Nat} (adds : h ∈ added cfg s .report)
    (taken : s.report cfg succ = some s') :
    ∃ next, succ h = some next ∧ Continued s h next .report s' := by
  simp only [added] at adds
  split at adds
  · rename_i c inbox waiting
    obtain ⟨fresh, ⟨⟩⟩ := Option.ite_none_left_eq_some.mp adds
    rw [Bool.or_eq_true, not_or] at fresh
    simp only [report, waiting] at taken
    split at taken
    · cases taken
    · obtain ⟨handled, recorded, ⟨⟩⟩ := Option.map_eq_some_iff.mp taken
      rw [CertReporter.handleCertified, if_neg fresh.1, if_neg fresh.2] at recorded
      obtain ⟨next, sum, -⟩ := Option.map_eq_some_iff.mp recorded
      refine ⟨next, sum, ?_⟩
      split
      · exact .recorded
      · exact .recorded
  · cases adds

private theorem sequence_added {h : Nat} (adds : h ∈ added cfg s .sequence)
    (taken : s.sequence cfg succ = some s') :
    ∃ next, succ h = some next ∧ Continued s h next .sequence s' := by
  simp only [added] at adds
  split at adds
  case h_1 draining =>
    obtain ⟨notice, first, rfl⟩ := Option.map_eq_some_iff.mp adds
    obtain ⟨rest, waiting⟩ := List.head?_eq_some_iff.mp first
    simp only [sequence, draining, waiting] at taken
    obtain ⟨next, sum, ⟨⟩⟩ := Option.map_eq_some_iff.mp taken
    exact ⟨next, sum, .passedOver (.inl ⟨draining, rfl⟩)⟩
  case h_2 call redraining =>
    obtain ⟨notice, first, rfl⟩ := Option.map_eq_some_iff.mp adds
    obtain ⟨rest, waiting⟩ := List.head?_eq_some_iff.mp first
    simp only [sequence, redraining, waiting] at taken
    obtain ⟨next, sum, ⟨⟩⟩ := Option.map_eq_some_iff.mp taken
    exact ⟨next, sum, .passedOver (.inr (.inl ⟨call, redraining, rfl⟩))⟩
  case h_3 call awaiting =>
    obtain ⟨answer, answered, rfl⟩ := Option.map_eq_some_iff.mp adds
    simp only [sequence, awaiting, answered, Option.bind_some] at taken
    obtain ⟨next, sum, ⟨⟩⟩ := Option.map_eq_some_iff.mp taken
    exact ⟨next, sum, .chosen awaiting answered rfl⟩
  case h_4 => cases adds

private theorem resolution_added {h : Nat} (adds : h ∈ added cfg s .resolution)
    (taken : s.resolution cfg succ = some s') :
    ∃ next, succ h = some next ∧ Continued s h next .resolution s' := by
  simp only [added] at adds
  split at adds
  · rename_i call drive wake selecting
    obtain ⟨adds, other⟩ := Option.filter_eq_some_iff.mp adds
    obtain ⟨notice, first, rfl⟩ := Option.map_eq_some_iff.mp adds
    obtain ⟨rest, waiting⟩ := List.head?_eq_some_iff.mp first
    simp only [resolution, selecting, waiting, if_neg (of_decide_eq_true other)] at taken
    obtain ⟨next, sum, ⟨⟩⟩ := Option.map_eq_some_iff.mp taken
    exact ⟨next, sum, .passedOver (.inr (.inr ⟨call, drive, wake, _, selecting, rfl⟩))⟩
  · cases adds

/-- A step that is taken makes its addition and goes on with the sum. -/
theorem stepWith_added [DecidableEq D] {h : Nat} (adds : h ∈ added cfg s label)
    (taken : stepWith succ cfg s label = some s') :
    ∃ next, succ h = some next ∧ Continued s h next label s' := by
  cases label with
  | report => exact report_added adds taken
  | sequence => exact sequence_added adds taken
  | resolution => exact resolution_added adds taken
  | _ => cases adds

/-- The overflow checks stop exactly the steps that add 1 to a last height. -/
theorem step_iff_bounded [DecidableEq D] : step cfg s label = some s' ↔
    stepWith wrapHeight cfg s label = some s' ∧ Bounded cfg s label := by
  have same (bounded : Bounded cfg s label) :
      stepWith wrapHeight cfg s label = step cfg s label :=
    stepWith_congr fun h adds => wrapHeight_of_lt (bounded h adds)
  constructor
  · intro checked
    have bounded : Bounded cfg s label := by
      intro h adds
      obtain ⟨next, within, -⟩ := stepWith_added adds checked
      exact (Option.ite_none_right_eq_some.mp within).1
    exact ⟨same bounded ▸ checked, bounded⟩
  · rintro ⟨taken, bounded⟩
    exact same bounded ▸ taken

/-- So the runs that pass the overflow checks are the runs of the release build that
add 1 to no last height. -/
theorem run_iff_bounded [DecidableEq D] {labels : List (Label T D P S)} :
    Run (step cfg) s labels s' ↔
      RunWhere (stepWith wrapHeight cfg) (Bounded cfg) s labels s' where
  mp run := run.transfer fun _ _ _ _ taken => (step_iff_bounded.mp taken).symm
  mpr run := run.transfer fun _ _ _ bounded taken =>
    ⟨trivial, step_iff_bounded.mpr ⟨taken, bounded⟩⟩

/-- A state of a life of the release build that added 1 to no last height. -/
abbrev InBoundedLife [DecidableEq D] (cfg : Config D P G S) (s : Router T D P S) : Prop :=
  ReachableWhere (· = .init cfg) (stepWith wrapHeight cfg) (Bounded cfg) s

theorem inBoundedLife_iff [DecidableEq D] : InBoundedLife cfg s ↔ InLife cfg s := by
  constructor
  · rintro ⟨start, labels, begins, run⟩
    exact ⟨start, labels, begins, run_iff_bounded.mpr run⟩
  · rintro ⟨start, labels, begins, run⟩
    exact ⟨start, labels, begins, run_iff_bounded.mp run⟩

/-- Where an addition overflows, the release build goes on with 0. -/
theorem stepWith_wrap [DecidableEq D] (taken : stepWith wrapHeight cfg s label = some s') :
    step cfg s label = some s' ∨ ∃ h, 2 ^ 64 ≤ h + 1 ∧ Continued s h 0 label s' := by
  by_cases bounded : Bounded cfg s label
  · exact .inl (step_iff_bounded.mpr ⟨taken, bounded⟩)
  · obtain ⟨h, adds, last⟩ : ∃ h ∈ added cfg s label, 2 ^ 64 ≤ h + 1 := by
      simpa [Bounded] using bounded
    obtain ⟨next, sum, continued⟩ := stepWith_added adds taken
    rw [wrapHeight_of_le last] at sum
    cases sum
    exact .inr ⟨h, last, continued⟩

theorem Continued.sent {h next : Nat} (continued : Continued s h next label s') :
    s'.sequencer.sent = s.sequencer.sent := by
  cases continued <;> rfl

/-! ## Heights as long as the last one is not assigned -/

/-- What holds of the sequencer as long as its counter never falls back. -/
structure Serial (q : SequencerActor T D S) : Prop where
  increasing : (q.assigned.map Prod.fst).Pairwise (· < ·)
  below : ∀ entry ∈ q.assigned, entry.1 < q.nextHeight
  early : (∃ wake, q.phase = .settling wake) ∨ q.phase = .startingTip → q.assigned = []
  chosen : ∀ call h, q.phase = .inserting call h →
    h < q.nextHeight ∧ ∀ entry ∈ q.assigned, entry.1 < h
  driven : ∀ call h, q.phase.driven = some h → q.phase.held = some call → (h, call) ∈ q.assigned
  /-- An announcement carries the task assigned to its height. -/
  issued : ∀ entry ∈ q.sent, ∀ h task, entry.2 = .announce h task →
    ∃ call, (h, call) ∈ q.assigned ∧ call.sequenced.announce = task

variable {q q' : SequencerActor T D S}

theorem Serial.init : Serial ({} : SequencerActor T D S) where
  increasing := .nil
  below := fun _ member => nomatch member
  early := fun _ => rfl
  chosen := fun _ _ phase => nomatch phase
  driven := fun _ _ driven => nomatch driven
  issued := fun _ member => nomatch member

/-- Between an assignment and the next the counter may only grow. -/
theorem Serial.still (serial : Serial q) (assigned : q'.assigned = q.assigned)
    (sent : q'.sent = q.sent) (grows : q.nextHeight ≤ q'.nextHeight)
    (late : (∀ wake, q'.phase ≠ .settling wake) ∧ q'.phase ≠ .startingTip)
    (unchosen : ∀ call h, q'.phase ≠ .inserting call h)
    (driven : q'.phase.driven = none ∨
      q'.phase.driven = q.phase.driven ∧ q'.phase.held = q.phase.held) : Serial q' where
  increasing := assigned ▸ serial.increasing
  below := by
    intro entry member
    exact (serial.below entry (assigned ▸ member)).trans_le grows
  early := by
    rintro (⟨wake, here⟩ | here)
    · exact absurd here (late.1 wake)
    · exact absurd here late.2
  chosen := fun call h here => absurd here (unchosen call h)
  driven := by
    intro call h drives holds
    rw [assigned]
    rcases driven with free | ⟨same, held⟩
    · rw [free] at drives
      cases drives
    · exact serial.driven call h (same ▸ drives) (held ▸ holds)
  issued := by
    rw [assigned, sent]
    exact serial.issued

/-- A directive is sent for the height in drive. -/
theorem Serial.send (serial : Serial q) (entry : Nat × TaskDirective T)
    (announces : ∀ h task, entry.2 = .announce h task →
      ∃ call, (h, call) ∈ q.assigned ∧ call.sequenced.announce = task) :
    Serial { q with sent := q.sent ++ [entry] } where
  increasing := serial.increasing
  below := serial.below
  early := serial.early
  chosen := serial.chosen
  driven := serial.driven
  issued := by
    intro entry' member
    rcases List.mem_append.mp member with earlier | last
    · exact serial.issued entry' earlier
    · cases List.mem_singleton.mp last
      exact announces

/-- The next height to be assigned is not the last one. -/
def Roomy (s : Router T D P S) : Label T D P S → Prop
  | .sequence => match s.sequencer.phase, s.tipAnswer with
    | .awaitingTip _, some answer =>
      max (max s.sequencer.nextHeight answer.tip) s.safeTip + 1 < 2 ^ 64
    | _, _ => True
  | _ => True

instance : Decidable (Roomy s label) := by
  unfold Roomy
  split
  · split <;> infer_instance
  · infer_instance

theorem Bounded.roomy (bounded : Bounded cfg s label) : Roomy s label := by
  unfold Roomy
  split
  · split
    · rename_i awaiting answered
      exact bounded _ (by simp [added, awaiting, answered])
    · trivial
  · trivial

theorem Serial.wrapped (serial : Serial s.sequencer) (roomy : Roomy s label) {h : Nat}
    (last : 2 ^ 64 ≤ h + 1) (continued : Continued s h 0 label s') : Serial s'.sequencer := by
  cases continued with
  | recorded => exact serial
  | passedOver origin =>
    rcases origin with ⟨here, rfl⟩ | ⟨call, here, rfl⟩ | ⟨call, drive, wake, wake', here, rfl⟩
    · exact serial.still rfl rfl (le_max_left _ _) (by simp) (by simp) (.inl rfl)
    · exact serial.still rfl rfl (le_max_left _ _) (by simp) (by simp) (.inl rfl)
    · exact serial.still rfl rfl (le_max_left _ _) (by simp) (by simp)
        (.inr (by simp [here, Phase.driven, Phase.held]))
  | chosen here answered choice =>
    simp only [Roomy, here, answered] at roomy
    omega

theorem Serial.sequenced (serial : Serial s.sequencer) (taken : Sequenced cfg s label s') :
    Serial s'.sequencer := by
  have least : s.sequencer.nextHeight ≤ s.sequencer.nextHeight := le_rfl
  cases taken with
  | settled here _ =>
    exact { serial with
      early := fun _ => serial.early (.inl ⟨_, here⟩)
      chosen := fun _ _ phase => nomatch phase
      driven := fun _ _ driven => nomatch driven }
  | started here _ =>
    have nothing := serial.early (.inr here)
    refine { serial with below := ?_, early := ?_, chosen := ?_, driven := ?_ }
    · intro entry member
      rw [nothing] at member
      cases member
    · rintro (⟨wake, phase⟩ | phase) <;> cases phase
    · exact fun _ _ phase => nomatch phase
    · exact fun _ _ driven => nomatch driven
  | passedOver _ origin =>
    rcases origin with ⟨here, rfl, -⟩ | ⟨call, here, rfl, -⟩ | ⟨call, drive, wake, here, -, rfl, -⟩
    · exact serial.still rfl rfl (le_max_left _ _) (by simp) (by simp) (.inl rfl)
    · exact serial.still rfl rfl (le_max_left _ _) (by simp) (by simp) (.inl rfl)
    · exact serial.still rfl rfl (le_max_left _ _) (by simp) (by simp)
        (.inr (by simp [here, Phase.driven, Phase.held]))
  | drained _ _ | asked _ _ | dropped _ _ | exhausted _ | taken _ =>
    exact serial.still rfl rfl least (by simp) (by simp) (.inl rfl)
  | @chosen call answer height here _ choice =>
    have above : ∀ entry ∈ s.sequencer.assigned, entry.1 < height := by
      intro entry member
      have := serial.below entry member
      omega
    refine { serial with below := ?_, early := ?_, chosen := ?_, driven := ?_ }
    · exact fun entry member => (above entry member).trans (Nat.lt_succ_self _)
    · rintro (⟨wake, phase⟩ | phase) <;> cases phase
    · rintro call' h ⟨⟩
      exact ⟨Nat.lt_succ_self _, above⟩
    · exact fun _ _ driven => nomatch driven
  | @inserted call height here _ =>
    obtain ⟨low, above⟩ := serial.chosen call height here
    refine ⟨?_, ?_, ?_, ?_, ?_, ?_⟩
    · rw [List.map_append]
      refine List.pairwise_append.mpr ⟨serial.increasing, List.pairwise_singleton _ _, ?_⟩
      intro h member h' last
      obtain ⟨entry, listed, rfl⟩ := List.mem_map.mp member
      cases List.mem_singleton.mp last
      exact above entry listed
    · intro entry member
      rcases List.mem_append.mp member with earlier | last
      · exact serial.below entry earlier
      · cases List.mem_singleton.mp last
        exact low
    · rintro (⟨wake, phase⟩ | phase) <;> cases phase
    · exact fun _ _ phase => nomatch phase
    · rintro call' h ⟨⟩ ⟨⟩
      exact List.mem_append_right _ (List.mem_singleton_self _)
    · intro entry member h task announces
      obtain ⟨held, assigned, view⟩ := serial.issued entry member h task announces
      exact ⟨held, List.mem_append_left _ assigned, view⟩
  | @begun call height here =>
    have assigned := serial.driven call height (by rw [here]; rfl) (by rw [here]; rfl)
    have sends := serial.send (s.now, .announce height call.sequenced.announce) (by
      rintro h task ⟨⟩
      exact ⟨call, assigned, rfl⟩)
    exact sends.still rfl rfl least (by simp) (by simp)
      (.inr (by simp [here, Phase.driven, Phase.held]))
  | @announced call drive here _ _ _ _ =>
    have assigned := serial.driven call drive.height (by rw [here]; rfl) (by rw [here]; rfl)
    have sends := serial.send (s.now, .announce drive.height call.sequenced.announce) (by
      rintro h task ⟨⟩
      exact ⟨call, assigned, rfl⟩)
    exact sends.still rfl rfl least (by simp) (by simp)
      (.inr (by simp [here, Phase.driven, Phase.held]))
  | @abandoned call drive here _ _ _ =>
    have sends := serial.send (s.now, .skip drive.height) (by rintro h task ⟨⟩)
    exact sends.still rfl rfl least (by simp) (by simp)
      (.inr (by simp [here, Phase.driven, Phase.held]))
  | @released call height outcome here =>
    refine serial.still rfl rfl least ?_ ?_ (.inl (Phase.driven_after call outcome))
    · rcases outcome with (_ | _ | _) | _ | _ <;> simp [Phase.after]
    · rcases outcome with (_ | _ | _) | _ | _ <;> simp [Phase.after]
  | latched here _ | gaveUp here _ _ | resolved here _ _ | closed here _ _ | idled here _
  | polled here _ _ =>
    exact serial.still rfl rfl least (by simp) (by simp)
      (.inr (by simp [here, Phase.driven, Phase.held]))

theorem Serial.checked [DecidableEq D] (serial : Serial s.sequencer)
    (taken : step cfg s label = some s') : Serial s'.sequencer := by
  rcases step_sequenced taken with kept | sequenced
  · rw [kept.sequencer]
    exact serial
  · exact serial.sequenced sequenced

/-- No height is assigned twice. -/
theorem Serial.assigned_unique (serial : Serial q) {first second : Nat × Call T D}
    (firstIn : first ∈ q.assigned) (secondIn : second ∈ q.assigned) (same : first.1 = second.1) :
    first = second :=
  List.inj_on_of_nodup_map (serial.increasing.imp fun below => below.ne) firstIn secondIn same

end Router

end Restaking
