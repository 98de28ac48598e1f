import Restaking.RouterSteps

/-! Heights are assigned one at a time and never twice. The argument needs the
sequencer's own records, the assignment table that only the sequencer writes,
and two facts about what reaches it: a tip answer lies above every height that
was on file when it was given, and the resolution channel loses nothing. -/
namespace Restaking.Router
open Lib

variable {T D P G S : Type*} [LinearOrder P]
variable {cfg : Config D P G S} {s s' : Router T D P S} {label : Label T D P S}

/-- A height the sequencer is done with: its own drive received its resolution,
or gave it up to a higher safe tip. -/
def SequencerActor.Settled (q : SequencerActor T D S) (h : Nat) : Prop :=
  (h ∈ q.resolved ∧ ∃ notice ∈ q.consumed, notice.resolution.height = h) ∨
    ∃ tip, (h, tip) ∈ q.superseded ∧ h < tip

/-- What the sequencer's records and the assignment table keep. -/
structure Ledger (q : SequencerActor T D S) (table : OrderedMap Nat (Assignment T D)) : Prop where
  increasing : (q.assigned.map Prod.fst).Pairwise (· < ·)
  assigned : ∀ entry ∈ q.assigned, entry.1 < q.nextHeight
  consumed : ∀ notice ∈ q.consumed, notice.resolution.height < q.nextHeight
  known : ∀ h ∈ q.known, h < q.nextHeight
  /-- Before the start nothing has been counted. -/
  early : (∃ wake, q.phase = .settling wake) ∨ q.phase = .startingTip → q.nextHeight = 0
  /-- Outside a drive the table is empty and every assigned height is settled. -/
  between : q.phase.driven = none → (∀ h, table.get? h = none) ∧
    (q.phase ≠ .stopped → ∀ entry ∈ q.assigned, q.Settled entry.1)
  /-- A height about to be assigned lies above everything on record. -/
  chosen : ∀ call h, q.phase = .inserting call h → h < q.nextHeight ∧
    (∀ entry ∈ q.assigned, entry.1 < h) ∧ (∀ notice ∈ q.consumed, notice.resolution.height < h) ∧
    ∀ k ∈ q.known, k < h
  /-- The driven height is the last one assigned and the only one in the table. -/
  driven : ∀ h, q.phase.driven = some h → ∃ earlier call, q.phase.held = some call ∧
    q.assigned = earlier ++ [(h, call)] ∧ (∀ entry ∈ earlier, q.Settled entry.1) ∧
    ∀ k, table.get? k = if k = h then some ⟨call.sequenced.digest, call.sequenced.task⟩ else none
  /-- No resolution of a height in drive has been received. -/
  waiting : ∀ h, q.phase.waiting = some h →
    ∀ notice ∈ q.consumed, notice.resolution.height ≠ h
  released : ∀ call h outcome, q.phase = .releasing call h outcome → outcome ≠ .closed →
    q.Settled h

/-- What reaches the sequencer from the reporter and the submitter. -/
structure Inputs (s : Router T D P S) : Prop where
  sane : s.poisoned = false
  log : s.reporter.log.BelowTip
  /-- Every height that was ever put on file lies below the tip. -/
  recorded : ∀ h ∈ s.reporter.recorded, h < s.reporter.log.tip
  answer : ∀ answer ∈ s.tipAnswer, ∀ h ∈ answer.certified, h < answer.tip
  channel : s.submitter.notified = s.sequencer.consumed ++ s.resolutions

variable {q q' : SequencerActor T D S} {table : OrderedMap Nat (Assignment T D)}

theorem SequencerActor.Settled.mono {h : Nat} (settled : q.Settled h)
    (resolved : q.resolved ⊆ q'.resolved) (consumed : q.consumed ⊆ q'.consumed)
    (superseded : q.superseded ⊆ q'.superseded) : q'.Settled h := by
  rcases settled with ⟨member, notice, received, named⟩ | ⟨tip, member, above⟩
  · exact .inl ⟨resolved member, notice, consumed received, named⟩
  · exact .inr ⟨tip, superseded member, above⟩

/-- The records that a step between two accesses may extend: nothing assigned or
settled, heights only counted upwards. -/
structure Counted (q q' : SequencerActor T D S) : Prop where
  assigned : q'.assigned = q.assigned
  resolved : q'.resolved = q.resolved
  superseded : q'.superseded = q.superseded
  grows : q.nextHeight ≤ q'.nextHeight
  kept : q.consumed ⊆ q'.consumed
  consumed : ∀ notice ∈ q'.consumed, notice ∈ q.consumed ∨ notice.resolution.height < q'.nextHeight
  known : ∀ h ∈ q'.known, h ∈ q.known ∨ h < q'.nextHeight

theorem Counted.same (assigned : q'.assigned = q.assigned) (resolved : q'.resolved = q.resolved)
    (superseded : q'.superseded = q.superseded) (next : q'.nextHeight = q.nextHeight)
    (consumed : q'.consumed = q.consumed) (known : q'.known = q.known) : Counted q q' where
  assigned := assigned
  resolved := resolved
  superseded := superseded
  grows := next.ge
  kept := consumed ▸ List.Subset.refl _
  consumed := fun _ member => .inl (consumed ▸ member)
  known := fun _ member => .inl (known ▸ member)

theorem Counted.settled (counted : Counted q q') {h : Nat} (settled : q.Settled h) : q'.Settled h :=
  settled.mono (counted.resolved ▸ List.Subset.refl _) counted.kept
    (counted.superseded ▸ List.Subset.refl _)

theorem Ledger.counted_consumed (ledger : Ledger q table) (counted : Counted q q') :
    ∀ notice ∈ q'.consumed, notice.resolution.height < q'.nextHeight := by
  intro notice member
  rcases counted.consumed notice member with earlier | new
  · exact (ledger.consumed notice earlier).trans_le counted.grows
  · exact new

theorem Ledger.counted_known (ledger : Ledger q table) (counted : Counted q q') :
    ∀ h ∈ q'.known, h < q'.nextHeight := by
  intro h member
  rcases counted.known h member with earlier | new
  · exact (ledger.known h earlier).trans_le counted.grows
  · exact new

/-- A step from one phase outside a drive to another. -/
theorem Ledger.outside (ledger : Ledger q table) (counted : Counted q q')
    (leaves : q.phase.driven = none) (live : q.phase ≠ .stopped) (enters : q'.phase.driven = none)
    (unchosen : ∀ call h, q'.phase ≠ .inserting call h)
    (early : (∃ wake, q'.phase = .settling wake) ∨ q'.phase = .startingTip → q'.nextHeight = 0) :
    Ledger q' table where
  increasing := counted.assigned ▸ ledger.increasing
  assigned := fun entry member =>
    (ledger.assigned entry (counted.assigned ▸ member)).trans_le counted.grows
  consumed := ledger.counted_consumed counted
  known := ledger.counted_known counted
  early := early
  between := fun _ => ⟨(ledger.between leaves).1, fun _ entry member =>
    counted.settled ((ledger.between leaves).2 live entry (counted.assigned ▸ member))⟩
  chosen := fun call h chosen => absurd chosen (unchosen call h)
  driven := fun h driven => by rw [enters] at driven; cases driven
  waiting := fun h waits => by rw [Phase.waiting_eq_none enters] at waits; cases waits
  released := fun call h outcome releasing => by rw [releasing] at enters; cases enters

/-- A step within the wait of one drive. -/
theorem Ledger.within (ledger : Ledger q table) (counted : Counted q q') {h : Nat}
    (leaves : q.phase.waiting = some h) (enters : q'.phase.waiting = some h)
    (held : q'.phase.held = q.phase.held)
    (others : ∀ notice ∈ q'.consumed, notice ∈ q.consumed ∨ notice.resolution.height ≠ h) :
    Ledger q' table where
  increasing := counted.assigned ▸ ledger.increasing
  assigned := fun entry member =>
    (ledger.assigned entry (counted.assigned ▸ member)).trans_le counted.grows
  consumed := ledger.counted_consumed counted
  known := ledger.counted_known counted
  early := fun started => by
    rcases started with ⟨wake, phase⟩ | phase <;> rw [phase] at enters <;> cases enters
  between := fun outside => by
    rw [Phase.driven_of_waiting enters] at outside
    cases outside
  chosen := fun call h chosen => by rw [chosen] at enters; cases enters
  driven := fun k driven => by
    rw [Phase.driven_of_waiting enters] at driven
    cases driven
    obtain ⟨earlier, call, holds, last, settled, entry⟩ :=
      ledger.driven h (Phase.driven_of_waiting leaves)
    exact ⟨earlier, call, held ▸ holds, counted.assigned ▸ last,
      fun entry member => counted.settled (settled entry member), entry⟩
  waiting := fun k waits => by
    rw [enters] at waits
    cases waits
    intro notice member
    rcases others notice member with earlier | other
    · exact ledger.waiting h leaves notice earlier
    · exact other
  released := fun call k outcome releasing => by rw [releasing] at enters; cases enters

/-- No height is assigned twice. -/
theorem Ledger.assigned_unique (ledger : Ledger q table) {first second : Nat × Call T D}
    (firstIn : first ∈ q.assigned) (secondIn : second ∈ q.assigned) (same : first.1 = second.1) :
    first = second := by
  have distinct : (q.assigned.map Prod.fst).Nodup := ledger.increasing.imp fun below => below.ne
  exact List.inj_on_of_nodup_map distinct firstIn secondIn same

theorem Ledger.init : Ledger ({} : SequencerActor T D S) .empty where
  increasing := .nil
  assigned := by simp
  consumed := by simp
  known := by simp
  early := fun _ => rfl
  between := fun _ => ⟨fun _ => rfl, by simp⟩
  chosen := fun _ _ chosen => by cases chosen
  driven := fun _ driven => by cases driven
  waiting := fun _ waits => by cases waits
  released := fun _ _ _ releasing => by cases releasing

/-- The chosen height lies above everything on record. -/
private theorem ledger_chosen {call : Call T D} {answer : TipAnswer} {height : Nat}
    (ledger : Ledger s.sequencer s.assignments) (asking : s.sequencer.phase = .awaitingTip call)
    (above : ∀ h ∈ answer.certified, h < answer.tip)
    (choice : height = max (max s.sequencer.nextHeight answer.tip) s.safeTip) :
    Ledger { s.sequencer with
      phase := .inserting call height
      nextHeight := height + 1
      known := s.sequencer.known ++ answer.certified } s.assignments := by
  have least : s.sequencer.nextHeight ≤ height := by omega
  have tip : answer.tip ≤ height := by omega
  have known : ∀ k ∈ s.sequencer.known ++ answer.certified, k < height := by
    intro k member
    rcases List.mem_append.mp member with earlier | new
    · exact (ledger.known k earlier).trans_le least
    · exact (above k new).trans_le tip
  have outside : s.sequencer.phase.driven = none := by rw [asking]; rfl
  obtain ⟨vacant, settled⟩ := ledger.between outside
  exact {
    increasing := ledger.increasing
    assigned := fun entry member =>
      ((ledger.assigned entry member).trans_le least).trans (Nat.lt_succ_self _)
    consumed := fun notice member =>
      ((ledger.consumed notice member).trans_le least).trans (Nat.lt_succ_self _)
    known := fun k member => (known k member).trans (Nat.lt_succ_self _)
    early := fun started => by rcases started with ⟨_, ⟨⟩⟩ | ⟨⟨⟩⟩
    between := fun _ => ⟨vacant, fun _ => settled (by simp [asking])⟩
    chosen := fun _ _ chosen => by
      cases chosen
      exact ⟨Nat.lt_succ_self _, fun entry member => (ledger.assigned entry member).trans_le least,
        fun notice member => (ledger.consumed notice member).trans_le least, known⟩
    driven := fun _ driven => by cases driven
    waiting := fun _ waits => by cases waits
    released := fun _ _ _ releasing => by cases releasing }

/-- Insertion makes the chosen height the driven one. -/
private theorem ledger_inserted {call : Call T D} {height : Nat}
    (ledger : Ledger s.sequencer s.assignments)
    (inserting : s.sequencer.phase = .inserting call height) :
    Ledger { s.sequencer with
      phase := .starting call height
      assigned := s.sequencer.assigned ++ [(height, call)] }
      (s.assignments.insert height ⟨call.sequenced.digest, call.sequenced.task⟩) := by
  obtain ⟨below, assigned, consumed, -⟩ := ledger.chosen call height inserting
  have outside : s.sequencer.phase.driven = none := by rw [inserting]; rfl
  obtain ⟨vacant, settled⟩ := ledger.between outside
  exact {
    increasing := by
      rw [List.map_append, List.pairwise_append]
      refine ⟨ledger.increasing, List.pairwise_singleton _ _, fun h member k last => ?_⟩
      obtain ⟨entry, found, rfl⟩ := List.mem_map.mp member
      cases List.mem_singleton.mp last
      exact assigned entry found
    assigned := fun entry member => by
      rcases List.mem_append.mp member with earlier | last
      · exact ledger.assigned entry earlier
      · cases List.mem_singleton.mp last
        exact below
    consumed := ledger.consumed
    known := ledger.known
    early := fun started => by rcases started with ⟨_, ⟨⟩⟩ | ⟨⟨⟩⟩
    between := fun outside => by cases outside
    chosen := fun _ _ chosen => by cases chosen
    driven := fun h driven => by
      cases driven
      exact ⟨_, call, rfl, rfl, settled (by simp [inserting]),
        fun k => by rw [OrderedMap.get?_insert, vacant k]⟩
    waiting := fun h waits notice member => by
      cases waits
      exact (consumed notice member).ne
    released := fun _ _ _ releasing => by cases releasing }

/-- A drive ends with its height settled, unless the channel closed. -/
private theorem ledger_finished {call : Call T D} {h : Nat} {outcome : HeightOutcome}
    (ledger : Ledger q table) (driving : q.phase.driven = some h) (holds : q.phase.held = some call)
    (phase : q'.phase = .releasing call h outcome) (assigned : q'.assigned = q.assigned)
    (next : q'.nextHeight = q.nextHeight) (known : q'.known = q.known)
    (consumed : ∀ notice ∈ q'.consumed, notice.resolution.height < q.nextHeight)
    (kept : ∀ k, q.Settled k → q'.Settled k) (settled : outcome ≠ .closed → q'.Settled h) :
    Ledger q' table := by
  obtain ⟨earlier, call', holds', last, done, entry⟩ := ledger.driven h driving
  rw [holds] at holds'
  cases holds'
  exact {
    increasing := assigned ▸ ledger.increasing
    assigned := fun entry member => next ▸ ledger.assigned entry (assigned ▸ member)
    consumed := fun notice member => next ▸ consumed notice member
    known := fun k member => next ▸ ledger.known k (known ▸ member)
    early := fun started => by rcases started with ⟨_, at'⟩ | at' <;> rw [phase] at at' <;> cases at'
    between := fun outside => by rw [phase] at outside; cases outside
    chosen := fun _ _ chosen => by rw [phase] at chosen; cases chosen
    driven := fun k driven => by
      rw [phase] at driven
      cases driven
      exact ⟨earlier, call, by rw [phase]; rfl, assigned ▸ last,
        fun entry member => kept _ (done entry member), entry⟩
    waiting := fun k waits => by rw [phase] at waits; cases waits
    released := fun _ _ _ releasing => by
      rw [phase] at releasing
      cases releasing
      exact settled }

/-- Removal empties the table again. -/
private theorem ledger_released {call : Call T D} {height : Nat} {outcome : HeightOutcome}
    (ledger : Ledger s.sequencer s.assignments)
    (releasing : s.sequencer.phase = .releasing call height outcome) :
    Ledger { s.sequencer with phase := .after call outcome } (s.assignments.erase height) := by
  have driving : s.sequencer.phase.driven = some height := by rw [releasing]; rfl
  obtain ⟨earlier, call', -, last, done, entry⟩ := ledger.driven height driving
  exact {
    increasing := ledger.increasing
    assigned := ledger.assigned
    consumed := ledger.consumed
    known := ledger.known
    early := fun started => by
      rcases started with ⟨_, at'⟩ | at' <;> rcases outcome with (_ | _ | _) | _ | _ <;> cases at'
    between := fun _ => by
      refine ⟨fun k => ?_, fun live entry member => ?_⟩
      · rw [OrderedMap.get?_erase, entry k]
        split <;> rfl
      · have open' : outcome ≠ .closed := fun closed => live (by rw [closed]; rfl)
        rw [last] at member
        rcases List.mem_append.mp member with before | final
        · exact done entry before
        · cases List.mem_singleton.mp final
          exact ledger.released call height outcome releasing open'
    chosen := fun _ _ chosen => by rcases outcome with (_ | _ | _) | _ | _ <;> cases chosen
    driven := fun _ driven => by rw [Phase.driven_after] at driven; cases driven
    waiting := fun _ waits => by
      rw [Phase.waiting_eq_none (Phase.driven_after call outcome)] at waits
      cases waits
    released := fun _ _ _ later => by rcases outcome with (_ | _ | _) | _ | _ <;> cases later }

/-- Every step of the sequencer keeps the ledger. -/
theorem Ledger.sequenced (ledger : Ledger s.sequencer s.assignments) (inputs : Inputs s)
    (sequenced : Sequenced cfg s label s') : Ledger s'.sequencer s'.assignments := by
  cases sequenced with
  | settled phase _ =>
    exact ledger.outside (.same rfl rfl rfl rfl rfl rfl) (by rw [phase]; rfl) (by simp [phase])
      rfl (by simp) fun _ => ledger.early (.inl ⟨_, phase⟩)
  | @started answer phase answered =>
    have next : s.sequencer.nextHeight = 0 := ledger.early (.inr phase)
    have above := inputs.answer answer answered
    refine ledger.outside ⟨rfl, rfl, rfl, by simp [next], List.Subset.refl _, fun _ => .inl,
      fun h member => ?_⟩ (by rw [phase]; rfl) (by simp [phase]) rfl (by simp) (by simp)
    rcases List.mem_append.mp member with earlier | new
    · exact .inl earlier
    · exact .inr ((above h new).trans_le (le_max_left _ _))
  | @passedOver _ notice rest phase waiting origin =>
    have counted : Counted s.sequencer { s.sequencer with
        phase
        nextHeight := max s.sequencer.nextHeight (notice.resolution.height + 1)
        consumed := s.sequencer.consumed ++ [notice] } := by
      refine ⟨rfl, rfl, rfl, le_max_left _ _, List.subset_append_left _ _, fun other member => ?_,
        fun _ => .inl⟩
      rcases List.mem_append.mp member with earlier | last
      · exact .inl earlier
      · cases List.mem_singleton.mp last
        exact .inr ((Nat.lt_succ_self _).trans_le (le_max_right _ _))
    rcases origin with ⟨from', rfl, -⟩ | ⟨call, from', rfl, -⟩ | ⟨call, drive, wake, from', other, rfl, -⟩
    · exact ledger.outside counted (by rw [from']; rfl) (by simp [from']) rfl (by simp) (by simp)
    · exact ledger.outside counted (by rw [from']; rfl) (by simp [from']) rfl (by simp) (by simp)
    · refine ledger.within counted (h := drive.height) (by rw [from']; rfl) rfl (by rw [from']; rfl)
        fun received member => ?_
      rcases List.mem_append.mp member with earlier | last
      · exact .inl earlier
      · cases List.mem_singleton.mp last
        exact .inr other
  | @chosen call answer height phase answered choice =>
    exact ledger_chosen ledger phase (inputs.answer answer answered) choice
  | dropped _ poisoned =>
    rw [inputs.sane] at poisoned
    cases poisoned
  | inserted phase _ => exact ledger_inserted ledger phase
  | begun phase | latched phase | announced phase | abandoned phase | idled phase | polled phase =>
    exact ledger.within (.same rfl rfl rfl rfl rfl rfl) (by rw [phase]; rfl) rfl (by rw [phase]; rfl)
      fun _ => .inl
  | gaveUp phase _ above =>
    refine ledger_finished ledger (by rw [phase]; rfl) (by rw [phase]; rfl) rfl rfl rfl rfl
      ledger.consumed (fun k settled => ?_) fun _ => ?_
    · exact settled.mono (List.Subset.refl _) (List.Subset.refl _) (List.subset_append_left _ _)
    · exact .inr ⟨s.safeTip, by simp, above⟩
  | @resolved call drive wake notice rest phase _ own =>
    obtain ⟨earlier, call', -, last, -⟩ := ledger.driven drive.height (by rw [phase]; rfl)
    have low : drive.height < s.sequencer.nextHeight :=
      ledger.assigned (drive.height, call') (by rw [last]; simp)
    refine ledger_finished ledger (by rw [phase]; rfl) (by rw [phase]; rfl) rfl rfl rfl rfl
      (fun received member => ?_) (fun k settled => ?_) fun _ => ?_
    · rcases List.mem_append.mp member with before | now
      · exact ledger.consumed received before
      · cases List.mem_singleton.mp now
        exact own ▸ low
    · exact settled.mono (List.subset_append_left _ _) (List.subset_append_left _ _)
        (List.Subset.refl _)
    · exact .inl ⟨by simp, notice, by simp, own⟩
  | closed phase _ _ =>
    exact ledger_finished ledger (by rw [phase]; rfl) (by rw [phase]; rfl) rfl rfl rfl rfl
      ledger.consumed (fun _ => id) fun open' => absurd rfl open'
  | released phase =>
    rw [inputs.sane]
    exact ledger_released ledger phase
  | drained phase | asked phase | exhausted phase | taken phase =>
    exact ledger.outside (.same rfl rfl rfl rfl rfl rfl) (by rw [phase]; rfl) (by simp [phase])
      rfl (by simp) (by simp)

theorem Inputs.init : Inputs (init cfg : Router T D P S) where
  sane := rfl
  log := by simp [CertReporter.BelowTip, Router.init]
  recorded := by simp [Router.init]
  answer := by simp [Router.init]
  channel := rfl

theorem Inputs.environment (inputs : Inputs s) (taken : Environment cfg s label s') :
    Inputs s' := by
  obtain ⟨sane, log, recorded, answer, channel⟩ := inputs
  cases taken with
  | noTip =>
    refine ⟨sane, log, recorded, fun given member h found => ?_, channel⟩
    cases present : s.tipAnswer with
    | none =>
      simp only [present, Option.none_or, Option.mem_some_iff] at member
      cases member
      cases found
    | some earlier =>
      simp only [present, Option.some_or, Option.mem_some_iff] at member
      cases member
      exact answer _ present h found
  | _ => exact ⟨sane, log, recorded, answer, channel⟩

theorem Inputs.reported (inputs : Inputs s) (taken : Reported cfg s label s') : Inputs s' := by
  obtain ⟨sane, log, recorded, answer, channel⟩ := inputs
  have filed (c : Cert D S) : ({ s.reporter.log with
      certified := s.reporter.log.certified.insert c.height c.digest
      }.advanceTip (c.height + 1)).BelowTip :=
    CertReporter.belowTip_record log c.height c.digest
  have below (c : Cert D S) : ∀ h ∈ s.reporter.recorded ++ [c.height],
      h < ({ s.reporter.log with
        certified := s.reporter.log.certified.insert c.height c.digest
        }.advanceTip (c.height + 1)).tip := by
    intro h member
    rw [CertReporter.advanceTip_tip]
    rcases List.mem_append.mp member with earlier | last
    · exact lt_max_iff.mpr (.inl (recorded h earlier))
    · cases List.mem_singleton.mp last
      exact lt_max_iff.mpr (.inr (Nat.lt_succ_self _))
  cases taken with
  | ignored _ => exact ⟨sane, log, recorded, answer, channel⟩
  | retained _ _ _ => exact ⟨sane, filed _, below _, answer, channel⟩
  | forwarded _ _ _ => exact ⟨sane, filed _, below _, answer, channel⟩
  | tip _ =>
    refine ⟨sane, CertReporter.belowTip_advanceTip log _, fun h member => ?_, answer, channel⟩
    rw [CertReporter.advanceTip_tip]
    exact lt_max_iff.mpr (.inl (recorded h member))
  | answeredTip _ =>
    refine ⟨sane, log, recorded, fun given member h found => ?_, channel⟩
    cases member
    exact recorded h found
  | answeredGet _ => exact ⟨sane, log, recorded, answer, channel⟩

theorem Inputs.submitted (inputs : Inputs s) (taken : Submitted cfg s label s') : Inputs s' := by
  obtain ⟨sane, log, recorded, answer, channel⟩ := inputs
  have told (notice : Notice D S) : s.submitter.notified ++ [notice] =
      s.sequencer.consumed ++ (s.resolutions ++ [notice]) := by
    rw [channel, List.append_assoc]
  cases taken with
  | skipped _ _ _ => exact ⟨sane, log, recorded, answer, told _⟩
  | foreign _ _ => exact ⟨sane, log, recorded, answer, told _⟩
  | finished _ => exact ⟨sane, log, recorded, answer, told _⟩
  | gaveUp _ _ => exact ⟨sane, log, recorded, answer, told _⟩
  | _ => exact ⟨sane, log, recorded, answer, channel⟩

theorem Inputs.sequenced (inputs : Inputs s) (taken : Sequenced cfg s label s') : Inputs s' := by
  obtain ⟨sane, log, recorded, answer, channel⟩ := inputs
  have unanswered : ∀ given ∈ (none : Option TipAnswer), ∀ h ∈ given.certified, h < given.tip :=
    fun _ member => by cases member
  cases taken with
  | started _ _ => exact ⟨sane, log, recorded, unanswered, channel⟩
  | chosen _ _ _ => exact ⟨sane, log, recorded, unanswered, channel⟩
  | passedOver waiting _ =>
    refine ⟨sane, log, recorded, answer, ?_⟩
    rw [channel, waiting, List.append_assoc]
    rfl
  | resolved _ waiting _ =>
    refine ⟨sane, log, recorded, answer, ?_⟩
    rw [channel, waiting, List.append_assoc]
    rfl
  | _ => exact ⟨sane, log, recorded, answer, channel⟩

/-- The ledger holds throughout a router life. -/
theorem InLife.ledger [DecidableEq D] (life : InLife cfg s) :
    Inputs s ∧ Ledger s.sequencer s.assignments := by
  let both : Router T D P S → Prop := fun s => Inputs s ∧ Ledger s.sequencer s.assignments
  suffices held : both s from held
  refine Reachable.preserves life ?_ fun s label s' _ held taken => ?_
  · rintro start rfl
    exact ⟨.init, .init⟩
  obtain ⟨inputs, ledger⟩ := held
  rcases step_cases taken with environment | reported | submitted | sequenced
  · exact ⟨inputs.environment environment, by
      rw [environment.kept.sequencer, environment.kept.assignments]; exact ledger⟩
  · exact ⟨inputs.reported reported, by
      rw [reported.kept.sequencer, reported.kept.assignments]; exact ledger⟩
  · exact ⟨inputs.submitted submitted, by
      rw [submitted.kept.sequencer, submitted.kept.assignments]; exact ledger⟩
  · exact ⟨inputs.sequenced sequenced, ledger.sequenced inputs sequenced⟩

/-- Only an insertion extends the record of assignments. -/
theorem inserting_of_assigned [DecidableEq D] {h : Nat} {call : Call T D}
    (taken : step cfg s label = some s')
    (assigned : s'.sequencer.assigned = s.sequencer.assigned ++ [(h, call)]) :
    s.sequencer.phase = .inserting call h := by
  rcases step_sequenced taken with kept | sequenced
  · rw [kept.sequencer] at assigned
    simp at assigned
  · cases sequenced with
    | inserted phase _ =>
      simp only [List.append_cancel_left_eq, List.cons.injEq, Prod.mk.injEq, and_true] at assigned
      obtain ⟨rfl, rfl⟩ := assigned
      exact phase
    | _ => simp at assigned

/-- **Serial height assignment.** In every state of a router life the assigned
heights increase strictly and the table holds at most the driven one; a step
that assigns a height finds every earlier one settled, and neither a consumed
resolution nor a tip answer ever covered the new one; and while a height is in
drive every resolution sent for it is still in the channel. -/
theorem heights_assigned_serially [DecidableEq D] (life : InLife cfg s) :
    (s.sequencer.assigned.map Prod.fst).Pairwise (· < ·) ∧
      (∀ h, (s.assignments.get? h).isSome → s.sequencer.phase.driven = some h) ∧
      (∀ label s' h call, step cfg s label = some s' →
        s'.sequencer.assigned = s.sequencer.assigned ++ [(h, call)] →
        (∀ entry ∈ s.sequencer.assigned, s.sequencer.Settled entry.1) ∧
          (∀ notice ∈ s.sequencer.consumed, notice.resolution.height ≠ h) ∧
          h ∉ s.sequencer.known) ∧
      ∀ h, s.sequencer.phase.waiting = some h →
        ∀ notice ∈ s.submitter.notified, notice.resolution.height = h →
          notice ∈ s.resolutions ∧ notice ∉ s.sequencer.consumed := by
  obtain ⟨inputs, ledger⟩ := life.ledger
  refine ⟨ledger.increasing, fun h present => ?_, fun label s' h call taken assigned => ?_,
    fun h waits notice sent named => ?_⟩
  · cases driven : s.sequencer.phase.driven with
    | none => simp [(ledger.between driven).1 h] at present
    | some k =>
      obtain ⟨-, call, -, -, -, entry⟩ := ledger.driven k driven
      rw [entry h] at present
      split at present
      · rename_i same
        rw [same]
      · cases present
  · have inserting := inserting_of_assigned taken assigned
    obtain ⟨-, -, consumed, known⟩ := ledger.chosen call h inserting
    have outside : s.sequencer.phase.driven = none := by rw [inserting]; rfl
    exact ⟨(ledger.between outside).2 (by simp [inserting]),
      fun notice member => (consumed notice member).ne, fun member => (known h member).false⟩
  · have fresh : notice ∉ s.sequencer.consumed :=
      fun received => ledger.waiting h waits notice received named
    rw [inputs.channel] at sent
    exact ⟨(List.mem_append.mp sent).resolve_left fresh, fresh⟩

/-- Two tasks take heights 0 and 1; the resolution of 1 waits for its drive. -/
theorem two_tasks_assigned_serially : ∃ s : Router Nat Nat Nat Unit,
    s.sequencer.phase.waiting = some 1 ∧ s.resolutions.length = 1 ∧
      (s.sequencer.assigned.map Prod.fst).Pairwise (· < ·) ∧
      ∀ notice ∈ s.submitter.notified, notice.resolution.height = 1 →
        notice ∈ s.resolutions ∧ notice ∉ s.sequencer.consumed := by
  obtain ⟨s, life, reached⟩ := InLife.of_exec_any solo
    (soloStart ++ soloAssign 10 1 ++ soloExecute 0 1 ++ soloRelease ++ soloAssign 20 2 ++
      soloExecute 1 2)
    (fun s => s.sequencer.phase.waiting = some 1 ∧ s.resolutions.length = 1)
    (by decide +kernel)
  obtain ⟨waits, queued⟩ := of_decide_eq_true reached
  obtain ⟨increasing, -, -, drive⟩ := heights_assigned_serially life
  exact ⟨s, waits, queued, increasing, drive 1 waits⟩

end Restaking.Router
