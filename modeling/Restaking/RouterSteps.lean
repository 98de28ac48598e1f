import Restaking.Router

/-! What each actor's step can do, said once. A step of the router is a step of its
environment, of the reporter, of the submitter or of the sequencer; each of the
four has one inversion below, with the guards that were met and the state that
results. -/
namespace Restaking.Router
open Lib

variable {T D P G S : Type*} [LinearOrder P]
variable {cfg : Config D P G S} {s s' : Router T D P S} {label : Label T D P S}

/-- Steps that no actor of the router decides. -/
inductive Environment (cfg : Config D P G S) (s : Router T D P S) :
    Label T D P S → Router T D P S → Prop where
  | elapsed (duration : Nat) :
      Environment cfg s (.elapse duration) { s with now := s.now + duration }
  | activity (activity : Activity D (Bn254Certificate S)) :
      Environment cfg s (.activity activity) (s.enqueue activity)
  | message (peer : P) (payload : Option (TaskDirective T)) :
      Environment cfg s (.message peer payload) { s with
        tipReports := s.tipReports.ingest cfg.scheme.participants peer payload }
  | reporterStopped :
      Environment cfg s .reporterStops { s with reporter := { s.reporter with up := false } }
  | submitterStopped :
      Environment cfg s .submitterStops { s with submitter := { s.submitter with up := false } }
  | noTip :
      Environment cfg s .unanswered { s with tipAnswer := s.tipAnswer.or (some ⟨0, []⟩) }
  | noDigest :
      Environment cfg s .unanswered { s with getAnswer := s.getAnswer.or (some none) }

/-- Steps of the reporter. -/
inductive Reported (cfg : Config D P G S) (s : Router T D P S) :
    Label T D P S → Router T D P S → Prop where
  | ignored {c inbox} : s.reporter.inbox = .certified c :: inbox →
      Reported cfg s .report { s with reporter := { s.reporter with inbox } }
  | retained {c inbox} : s.reporter.inbox = .certified c :: inbox →
      s.reporter.log.certified.get? c.height = none → cfg.verify c = true →
      Reported cfg s .report { s with
        reporter := { s.reporter with
          inbox
          log := { s.reporter.log with
            certified := s.reporter.log.certified.insert c.height c.digest
            }.advanceTip (c.height + 1)
          recorded := s.reporter.recorded ++ [c.height] } }
  | forwarded {c inbox} : s.reporter.inbox = .certified c :: inbox →
      s.reporter.log.certified.get? c.height = none → cfg.verify c = true →
      Reported cfg s .report { s with
        certified := s.certified ++ [c]
        reporter := { s.reporter with
          inbox
          log := { s.reporter.log with
            certified := s.reporter.log.certified.insert c.height c.digest
            }.advanceTip (c.height + 1)
          recorded := s.reporter.recorded ++ [c.height]
          forwarded := s.reporter.forwarded ++ [c] } }
  | tip {height inbox} : s.reporter.inbox = .tip height :: inbox →
      Reported cfg s .report { s with
        reporter := { s.reporter with inbox, log := s.reporter.log.advanceTip height } }
  | answeredTip {inbox} : s.reporter.inbox = .getTip :: inbox →
      Reported cfg s .report { s with
        tipAnswer := some ⟨s.reporter.log.tip, s.reporter.recorded⟩
        reporter := { s.reporter with inbox } }
  | answeredGet {height inbox} : s.reporter.inbox = .get height :: inbox →
      Reported cfg s .report { s with
        getAnswer := some (s.reporter.log.certified.get? height)
        reporter := { s.reporter with inbox } }

/-- Steps of the submitter. -/
inductive Submitted (cfg : Config D P G S) (s : Router T D P S) :
    Label T D P S → Router T D P S → Prop where
  | skipped {c certified} : s.submitter.state = .idle → s.certified = c :: certified →
      c.digest = cfg.skip c.height →
      Submitted cfg s .receive ({ s with certified }.notify c .skipped)
  | looking {c certified} : s.submitter.state = .idle → s.certified = c :: certified →
      c.digest ≠ cfg.skip c.height →
      Submitted cfg s .receive { s with
        certified, submitter := { s.submitter with state := .lookup c } }
  | foreign {c} : s.submitter.state = .lookup c → (s.poisoned = false →
      ∀ assignment, s.assignments.get? c.height = some assignment → assignment.digest ≠ c.digest) →
      Submitted cfg s .look (s.notify c .foreign)
  | picked {c assignment} : s.submitter.state = .lookup c →
      s.assignments.get? c.height = some assignment → assignment.digest = c.digest →
      Submitted cfg s .look { s with submitter := { s.submitter with
        state := .submitting { certified := c, task := assignment.task }
        picked := s.submitter.picked ++ [(c, assignment.task)] } }
  | called {job} : s.submitter.state = .submitting job →
      cfg.scheme.signerG2Keys job.certified.certificate ≠ [] →
      Submitted cfg s (.attempt true) { s with submitter := { s.submitter with
        state := .calling job
        executions := s.submitter.executions ++
          [⟨job.certified.height, job.certified.digest, job.task⟩] } }
  | finished {job status} : s.submitter.state = .calling job →
      Submitted cfg s (.outcome (some status))
        (s.notify job.certified (.executed (status.getD true)))
  | slept {label job} : s.submitter.state.submission = some job → job.attempt ≤ maxRetries →
      Submitted cfg s label { s with submitter := { (s.recordFailure job).submitter with
        state := .sleeping { job with backoff := 2 * job.backoff } (s.now + job.backoff) } }
  | gaveUp {label job} : s.submitter.state.submission = some job → maxRetries < job.attempt →
      Submitted cfg s label ((s.recordFailure job).notify job.certified (.executed false))
  | woken {job wake} : s.submitter.state = .sleeping job wake → wake ≤ s.now →
      Submitted cfg s .retry { s with submitter := { s.submitter with
        state := .submitting { job with attempt := job.attempt + 1 } } }

/-- Steps of the sequencer. -/
inductive Sequenced (cfg : Config D P G S) (s : Router T D P S) :
    Label T D P S → Router T D P S → Prop where
  | settled {wake} : s.sequencer.phase = .settling wake → wake ≤ s.now →
      Sequenced cfg s .sequence { s with
        reporter := { s.reporter with inbox := s.reporter.inbox ++ [.getTip] }
        sequencer := { s.sequencer with phase := .startingTip } }
  | started {answer} : s.sequencer.phase = .startingTip → s.tipAnswer = some answer →
      Sequenced cfg s .sequence { s with
        tipAnswer := none
        sequencer := { s.sequencer with
          phase := .draining
          nextHeight := max answer.tip s.safeTip
          known := s.sequencer.known ++ answer.certified } }
  | passedOver {label notice rest phase} : s.resolutions = notice :: rest →
      (s.sequencer.phase = .draining ∧ phase = .draining ∧ label = .sequence ∨
        (∃ call, s.sequencer.phase = .redraining call ∧ phase = .redraining call ∧
          label = .sequence) ∨
        ∃ call drive wake, s.sequencer.phase = .selecting call drive wake ∧
          notice.resolution.height ≠ drive.height ∧
          phase = .selecting call drive (s.now + cfg.rebroadcastInterval) ∧
          label = .resolution) →
      Sequenced cfg s label { s with
        resolutions := rest
        sequencer := { s.sequencer with
          phase
          nextHeight := max s.sequencer.nextHeight (notice.resolution.height + 1)
          consumed := s.sequencer.consumed ++ [notice] } }
  | drained : s.sequencer.phase = .draining → s.resolutions = [] →
      Sequenced cfg s .sequence { s with
        sequencer := { s.sequencer with phase := .awaitingTask } }
  | asked {call} : s.sequencer.phase = .redraining call → s.resolutions = [] →
      Sequenced cfg s .sequence { s with
        reporter := { s.reporter with inbox := s.reporter.inbox ++ [.getTip] }
        sequencer := { s.sequencer with phase := .awaitingTip call } }
  | chosen {call answer height} : s.sequencer.phase = .awaitingTip call →
      s.tipAnswer = some answer →
      height = max (max s.sequencer.nextHeight answer.tip) s.safeTip →
      Sequenced cfg s .sequence { s with
        tipAnswer := none
        sequencer := { s.sequencer with
          phase := .inserting call height
          nextHeight := height + 1
          known := s.sequencer.known ++ answer.certified } }
  | dropped {call height} : s.sequencer.phase = .inserting call height → s.poisoned = true →
      Sequenced cfg s .sequence { s with sequencer := { s.sequencer with phase := .draining } }
  | inserted {call height} : s.sequencer.phase = .inserting call height → s.poisoned = false →
      Sequenced cfg s .sequence { s with
        assignments := s.assignments.insert height ⟨call.sequenced.digest, call.sequenced.task⟩
        sequencer := { s.sequencer with
          phase := .starting call height
          assigned := s.sequencer.assigned ++ [(height, call)] } }
  | begun {call height} : s.sequencer.phase = .starting call height →
      Sequenced cfg s .sequence { s with
        dispatchTime := stampDispatchTime s.dispatchTime height s.now
        sequencer := { s.sequencer with
          phase := .selecting call { height, deadline := s.now + cfg.roundTimeout }
            (s.now + cfg.rebroadcastInterval)
          drives := s.sequencer.drives ++ [(height, s.now)]
          sent := s.sequencer.sent ++ [(s.now, .announce height call.sequenced.announce)] } }
  | latched {call drive digest} : s.sequencer.phase = .polling call drive →
      s.getAnswer = some (some digest) →
      Sequenced cfg s .sequence { s with
        getAnswer := none
        sequencer := { s.sequencer with
          phase := .selecting call { drive with certified := true }
            (s.now + cfg.rebroadcastInterval) } }
  | gaveUp {call drive} : s.sequencer.phase = .polling call drive → s.getAnswer = some none →
      drive.height < s.safeTip →
      Sequenced cfg s .sequence { s with
        getAnswer := none
        sequencer := { s.sequencer with
          phase := .releasing call drive.height .superseded
          superseded := s.sequencer.superseded ++ [(drive.height, s.safeTip)] } }
  | announced {call drive} : s.sequencer.phase = .polling call drive → s.getAnswer = some none →
      s.safeTip ≤ drive.height → drive.skipping = false → s.now < drive.deadline →
      Sequenced cfg s .sequence { s with
        getAnswer := none
        sequencer := { s.sequencer with
          phase := .selecting call drive (s.now + cfg.rebroadcastInterval)
          sent := s.sequencer.sent ++
            [(s.now, .announce drive.height call.sequenced.announce)] } }
  | abandoned {call drive} : s.sequencer.phase = .polling call drive → s.getAnswer = some none →
      s.safeTip ≤ drive.height → (drive.skipping = true ∨ drive.deadline ≤ s.now) →
      Sequenced cfg s .sequence { s with
        getAnswer := none
        sequencer := { s.sequencer with
          phase := .selecting call { drive with skipping := true }
            (s.now + cfg.rebroadcastInterval)
          sent := s.sequencer.sent ++ [(s.now, .skip drive.height)] } }
  | released {call height outcome} : s.sequencer.phase = .releasing call height outcome →
      Sequenced cfg s .sequence { s with
        assignments := if s.poisoned then s.assignments else s.assignments.erase height
        sequencer := { s.sequencer with phase := .after call outcome } }
  | exhausted : s.sequencer.phase = .awaitingTask →
      Sequenced cfg s (.task none) { s with sequencer := { s.sequencer with phase := .stopped } }
  | taken {sequenced} : s.sequencer.phase = .awaitingTask →
      Sequenced cfg s (.task (some sequenced)) { s with sequencer := { s.sequencer with
        phase := .redraining ⟨s.sequencer.calls, sequenced⟩
        calls := s.sequencer.calls + 1 } }
  | resolved {call drive wake notice rest} : s.sequencer.phase = .selecting call drive wake →
      s.resolutions = notice :: rest → notice.resolution.height = drive.height →
      Sequenced cfg s .resolution { s with
        resolutions := rest
        sequencer := { s.sequencer with
          phase := .releasing call drive.height (.resolved notice.resolution.kind)
          consumed := s.sequencer.consumed ++ [notice]
          resolved := s.sequencer.resolved ++ [drive.height] } }
  | closed {call drive wake} : s.sequencer.phase = .selecting call drive wake →
      s.resolutions = [] → s.submitter.up = false →
      Sequenced cfg s .resolution { s with sequencer := { s.sequencer with
        phase := .releasing call drive.height .closed } }
  | idled {call drive wake} : s.sequencer.phase = .selecting call drive wake →
      drive.certified = true →
      Sequenced cfg s .tick { s with sequencer := { s.sequencer with
        phase := .selecting call drive (s.now + cfg.rebroadcastInterval) } }
  | polled {call drive wake} : s.sequencer.phase = .selecting call drive wake →
      drive.certified = false → wake ≤ s.now →
      Sequenced cfg s .tick { s with
        reporter := { s.reporter with inbox := s.reporter.inbox ++ [.get drive.height] }
        sequencer := { s.sequencer with phase := .polling call drive } }

private theorem reported (taken : s.report cfg = some s') : Reported cfg s .report s' := by
  unfold report at taken
  split at taken
  · cases taken
  · split at taken
    · cases taken
    · rename_i waiting
      obtain ⟨⟨log, forward⟩, handled, shape⟩ := Option.map_eq_some_iff.mp taken
      rcases CertReporter.handleCertified_cases handled with ⟨rfl, rfl⟩ | ⟨fresh, valid, rfl, rfl⟩
      · split at shape <;> cases shape <;> simpa using Reported.ignored waiting
      · split at shape <;> cases shape
        · exact .forwarded waiting fresh valid
        · exact .retained waiting fresh valid
    · rename_i waiting
      cases taken
      exact .tip waiting
    · rename_i waiting
      cases taken
      exact .answeredTip waiting
    · rename_i waiting
      cases taken
      exact .answeredGet waiting

private theorem unanswered_cases (taken : s.unanswered = some s') :
    Environment cfg s .unanswered s' := by
  unfold unanswered at taken
  split at taken
  · cases taken
  · split at taken <;> cases taken
    · exact .noTip
    · exact .noTip
    · exact .noDigest

private theorem failed_cases {job : Submission T D (Bn254Certificate S)}
    (active : s.submitter.state.submission = some job) : Submitted cfg s label (s.failed job) := by
  unfold failed
  split
  · exact .slept active ‹_›
  · exact .gaveUp active (not_le.mp ‹_›)

private theorem received [DecidableEq D] (taken : s.receive cfg = some s') :
    Submitted cfg s .receive s' := by
  unfold receive at taken
  split at taken
  · rename_i idle waiting
    split at taken <;> cases taken
    · exact .skipped idle waiting ‹_›
    · exact .looking idle waiting ‹_›
  · cases taken

private theorem looked [DecidableEq D] (taken : s.look = some s') : Submitted cfg s .look s' := by
  unfold look at taken
  split at taken
  · rename_i c looking
    cases found : (if s.poisoned then none else s.assignments.get? c.height) with
    | none =>
      simp only [found, Assignment.matching] at taken
      cases taken
      refine .foreign looking fun sane assignment present => ?_
      simp [sane, present] at found
    | some assignment =>
      have present : s.assignments.get? c.height = some assignment := by
        split at found
        · cases found
        · exact found
      by_cases same : assignment.digest = c.digest
      · simp only [found, Assignment.matching, ne_eq, same, not_true_eq_false, if_false] at taken
        cases taken
        exact .picked looking present same
      · simp only [found, Assignment.matching, ne_eq, same] at taken
        cases taken
        refine .foreign looking fun _ other present' => ?_
        rw [present] at present'
        cases present'
        exact same
  · cases taken

private theorem attempted {reaches : Bool} (taken : s.attempt cfg reaches = some s') :
    Submitted cfg s (.attempt reaches) s' := by
  unfold attempt at taken
  split at taken
  · rename_i job submitting
    split at taken <;> cases taken
    · exact failed_cases (by rw [submitting]; rfl)
    · rename_i able
      simp only [Bool.or_eq_true, List.isEmpty_iff, bne_iff_ne, ne_eq, Bool.not_eq_true', not_or,
        Bool.not_eq_false] at able
      obtain ⟨⟨named, -⟩, rfl⟩ := able
      exact .called submitting named
  · cases taken

private theorem returned {result : Option (Option Bool)} (taken : s.outcome result = some s') :
    Submitted cfg s (.outcome result) s' := by
  unfold outcome at taken
  split at taken
  · rename_i job calling
    split at taken <;> cases taken
    · exact .finished calling
    · exact failed_cases (by rw [calling]; rfl)
  · cases taken

private theorem retried (taken : s.retry = some s') : Submitted cfg s .retry s' := by
  unfold retry at taken
  split at taken
  · rename_i sleeping
    obtain ⟨awake, ⟨⟩⟩ := Option.ite_none_right_eq_some.mp taken
    exact .woken sleeping awake
  · cases taken

private theorem passedOver {notice : Notice D S} {rest : List (Notice D S)} {phase : Phase T D}
    (taken : s.passOver notice rest phase = some s') :
    s' = { s with
      resolutions := rest
      sequencer := { s.sequencer with
        phase
        nextHeight := max s.sequencer.nextHeight (notice.resolution.height + 1)
        consumed := s.sequencer.consumed ++ [notice] } } := by
  obtain ⟨next, within, ⟨⟩⟩ := Option.map_eq_some_iff.mp taken
  rw [succHeight_eq within]

private theorem rebroadcasted {call : Call T D} {drive : Drive} {answer : Option D}
    (polling : s.sequencer.phase = .polling call drive) (answered : s.getAnswer = some answer) :
    Sequenced cfg s .sequence (s.rebroadcast cfg call drive answer) := by
  unfold rebroadcast
  split
  · rename_i certified
    obtain ⟨digest, rfl⟩ := Option.isSome_iff_exists.mp certified
    exact .latched polling answered
  · rename_i uncertified
    obtain rfl : answer = none := by simpa using uncertified
    split
    · exact .gaveUp polling answered ‹_›
    · rename_i low
      by_cases turn : drive.skipping = true ∨ drive.deadline ≤ s.now
      · have passed : (drive.skipping || decide (drive.deadline ≤ s.now)) = true := by
          simpa using turn
        simp only [passed]
        exact .abandoned polling answered (not_lt.mp low) turn
      · obtain ⟨patient, early⟩ := not_or.mp turn
        have passed : (drive.skipping || decide (drive.deadline ≤ s.now)) = false := by
          simpa using turn
        have same : { drive with skipping := false } = drive := by
          cases drive
          simpa using (Bool.eq_false_of_not_eq_true patient).symm
        simp only [passed, same]
        exact .announced polling answered (not_lt.mp low) (by simpa using patient)
          (not_le.mp early)

private theorem sequenced (taken : s.sequence cfg = some s') : Sequenced cfg s .sequence s' := by
  unfold sequence at taken
  split at taken
  · obtain ⟨awake, ⟨⟩⟩ := Option.ite_none_right_eq_some.mp taken
    exact .settled ‹_› awake
  · obtain ⟨tip, answered, ⟨⟩⟩ := Option.map_eq_some_iff.mp taken
    exact .started ‹_› answered
  · rename_i draining
    split at taken
    · obtain rfl := passedOver taken
      exact .passedOver ‹_› (.inl ⟨draining, rfl, rfl⟩)
    · cases taken
      exact .drained draining ‹_›
  · rename_i call redraining
    split at taken
    · obtain rfl := passedOver taken
      exact .passedOver ‹_› (.inr (.inl ⟨call, redraining, rfl, rfl⟩))
    · cases taken
      exact .asked redraining ‹_›
  · obtain ⟨tip, answered, taken⟩ := Option.bind_eq_some_iff.mp taken
    obtain ⟨next, within, ⟨⟩⟩ := Option.map_eq_some_iff.mp taken
    rw [succHeight_eq within]
    exact .chosen ‹_› answered rfl
  · split at taken <;> cases taken
    · exact .dropped ‹_› ‹_›
    · exact .inserted ‹_› (by simpa using ‹¬ s.poisoned = true›)
  · cases taken
    exact .begun ‹_›
  · obtain ⟨answer, answered, ⟨⟩⟩ := Option.map_eq_some_iff.mp taken
    exact rebroadcasted ‹_› answered
  · cases taken
    exact .released ‹_›
  all_goals cases taken

private theorem tasked {next : Option (SequencedTask T D)} (taken : s.task next = some s') :
    Sequenced cfg s (.task next) s' := by
  unfold task at taken
  split at taken
  · cases taken
    exact .exhausted ‹_›
  · cases taken
    exact .taken ‹_›
  · cases taken

private theorem selected (taken : s.resolution cfg = some s') :
    Sequenced cfg s .resolution s' := by
  unfold resolution at taken
  split at taken
  · rename_i call drive wake selecting
    split at taken
    · split at taken
      · cases taken
        exact .resolved selecting ‹_› ‹_›
      · obtain rfl := passedOver taken
        exact .passedOver ‹_› (.inr (.inr ⟨call, drive, wake, selecting, ‹_›, rfl, rfl⟩))
    · split at taken <;> cases taken
      exact .closed selecting ‹_› (by simpa using ‹¬ s.submitter.up = true›)
  · cases taken

private theorem ticked (taken : s.tick cfg = some s') : Sequenced cfg s .tick s' := by
  unfold tick at taken
  split at taken
  · rename_i selecting
    split at taken
    · cases taken
    · split at taken <;> cases taken
      · exact .idled selecting ‹_›
      · exact .polled selecting (by simpa using ‹¬ _ = true›) (not_lt.mp ‹_›)
  · cases taken

/-- A step is one actor's. -/
theorem step_cases [DecidableEq D] (taken : step cfg s label = some s') :
    Environment cfg s label s' ∨ Reported cfg s label s' ∨ Submitted cfg s label s' ∨
      Sequenced cfg s label s' := by
  cases label with
  | elapse duration => cases taken; exact .inl (.elapsed duration)
  | activity activity => cases taken; exact .inl (.activity activity)
  | message peer payload => cases taken; exact .inl (.message peer payload)
  | reporterStops => cases taken; exact .inl .reporterStopped
  | submitterStops => cases taken; exact .inl .submitterStopped
  | report => exact .inr (.inl (reported taken))
  | unanswered => exact .inl (unanswered_cases taken)
  | receive => exact .inr (.inr (.inl (received (Option.ite_none_right_eq_some.mp taken).2)))
  | look => exact .inr (.inr (.inl (looked (Option.ite_none_right_eq_some.mp taken).2)))
  | attempt reaches =>
    exact .inr (.inr (.inl (attempted (Option.ite_none_right_eq_some.mp taken).2)))
  | outcome result =>
    exact .inr (.inr (.inl (returned (Option.ite_none_right_eq_some.mp taken).2)))
  | retry => exact .inr (.inr (.inl (retried (Option.ite_none_right_eq_some.mp taken).2)))
  | sequence => exact .inr (.inr (.inr (sequenced taken)))
  | task next => exact .inr (.inr (.inr (tasked taken)))
  | resolution => exact .inr (.inr (.inr (selected taken)))
  | tick => exact .inr (.inr (.inr (ticked taken)))

/-- The part of the state that only the sequencer writes is left alone, and time
does not run backwards. -/
structure SequencerKept (s s' : Router T D P S) : Prop where
  sequencer : s'.sequencer = s.sequencer
  assignments : s'.assignments = s.assignments
  now : s.now ≤ s'.now

theorem Environment.kept (environment : Environment cfg s label s') : SequencerKept s s' := by
  cases environment with
  | elapsed duration => exact ⟨rfl, rfl, Nat.le_add_right _ _⟩
  | _ => exact ⟨rfl, rfl, le_rfl⟩

theorem Reported.kept (reported : Reported cfg s label s') : SequencerKept s s' := by
  cases reported <;> exact ⟨rfl, rfl, le_rfl⟩

theorem Submitted.kept (submitted : Submitted cfg s label s') : SequencerKept s s' := by
  cases submitted <;> exact ⟨rfl, rfl, le_rfl⟩

/-- A step is the sequencer's, or leaves what the sequencer writes alone. -/
theorem step_sequenced [DecidableEq D] (taken : step cfg s label = some s') :
    SequencerKept s s' ∨ Sequenced cfg s label s' := by
  rcases step_cases taken with environment | reported | submitted | sequenced
  · exact .inl environment.kept
  · exact .inl reported.kept
  · exact .inl submitted.kept
  · exact .inr sequenced

/-- Only the engine reports certificates. -/
theorem step_reported [DecidableEq D] (taken : step cfg s label = some s') :
    s'.reporter.reported = s.reporter.reported ∨ ∃ cert, label = .activity (.certified cert) ∧
      s'.reporter.reported = s.reporter.reported ++ [cert] := by
  rcases step_cases taken with environment | reported | submitted | sequenced
  · cases environment with
    | activity activity =>
      cases activity with
      | certified cert => exact .inr ⟨cert, rfl, rfl⟩
      | _ => exact .inl rfl
    | _ => exact .inl rfl
  · cases reported <;> exact .inl rfl
  · cases submitted <;> exact .inl rfl
  · cases sequenced <;> exact .inl rfl

/-- What the reporter forwards was waiting in its mailbox. -/
theorem step_forwarded [DecidableEq D] {cert : Cert D S} (taken : step cfg s label = some s')
    (forwards : s'.reporter.forwarded = s.reporter.forwarded ++ [cert]) :
    .certified cert ∈ s.reporter.inbox := by
  have longer : s'.reporter.forwarded ≠ s.reporter.forwarded := by
    intro same
    rw [same] at forwards
    simp at forwards
  rcases step_cases taken with environment | reported | submitted | sequenced
  · cases environment <;> exact absurd rfl longer
  · cases reported with
    | forwarded waiting _ _ =>
      obtain rfl := List.singleton_inj.mp (List.append_cancel_left forwards)
      rw [waiting]
      exact List.mem_cons_self
    | _ => exact absurd rfl longer
  · cases submitted <;> exact absurd rfl longer
  · cases sequenced <;> exact absurd rfl longer

/-- A height is given up while it is polled, with no certificate and a safe tip
above it. -/
theorem step_superseded [DecidableEq D] (taken : step cfg s label = some s') :
    s'.sequencer.superseded = s.sequencer.superseded ∨ ∃ call drive, label = .sequence ∧
      s.sequencer.phase = .polling call drive ∧ s.getAnswer = some none ∧
      drive.height < s.safeTip ∧
      s'.sequencer.superseded = s.sequencer.superseded ++ [(drive.height, s.safeTip)] := by
  rcases step_sequenced taken with kept | sequenced
  · exact .inl (by rw [kept.sequencer])
  · cases sequenced with
    | @gaveUp call drive polling unanswered below =>
      exact .inr ⟨call, drive, rfl, polling, unanswered, below, rfl⟩
    | _ => exact .inl rfl

/-- A state of one router life. -/
abbrev InLife [DecidableEq D] (cfg : Config D P G S) (s : Router T D P S) : Prop :=
  Reachable (· = init cfg) (step cfg) s

theorem InLife.of_exec_any [DecidableEq D] (cfg : Config D P G S) (labels : List (Label T D P S))
    (p : Router T D P S → Bool)
    (passed : (exec (guarded (step cfg) fun _ _ => True) (init cfg) labels).any p = true) :
    ∃ s, InLife cfg s ∧ p s = true :=
  Reachable.of_exec_any rfl passed

section Examples

/-- One operator whose signature alone is a quorum. -/
def solo : Config Nat Nat Unit Unit where
  sha256 := List.length
  namespaceBytes := []
  scheme := {
    participants := [0]
    g1Keys := [()]
    distinct := List.nodup_singleton 0
    nonempty := List.cons_ne_nil 0 []
    aligned := rfl
    aggregateVerify := fun _ _ _ => true }
  roundTimeout := 10
  rebroadcastInterval := 1

abbrev SoloLabel := Label Nat Nat Nat Unit

def soloCertificate (height digest : Nat) : Cert Nat Unit := ⟨height, digest, ⟨[true], ()⟩⟩

/-- The start, up to the first call of `next_task`. -/
def soloStart : List SoloLabel := [.elapse settleDelay, .sequence, .report, .sequence, .sequence]

/-- A task is taken, assigned and announced. -/
def soloAssign (task digest : Nat) : List SoloLabel :=
  [.task (some ⟨task, task, digest⟩), .sequence, .report, .sequence, .sequence, .sequence]

/-- A certificate arrives, is submitted and resolves its height. -/
def soloExecute (height digest : Nat) : List SoloLabel :=
  [.activity (.certified (soloCertificate height digest)), .report, .receive, .look,
    .attempt true, .outcome (some (some true))]

/-- The resolution arrives and the sequencer asks for the next task. -/
def soloRelease : List SoloLabel := [.resolution, .sequence, .sequence]

end Examples

end Restaking.Router
