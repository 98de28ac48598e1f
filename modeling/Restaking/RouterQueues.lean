import Restaking.Deliveries
import Restaking.SubmitterOutcomes

/-! The queues of the router, step by step: mailboxes and channels lose their first
entry or grow at their end, the submitter's steps bring it closer to a resolution,
and nothing that waits for an answer has been forgotten. -/
namespace Restaking.Router
open Lib

variable {T D P G S : Type*} [LinearOrder P]
variable {cfg : Config D P G S} {s s' : Router T D P S} {label : Label T D P S} {c : Cert D S}

/-- The steps of the submitter. -/
def submits : Label T D P S → Prop
  | .receive => True
  | .look => True
  | .attempt _ => True
  | .outcome _ => True
  | .retry => True
  | _ => False

/-! ## What a step does to the queues -/

/-- An entry keeps its place in a list that grows at its end. -/
theorem place_kept {α : Type*} {xs ys : List α} {k : Nat} {x : α} (grown : xs <+: ys)
    (place : xs[k]? = some x) : ys[k]? = some x := by
  obtain ⟨more, rfl⟩ := grown
  rw [List.getElem?_append_left (List.getElem?_eq_some_iff.mp place).1]
  exact place

/-- The clock does not run backwards. -/
theorem step_now [DecidableEq D] (taken : step cfg s label = some s') : s.now ≤ s'.now := by
  rcases step_sequenced taken with kept | sequenced
  · exact kept.now
  · cases sequenced <;> exact le_rfl

/-- The reporter takes the first message of its mailbox. -/
theorem report_pops (taken : s.report cfg = some s') :
    ∃ message, s.reporter.inbox = message :: s'.reporter.inbox := by
  unfold report at taken
  split at taken
  · cases taken
  · split at taken
    · cases taken
    · rename_i waiting
      obtain ⟨handled, -, shape⟩ := Option.map_eq_some_iff.mp taken
      split at shape <;> cases shape <;> exact ⟨_, waiting⟩
    all_goals
      rename_i waiting
      cases taken
      exact ⟨_, waiting⟩

theorem passOver_submitter {notice : Notice D S} {rest : List (Notice D S)} {phase : Phase T D}
    (taken : s.passOver notice rest phase = some s') : s'.submitter = s.submitter := by
  obtain ⟨next, -, rfl⟩ := Option.map_eq_some_iff.mp taken
  rfl

theorem rebroadcast_submitter {call : Call T D} {drive : Drive} {answer : Option D} :
    (s.rebroadcast cfg call drive answer).submitter = s.submitter := by
  unfold rebroadcast
  split
  · rfl
  · split <;> rfl

theorem sequence_submitter (taken : s.sequence cfg = some s') : s'.submitter = s.submitter := by
  unfold sequence at taken
  split at taken
  · obtain ⟨-, ⟨⟩⟩ := Option.ite_none_right_eq_some.mp taken
    rfl
  · obtain ⟨answer, -, ⟨⟩⟩ := Option.map_eq_some_iff.mp taken
    rfl
  · split at taken
    · exact passOver_submitter taken
    · cases taken
      rfl
  · split at taken
    · exact passOver_submitter taken
    · cases taken
      rfl
  · obtain ⟨answer, -, taken⟩ := Option.bind_eq_some_iff.mp taken
    obtain ⟨next, -, ⟨⟩⟩ := Option.map_eq_some_iff.mp taken
    rfl
  · split at taken <;> cases taken <;> rfl
  · cases taken
    rfl
  · obtain ⟨answer, -, rfl⟩ := Option.map_eq_some_iff.mp taken
    exact rebroadcast_submitter
  · cases taken
    rfl
  all_goals cases taken

theorem report_submitter (taken : s.report cfg = some s') :
    s'.submitter = s.submitter := by
  unfold report at taken
  split at taken
  · cases taken
  · split at taken
    · cases taken
    · obtain ⟨handled, -, shape⟩ := Option.map_eq_some_iff.mp taken
      split at shape <;> cases shape <;> rfl
    all_goals
      cases taken
      rfl

theorem select_submitter (taken : s.resolution cfg = some s') : s'.submitter = s.submitter := by
  unfold resolution at taken
  split at taken
  · split at taken
    · split at taken
      · cases taken
        rfl
      · exact passOver_submitter taken
    · split at taken <;> cases taken
      rfl
  · cases taken

section Queues

variable [DecidableEq D]

/-- Records only grow. -/
theorem step_grows (taken : step cfg s label = some s') :
    s.reporter.forwarded <+: s'.reporter.forwarded ∧
      s.submitter.notified <+: s'.submitter.notified ∧
      s.sequencer.consumed <+: s'.sequencer.consumed := by
  rcases step_cases taken with environment | reported | submitted | sequenced
  · cases environment <;> exact ⟨List.prefix_rfl, List.prefix_rfl, List.prefix_rfl⟩
  · cases reported with
    | forwarded => exact ⟨List.prefix_append _ _, List.prefix_rfl, List.prefix_rfl⟩
    | _ => exact ⟨List.prefix_rfl, List.prefix_rfl, List.prefix_rfl⟩
  · cases submitted with
    | skipped | foreign | finished | gaveUp =>
      exact ⟨List.prefix_rfl, List.prefix_append _ _, List.prefix_rfl⟩
    | _ => exact ⟨List.prefix_rfl, List.prefix_rfl, List.prefix_rfl⟩
  · cases sequenced with
    | passedOver | resolved => exact ⟨List.prefix_rfl, List.prefix_rfl, List.prefix_append _ _⟩
    | _ => exact ⟨List.prefix_rfl, List.prefix_rfl, List.prefix_rfl⟩

/-- Every other step leaves the messages in their places. -/
theorem step_inbox (taken : step cfg s label = some s') (other : label ≠ .report) :
    s.reporter.inbox <+: s'.reporter.inbox := by
  rcases step_cases taken with environment | reported | submitted | sequenced
  · cases environment with
    | activity => exact List.prefix_append _ _
    | _ => exact List.prefix_rfl
  · cases reported <;> exact absurd rfl other
  · cases submitted <;> exact List.prefix_rfl
  · cases sequenced with
    | settled | asked | polled => exact List.prefix_append _ _
    | _ => exact List.prefix_rfl

/-- A message moves up when the reporter handles one, and keeps its place otherwise. -/
theorem step_place {k : Nat} {message : CertReporter.Message D (Bn254Certificate S)}
    (taken : step cfg s label = some s') (place : s.reporter.inbox[k + 1]? = some message) :
    s'.reporter.inbox[k]? = some message ∨
      label ≠ .report ∧ s'.reporter.inbox[k + 1]? = some message := by
  by_cases report : label = .report
  · subst report
    obtain ⟨first, waiting⟩ := report_pops taken
    rw [waiting] at place
    exact .inl place
  · exact .inr ⟨report, place_kept (step_inbox taken report) place⟩

/-- Only the submitter's own steps change what it is at and what it has resolved. -/
theorem step_submitter (taken : step cfg s label = some s') (other : ¬ submits label) :
    s'.submitter.state = s.submitter.state ∧ s'.submitter.notified = s.submitter.notified := by
  suffices kept : s'.submitter = { s.submitter with up := s'.submitter.up } by
    rw [kept]
    exact ⟨rfl, rfl⟩
  have untouched (same : s'.submitter = s.submitter) :
      s'.submitter = { s.submitter with up := s'.submitter.up } := by rw [same]
  cases label with
  | receive | look | attempt | outcome | retry => exact absurd trivial other
  | report => exact untouched (report_submitter taken)
  | sequence => exact untouched (sequence_submitter taken)
  | resolution => exact untouched (select_submitter taken)
  | unanswered =>
    simp only [step, stepWith, unanswered] at taken
    split at taken
    · cases taken
    · split at taken <;> cases taken <;> rfl
  | task next =>
    simp only [step, stepWith, task] at taken
    split at taken <;> cases taken <;> rfl
  | tick =>
    simp only [step, stepWith, tick] at taken
    split at taken
    · split at taken
      · cases taken
      · split at taken <;> cases taken <;> rfl
    · cases taken
  | _ =>
    cases taken
    rfl
end Queues

/-! ## The submitter -/

/-- How far the submitter is from its next resolution. -/
def stage {C : Type*} : Submitter T D C → Nat
  | .idle => 3 * (maxRetries + 2) + 2
  | .lookup _ => 3 * (maxRetries + 2) + 1
  | .submitting job => 3 * (maxRetries + 2 - job.attempt) + 3
  | .calling job => 3 * (maxRetries + 2 - job.attempt) + 2
  | .sleeping job _ => 3 * (maxRetries + 2 - job.attempt) + 1

/-- The submitter has resolved a certificate, or comes closer to it. -/
def Advances (s s' : Router T D P S) : Prop :=
  s'.submitter.notified.length = s.submitter.notified.length + 1 ∨
    s'.submitter.notified = s.submitter.notified ∧
      stage s'.submitter.state < stage s.submitter.state

theorem advances_notify (certified : List (Cert D S)) {kind : ResolutionKind} :
    Advances s ({ s with certified }.notify c kind) := .inl (by simp [notify])

theorem advances_failed {job : Submission T D (Bn254Certificate S)}
    (later : 3 * (maxRetries + 2 - job.attempt) + 1 < stage s.submitter.state) :
    Advances s (s.failed job) := by
  unfold failed
  split
  · exact .inr ⟨rfl, later⟩
  · exact advances_notify s.certified

/-- Every step of the submitter advances. -/
theorem step_advances [DecidableEq D] (taken : step cfg s label = some s') (acts : submits label)
    (sleeping : ∀ job wake, s.submitter.state = .sleeping job wake → job.attempt ≤ maxRetries) :
    Advances s s' := by
  cases label with
  | receive =>
    obtain ⟨-, taken⟩ := Option.ite_none_right_eq_some.mp taken
    unfold receive at taken
    split at taken
    · rename_i idle waiting
      split at taken <;> cases taken
      · exact advances_notify _
      · exact .inr ⟨rfl, by rw [idle]; simp only [stage]; omega⟩
    · cases taken
  | look =>
    obtain ⟨-, taken⟩ := Option.ite_none_right_eq_some.mp taken
    unfold look at taken
    split at taken
    · rename_i c looking
      split at taken <;> cases taken
      · exact advances_notify s.certified
      · rename_i job matched
        have first : job.attempt = 1 := by
          obtain ⟨_, -, -, rfl⟩ := Assignment.matching_eq_some matched
          rfl
        exact .inr ⟨rfl, by rw [looking]; simp only [stage, first]; omega⟩
    · cases taken
  | attempt reaches =>
    obtain ⟨-, taken⟩ := Option.ite_none_right_eq_some.mp taken
    unfold attempt at taken
    split at taken
    · rename_i job submitting
      split at taken <;> cases taken
      · exact advances_failed (by rw [submitting]; simp only [stage]; omega)
      · exact .inr ⟨rfl, by rw [submitting]; simp only [stage]; omega⟩
    · cases taken
  | outcome result =>
    obtain ⟨-, taken⟩ := Option.ite_none_right_eq_some.mp taken
    unfold outcome at taken
    split at taken
    · rename_i job calling
      split at taken <;> cases taken
      · exact advances_notify s.certified
      · exact advances_failed (by rw [calling]; simp only [stage]; omega)
    · cases taken
  | retry =>
    obtain ⟨-, taken⟩ := Option.ite_none_right_eq_some.mp taken
    unfold retry at taken
    split at taken
    · rename_i job wake asleep
      obtain ⟨-, ⟨⟩⟩ := Option.ite_none_right_eq_some.mp taken
      have left := sleeping job wake asleep
      exact .inr ⟨rfl, by rw [asleep]; simp only [stage]; omega⟩
    · cases taken
  | _ => cases acts

/-! ## The sequencer -/

/-- The drive of the height waits in `select!` or is over. -/
def Attentive (s : Router T D P S) (h : Nat) : Prop :=
  (∃ call drive wake, s.sequencer.phase = .selecting call drive wake) ∨
    (∃ call outcome, s.sequencer.phase = .releasing call h outcome) ∨
    s.sequencer.phase.driven ≠ some h

/-- A drive outside `select!` only goes back to it or ends. -/
theorem attentive_of_step [DecidableEq D] {h : Nat} (taken : step cfg s label = some s')
    (driven : s.sequencer.phase.driven = some h)
    (outside : ∀ call drive wake, s.sequencer.phase ≠ .selecting call drive wake) :
    s'.sequencer.phase = s.sequencer.phase ∨ Attentive s' h := by
  rcases step_sequenced taken with kept | sequenced
  · exact .inl (by rw [kept.sequencer])
  · refine .inr ?_
    cases sequenced with
    | begun | latched | announced | abandoned => exact .inl ⟨_, _, _, rfl⟩
    | gaveUp here _ _ =>
      rw [here] at driven
      cases driven
      exact .inr (.inl ⟨_, _, rfl⟩)
    | released =>
      refine .inr (.inr ?_)
      rw [Phase.driven_after]
      exact nofun
    | resolved here _ _ | closed here _ _ | idled here _ | polled here _ _ =>
      exact absurd here (outside _ _ _)
    | passedOver _ origin =>
      rcases origin with ⟨here, -⟩ | ⟨call, here, -⟩ | ⟨call, drive, wake, here, -⟩
      · rw [here] at driven; cases driven
      · rw [here] at driven; cases driven
      · exact absurd here (outside _ _ _)
    | settled here | started here | drained here | asked here | chosen here | dropped here
    | inserted here | exhausted here | taken here =>
      rw [here] at driven
      cases driven

theorem sequence_leaves {h : Nat} (taken : s.sequence cfg = some s')
    (driven : s.sequencer.phase.driven = some h) : s'.sequencer.phase ≠ s.sequencer.phase := by
  unfold sequence at taken
  split at taken <;> rename_i here <;> rw [here] at driven ⊢
  case h_7 =>
    cases taken
    simp [broadcast]
  case h_8 =>
    obtain ⟨answer, -, rfl⟩ := Option.map_eq_some_iff.mp taken
    unfold rebroadcast
    split
    · simp
    · split <;> simp [broadcast]
  case h_9 outcome =>
    cases taken
    rcases outcome with (_ | _ | _) | _ | _ <;> simp [Phase.after]
  case h_11 => cases taken
  all_goals cases driven

/-- An answer waits until the sequencer takes it. -/
theorem answer_kept [DecidableEq D] {call : Call T D} {drive : Drive}
    (taken : step cfg s label = some s') (polling : s'.sequencer.phase = .polling call drive)
    (answered : s.getAnswer.isSome = true) : s'.getAnswer.isSome = true := by
  rcases step_cases taken with environment | reported | submitted | sequenced
  · cases environment with
    | noDigest => cases found : s.getAnswer <;> simp [found] at answered ⊢
    | _ => exact answered
  · cases reported <;> first | exact answered | rfl
  · cases submitted <;> exact answered
  · cases sequenced with
    | latched | gaveUp | announced | abandoned => cases polling
    | _ => exact answered

/-- A query that is handled is answered. -/
theorem report_answers {h : Nat} {inbox : List (CertReporter.Message D (Bn254Certificate S))}
    (taken : s.report cfg = some s') (waiting : s.reporter.inbox = .get h :: inbox) :
    s'.getAnswer.isSome = true := by
  unfold report at taken
  split at taken
  · cases taken
  · simp only [waiting] at taken
    cases taken
    rfl

/-- The resolution branch receives a resolution that waits. -/
theorem resolution_consumes (taken : s.resolution cfg = some s') (waits : s.resolutions ≠ []) :
    s'.sequencer.consumed.length = s.sequencer.consumed.length + 1 := by
  unfold resolution at taken
  split at taken
  · split at taken
    · split at taken
      · cases taken
        simp
      · obtain ⟨next, -, rfl⟩ := Option.map_eq_some_iff.mp taken
        simp
    · exact absurd ‹_› waits
  · cases taken

/-- A released height is no longer driven. -/
theorem released_of_step [DecidableEq D] {call : Call T D} {h : Nat} {outcome : HeightOutcome}
    (taken : step cfg s label = some s')
    (here : s.sequencer.phase = .releasing call h outcome) :
    s'.sequencer.phase = s.sequencer.phase ∨ s'.sequencer.phase.driven ≠ some h := by
  rcases step_sequenced taken with kept | sequenced
  · exact .inl (by rw [kept.sequencer])
  · refine .inr ?_
    cases sequenced with
    | released =>
      rw [Phase.driven_after]
      exact nofun
    | passedOver _ origin =>
      rcases origin with ⟨there, -⟩ | ⟨call, there, -⟩ | ⟨call, drive, wake, there, -⟩ <;>
        cases here.symm.trans there
    | settled there | started there | drained there | asked there | chosen there | dropped there
    | inserted there | exhausted there | taken there | begun there | latched there
    | gaveUp there | announced there | abandoned there | resolved there | closed there
    | idled there | polled there => cases here.symm.trans there

/-! ## What lives through a whole run -/

/-- A certificate that the engine reported is in the mailbox, or its height has been
handed on; a query that the sequencer waits for is in the mailbox or answered; a
sleeping submission has a retry left. -/
structure Attended (cfg : Config D P G S) (s : Router T D P S) : Prop where
  filed : s.submitter.up = true → ∀ c ∈ s.reporter.reported, cfg.verify c = true →
    .certified c ∈ s.reporter.inbox ∨ ∃ c' ∈ s.reporter.forwarded, c'.height = c.height
  asked : ∀ call drive, s.sequencer.phase = .polling call drive →
    s.getAnswer.isSome = true ∨ ∃ h, .get h ∈ s.reporter.inbox
  sleeping : ∀ job wake, s.submitter.state = .sleeping job wake → job.attempt ≤ maxRetries

/-- A certificate that is handled leaves its height handed on. -/
theorem report_files (taken : s.report cfg = some s') (deliveries : Deliveries cfg s)
    (alive : s.submitter.up = true) (verified : cfg.verify c = true)
    (waiting : s.reporter.inbox = .certified c :: s'.reporter.inbox)
    (grows : s.reporter.forwarded <+: s'.reporter.forwarded) :
    ∃ c' ∈ s'.reporter.forwarded, c'.height = c.height := by
  cases found : s.reporter.log.certified.get? c.height with
  | none =>
    refine ⟨c, ?_, rfl⟩
    rw [report_forwards taken alive waiting found verified]
    exact List.mem_append_right _ (List.mem_singleton_self _)
  | some digest =>
    obtain ⟨c', member, height, -⟩ := deliveries.filed alive c.height digest found
    exact ⟨c', grows.subset member, height⟩

theorem Attended.init : Attended cfg (init cfg : Router T D P S) where
  filed := fun _ _ member => nomatch member
  asked := fun _ _ phase => nomatch phase
  sleeping := fun _ _ state => nomatch state

/-- A step that takes no message and adds no certificate. -/
theorem Attended.still (attended : Attended cfg s)
    (reported : s'.reporter.reported = s.reporter.reported)
    (forwarded : s'.reporter.forwarded = s.reporter.forwarded)
    (inbox : s.reporter.inbox <+: s'.reporter.inbox)
    (up : s'.submitter.up = true → s.submitter.up = true)
    (asked : ∀ call drive, s'.sequencer.phase = .polling call drive →
      s'.getAnswer.isSome = true ∨ ∃ h, .get h ∈ s'.reporter.inbox)
    (sleeping : ∀ job wake, s'.submitter.state = .sleeping job wake → job.attempt ≤ maxRetries) :
    Attended cfg s' where
  filed := by
    intro alive c member verified
    rw [reported] at member
    rw [forwarded]
    exact (attended.filed (up alive) c member verified).imp_left fun waits => inbox.subset waits
  asked := asked
  sleeping := sleeping

theorem Attended.environment (attended : Attended cfg s) (taken : Environment cfg s label s') :
    Attended cfg s' := by
  have asked (more : List (CertReporter.Message D (Bn254Certificate S))) (call : Call T D)
      (drive : Drive) (phase : s.sequencer.phase = .polling call drive) :
      s.getAnswer.isSome = true ∨ ∃ h, .get h ∈ s.reporter.inbox ++ more := by
    refine (attended.asked call drive phase).imp_right ?_
    rintro ⟨h, waits⟩
    exact ⟨h, List.mem_append_left _ waits⟩
  cases taken with
  | activity activity =>
    cases activity with
    | certified c =>
      refine ⟨?_, asked _, attended.sleeping⟩
      intro alive c' member verified
      rcases List.mem_append.mp member with earlier | last
      · exact (attended.filed alive c' earlier verified).imp_left fun waits =>
          List.mem_append_left _ waits
      · cases List.mem_singleton.mp last
        exact .inl (List.mem_append_right _ (List.mem_singleton_self _))
    | _ => exact attended.still rfl rfl (List.prefix_append _ _) id (asked _) attended.sleeping
  | submitterStopped =>
    exact attended.still rfl rfl List.prefix_rfl (by rintro ⟨⟩) attended.asked attended.sleeping
  | noDigest =>
    refine attended.still rfl rfl List.prefix_rfl id ?_ attended.sleeping
    intro call drive phase
    exact .inl (by cases s.getAnswer <;> rfl)
  | _ => exact attended.still rfl rfl List.prefix_rfl id attended.asked attended.sleeping

theorem Attended.submitted (attended : Attended cfg s) (taken : Submitted cfg s label s') :
    Attended cfg s' := by
  cases taken with
  | slept _ more =>
    refine attended.still rfl rfl List.prefix_rfl id attended.asked ?_
    rintro job wake ⟨⟩
    exact more
  | _ =>
    refine attended.still rfl rfl List.prefix_rfl id attended.asked ?_
    rintro job wake ⟨⟩

theorem Attended.sequenced (attended : Attended cfg s) (taken : Sequenced cfg s label s') :
    Attended cfg s' := by
  have still (phase : ∀ call drive, s'.sequencer.phase ≠ .polling call drive)
      (reported : s'.reporter.reported = s.reporter.reported)
      (forwarded : s'.reporter.forwarded = s.reporter.forwarded)
      (inbox : s.reporter.inbox <+: s'.reporter.inbox)
      (submitter : s'.submitter = s.submitter) : Attended cfg s' := by
    refine attended.still reported forwarded inbox (by rw [submitter]; exact id) ?_
      (by rw [submitter]; exact attended.sleeping)
    exact fun call drive polling => absurd polling (phase call drive)
  cases taken with
  | polled here _ _ =>
    refine attended.still rfl rfl (List.prefix_append _ _) id ?_ attended.sleeping
    rintro call drive -
    exact .inr ⟨_, List.mem_append_right _ (List.mem_singleton_self _)⟩
  | settled | asked => exact still (by simp) rfl rfl (List.prefix_append _ _) rfl
  | passedOver _ origin =>
    refine still ?_ rfl rfl List.prefix_rfl rfl
    rcases origin with ⟨-, rfl, -⟩ | ⟨call, -, rfl, -⟩ | ⟨call, drive, wake, -, -, rfl, -⟩ <;> simp
  | @released call height outcome here =>
    refine still ?_ rfl rfl List.prefix_rfl rfl
    rcases outcome with (_ | _ | _) | _ | _ <;> simp [Phase.after]
  | _ => exact still (by simp) rfl rfl List.prefix_rfl rfl

theorem Attended.reported (attended : Attended cfg s) (deliveries : Deliveries cfg s)
    (reports : s.report cfg = some s') (taken : Reported cfg s label s')
    (grows : s.reporter.forwarded <+: s'.reporter.forwarded) : Attended cfg s' := by
  obtain ⟨message, waiting⟩ := report_pops reports
  have reported : s'.reporter.reported = s.reporter.reported := by cases taken <;> rfl
  have submitter : s'.submitter = s.submitter := by cases taken <;> rfl
  have phase : s'.sequencer.phase = s.sequencer.phase := by cases taken <;> rfl
  refine ⟨?_, ?_, by rw [submitter]; exact attended.sleeping⟩
  · intro alive c member verified
    rw [submitter] at alive
    rw [reported] at member
    rcases attended.filed alive c member verified with waits | ⟨c', forwarded, height⟩
    · rw [waiting] at waits
      rcases List.mem_cons.mp waits with rfl | later
      · exact .inr (report_files reports deliveries alive verified waiting grows)
      · exact .inl later
    · exact .inr ⟨c', grows.subset forwarded, height⟩
  · intro call drive polling
    have answer : s.getAnswer.isSome = true → s'.getAnswer.isSome = true := by
      cases taken <;> first | exact id | exact fun _ => rfl
    rw [phase] at polling
    rcases attended.asked call drive polling with answered | ⟨h, waits⟩
    · exact .inl (answer answered)
    · rw [waiting] at waits
      rcases List.mem_cons.mp waits with rfl | later
      · refine .inl ?_
        cases taken with
        | answeredGet _ => rfl
        | ignored here | retained here | forwarded here | tip here | answeredTip here =>
          rw [waiting] at here
          cases here
      · exact .inr ⟨h, later⟩

theorem InLife.attended [DecidableEq D] (life : InLife cfg s) : Attended cfg s := by
  refine Reachable.preserves life ?_ fun s label s' alive attended taken => ?_
  · rintro start rfl
    exact .init
  · rcases step_cases taken with environment | reported | submitted | sequenced
    · exact attended.environment environment
    · have report : label = .report := by cases reported <;> rfl
      subst report
      exact attended.reported (InLife.deliveries alive) taken reported (step_grows taken).1
    · exact attended.submitted submitted
    · exact attended.sequenced sequenced

end Restaking.Router
