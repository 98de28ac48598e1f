import Restaking.SafeTip
import Restaking.Submissions

/-! How high the sequencer's heights can get. Its next height is a maximum over
the tip reports of nodes, some of them faulty, over what its reporter has seen
of the engine, and over what it has counted itself. Each of these rests on some
piece of evidence in the run so far, and none of it is a faulty node's. -/
namespace Restaking.Router
open Lib

variable {T D P G S : Type*} [LinearOrder P]
variable {cfg : Config D P G S} {s s' : Router T D P S} {label : Label T D P S}
variable {faulty : Set P} {labels : List (Label T D P S)} {q q' : SequencerActor T D S}
variable {h k : Nat}

/-- The least height that lies above what was reported or counted. -/
inductive Evidence (cfg : Config D P G S) (faulty : Set P) (labels : List (Label T D P S))
    (q : SequencerActor T D S) : Nat → Prop where
  | start : Evidence cfg faulty labels q 0
  /-- A participant that is not faulty reported this tip. -/
  | honest {peer tip} : .message peer (some (.tipReport tip)) ∈ labels →
      peer ∈ cfg.scheme.participants → peer ∉ faulty → Evidence cfg faulty labels q tip
  /-- The engine reported this tip. -/
  | engine {tip} : .activity (.tip tip) ∈ labels → Evidence cfg faulty labels q tip
  /-- The engine reported a certificate that verifies. -/
  | certified {c} : .activity (.certified c) ∈ labels → cfg.verify c = true →
      Evidence cfg faulty labels q (c.height + 1)
  /-- The sequencer received the height's resolution. -/
  | resolved {notice} : notice ∈ q.consumed →
      Evidence cfg faulty labels q (notice.resolution.height + 1)
  /-- The sequencer assigned the height. -/
  | assigned {entry} : entry ∈ q.assigned → Evidence cfg faulty labels q (entry.1 + 1)

/-- At most the maximum of the evidence. -/
def Supported (cfg : Config D P G S) (faulty : Set P) (labels : List (Label T D P S))
    (q : SequencerActor T D S) (h : Nat) : Prop :=
  ∃ bound, Evidence cfg faulty labels q bound ∧ h ≤ bound

omit [LinearOrder P] in
theorem Supported.extend (supported : Supported cfg faulty labels q h)
    (consumed : q.consumed ⊆ q'.consumed) (assigned : q.assigned ⊆ q'.assigned) :
    Supported cfg faulty (labels ++ [label]) q' h := by
  obtain ⟨bound, evidence, below⟩ := supported
  refine ⟨bound, ?_, below⟩
  cases evidence with
  | start => exact .start
  | honest sent member sound => exact .honest (List.mem_append_left _ sent) member sound
  | engine sent => exact .engine (List.mem_append_left _ sent)
  | certified sent valid => exact .certified (List.mem_append_left _ sent) valid
  | resolved member => exact .resolved (consumed member)
  | assigned member => exact .assigned (assigned member)

omit [LinearOrder P] in
theorem Supported.later (supported : Supported cfg faulty labels q h) :
    Supported cfg faulty (labels ++ [label]) q h :=
  supported.extend (List.Subset.refl _) (List.Subset.refl _)

omit [LinearOrder P] in
theorem Supported.max (first : Supported cfg faulty labels q h)
    (second : Supported cfg faulty labels q k) : Supported cfg faulty labels q (Max.max h k) := by
  rcases le_total h k with le | le
  · rwa [max_eq_right le]
  · rwa [max_eq_left le]

/-- The messages of the directive channel in a run. -/
def messagesIn (labels : List (Label T D P S)) : List (TipReports.Received T P) :=
  labels.filterMap fun
    | .message peer payload => some (peer, payload)
    | _ => none

/-- What the actors know comes from the run's labels. -/
structure Heard (cfg : Config D P G S) (labels : List (Label T D P S)) (s : Router T D P S) :
    Prop where
  reports : s.tipReports = (TipReports.new cfg.scheme.participants.length).consume
    cfg.scheme.participants (messagesIn labels)
  inbox : ∀ tip, .tip tip ∈ s.reporter.inbox → .activity (.tip tip) ∈ labels
  reported : ∀ c ∈ s.reporter.reported, .activity (.certified c) ∈ labels

theorem Heard.init : Heard cfg [] (init cfg : Router T D P S) where
  reports := rfl
  inbox := by simp [Router.init]
  reported := by simp [Router.init]

/-- Whatever the actors' own steps do, they learn of nothing new. -/
theorem Heard.internal (heard : Heard cfg labels s) (silent : messagesIn [label] = [])
    (reports : s'.tipReports = s.tipReports)
    (inbox : ∀ tip, .tip tip ∈ s'.reporter.inbox → .tip tip ∈ s.reporter.inbox)
    (reported : s'.reporter.reported = s.reporter.reported) : Heard cfg (labels ++ [label]) s' where
  reports := by
    rw [reports, messagesIn, List.filterMap_append, ← messagesIn, ← messagesIn, silent, List.append_nil]
    exact heard.reports
  inbox tip member := List.mem_append_left _ (heard.inbox tip (inbox tip member))
  reported c member := List.mem_append_left _ (heard.reported c (reported ▸ member))

theorem Heard.environment (heard : Heard cfg labels s) (taken : Environment cfg s label s') :
    Heard cfg (labels ++ [label]) s' := by
  cases taken with
  | elapsed | reporterStopped | submitterStopped | noTip | noDigest =>
    exact heard.internal rfl rfl (fun _ => id) rfl
  | message peer payload =>
    refine ⟨?_, fun tip member => ?_, fun c member => ?_⟩
    · rw [messagesIn, List.filterMap_append, ← messagesIn, TipReports.consume_append, ← heard.reports]
      rfl
    · exact List.mem_append_left _ (heard.inbox tip member)
    · exact List.mem_append_left _ (heard.reported c member)
  | activity activity =>
    have silent : messagesIn (labels ++ [.activity activity]) = messagesIn labels := by
      simp [messagesIn]
    refine ⟨by rw [silent]; exact heard.reports, fun tip member => ?_, fun c member => ?_⟩
    · rcases List.mem_append.mp member with earlier | new
      · exact List.mem_append_left _ (heard.inbox tip earlier)
      · cases activity with
        | tip height =>
          obtain rfl : tip = height := by simpa [CertReporter.message] using new
          simp
        | certified => simp [CertReporter.message] at new
        | ack => simp [CertReporter.message] at new
    · cases activity with
      | certified c' =>
        rcases List.mem_append.mp member with earlier | new
        · exact List.mem_append_left _ (heard.reported c earlier)
        · rw [List.mem_singleton.mp new]
          simp
      | tip => exact List.mem_append_left _ (heard.reported c member)
      | ack => exact List.mem_append_left _ (heard.reported c member)

theorem Heard.reporter (heard : Heard cfg labels s) (taken : Reported cfg s label s') :
    Heard cfg (labels ++ [label]) s' := by
  have rest {message inbox} (waiting : s.reporter.inbox = message :: inbox) (tip : Nat)
      (member : .tip tip ∈ inbox) : .tip tip ∈ s.reporter.inbox := by
    rw [waiting]
    exact List.mem_cons_of_mem _ member
  cases taken with
  | ignored waiting | retained waiting | forwarded waiting | tip waiting | answeredTip waiting
  | answeredGet waiting => exact heard.internal rfl rfl (rest waiting) rfl

theorem Heard.submitted (heard : Heard cfg labels s) (silent : messagesIn [label] = [])
    (taken : Submitted cfg s label s') : Heard cfg (labels ++ [label]) s' := by
  cases taken <;> exact heard.internal silent rfl (fun _ => id) rfl

theorem Heard.sequenced (heard : Heard cfg labels s) (taken : Sequenced cfg s label s') :
    Heard cfg (labels ++ [label]) s' := by
  have queried {message : CertReporter.Message D (Bn254Certificate S)}
      (query : ∀ tip, message ≠ .tip tip) (tip : Nat)
      (member : .tip tip ∈ s.reporter.inbox ++ [message]) : .tip tip ∈ s.reporter.inbox := by
    rcases List.mem_append.mp member with earlier | new
    · exact earlier
    · exact absurd (List.mem_singleton.mp new).symm (query tip)
  cases taken with
  | settled | asked | polled => exact heard.internal rfl rfl (queried fun tip => by simp) rfl
  | passedOver _ origin =>
    have silent : messagesIn [label] = [] := by
      rcases origin with ⟨-, -, rfl⟩ | ⟨-, -, -, rfl⟩ | ⟨-, -, -, -, -, -, rfl⟩ <;> rfl
    exact heard.internal silent rfl (fun _ => id) rfl
  | _ => exact heard.internal rfl rfl (fun _ => id) rfl

theorem step_heard [DecidableEq D] (heard : Heard cfg labels s)
    (taken : step cfg s label = some s') : Heard cfg (labels ++ [label]) s' := by
  cases silent : messagesIn [label] with
  | cons message rest =>
    cases label with
    | message peer payload =>
      cases taken
      exact heard.environment (.message peer payload)
    | _ => cases silent
  | nil =>
    rcases step_cases taken with environment | reported | submitted | sequenced
    · exact heard.environment environment
    · exact heard.reporter reported
    · exact heard.submitted silent submitted
    · exact heard.sequenced sequenced

/-- Every resolution was given for a certificate that the engine reported and
that verifies. -/
theorem InLife.caused [DecidableEq D] (life : InLife cfg s) :
    ∀ notice ∈ s.submitter.notified, Vouched cfg s notice.cause := by
  let inv : Router T D P S → Prop := fun s =>
    ∀ notice ∈ s.submitter.notified, Vouched cfg s notice.cause
  suffices held : inv s from held
  refine Reachable.preserves life ?_ fun s label s' alive held taken => ?_
  · rintro start rfl notice member
    cases member
  have origins := InLife.origins alive
  have extended := step_extended taken
  have old : ∀ notice ∈ s.submitter.notified, Vouched cfg s' notice.cause :=
    fun notice member => (held notice member).extend extended
  have told {c : Cert D S} (vouched : Vouched cfg s c) (kind : ResolutionKind) :
      ∀ notice ∈ s.submitter.notified ++ [⟨⟨c.height, kind⟩, c⟩], Vouched cfg s' notice.cause := by
    intro notice member
    rcases List.mem_append.mp member with earlier | new
    · exact old notice earlier
    · rw [List.mem_singleton.mp new]
      exact vouched.extend extended
  have submitting {job : Submission T D (Bn254Certificate S)}
      (active : s.submitter.state.submission = some job) : Vouched cfg s job.certified :=
    (origins.picked _ (origins.submission job active)).1
  rcases step_cases taken with environment | reported | submitted | sequenced
  · cases environment <;> exact old
  · cases reported <;> exact old
  · cases submitted with
    | skipped _ waiting => exact told (origins.channel _ (by rw [waiting]; exact List.mem_cons_self)) _
    | foreign looking => exact told (origins.looking _ looking).1 _
    | finished calling => exact told (submitting (by rw [calling]; rfl)) _
    | gaveUp active => exact told (submitting active) _
    | _ => exact old
  · cases sequenced <;> exact old

/-! ### The heights the actors hold -/

/-- Every height the sequencer may draw on is supported. -/
structure Grounded (cfg : Config D P G S) (faulty : Set P) (labels : List (Label T D P S))
    (s : Router T D P S) : Prop where
  log : Supported cfg faulty labels s.sequencer s.reporter.log.tip
  answer : ∀ answer ∈ s.tipAnswer, Supported cfg faulty labels s.sequencer answer.tip
  next : (∀ call h, s.sequencer.phase ≠ .inserting call h) →
    Supported cfg faulty labels s.sequencer s.sequencer.nextHeight
  /-- Between choice and insertion only the chosen height is supported. -/
  chosen : ∀ call h, s.sequencer.phase = .inserting call h →
    s.sequencer.nextHeight = h + 1 ∧ Supported cfg faulty labels s.sequencer h

omit [LinearOrder P] in
theorem Supported.zero : Supported cfg faulty labels q 0 := ⟨0, .start, le_rfl⟩

theorem Grounded.init : Grounded cfg faulty [] (init cfg : Router T D P S) where
  log := .zero
  answer := by simp [Router.init]
  next _ := .zero
  chosen call h inserting := by cases inserting

/-- A step that leaves the sequencer alone. -/
theorem Grounded.kept (grounded : Grounded cfg faulty labels s)
    (sequencer : s'.sequencer = s.sequencer)
    (log : Supported cfg faulty (labels ++ [label]) s.sequencer s'.reporter.log.tip)
    (answer : ∀ answer ∈ s'.tipAnswer, answer ∈ s.tipAnswer ∨
      Supported cfg faulty (labels ++ [label]) s.sequencer answer.tip) :
    Grounded cfg faulty (labels ++ [label]) s' where
  log := sequencer ▸ log
  answer given member := by
    rw [sequencer]
    rcases answer given member with earlier | new
    · exact (grounded.answer given earlier).later
    · exact new
  next unchosen := by
    rw [sequencer] at unchosen ⊢
    exact (grounded.next unchosen).later
  chosen call h inserting := by
    rw [sequencer] at inserting ⊢
    obtain ⟨next, supported⟩ := grounded.chosen call h inserting
    exact ⟨next, supported.later⟩

theorem Grounded.environment (grounded : Grounded cfg faulty labels s)
    (taken : Environment cfg s label s') : Grounded cfg faulty (labels ++ [label]) s' := by
  have log : Supported cfg faulty (labels ++ [label]) s.sequencer s.reporter.log.tip :=
    grounded.log.later
  cases taken with
  | noTip =>
    refine grounded.kept rfl log fun given member => ?_
    cases present : s.tipAnswer with
    | none =>
      rw [present, Option.none_or, Option.mem_some_iff] at member
      exact .inr (member ▸ .zero)
    | some earlier =>
      rw [present, Option.some_or] at member
      exact .inl member
  | _ => exact grounded.kept rfl log fun _ => .inl

theorem Grounded.reported (grounded : Grounded cfg faulty labels s) (heard : Heard cfg labels s)
    (origins : Origins cfg s) (taken : Reported cfg s label s') :
    Grounded cfg faulty (labels ++ [label]) s' := by
  have log : Supported cfg faulty (labels ++ [label]) s.sequencer s.reporter.log.tip :=
    grounded.log.later
  have recorded {c : Cert D S} {inbox} (waiting : s.reporter.inbox = .certified c :: inbox)
      (valid : cfg.verify c = true) : Supported cfg faulty (labels ++ [label]) s.sequencer
        ({ s.reporter.log with certified := s.reporter.log.certified.insert c.height c.digest
          }.advanceTip (c.height + 1)).tip := by
    have reported := heard.reported c (origins.inbox c (by rw [waiting]; exact List.mem_cons_self))
    rw [CertReporter.advanceTip_tip]
    exact log.max ⟨_, .certified (List.mem_append_left _ reported) valid, le_rfl⟩
  cases taken with
  | ignored => exact grounded.kept rfl log fun _ => .inl
  | retained waiting _ valid => exact grounded.kept rfl (recorded waiting valid) fun _ => .inl
  | forwarded waiting _ valid => exact grounded.kept rfl (recorded waiting valid) fun _ => .inl
  | @tip height inbox waiting =>
    refine grounded.kept rfl ?_ fun _ => .inl
    have reported := heard.inbox height (by rw [waiting]; exact List.mem_cons_self)
    rw [CertReporter.advanceTip_tip]
    exact log.max ⟨_, .engine (List.mem_append_left _ reported), le_rfl⟩
  | answeredTip =>
    refine grounded.kept rfl log fun given member => .inr ?_
    cases member
    exact log
  | answeredGet => exact grounded.kept rfl log fun _ => .inl

theorem Grounded.submitted (grounded : Grounded cfg faulty labels s)
    (taken : Submitted cfg s label s') : Grounded cfg faulty (labels ++ [label]) s' := by
  have log : Supported cfg faulty (labels ++ [label]) s.sequencer s.reporter.log.tip :=
    grounded.log.later
  cases taken <;> exact grounded.kept rfl log fun _ => .inl

/-- The safe tip rests on a node that is not faulty. -/
theorem Heard.safeTip (heard : Heard cfg labels s)
    (few : {peer | peer ∈ cfg.scheme.participants ∧ peer ∈ faulty}.ncard ≤
      maxFaults cfg.scheme.participants.length) :
    Supported cfg faulty labels q s.safeTip := by
  rcases Nat.eq_zero_or_pos s.safeTip with zero | positive
  · rw [zero]
    exact .zero
  · unfold Router.safeTip at positive ⊢
    rw [heard.reports] at positive ⊢
    obtain ⟨peer, member, sound, tip, above, sent⟩ := TipReports.exists_honest_report few positive
    obtain ⟨label, present, shape⟩ := List.mem_filterMap.mp sent
    cases label with
    | message peer' payload =>
      cases shape
      exact ⟨tip, .honest present member sound, above⟩
    | _ => cases shape

/-- A step of the sequencer from and to phases in which no height is chosen. -/
theorem Grounded.moved (grounded : Grounded cfg faulty labels s)
    (leaves : ∀ call h, s.sequencer.phase ≠ .inserting call h)
    (enters : ∀ call h, s'.sequencer.phase ≠ .inserting call h)
    (consumed : s.sequencer.consumed ⊆ s'.sequencer.consumed)
    (assigned : s.sequencer.assigned ⊆ s'.sequencer.assigned)
    (log : s'.reporter.log = s.reporter.log) (answer : ∀ a ∈ s'.tipAnswer, a ∈ s.tipAnswer)
    (next : Supported cfg faulty (labels ++ [label]) s'.sequencer s.sequencer.nextHeight →
      Supported cfg faulty (labels ++ [label]) s'.sequencer s'.sequencer.nextHeight) :
    Grounded cfg faulty (labels ++ [label]) s' where
  log := by
    rw [log]
    exact grounded.log.extend consumed assigned
  answer given member := (grounded.answer given (answer given member)).extend consumed assigned
  next _ := next ((grounded.next leaves).extend consumed assigned)
  chosen call h inserting := absurd inserting (enters call h)

theorem Grounded.sequenced (grounded : Grounded cfg faulty labels s) (heard : Heard cfg labels s)
    (inputs : Inputs s) (few : {peer | peer ∈ cfg.scheme.participants ∧ peer ∈ faulty}.ncard ≤
      maxFaults cfg.scheme.participants.length)
    (taken : Sequenced cfg s label s') : Grounded cfg faulty (labels ++ [label]) s' := by
  have same := List.Subset.refl s.sequencer.consumed
  have same' := List.Subset.refl s.sequencer.assigned
  cases taken with
  | @started answer phase answered =>
    refine grounded.moved (by simp [phase]) (by simp) same same' rfl (by simp) fun _ => ?_
    exact ((grounded.answer answer answered).max (heard.safeTip few)).extend same same'
  | @passedOver _ notice rest phase waiting origin =>
    have unchosen : (∀ call h, s.sequencer.phase ≠ .inserting call h) ∧
        ∀ call h, phase ≠ .inserting call h := by
      rcases origin with ⟨leaves, rfl, -⟩ | ⟨_, leaves, rfl, -⟩ | ⟨_, _, _, leaves, -, rfl, -⟩ <;>
        simp [leaves]
    refine grounded.moved unchosen.1 unchosen.2 (List.subset_append_left _ _) same' rfl
      (fun _ => id) fun supported => supported.max ?_
    exact ⟨_, .resolved (List.mem_append_right _ (List.mem_singleton.mpr rfl)), le_rfl⟩
  | @chosen call answer height asking answered choice =>
    have supported : Supported cfg faulty labels s.sequencer height := by
      rw [choice]
      exact ((grounded.next (by simp [asking])).max (grounded.answer answer answered)).max
        (heard.safeTip few)
    exact {
      log := grounded.log.extend same same'
      answer := by simp
      next := fun unchosen => absurd rfl (unchosen call height)
      chosen := fun _ _ inserting => by
        cases inserting
        exact ⟨rfl, supported.extend same same'⟩ }
  | dropped _ poisoned =>
    rw [inputs.sane] at poisoned
    cases poisoned
  | @inserted call height phase _ =>
    exact {
      log := grounded.log.extend same (List.subset_append_left _ _)
      answer := fun given member => (grounded.answer given member).extend same (List.subset_append_left _ _)
      next := fun _ => by
        rw [(grounded.chosen call height phase).1]
        exact ⟨_, .assigned (List.mem_append_right _ (List.mem_singleton.mpr rfl)), le_rfl⟩
      chosen := fun _ _ inserting => by cases inserting }
  | settled phase | drained phase | asked phase | begun phase | latched phase | gaveUp phase
  | announced phase | abandoned phase | exhausted phase | taken phase | closed phase | idled phase
  | polled phase =>
    exact grounded.moved (by simp [phase]) (by simp) same same' rfl (fun _ => id) id
  | @released call height outcome phase =>
    refine grounded.moved (by simp [phase]) (fun call' h inserting => ?_) same same' rfl (fun _ => id) id
    have ahead := Phase.ahead_after call outcome
    rw [show Phase.after call outcome = .inserting call' h from inserting] at ahead
    cases ahead
  | resolved phase =>
    exact grounded.moved (by simp [phase]) (by simp) (List.subset_append_left _ _) same' rfl
      (fun _ => id) id

/-! ### Runs -/

section Runs

variable [DecidableEq D] {history : List (Label T D P S)} {B : Nat}
variable (few : {peer | peer ∈ cfg.scheme.participants ∧ peer ∈ faulty}.ncard ≤
  maxFaults cfg.scheme.participants.length)

include few in
theorem step_grounded (life : InLife cfg s) (heard : Heard cfg labels s)
    (grounded : Grounded cfg faulty labels s) (taken : step cfg s label = some s') :
    Grounded cfg faulty (labels ++ [label]) s' := by
  rcases step_cases taken with environment | reported | submitted | sequenced
  · exact grounded.environment environment
  · exact grounded.reported heard life.origins reported
  · exact grounded.submitted submitted
  · exact grounded.sequenced heard life.ledger.1 few sequenced

include few in
theorem run_grounded (run : Run (step cfg) s labels s') (life : InLife cfg s)
    (heard : Heard cfg history s) (grounded : Grounded cfg faulty history s) :
    Heard cfg (history ++ labels) s' ∧ Grounded cfg faulty (history ++ labels) s' := by
  induction run generalizing history with
  | nil =>
    rw [List.append_nil]
    exact ⟨heard, grounded⟩
  | @cons s next last label labels _ taken _ ih =>
    rw [List.append_cons]
    exact ih (life.next taken) (step_heard heard taken) (step_grounded few life heard grounded taken)

/-- What was reported to the router lies below a bound, faulty nodes apart. -/
structure Below (cfg : Config D P G S) (faulty : Set P) (B : Nat) (labels : List (Label T D P S)) :
    Prop where
  honest : ∀ peer tip, .message peer (some (.tipReport tip)) ∈ labels →
    peer ∈ cfg.scheme.participants → peer ∉ faulty → tip < B
  engine : ∀ tip, .activity (.tip tip) ∈ labels → tip < B
  certified : ∀ c, .activity (.certified c) ∈ labels → cfg.verify c = true → c.height < B

omit [DecidableEq D] [LinearOrder P] in
theorem Below.earlier (below : Below cfg faulty B labels) {earlier : List (Label T D P S)}
    (subset : earlier ⊆ labels) : Below cfg faulty B earlier where
  honest peer tip sent := below.honest peer tip (subset sent)
  engine tip sent := below.engine tip (subset sent)
  certified c sent := below.certified c (subset sent)

/-- The assigned heights leave the bound no faster than one by one. -/
def Capacity (B : Nat) (q : SequencerActor T D S) : Prop :=
  ∀ entry ∈ q.assigned, entry.1 + 1 ≤ B + q.assigned.length

/-- A resolution's height was certified. -/
theorem notified_lt (life : InLife cfg s) (heard : Heard cfg labels s)
    (below : Below cfg faulty B labels) {notice : Notice D S}
    (sent : notice ∈ s.submitter.notified) : notice.resolution.height < B := by
  obtain ⟨reported, valid⟩ := life.caused notice sent
  rw [(life.origins.notified notice sent).1]
  exact below.certified _ (heard.reported _ reported) valid

/-- What is supported exceeds the bound by no more than the heights assigned. -/
theorem Supported.le_capacity (supported : Supported cfg faulty labels s.sequencer h)
    (life : InLife cfg s) (heard : Heard cfg labels s) (below : Below cfg faulty B labels)
    (capacity : Capacity B s.sequencer) : h ≤ B + s.sequencer.assigned.length := by
  obtain ⟨bound, evidence, within⟩ := supported
  refine within.trans ?_
  cases evidence with
  | start => exact Nat.zero_le _
  | honest sent member sound =>
    exact (below.honest _ _ sent member sound).le.trans (Nat.le_add_right _ _)
  | engine sent => exact (below.engine _ sent).le.trans (Nat.le_add_right _ _)
  | certified sent valid =>
    exact (Nat.succ_le_of_lt (below.certified _ sent valid)).trans (Nat.le_add_right _ _)
  | @resolved notice member =>
    have sent : notice ∈ s.submitter.notified := by
      rw [life.ledger.1.channel]
      exact List.mem_append_left _ member
    exact (Nat.succ_le_of_lt (notified_lt life heard below sent)).trans (Nat.le_add_right _ _)
  | assigned member => exact capacity _ member

theorem step_capacity (life : InLife cfg s) (heard : Heard cfg labels s)
    (grounded : Grounded cfg faulty labels s) (below : Below cfg faulty B labels)
    (capacity : Capacity B s.sequencer) (taken : step cfg s label = some s') :
    Capacity B s'.sequencer := by
  rcases step_sequenced taken with kept | sequenced
  · rw [kept.sequencer]
    exact capacity
  · cases sequenced with
    | @inserted call height phase _ =>
      have reach := (grounded.chosen call height phase).2.le_capacity life heard below capacity
      intro entry member
      rw [List.length_append, List.length_singleton]
      rcases List.mem_append.mp member with earlier | new
      · exact (capacity entry earlier).trans (by omega)
      · rw [List.mem_singleton.mp new]
        dsimp only
        omega
    | _ => exact capacity

include few in
theorem run_capacity (run : Run (step cfg) s labels s') (life : InLife cfg s)
    (heard : Heard cfg history s) (grounded : Grounded cfg faulty history s)
    (below : Below cfg faulty B (history ++ labels)) (capacity : Capacity B s.sequencer) :
    Capacity B s'.sequencer := by
  induction run generalizing history with
  | nil => exact capacity
  | @cons s next last label labels _ taken _ ih =>
    have now := step_capacity life heard grounded
      (below.earlier (List.subset_append_left _ _)) capacity taken
    rw [List.append_cons] at below
    exact ih (life.next taken) (step_heard heard taken)
      (step_grounded few life heard grounded taken) below now

end Runs

section Examples

/-- Four operators, one of whom may be faulty. -/
def quartet : Config Nat Nat Unit Unit where
  sha256 := List.length
  namespaceBytes := []
  scheme := {
    participants := [0, 1, 2, 3]
    g1Keys := [(), (), (), ()]
    distinct := by decide
    nonempty := List.cons_ne_nil 0 _
    aligned := rfl
    aggregateVerify := fun _ _ _ => true }
  roundTimeout := 10
  rebroadcastInterval := 1

/-- The last operator reports the largest tip there is, and the sequencer asks for
the engine's. -/
def quartetAsks : List SoloLabel :=
  soloStart ++ [.message 3 (some (.tipReport (2 ^ 64 - 1))), .task (some ⟨10, 10, 1⟩), .sequence,
    .report]

/-- The sequencer waits for the engine's tip, the answer is there, and nothing has
been assigned. -/
def chooses (s : Router Nat Nat Nat Unit) : Bool :=
  match s.sequencer.phase, s.tipAnswer with
  | .awaitingTip _, some _ => s.sequencer.assigned = []
  | _, _ => false

end Examples

/-- **Faulty nodes cannot push heights.** In a run with no more faulty
participants than tolerated, every height that is assigned is at most the
maximum of the evidence at that moment. So as long as tips and certified heights
stay below a bound and no more heights are assigned than fit above it, none of
the three increments overflows. -/
theorem heights_bounded_by_evidence [DecidableEq D] (cfg : Config D P G S) (faulty : Set P)
    (few : {peer | peer ∈ cfg.scheme.participants ∧ peer ∈ faulty}.ncard ≤
      maxFaults cfg.scheme.participants.length)
    (labels : List (Label T D P S)) (s : Router T D P S)
    (run : Run (step cfg) (init cfg) labels s) :
    (∀ label s' h call, step cfg s label = some s' →
      s'.sequencer.assigned = s.sequencer.assigned ++ [(h, call)] →
      ∃ bound, Evidence cfg faulty labels s.sequencer bound ∧ h ≤ bound) ∧
    ∀ B, Below cfg faulty B labels →
      (B + (s.sequencer.assigned.length + 1) ≤ 2 ^ 64 - 1 → ∀ call answer,
        s.sequencer.phase = .awaitingTip call → s.tipAnswer = some answer →
        (succHeight (max (max s.sequencer.nextHeight answer.tip) s.safeTip)).isSome) ∧
      (B + s.sequencer.assigned.length ≤ 2 ^ 64 - 1 →
        (∀ notice ∈ s.resolutions, (succHeight notice.resolution.height).isSome) ∧
        ∀ c, .certified c ∈ s.reporter.inbox → cfg.verify c = true →
          (succHeight c.height).isSome) := by
  have starts : InLife cfg (init cfg : Router T D P S) := .start rfl
  have life : InLife cfg s := starts.run run
  have known := run_grounded few run starts Heard.init Grounded.init
  rw [List.nil_append] at known
  obtain ⟨heard, grounded⟩ := known
  refine ⟨fun label s' h call taken assigned => ?_, fun B below => ⟨fun room call answer asking answered => ?_,
    fun room => ⟨fun notice waiting => ?_, fun c waiting valid => ?_⟩⟩⟩
  · exact (grounded.chosen call h (inserting_of_assigned taken assigned)).2
  · have capacity : Capacity B s.sequencer :=
      run_capacity few run starts Heard.init Grounded.init below (by simp [Capacity, init])
    have supported : Supported cfg faulty labels s.sequencer
        (max (max s.sequencer.nextHeight answer.tip) s.safeTip) :=
      ((grounded.next (by simp [asking])).max (grounded.answer answer answered)).max
        (heard.safeTip few)
    have reach := supported.le_capacity life heard below capacity
    rw [succHeight_of_lt (by omega)]
    rfl
  · have sent : notice ∈ s.submitter.notified := by
      rw [life.ledger.1.channel]
      exact List.mem_append_right _ waiting
    have bound := notified_lt life heard below sent
    rw [succHeight_of_lt (by omega)]
    rfl
  · have bound := below.certified c (heard.reported c (life.origins.inbox c waiting)) valid
    rw [succHeight_of_lt (by omega)]
    rfl

/-- The largest tip report of one faulty operator overflows nothing. -/
theorem largest_tip_report_without_effect : ∃ s : Router Nat Nat Nat Unit, ∃ call answer,
    Run (step quartet) (init quartet) quartetAsks s ∧ s.sequencer.phase = .awaitingTip call ∧
      s.tipAnswer = some answer ∧
      (succHeight (max (max s.sequencer.nextHeight answer.tip) s.safeTip)).isSome := by
  have ran : (exec (guarded (step quartet) fun _ _ => True) (init quartet) quartetAsks).any
      chooses = true := by
    decide +kernel
  obtain ⟨s, run, reached⟩ := runWhere_of_exec_any ran
  unfold chooses at reached
  split at reached
  · rename_i call answer asking answered
    have unassigned : s.sequencer.assigned = [] := of_decide_eq_true reached
    have few : {peer | peer ∈ quartet.scheme.participants ∧ peer ∈ ({3} : Set Nat)}.ncard ≤
        maxFaults quartet.scheme.participants.length := by
      have one : {peer | peer ∈ quartet.scheme.participants ∧ peer ∈ ({3} : Set Nat)} = {3} := by
        ext peer
        simp [quartet]
        omega
      rw [one, Set.ncard_singleton]
      decide
    have below : Below quartet {3} 1 quartetAsks := by
      constructor <;> simp [quartetAsks, soloStart]
    have bounds := (heights_bounded_by_evidence quartet {3} few quartetAsks s run).2 1 below
    refine ⟨s, call, answer, run, asking, answered, bounds.1 ?_ call answer asking answered⟩
    rw [unassigned]
    decide
  · cases reached

end Restaking.Router
