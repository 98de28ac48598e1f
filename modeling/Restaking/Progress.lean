import Restaking.Lib.Liveness
import Restaking.RouterQueues

/-! A certified height does not stay in drive. On an infinite run of a router whose
reporter and submitter live, whose actors are scheduled fairly and whose handler
always returns, a height with a verifying certificate on its way is released:
the certificate moves up in the mailbox of the reporter, then in the channel to the
submitter, then its resolution moves up in the channel to the sequencer, whatever
else the actors do in between. -/
namespace Restaking.Router
open Lib

variable {T D P G S : Type*} [LinearOrder P]
variable {cfg : Config D P G S} {s s' : Router T D P S} {label : Label T D P S} {c : Cert D S}

variable [DecidableEq D]

/-- A run of a router whose reporter and submitter live, whose actors are not passed
over for ever, whose RPC reads and handler return, whose clock advances and whose
certified heights have a successor. `select!` chooses among its ready branches at random, so
its resolution branch is not passed over for ever even if it is not always ready. -/
structure Fair (b : Behaviour (step (T := T) cfg)) : Prop where
  begins : InLife cfg (b.state 0)
  up : ∀ n, (b.state n).reporter.up = true ∧ (b.state n).submitter.up = true
  heights : ∀ n, ∀ c ∈ (b.state n).reporter.reported, (succHeight c.height).isSome = true
  reporter : b.WeaklyFair (· = .report)
  submitter : b.WeaklyFair submits
  sequencer : b.WeaklyFair (· = .sequence)
  select : b.StronglyFair (· = .resolution)
  clock : ∀ t, ∃ n, t ≤ (b.state n).now

theorem run_grows {b : Behaviour (step (T := T) cfg)} {n m : Nat} (later : n ≤ m) :
    (b.state n).reporter.forwarded <+: (b.state m).reporter.forwarded ∧
      (b.state n).submitter.notified <+: (b.state m).submitter.notified ∧
      (b.state n).sequencer.consumed <+: (b.state m).sequencer.consumed := by
  induction m, later using Nat.le_induction with
  | base => exact ⟨List.prefix_rfl, List.prefix_rfl, List.prefix_rfl⟩
  | succ m later ih =>
    obtain ⟨forwarded, notified, consumed⟩ := ih
    obtain ⟨forwarded', notified', consumed'⟩ := step_grows (b.next m)
    exact ⟨forwarded.trans forwarded', notified.trans notified', consumed.trans consumed'⟩

theorem run_now {b : Behaviour (step (T := T) cfg)} {n m : Nat} (later : n ≤ m) :
    (b.state n).now ≤ (b.state m).now := by
  induction m, later using Nat.le_induction with
  | base => exact le_rfl
  | succ m later ih => exact ih.trans (step_now (b.next m))

namespace Fair

variable {b : Behaviour (step (T := T) cfg)}

theorem life (fair : Fair b) (n : Nat) : InLife cfg (b.state n) := b.reachable fair.begins n

/-! ### The reporter -/

theorem report_enabled (fair : Fair b) {n k : Nat}
    {message : CertReporter.Message D (Bn254Certificate S)}
    (place : (b.state n).reporter.inbox[k]? = some message) :
    Enabled (step cfg) (· = .report) (b.state n) := by
  refine ⟨.report, rfl, ?_⟩
  have up := (fair.up n).1
  have origins := InLife.origins (fair.life n)
  have heights := fair.heights n
  show (report cfg (b.state n)).isSome = true
  generalize b.state n = s at place up origins heights
  unfold report
  cases waiting : s.reporter.inbox with
  | nil => simp [waiting] at place
  | cons first rest =>
    cases first with
    | certified c =>
      obtain ⟨next, within⟩ := Option.isSome_iff_exists.mp
        (heights c (origins.inbox c (by rw [waiting]; exact List.mem_cons_self)))
      simp only [up, Bool.not_true, Bool.false_eq_true, if_false, Option.isSome_map,
        CertReporter.handleCertified]
      split
      · rfl
      · split <;> simp [within]
    | _ => simp [up]

/-- A message reaches the head of the mailbox. -/
theorem moves_up (fair : Fair b) (message : CertReporter.Message D (Bn254Certificate S)) (k : Nat) :
    LeadsTo (fun n => (b.state n).reporter.inbox[k + 1]? = some message)
      fun n => (b.state n).reporter.inbox[k]? = some message := by
  refine fair.reporter.leadsTo ?_ ?_ fun n always => ⟨n, le_rfl, fun m later =>
    fair.report_enabled (always m later)⟩
  · intro n place
    rcases step_place (b.next n) place with up | ⟨-, kept⟩
    · exact .inr up
    · exact .inl kept
  · intro n place report
    exact (step_place (b.next n) place).resolve_right fun kept => kept.1 report

/-- A verifying certificate in the mailbox is handled. -/
theorem files (fair : Fair b) (verified : cfg.verify c = true) :
    LeadsTo (fun n => .certified c ∈ (b.state n).reporter.inbox)
      fun n => ∃ c' ∈ (b.state n).reporter.forwarded, c'.height = c.height := by
  have last : LeadsTo (fun n => (b.state n).reporter.inbox[0]? = some (.certified c))
      fun n => ∃ c' ∈ (b.state n).reporter.forwarded, c'.height = c.height := by
    have acts (n : Nat) (place : (b.state n).reporter.inbox[0]? = some (.certified c))
        (report : b.label n = .report) :
        ∃ c' ∈ (b.state (n + 1)).reporter.forwarded, c'.height = c.height := by
      have taken := b.next n
      rw [report] at taken
      obtain ⟨first, waiting⟩ := report_pops taken
      rw [waiting] at place
      obtain rfl := Option.some.inj place
      exact report_files taken (InLife.deliveries (fair.life n)) (fair.up n).2 verified waiting
        (step_grows taken).1
    refine fair.reporter.leadsTo ?_ acts fun n always => ⟨n, le_rfl, fun m later =>
      fair.report_enabled (always m later)⟩
    intro n place
    by_cases report : b.label n = .report
    · exact .inr (acts n place report)
    · exact .inl (place_kept (step_inbox (b.next n) report) place)
  intro n waits
  obtain ⟨k, place⟩ := List.mem_iff_getElem?.mp waits
  exact LeadsTo.countdown (p := fun k n => (b.state n).reporter.inbox[k]? = some (.certified c)) last
    (fun k => (fair.moves_up _ k).mono_right fun _ up => .inl up) k n place

/-- The height of a verifying certificate is handed to the submitter. -/
theorem hands_on (fair : Fair b) {n : Nat} (reported : c ∈ (b.state n).reporter.reported)
    (verified : cfg.verify c = true) :
    ∃ m ≥ n, ∃ c' ∈ (b.state m).reporter.forwarded, c'.height = c.height := by
  rcases (InLife.attended (fair.life n)).filed (fair.up n).2 c reported verified with
    waits | forwarded
  · exact fair.files verified n waits
  · exact ⟨n, le_rfl, forwarded⟩

/-! ### The submitter -/

/-- A submitter with something to do can do it, unless it sleeps. -/
theorem submitter_enabled (fair : Fair b) {n : Nat}
    (busy : (b.state n).submitter.notified.length < (b.state n).reporter.forwarded.length)
    (awake : ∀ job wake, (b.state n).submitter.state = .sleeping job wake →
      wake ≤ (b.state n).now) : Enabled (step cfg) submits (b.state n) := by
  have up := (fair.up n).2
  have deliveries := InLife.deliveries (fair.life n)
  generalize b.state n = s at busy awake up deliveries
  cases at' : s.submitter.state with
  | idle =>
    have lengths := congrArg List.length deliveries.conserved
    refine ⟨.receive, trivial, ?_⟩
    simp only [step, stepWith, up, if_true, receive, at']
    cases waiting : s.certified with
    | nil =>
      simp only [outstanding, at', Submitter.taken?, waiting, Option.toList_none,
        List.append_nil, List.length_map] at lengths
      omega
    | cons c rest => dsimp only; split <;> rfl
  | lookup c =>
    refine ⟨.look, trivial, ?_⟩
    simp only [step, stepWith, up, if_true, look, at']
    split <;> rfl
  | submitting job =>
    refine ⟨.attempt true, trivial, ?_⟩
    simp only [step, stepWith, up, if_true, attempt, at']
    split <;> rfl
  | calling job => exact ⟨.outcome none, trivial, by simp [step, stepWith, up, outcome, at']⟩
  | sleeping job wake =>
    exact ⟨.retry, trivial, by simp [step, stepWith, up, retry, at', awake job wake at']⟩

/-- The submitter resolves the certificate that it is to resolve next. -/
theorem resolves_next (fair : Fair b) (k : Nat) :
    LeadsTo (fun n => (b.state n).submitter.notified.length = k ∧
        k < (b.state n).reporter.forwarded.length)
      fun n => k < (b.state n).submitter.notified.length := by
  refine .of_rank (fun n => stage (b.state n).submitter.state) fun r n start => ?_
  obtain ⟨⟨level, within⟩, rank⟩ := start
  -- between two steps of the submitter its state is the one it has now
  let same (m : Nat) : Prop := ((b.state m).submitter.notified.length = k ∧
    k < (b.state m).reporter.forwarded.length) ∧
    (b.state m).submitter.state = (b.state n).submitter.state
  let closer (m : Nat) : Prop := (((b.state m).submitter.notified.length = k ∧
    k < (b.state m).reporter.forwarded.length) ∧ stage (b.state m).submitter.state < r) ∨
    k < (b.state m).submitter.notified.length
  have acts (m : Nat) (here : same m) (submitter : submits (b.label m)) : closer (m + 1) := by
    obtain ⟨⟨level, within⟩, state⟩ := here
    have longer := (step_grows (b.next m)).1.length_le
    rcases step_advances (b.next m) submitter (InLife.attended (fair.life m)).sleeping with
      resolved | ⟨notified, less⟩
    · exact .inr (by omega)
    · refine .inl ⟨⟨by rw [notified]; exact level, by omega⟩, ?_⟩
      rw [state, rank] at less
      exact less
  have leads := fair.submitter.leadsTo (p := same) (q := closer) (fun m here => ?_) acts
    fun m always => ?_
  · exact leads n ⟨⟨level, within⟩, rfl⟩
  · by_cases submitter : submits (b.label m)
    · exact .inr (acts m here submitter)
    · obtain ⟨⟨level, within⟩, state⟩ := here
      obtain ⟨state', notified⟩ := step_submitter (b.next m) submitter
      have longer := (step_grows (b.next m)).1.length_le
      exact .inl ⟨⟨by rw [notified]; exact level, by omega⟩, state'.trans state⟩
  · have enabled (j : Nat) (later : m ≤ j)
        (awake : ∀ job wake, (b.state n).submitter.state = .sleeping job wake →
          wake ≤ (b.state j).now) : Enabled (step cfg) submits (b.state j) := by
      obtain ⟨⟨level, within⟩, state⟩ := always j later
      exact fair.submitter_enabled (by omega) (by rw [state]; exact awake)
    cases at' : (b.state n).submitter.state with
    | sleeping job wake =>
      obtain ⟨late, passed⟩ := fair.clock wake
      refine ⟨max m late, le_max_left _ _, fun j later => enabled j (by omega) ?_⟩
      intro job' wake' asleep
      cases at'.symm.trans asleep
      exact passed.trans (run_now (show late ≤ j by omega))
    | _ =>
      refine ⟨m, le_rfl, fun j later => enabled j later ?_⟩
      intro job wake asleep
      cases at'.symm.trans asleep

/-- Everything that is handed to the submitter is resolved. -/
theorem resolves (fair : Fair b) (k : Nat) :
    LeadsTo (fun n => k < (b.state n).reporter.forwarded.length)
      fun n => k < (b.state n).submitter.notified.length := by
  have grows : Monotone fun n => (b.state n).reporter.forwarded.length := fun n m later =>
    (run_grows later).1.length_le
  have caught : LeadsTo (fun n => k < (b.state n).reporter.forwarded.length)
      fun n => False ∨ k < (b.state n).submitter.notified.length :=
    LeadsTo.catch_up grows (fun k => ((fair.resolves_next k).mono_left fun n here =>
      here.2).mono_right fun n => .inr) k
  exact caught.mono_right fun n passed => passed.resolve_left id

/-! ### The sequencer -/

/-- A drive that waits for its turn comes to its `select!`. -/
theorem attends_of_ready (fair : Fair b) {h : Nat} (phase : Phase T D) (ready : Nat → Prop)
    (driven : phase.driven = some h)
    (outside : ∀ call drive wake, phase ≠ .selecting call drive wake)
    (kept : ∀ n, (b.state (n + 1)).sequencer.phase = phase → ready n → ready (n + 1))
    (able : ∀ n, (b.state n).sequencer.phase = phase → ready n →
      ((b.state n).sequence cfg).isSome = true) :
    LeadsTo (fun n => (b.state n).sequencer.phase = phase ∧ ready n)
      fun n => Attentive (b.state n) h := by
  have moves (n : Nat) (here : (b.state n).sequencer.phase = phase) :
      (b.state (n + 1)).sequencer.phase = phase ∨ Attentive (b.state (n + 1)) h := by
    rw [← here]
    exact attentive_of_step (b.next n) (by rw [here]; exact driven) (by rw [here]; exact outside)
  refine fair.sequencer.leadsTo ?_ ?_ fun n always => ⟨n, le_rfl, fun m later => ?_⟩
  · rintro n ⟨here, waits⟩
    exact (moves n here).imp_left fun same => ⟨same, kept n same waits⟩
  · rintro n ⟨here, waits⟩ turn
    have taken := b.next n
    rw [turn] at taken
    refine (moves n here).resolve_left fun same => ?_
    exact sequence_leaves taken (by rw [here]; exact driven) (same.trans here.symm)
  · obtain ⟨here, waits⟩ := always m later
    exact ⟨.sequence, rfl, able m here waits⟩

/-- A query in the mailbox is answered, unless the sequencer has moved on. -/
theorem answers (fair : Fair b) {call : Call T D} {drive : Drive} (height : Nat) :
    LeadsTo (fun n => (b.state n).sequencer.phase = .polling call drive ∧
        .get height ∈ (b.state n).reporter.inbox)
      fun n => ((b.state n).sequencer.phase = .polling call drive ∧
        (b.state n).getAnswer.isSome = true) ∨ Attentive (b.state n) drive.height := by
  let place (k n : Nat) : Prop := (b.state n).sequencer.phase = .polling call drive ∧
    (b.state n).reporter.inbox[k]? = some (.get height)
  let goal (n : Nat) : Prop := ((b.state n).sequencer.phase = .polling call drive ∧
    (b.state n).getAnswer.isSome = true) ∨ Attentive (b.state n) drive.height
  have moves {k n : Nat} (here : place k n) :
      (b.state (n + 1)).sequencer.phase = .polling call drive ∨ goal (n + 1) := by
    have next := attentive_of_step (h := drive.height) (b.next n) (by rw [here.1]; rfl)
      (by rw [here.1]; simp)
    rw [here.1] at next
    exact next.imp_right .inr
  have enabled {k : Nat} (n : Nat) (always : ∀ m ≥ n, place k m) : ∃ m ≥ n, ∀ j ≥ m,
      Enabled (step cfg) (· = .report) (b.state j) :=
    ⟨n, le_rfl, fun m later => fair.report_enabled (always m later).2⟩
  have last : LeadsTo (place 0) goal := by
    have acts (n : Nat) (here : place 0 n) (report : b.label n = .report) : goal (n + 1) := by
      have taken := b.next n
      rw [report] at taken
      obtain ⟨first, waiting⟩ := report_pops taken
      have head := here.2
      rw [waiting] at head
      obtain rfl := Option.some.inj head
      exact (moves here).elim (fun polling => .inl ⟨polling, report_answers taken waiting⟩) id
    refine fair.reporter.leadsTo ?_ acts enabled
    intro n here
    by_cases report : b.label n = .report
    · exact .inr (acts n here report)
    · exact (moves here).imp_left fun polling =>
        ⟨polling, place_kept (step_inbox (b.next n) report) here.2⟩
  have stage (k : Nat) : LeadsTo (place (k + 1)) fun n => place k n ∨ goal n := by
    refine fair.reporter.leadsTo ?_ ?_ enabled
    · intro n here
      rcases moves here with polling | reached
      · rcases step_place (b.next n) here.2 with up | ⟨-, kept⟩
        · exact .inr (.inl ⟨polling, up⟩)
        · exact .inl ⟨polling, kept⟩
      · exact .inr (.inr reached)
    · intro n here report
      refine (moves here).imp_left fun polling => ⟨polling, ?_⟩
      exact (step_place (b.next n) here.2).resolve_right fun kept => kept.1 report
  rintro n ⟨polling, waits⟩
  obtain ⟨k, here⟩ := List.mem_iff_getElem?.mp waits
  exact LeadsTo.countdown last stage k n ⟨polling, here⟩

/-- Every drive comes to its `select!` or ends. -/
theorem attends (fair : Fair b) (h : Nat) :
    LeadsTo (fun n => (b.state n).sequencer.phase.driven = some h)
      fun n => Attentive (b.state n) h := by
  intro n driven
  cases here : (b.state n).sequencer.phase with
  | starting call height =>
    rw [here] at driven
    cases driven
    exact fair.attends_of_ready (.starting call h) (fun _ => True) rfl (by simp)
      (fun _ _ _ => trivial) (fun m here _ => by simp [sequence, here]) n ⟨here, trivial⟩
  | selecting call drive wake => exact ⟨n, le_rfl, .inl ⟨call, drive, wake, here⟩⟩
  | polling call drive =>
    rw [here] at driven
    cases driven
    have leads := fair.attends_of_ready (.polling call drive)
      (fun m => (b.state m).getAnswer.isSome = true) rfl (by simp)
      (fun m polling answered => answer_kept (b.next m) polling answered)
      (fun m here answered => by simp [sequence, here, answered])
    rcases (InLife.attended (fair.life n)).asked call drive here with answered | ⟨height, waits⟩
    · exact leads n ⟨here, answered⟩
    · exact (fair.answers height).trans_or leads n ⟨here, waits⟩
  | releasing call height outcome =>
    rw [here] at driven
    cases driven
    exact ⟨n, le_rfl, .inr (.inl ⟨call, outcome, here⟩)⟩
  | _ =>
    rw [here] at driven
    cases driven

/-- A drive that is over is released. -/
theorem releases (fair : Fair b) (h : Nat) :
    LeadsTo (fun n => ∃ call outcome, (b.state n).sequencer.phase = .releasing call h outcome)
      fun n => (b.state n).sequencer.phase.driven ≠ some h := by
  rintro n ⟨call, outcome, here⟩
  have moves (n : Nat) (here : (b.state n).sequencer.phase = .releasing call h outcome) :
      (b.state (n + 1)).sequencer.phase = .releasing call h outcome ∨
        (b.state (n + 1)).sequencer.phase.driven ≠ some h := by
    rw [← here]
    exact released_of_step (b.next n) here
  have leads : LeadsTo (fun n => (b.state n).sequencer.phase = .releasing call h outcome)
      fun n => (b.state n).sequencer.phase.driven ≠ some h := by
    refine fair.sequencer.leadsTo moves ?_ fun n always => ⟨n, le_rfl, fun m later =>
      ⟨.sequence, rfl, ?_⟩⟩
    · intro n here turn
      have taken := b.next n
      rw [turn] at taken
      refine (moves n here).resolve_left fun same => ?_
      exact sequence_leaves (h := h) taken (by rw [here]; rfl) (same.trans here.symm)
    · have here := always m later
      simp [step, stepWith, sequence, here]
  exact leads n here

/-- A sequencer in its `select!` can take a resolution that waits for it. -/
theorem select_enabled (fair : Fair b) {n : Nat} {call : Call T D} {drive : Drive} {wake : Nat}
    (here : (b.state n).sequencer.phase = .selecting call drive wake)
    (waits : (b.state n).sequencer.consumed.length < (b.state n).submitter.notified.length) :
    Enabled (step cfg) (· = .resolution) (b.state n) := by
  refine ⟨.resolution, rfl, ?_⟩
  have channel := (InLife.ledger (fair.life n)).1.channel
  have justified := (InLife.origins (fair.life n)).notified
  have deliveries := InLife.deliveries (fair.life n)
  have heights := fair.heights n
  show (resolution cfg (b.state n)).isSome = true
  generalize b.state n = s at here waits channel justified deliveries heights
  cases waiting : s.resolutions with
  | nil =>
    rw [channel, waiting, List.append_nil] at waits
    omega
  | cons notice rest =>
    simp only [resolution, here, waiting]
    split
    · rfl
    · have member : notice ∈ s.submitter.notified := by
        rw [channel, waiting]
        exact List.mem_append_right _ List.mem_cons_self
      have forwarded : notice.cause ∈ s.reporter.forwarded := by
        rw [deliveries.conserved]
        exact List.mem_append_left _ (List.mem_map_of_mem member)
      have within := heights notice.cause (deliveries.vouched _ forwarded).1
      rw [← (justified notice member).1] at within
      simpa [passOver] using within

/-- The sequencer receives the resolution that it is to receive next, or releases
the height it drives. -/
theorem consumes_next (fair : Fair b) (h k : Nat) :
    LeadsTo (fun n => ¬ (b.state n).sequencer.phase.driven ≠ some h ∧
        (b.state n).sequencer.consumed.length = k ∧ k < (b.state n).submitter.notified.length)
      fun n => (b.state n).sequencer.phase.driven ≠ some h ∨
        k < (b.state n).sequencer.consumed.length := by
  refine fair.select.leadsTo ?_ ?_ ?_
  · rintro n ⟨-, level, within⟩
    obtain ⟨-, notified, consumed⟩ := step_grows (b.next n)
    have := notified.length_le
    have := consumed.length_le
    by_cases driven : (b.state (n + 1)).sequencer.phase.driven ≠ some h
    · exact .inr (.inl driven)
    · by_cases passed : k < (b.state (n + 1)).sequencer.consumed.length
      · exact .inr (.inr passed)
      · exact .inl ⟨driven, by omega, by omega⟩
  · rintro n ⟨-, level, within⟩ turn
    have taken := b.next n
    have channel := (InLife.ledger (fair.life n)).1.channel
    rw [turn] at taken
    rw [channel, List.length_append] at within
    have longer := resolution_consumes taken (List.ne_nil_of_length_pos (by omega))
    exact .inr (by omega)
  · intro n always
    have driven (m : Nat) (later : n ≤ m) := not_not.mp (always m later).1
    obtain ⟨m, later, ⟨call, drive, wake, here⟩ | finished⟩ := fair.attends h n (driven n le_rfl)
    · obtain ⟨-, level, within⟩ := always m later
      exact ⟨m, later, fair.select_enabled here (by omega)⟩
    · rcases finished with releasing | free
      · obtain ⟨j, latest, free⟩ := fair.releases h m releasing
        exact absurd (driven j (later.trans latest)) free
      · exact absurd (driven m later) free

end Fair

/-- The drive of a height whose resolution has been received is over. -/
theorem releasing_of_consumed {h k : Nat} (life : InLife cfg s)
    (driven : s.sequencer.phase.driven = some h) (consumed : k < s.sequencer.consumed.length)
    (place : s.reporter.forwarded[k]? = some c) (height : c.height = h) :
    ∃ call outcome, s.sequencer.phase = .releasing call h outcome := by
  obtain ⟨inputs, ledger⟩ := InLife.ledger life
  obtain ⟨notice, received⟩ : ∃ notice, s.sequencer.consumed[k]? = some notice :=
    ⟨_, List.getElem?_eq_getElem consumed⟩
  have cause : notice.cause = c := by
    have same := (InLife.deliveries life).conserved
    rw [same, inputs.channel, List.map_append, List.append_assoc,
      List.getElem?_append_left (by simpa using consumed), List.getElem?_map, received] at place
    exact Option.some.inj place
  have member := List.mem_of_getElem? received
  have notified : notice ∈ s.submitter.notified := by
    rw [inputs.channel]
    exact List.mem_append_left _ member
  have named := ((InLife.origins life).notified notice notified).1
  rw [cause, height] at named
  cases here : s.sequencer.phase with
  | releasing call h' outcome =>
    rw [here] at driven
    cases driven
    exact ⟨call, outcome, rfl⟩
  | starting | selecting | polling =>
    rw [here] at driven
    exact absurd named (ledger.waiting h (by rw [here]; exact driven) notice member)
  | _ =>
    rw [here] at driven
    cases driven

/-- A height that has been assigned and is not driven is not driven again. -/
theorem retired_of_step {h : Nat} (life : InLife cfg s) (taken : step cfg s label = some s')
    (assigned : ∃ call, (h, call) ∈ s.sequencer.assigned)
    (free : s.sequencer.phase.driven ≠ some h) : s'.sequencer.phase.driven ≠ some h := by
  obtain ⟨call, assigned⟩ := assigned
  rcases step_sequenced taken with kept | sequenced
  · rw [kept.sequencer]
    exact free
  · cases sequenced with
    | @inserted _ height here _ =>
      have above := ((InLife.ledger life).2.chosen _ height here).2.1 _ assigned
      intro driven
      exact absurd (Option.some.inj driven) above.ne'
    | released =>
      rw [Phase.driven_after]
      exact nofun
    | passedOver _ origin =>
      rcases origin with ⟨-, rfl, -⟩ | ⟨call, -, rfl, -⟩ | ⟨call, drive, wake, here, -, rfl, -⟩
      · exact nofun
      · exact nofun
      · rw [here] at free
        exact free
    | begun here | latched here _ | announced here _ _ _ _ | abandoned here _ _ _ | gaveUp here _ _
    | resolved here _ _ | closed here _ _ | idled here _ | polled here _ _ =>
      rw [here] at free
      exact free
    | _ => exact nofun

theorem run_assigned {b : Behaviour (step (T := T) cfg)} {n m : Nat} (later : n ≤ m) :
    (b.state n).sequencer.assigned ⊆ (b.state m).sequencer.assigned := by
  induction m, later using Nat.le_induction with
  | base => exact List.Subset.refl _
  | succ m later ih => exact List.Subset.trans ih (step_extended (b.next m)).assigned

theorem run_retired {b : Behaviour (step (T := T) cfg)} (fair : Fair b) {h n m : Nat}
    (assigned : ∃ call, (h, call) ∈ (b.state n).sequencer.assigned)
    (free : (b.state n).sequencer.phase.driven ≠ some h) (later : n ≤ m) :
    (b.state m).sequencer.phase.driven ≠ some h := by
  induction m, later using Nat.le_induction with
  | base => exact free
  | succ m later ih =>
    obtain ⟨call, listed⟩ := assigned
    exact retired_of_step (fair.life m) (b.next m) ⟨call, run_assigned later listed⟩ ih

/-- A height whose certificate has been handed to the submitter is released. -/
theorem Fair.released {b : Behaviour (step (T := T) cfg)} (fair : Fair b) {h n : Nat}
    (forwarded : c ∈ (b.state n).reporter.forwarded) (height : c.height = h) :
    ∃ m ≥ n, (b.state m).sequencer.phase.driven ≠ some h := by
  obtain ⟨k, place⟩ := List.mem_iff_getElem?.mp forwarded
  have caught : LeadsTo (fun n => k < (b.state n).submitter.notified.length)
      fun n => (b.state n).sequencer.phase.driven ≠ some h ∨
        k < (b.state n).sequencer.consumed.length :=
    LeadsTo.catch_up (fun n m later => (run_grows later).2.1.length_le) (fair.consumes_next h) k
  obtain ⟨received, later, free | consumed⟩ :=
    (fair.resolves k).trans caught n (List.getElem?_eq_some_iff.mp place).1
  · exact ⟨received, later, free⟩
  by_cases still : (b.state received).sequencer.phase.driven = some h
  · obtain ⟨free, last, gone⟩ := fair.releases h received (releasing_of_consumed
      (fair.life received) still consumed (place_kept (run_grows later).1 place) height)
    exact ⟨free, later.trans last, gone⟩
  · exact ⟨received, later, still⟩

/-- **A certified height does not stay in drive.** Once the engine has reported a
certificate that passes verification, there is a time from which on its height is
not driven. -/
theorem certified_height_released {b : Behaviour (step (T := T) cfg)} (fair : Fair b) {n : Nat}
    (reported : c ∈ (b.state n).reporter.reported) (verified : cfg.verify c = true) :
    ∃ m ≥ n, ∀ j ≥ m, (b.state j).sequencer.phase.driven ≠ some c.height := by
  obtain ⟨filed, later, c', forwarded, height⟩ := fair.hands_on reported verified
  by_cases never : ∀ j ≥ filed, (b.state j).sequencer.phase.driven ≠ some c.height
  · exact ⟨filed, later, never⟩
  obtain ⟨start, after, driven⟩ : ∃ j, filed ≤ j ∧
      (b.state j).sequencer.phase.driven = some c.height := by simpa using never
  obtain ⟨free, last, gone⟩ := fair.released ((run_grows after).1.subset forwarded) height
  obtain ⟨earlier, call, -, assigned, -⟩ := (InLife.ledger (fair.life start)).2.driven _ driven
  have recorded : (c.height, call) ∈ (b.state free).sequencer.assigned := by
    refine run_assigned last ?_
    rw [assigned]
    exact List.mem_append_right _ (List.mem_singleton_self _)
  exact ⟨free, by omega, fun j beyond => run_retired fair ⟨call, recorded⟩ gone beyond⟩

/-- The actors wait for a certificate and for a task. -/
structure Still (s : Router T D P S) : Prop where
  inbox : s.reporter.inbox = []
  certified : s.certified = []
  submitter : s.submitter.state = .idle
  sequencer : s.sequencer.phase = .awaitingTask

/-- Then none of them has anything to do. -/
theorem Still.not_enabled (still : Still s) : ¬ Enabled (step cfg) submits s ∧
    ¬ Enabled (step cfg) (· = .report) s ∧ ¬ Enabled (step cfg) (· = .sequence) s ∧
      ¬ Enabled (step cfg) (· = .resolution) s ∧ ¬ Enabled (step cfg) (· = .tick) s := by
  obtain ⟨inbox, certified, idle, awaiting⟩ := still
  refine ⟨?_, ?_, ?_, ?_, ?_⟩
  · rintro ⟨label, member, possible⟩
    cases label <;> first
      | exact False.elim member
      | simp [step, stepWith, receive, look, attempt, outcome, retry, idle, certified] at possible
  · rintro ⟨label, rfl, possible⟩
    simp [step, stepWith, report, inbox] at possible
  · rintro ⟨label, rfl, possible⟩
    simp [step, stepWith, sequence, awaiting] at possible
  · rintro ⟨label, rfl, possible⟩
    simp [step, stepWith, resolution, awaiting] at possible
  · rintro ⟨label, rfl, possible⟩
    simp [step, stepWith, tick, awaiting] at possible

section Examples

def soloLabel (labels : List SoloLabel) (n : Nat) : SoloLabel := labels[n]?.getD (.elapse 1)

/-- Time passes after the last label. -/
def soloState (labels : List SoloLabel) : Nat → Router Nat Nat Nat Unit
  | 0 => init solo
  | n + 1 => (step solo (soloState labels n) (soloLabel labels n)).getD (soloState labels n)

/-- No actor has anything to do. -/
def quiet (s : Router Nat Nat Nat Unit) : Bool :=
  s.reporter.inbox.isEmpty && s.certified.isEmpty && s.resolutions.isEmpty &&
    (match s.submitter.state, s.sequencer.phase with
      | .idle, .awaitingTask => true
      | _, _ => false)

/-- The actors live, and one certificate has been reported at most, for a low height. -/
def sound (s : Router Nat Nat Nat Unit) : Bool :=
  s.reporter.up && s.submitter.up && s.reporter.reported.all (·.height < 5) &&
    s.reporter.reported.length ≤ 1

/-- The labels can be taken one after the other and leave nothing to do. -/
structure Settling (labels : List SoloLabel) : Prop where
  possible : ∀ n < labels.length, (step solo (soloState labels n) (soloLabel labels n)).isSome = true
  sound : ∀ n < labels.length + 1, sound (soloState labels n) = true
  quiet : quiet (soloState labels labels.length) = true

variable {labels : List SoloLabel}

theorem soloLabel_later {n : Nat} (later : labels.length ≤ n) : soloLabel labels n = .elapse 1 := by
  rw [soloLabel, List.getElem?_eq_none later]
  rfl

theorem solo_tail (n : Nat) : soloState labels (labels.length + n) =
    { soloState labels labels.length with now := (soloState labels labels.length).now + n } := by
  induction n with
  | zero => rfl
  | succ n ih =>
    show (step solo (soloState labels (labels.length + n)) (soloLabel labels (labels.length + n))).getD
      (soloState labels (labels.length + n)) = _
    rw [soloLabel_later (Nat.le_add_right _ _), ih]
    rfl

def soloBehaviour (settling : Settling labels) : Behaviour (step (T := Nat) solo) where
  state := soloState labels
  label := soloLabel labels
  next := by
    intro n
    have possible : (step solo (soloState labels n) (soloLabel labels n)).isSome = true := by
      rcases Nat.lt_or_ge n labels.length with early | later
      · exact settling.possible n early
      · rw [soloLabel_later later]
        rfl
    obtain ⟨s, taken⟩ := Option.isSome_iff_exists.mp possible
    rw [soloState, taken]
    rfl

theorem Settling.quiet_later (settling : Settling labels) (n : Nat) (later : labels.length ≤ n) :
    Router.quiet (soloState labels n) = true := by
  obtain ⟨k, rfl⟩ := Nat.exists_eq_add_of_le later
  rw [solo_tail]
  exact settling.quiet

theorem Settling.sound_always (settling : Settling labels) (n : Nat) :
    Router.sound (soloState labels n) = true := by
  rcases Nat.lt_or_ge n labels.length with early | later
  · exact settling.sound n (Nat.lt_succ_of_lt early)
  · obtain ⟨k, rfl⟩ := Nat.exists_eq_add_of_le later
    rw [solo_tail]
    exact settling.sound labels.length (Nat.lt_succ_self _)

/-- A quiet state enables none of the actors. -/
theorem not_enabled_of_quiet {s : Router Nat Nat Nat Unit} (still : quiet s = true) :
    ¬ Enabled (step solo) submits s ∧ ¬ Enabled (step solo) (· = .report) s ∧
      ¬ Enabled (step solo) (· = .sequence) s ∧ ¬ Enabled (step solo) (· = .resolution) s ∧
      ¬ Enabled (step solo) (· = .tick) s := by
  simp only [quiet, Bool.and_eq_true, List.isEmpty_iff] at still
  obtain ⟨⟨⟨inbox, certified⟩, resolutions⟩, waiting⟩ := still
  split at waiting
  · rename_i idle awaiting
    exact Still.not_enabled ⟨inbox, certified, idle, awaiting⟩
  · cases waiting

theorem Settling.not_enabled (settling : Settling labels) (n : Nat) (later : labels.length ≤ n) :
    ¬ Enabled (step solo) submits (soloState labels n) ∧
      ¬ Enabled (step solo) (· = .report) (soloState labels n) ∧
      ¬ Enabled (step solo) (· = .sequence) (soloState labels n) ∧
      ¬ Enabled (step solo) (· = .resolution) (soloState labels n) ∧
      ¬ Enabled (step solo) (· = .tick) (soloState labels n) :=
  not_enabled_of_quiet (settling.quiet_later n later)

theorem Settling.fair (settling : Settling labels) : Fair (soloBehaviour settling) where
  begins := .start rfl
  up := fun n => by
    have alive := settling.sound_always n
    simp only [Router.sound, Bool.and_eq_true] at alive
    exact alive.1.1
  heights := fun n c member => by
    have alive := settling.sound_always n
    simp only [Router.sound, Bool.and_eq_true, List.all_eq_true, decide_eq_true_eq] at alive
    have low := alive.1.2 c member
    rw [succHeight_of_lt (by omega)]
    rfl
  reporter := Behaviour.weaklyFair_of_idle fun n later => (settling.not_enabled n later).2.1
  submitter := Behaviour.weaklyFair_of_idle fun n later => (settling.not_enabled n later).1
  sequencer := Behaviour.weaklyFair_of_idle fun n later => (settling.not_enabled n later).2.2.1
  select := Behaviour.stronglyFair_of_idle fun n later => (settling.not_enabled n later).2.2.2.1
  clock := fun t => ⟨labels.length + t, by
    show t ≤ (soloState labels (labels.length + t)).now
    rw [solo_tail]
    exact Nat.le_add_left _ _⟩

/-- A task is executed at height 0 and the sequencer waits for the next one. -/
def soloTask : List SoloLabel := soloStart ++ soloAssign 10 1 ++ soloExecute 0 1 ++ soloRelease

theorem soloTask_settling : Settling soloTask :=
  ⟨by decide +kernel, by decide +kernel, by decide +kernel⟩

/-- Height 0 is driven, certified and released. -/
theorem solo_height_released :
    ((soloBehaviour soloTask_settling).state 11).sequencer.phase.driven = some 0 ∧
      ∃ m ≥ 12, ∀ j ≥ m,
        ((soloBehaviour soloTask_settling).state j).sequencer.phase.driven ≠ some 0 :=
  ⟨by decide +kernel, certified_height_released (c := soloCertificate 0 1) soloTask_settling.fair
    (by decide +kernel) rfl⟩

end Examples
end Restaking.Router
