import Restaking.Submissions

/-! What reaches the chain: only what a quorum certified for the height it was
assigned to, and one height for each task as long as no assignment is withdrawn
under a submission. -/
namespace Restaking.Router
open Lib

variable {T D P G S : Type*} [LinearOrder P]
variable {cfg : Config D P G S} {s s' : Router T D P S} {label : Label T D P S}

/-- Only a submission extends the record of handler calls. -/
theorem calling_of_executed [DecidableEq D] {execution : Execution T D}
    (taken : step cfg s label = some s')
    (called : s'.submitter.executions = s.submitter.executions ++ [execution]) :
    ∃ job, s.submitter.state = .submitting job ∧
      execution = ⟨job.certified.height, job.certified.digest, job.task⟩ := by
  rcases step_cases taken with environment | reported | submitted | sequenced
  · cases environment <;> simp [enqueue] at called
  · cases reported <;> simp at called
  · cases submitted with
    | called submitting _ =>
      simp only [List.append_cancel_left_eq, List.cons.injEq, and_true] at called
      exact ⟨_, submitting, called.symm⟩
    | _ => simp [notify, recordFailure] at called
  · cases sequenced <;> simp at called

/-- **Executions are certified and assigned.** When the handler is called for a
height, a digest and a task, the sequencer has assigned that task with that
digest to the height, the engine has reported a certificate of a quorum for
exactly the height and the digest that passed verification, and the digest is
not the one that abandons the height. -/
theorem executions_certified_and_assigned [DecidableEq D] {h : Nat} {msgHash : D} {task : T}
    (life : InLife cfg s) (taken : step cfg s label = some s')
    (called : s'.submitter.executions = s.submitter.executions ++ [⟨h, msgHash, task⟩]) :
    (∃ call, (h, call) ∈ s.sequencer.assigned ∧ call.sequenced.digest = msgHash ∧
      call.sequenced.task = task) ∧
      (∃ c ∈ s.reporter.reported, c.height = h ∧ c.digest = msgHash ∧ cfg.verify c = true ∧
        quorum cfg.scheme.participants.length ≤ (cfg.scheme.signerG2Keys c.certificate).length ∧
        (cfg.scheme.signerG2Keys c.certificate).Nodup) ∧
      msgHash ≠ cfg.skip h := by
  obtain ⟨job, submitting, shape⟩ := calling_of_executed taken called
  cases shape
  have picked := life.origins.submission job (by rw [submitting]; rfl)
  obtain ⟨⟨reported, verified⟩, real, expected⟩ := life.origins.picked _ picked
  have signers := Bn254Scheme.verified_signers verified
  exact ⟨expected, ⟨job.certified, reported, rfl, rfl, verified, signers.1, signers.2.1⟩, real⟩

/-- A task certified at height 0 reaches the handler. -/
theorem certified_task_executed : ∃ s s' : Router Nat Nat Nat Unit,
    s'.submitter.executions = s.submitter.executions ++ [⟨0, 1, 10⟩] ∧
      (∃ call, (0, call) ∈ s.sequencer.assigned ∧ call.sequenced.digest = 1 ∧
        call.sequenced.task = 10) ∧ 1 ≠ solo.skip 0 := by
  obtain ⟨s, life, reached⟩ := InLife.of_exec_any solo
    (soloStart ++ soloAssign 10 1 ++ (soloExecute 0 1).take 4)
    (fun s => (step solo s (.attempt true)).any fun s' =>
      s'.submitter.executions = s.submitter.executions ++ [⟨0, 1, 10⟩]) (by decide +kernel)
  obtain ⟨s', taken, called⟩ := (Option.any_eq_true _ _).mp reached
  have executed := of_decide_eq_true called
  obtain ⟨assigned, -, real⟩ := executions_certified_and_assigned life taken executed
  exact ⟨s, s', executed, assigned, real⟩

/-- No task that `next_task` returned was handed to the handler for two heights. -/
def ExecutedOnce (s : Router T D P S) : Prop :=
  ∀ first ∈ s.sequencer.assigned, ∀ second ∈ s.sequencer.assigned, first.2.id = second.2.id →
    (∃ execution ∈ s.submitter.executions, execution.height = first.1) →
    (∃ execution ∈ s.submitter.executions, execution.height = second.1) → first.1 = second.1

/-- The height whose task the sequencer is about to assign anew. -/
def withdrawn : Phase T D → Option Nat
  | .releasing _ height (.resolved .foreign) => some height
  | .releasing _ height .superseded => some height
  | _ => none

/-- A certificate of the height met its assignment: the submitter is at work on it,
or has called the handler for it. -/
def met (s : Router T D P S) (h : Nat) : Bool :=
  s.submitter.state.submission.any (·.certified.height = h) ||
    s.submitter.executions.any (·.height = h)

/-- The step does not withdraw an assignment that a certificate has already met. -/
def undisturbed (s : Router T D P S) : Label T D P S → Bool
  | .sequence => match withdrawn s.sequencer.phase with
    | some height => !s.met height
    | none => true
  | _ => true

/-- The side condition on runs that `undisturbed` tests. -/
abbrev Undisturbed (s : Router T D P S) (label : Label T D P S) : Prop :=
  s.undisturbed label = true

/-- The heights a task was assigned to: at most one of them was met, and none
that the sequencer has moved on from while it still holds the task. -/
structure Single (s : Router T D P S) : Prop where
  assigned : ∀ entry ∈ s.sequencer.assigned, entry.2.id < s.sequencer.calls
  held : ∀ call, s.sequencer.phase.held = some call → call.id < s.sequencer.calls
  once : ∀ first ∈ s.sequencer.assigned, ∀ second ∈ s.sequencer.assigned,
    first.2.id = second.2.id → s.met first.1 → s.met second.1 → first.1 = second.1
  retried : ∀ call, s.sequencer.phase.held = some call → ∀ entry ∈ s.sequencer.assigned,
    entry.2.id = call.id → s.sequencer.phase.driven ≠ some entry.1 → ¬ s.met entry.1

/-- A step that neither assigns nor meets an assignment, and keeps or drops the
task. -/
private theorem single_kept (single : Single s)
    (assigned : s'.sequencer.assigned = s.sequencer.assigned)
    (calls : s.sequencer.calls ≤ s'.sequencer.calls)
    (met : ∀ h, s'.met h → s.met h)
    (held : ∀ call, s'.sequencer.phase.held = some call → call.id < s'.sequencer.calls)
    (retried : ∀ call, s'.sequencer.phase.held = some call → ∀ entry ∈ s.sequencer.assigned,
      entry.2.id = call.id → s'.sequencer.phase.driven ≠ some entry.1 → ¬ s.met entry.1) :
    Single s' where
  assigned := by
    intro entry member
    exact (single.assigned entry (assigned ▸ member)).trans_le calls
  held := held
  once := by
    rw [assigned]
    intro first firstIn second secondIn same metFirst metSecond
    exact single.once first firstIn second secondIn same (met _ metFirst) (met _ metSecond)
  retried := by
    rw [assigned]
    intro call holds entry member same away again
    exact retried call holds entry member same away (met _ again)

/-- A step that holds the same task and drives the same height. -/
private theorem single_held (single : Single s)
    (assigned : s'.sequencer.assigned = s.sequencer.assigned)
    (calls : s'.sequencer.calls = s.sequencer.calls)
    (met : ∀ h, s'.met h → s.met h)
    (held : s'.sequencer.phase.held = s.sequencer.phase.held)
    (driven : s'.sequencer.phase.driven = s.sequencer.phase.driven) : Single s' := by
  refine single_kept single assigned calls.ge met ?_ ?_
  · rw [held, calls]
    exact single.held
  · rw [held, driven]
    exact single.retried

/-- The sequencer moves on with the task and the height that it has. -/
private theorem single_moved (single : Single s) {phase phase' : Phase T D}
    (before : s.sequencer.phase = phase) (after : s'.sequencer.phase = phase')
    (held : phase'.held = phase.held) (driven : phase'.driven = phase.driven)
    (assigned : s'.sequencer.assigned = s.sequencer.assigned)
    (calls : s'.sequencer.calls = s.sequencer.calls) (met : ∀ h, s'.met h → s.met h) :
    Single s' := by
  subst before after
  exact single_held single assigned calls met held driven

/-- A step after which the sequencer holds no task. -/
private theorem single_dropped (single : Single s)
    (assigned : s'.sequencer.assigned = s.sequencer.assigned)
    (calls : s'.sequencer.calls = s.sequencer.calls)
    (met : ∀ h, s'.met h → s.met h)
    (held : s'.sequencer.phase.held = none) : Single s' := by
  refine single_kept single assigned calls.ge met ?_ ?_
  · intro call holds
    rw [held] at holds
    cases holds
  · intro call holds
    rw [held] at holds
    cases holds

private theorem met_iff {h : Nat} : s.met h ↔
    (∃ job, s.submitter.state.submission = some job ∧ job.certified.height = h) ∨
      ∃ execution ∈ s.submitter.executions, execution.height = h := by
  simp [met, Option.any_eq_true]

/-- A submission that moves on stays with its height. -/
private theorem met_of_submission {job : Submission T D (Bn254Certificate S)} {h : Nat}
    (active : s.submitter.state.submission = some job)
    (now : s'.submitter.state.submission.all (·.certified.height = job.certified.height))
    (executions : ∀ execution ∈ s'.submitter.executions,
      execution ∈ s.submitter.executions ∨ execution.height = job.certified.height)
    (again : s'.met h) : s.met h := by
  rw [met_iff] at again ⊢
  rcases again with ⟨job', active', rfl⟩ | ⟨execution, member, rfl⟩
  · rw [active'] at now
    exact .inl ⟨job, active, (of_decide_eq_true now).symm⟩
  · rcases executions execution member with earlier | own
    · exact .inr ⟨execution, earlier, rfl⟩
    · exact .inl ⟨job, active, own.symm⟩

/-- An assignment is met while its height is driven. -/
private theorem single_picked {c : Cert D S} {assignment : Assignment T D} (single : Single s)
    (ledger : Ledger s.sequencer s.assignments)
    (present : s.assignments.get? c.height = some assignment)
    (sequencer : s'.sequencer = s.sequencer)
    (met_before : ∀ h, h ≠ c.height → s'.met h → s.met h) : Single s' := by
  obtain ⟨current, last, driven, holds, -⟩ := ledger.expected present
  have current_of : ∀ entry ∈ s.sequencer.assigned, entry.1 = c.height → entry.2 = current := by
    intro entry member same
    exact congrArg Prod.snd (ledger.assigned_unique member last same)
  -- the task in drive has no other height that was met
  have alone : ∀ entry ∈ s.sequencer.assigned, entry.2.id = current.id → s'.met entry.1 →
      entry.1 = c.height := by
    intro entry member same met
    by_contra other
    have away : s.sequencer.phase.driven ≠ some entry.1 := by
      rw [driven]
      exact fun here => other (Option.some.inj here).symm
    exact single.retried current holds entry member same away (met_before _ other met)
  constructor
  · rw [sequencer]
    exact single.assigned
  · rw [sequencer]
    exact single.held
  · rw [sequencer]
    intro first firstIn second secondIn same metFirst metSecond
    by_cases here : first.1 = c.height
    · have id : second.2.id = current.id := by rw [← same, current_of first firstIn here]
      rw [here, alone second secondIn id metSecond]
    · by_cases there : second.1 = c.height
      · have id : first.2.id = current.id := by rw [same, current_of second secondIn there]
        exact absurd (alone first firstIn id metFirst) here
      · exact single.once first firstIn second secondIn same (met_before _ here metFirst)
          (met_before _ there metSecond)
  · rw [sequencer]
    intro call holding entry member same away met
    have other : entry.1 ≠ c.height := by
      intro here
      rw [here] at away
      exact away driven
    exact single.retried call holding entry member same away (met_before _ other met)

theorem Single.submitted (single : Single s) (ledger : Ledger s.sequencer s.assignments)
    (taken : Submitted cfg s label s') : Single s' := by
  have held (met : ∀ h, s'.met h → s.met h) (sequencer : s'.sequencer = s.sequencer) : Single s' :=
    single_held single (by rw [sequencer]) (by rw [sequencer]) met (by rw [sequencer])
      (by rw [sequencer])
  have idle (quiet : s'.submitter.state.submission = none)
      (same : s'.submitter.executions = s.submitter.executions) (h : Nat) (again : s'.met h) :
      s.met h := by
    rw [met_iff] at again ⊢
    rw [quiet, same] at again
    exact .inr (again.resolve_left (by simp))
  cases taken with
  | @picked c assignment looking present _ =>
    refine single_picked single ledger present rfl ?_
    intro h other again
    rw [met_iff] at again ⊢
    rcases again with ⟨job, ⟨⟩, rfl⟩ | executed
    · exact absurd rfl other
    · exact .inr executed
  | @called job submitting _ =>
    have active : s.submitter.state.submission = some job := by rw [submitting]; rfl
    refine held (fun h => met_of_submission active (by simp [Submitter.submission]) ?_) rfl
    intro execution member
    rcases List.mem_append.mp member with earlier | last
    · exact .inl earlier
    · cases List.mem_singleton.mp last
      exact .inr rfl
  | slept active _ =>
    exact held (fun h => met_of_submission active (by simp [Submitter.submission])
      fun _ => .inl) rfl
  | @woken job wake sleeping _ =>
    have active : s.submitter.state.submission = some job := by rw [sleeping]; rfl
    exact held (fun h => met_of_submission active (by simp [Submitter.submission])
      fun _ => .inl) rfl
  | skipped _ _ _ => exact held (idle rfl rfl) rfl
  | looking _ _ _ => exact held (idle rfl rfl) rfl
  | foreign _ _ => exact held (idle rfl rfl) rfl
  | finished _ => exact held (idle rfl rfl) rfl
  | gaveUp _ _ => exact held (idle rfl rfl) rfl

/-- A height that is only now assigned has not been met. -/
private theorem single_inserted {call : Call T D} {height : Nat} (single : Single s)
    (phase : s.sequencer.phase = .inserting call height) (fresh : ¬ s.met height)
    (phase' : s'.sequencer.phase = .starting call height)
    (assigned : s'.sequencer.assigned = s.sequencer.assigned ++ [(height, call)])
    (calls : s'.sequencer.calls = s.sequencer.calls)
    (met : ∀ h, s'.met h → s.met h) : Single s' := by
  have holds : s.sequencer.phase.held = some call := by rw [phase]; rfl
  have entries : ∀ entry ∈ s'.sequencer.assigned,
      entry ∈ s.sequencer.assigned ∨ entry = (height, call) := by
    intro entry member
    rw [assigned] at member
    exact (List.mem_append.mp member).imp_right List.mem_singleton.mp
  refine ⟨?_, ?_, ?_, ?_⟩
  · intro entry member
    rw [calls]
    rcases entries entry member with earlier | rfl
    · exact single.assigned entry earlier
    · exact single.held call holds
  · intro other holding
    rw [phase'] at holding
    cases holding
    rw [calls]
    exact single.held call holds
  · intro first firstIn second secondIn same metFirst metSecond
    have metFirst := met _ metFirst
    have metSecond := met _ metSecond
    rcases entries first firstIn with earlier | rfl
    · rcases entries second secondIn with earlier' | rfl
      · exact single.once first earlier second earlier' same metFirst metSecond
      · exact absurd metSecond fresh
    · exact absurd metFirst fresh
  · intro other holding entry member same away again
    rw [phase'] at holding away
    cases holding
    rcases entries entry member with earlier | rfl
    · exact single.retried call holds entry earlier same (by rw [phase]; exact nofun) (met _ again)
    · exact fresh (met _ again)

/-- Releasing a height whose assignment was not met leaves the task free for
another. -/
private theorem single_released {call : Call T D} {height : Nat} {outcome : HeightOutcome}
    (single : Single s) (phase : s.sequencer.phase = .releasing call height outcome)
    (undisturbed : Undisturbed s .sequence) (phase' : s'.sequencer.phase = .after call outcome)
    (assigned : s'.sequencer.assigned = s.sequencer.assigned)
    (calls : s'.sequencer.calls = s.sequencer.calls)
    (met : ∀ h, s'.met h → s.met h) : Single s' := by
  have holds : s.sequencer.phase.held = some call := by rw [phase]; rfl
  have kept (free : withdrawn s.sequencer.phase = some height)
      (again : s'.sequencer.phase = .redraining call) : Single s' := by
    refine single_kept single assigned calls.ge met ?_ ?_
    · intro other holding
      rw [again] at holding
      cases holding
      rw [calls]
      exact single.held call holds
    · intro other holding entry member same _
      rw [again] at holding
      cases holding
      by_cases here : entry.1 = height
      · rw [here]
        simpa [Undisturbed, Router.undisturbed, free] using undisturbed
      · apply single.retried call holds entry member same
        rw [phase]
        exact fun driven => here (Option.some.inj driven).symm
  rcases outcome with (success | _ | _) | _ | _
  · exact single_dropped single assigned calls met (by rw [phase']; rfl)
  · exact single_dropped single assigned calls met (by rw [phase']; rfl)
  · exact kept (by rw [phase]; rfl) phase'
  · exact kept (by rw [phase]; rfl) phase'
  · exact single_dropped single assigned calls met (by rw [phase']; rfl)

/-- Every step of the sequencer that withdraws no assignment already met keeps
each task to one height. -/
theorem Single.sequenced (single : Single s) (origins : Origins cfg s)
    (ledger : Ledger s.sequencer s.assignments) (undisturbed : Undisturbed s label)
    (taken : Sequenced cfg s label s') : Single s' := by
  cases taken with
  | settled phase _ => exact single_dropped single rfl rfl (fun _ => id) rfl
  | started phase _ => exact single_dropped single rfl rfl (fun _ => id) rfl
  | passedOver _ origin =>
    rcases origin with ⟨phase, rfl, -⟩ | ⟨call, phase, rfl, -⟩ | ⟨call, drive, wake, phase, -, rfl, -⟩
    · exact single_dropped single rfl rfl (fun _ => id) rfl
    · exact single_moved single phase rfl rfl rfl rfl rfl fun _ => id
    · exact single_moved single phase rfl rfl rfl rfl rfl fun _ => id
  | drained phase _ => exact single_dropped single rfl rfl (fun _ => id) rfl
  | asked phase _ => exact single_moved single phase rfl rfl rfl rfl rfl fun _ => id
  | chosen phase _ _ => exact single_moved single phase rfl rfl rfl rfl rfl fun _ => id
  | dropped phase _ => exact single_dropped single rfl rfl (fun _ => id) rfl
  | @inserted call height phase _ =>
    refine single_inserted single phase ?_ rfl rfl rfl (fun _ => id)
    have below : ∀ pick ∈ s.submitter.picked, pick.1.height ≠ height := by
      intro pick picked
      obtain ⟨-, -, other, assigned, -⟩ := origins.picked pick picked
      exact ((ledger.chosen call height phase).2.1 _ assigned).ne
    rw [met_iff]
    rintro (⟨job, active, here⟩ | ⟨execution, member, here⟩)
    · exact below _ (origins.submission job active) here
    · obtain ⟨pick, picked, rfl⟩ := origins.executions execution member
      exact below pick picked here
  | begun phase => exact single_moved single phase rfl rfl rfl rfl rfl fun _ => id
  | latched phase _ => exact single_moved single phase rfl rfl rfl rfl rfl fun _ => id
  | gaveUp phase _ _ => exact single_moved single phase rfl rfl rfl rfl rfl fun _ => id
  | announced phase _ _ _ _ => exact single_moved single phase rfl rfl rfl rfl rfl fun _ => id
  | abandoned phase _ _ _ => exact single_moved single phase rfl rfl rfl rfl rfl fun _ => id
  | released phase => exact single_released single phase undisturbed rfl rfl rfl (fun _ => id)
  | exhausted phase => exact single_dropped single rfl rfl (fun _ => id) rfl
  | taken phase =>
    refine single_kept single rfl (Nat.le_succ _) (fun _ => id) ?_ ?_
    · rintro call ⟨⟩
      exact Nat.lt_succ_self _
    · rintro call ⟨⟩ entry member same -
      exact absurd same (single.assigned entry member).ne
  | resolved phase _ _ => exact single_moved single phase rfl rfl rfl rfl rfl fun _ => id
  | closed phase _ _ => exact single_moved single phase rfl rfl rfl rfl rfl fun _ => id
  | idled phase _ => exact single_moved single phase rfl rfl rfl rfl rfl fun _ => id
  | polled phase _ _ => exact single_moved single phase rfl rfl rfl rfl rfl fun _ => id

/-- Along undisturbed runs every task keeps to one height. -/
theorem single_of_undisturbed [DecidableEq D]
    (reached : ReachableWhere (· = init cfg) (step cfg) Undisturbed s) : Single s := by
  refine reached.preserves ?_ fun s label s' life single undisturbed taken => ?_
  · rintro start rfl
    constructor <;> simp [init, Phase.held]
  · rcases step_cases taken with environment | reported | submitted | sequenced
    · have kept := environment.kept.sequencer
      have met : ∀ h, s'.met h → s.met h := by cases environment <;> exact fun _ => id
      exact single_held single (by rw [kept]) (by rw [kept]) met (by rw [kept]) (by rw [kept])
    · have kept := reported.kept.sequencer
      have met : ∀ h, s'.met h → s.met h := by cases reported <;> exact fun _ => id
      exact single_held single (by rw [kept]) (by rw [kept]) met (by rw [kept]) (by rw [kept])
    · exact single.submitted (InLife.ledger life).2 submitted
    · exact single.sequenced (InLife.origins life) (InLife.ledger life).2 undisturbed sequenced

/-- **One height for each task.** In every run in which the sequencer never takes
back an assignment that a certificate has already met, no task is handed to the
handler for two heights. -/
theorem executed_once_when_undisturbed [DecidableEq D]
    (reached : ReachableWhere (· = init cfg) (step cfg) Undisturbed s) : ExecutedOnce s := by
  have single := single_of_undisturbed reached
  intro first firstIn second secondIn same executedFirst executedSecond
  exact single.once first firstIn second secondIn same (met_iff.mpr (.inr executedFirst))
    (met_iff.mpr (.inr executedSecond))

/-- The sequencer's way from a released height to the next one. -/
def soloReassign : List SoloLabel :=
  [.sequence, .sequence, .report, .sequence, .sequence, .sequence]

/-- Height 0 certifies a foreign digest; the task moves to height 1 and is
executed there only. -/
theorem foreign_height_task_executed_once : ∃ s : Router Nat Nat Nat Unit,
    s.submitter.executions = [⟨1, 1, 10⟩] ∧ (s.sequencer.assigned.map Prod.fst) = [0, 1] ∧
      ExecutedOnce s := by
  let labels : List SoloLabel := soloStart ++ soloAssign 10 1 ++
    [.activity (.certified (soloCertificate 0 7)), .report, .receive, .look, .resolution] ++
    soloReassign ++ soloExecute 1 1
  let moved (s : Router Nat Nat Nat Unit) : Bool :=
    s.submitter.executions = [⟨1, 1, 10⟩] ∧ (s.sequencer.assigned.map Prod.fst) = [0, 1]
  have ran : (exec (guarded (step solo) Undisturbed) (init solo) labels).any moved = true := by
    decide +kernel
  obtain ⟨s, life, reached⟩ :
      ∃ s, ReachableWhere (· = init solo) (step solo) Undisturbed s ∧ moved s = true :=
    ReachableWhere.of_exec_any rfl ran
  obtain ⟨executed, assigned⟩ := of_decide_eq_true reached
  exact ⟨s, executed, assigned, executed_once_when_undisturbed life⟩

/-- The certificate of height 0 is recorded after the sequencer's query and picked
up by the submitter before the tip report of a node supersedes the height: the
same task is executed at heights 0 and 1. -/
theorem superseded_submission_executed_twice : ∃ s : Router Nat Nat Nat Unit,
    InLife solo s ∧ ¬ ExecutedOnce s := by
  let labels : List SoloLabel := soloStart ++ soloAssign 10 1 ++
    [.elapse 1, .tick, .report] ++ (soloExecute 0 1).take 5 ++
    [.message 0 (some (.tipReport 1)), .sequence] ++ soloReassign ++
    [.outcome (some (some true))] ++ soloExecute 1 1
  let twice (s : Router Nat Nat Nat Unit) : Bool :=
    s.submitter.executions = [⟨0, 1, 10⟩, ⟨1, 1, 10⟩] ∧
      (s.sequencer.assigned.map fun entry => (entry.1, entry.2.id)) = [(0, 0), (1, 0)]
  obtain ⟨s, life, reached⟩ := InLife.of_exec_any solo labels twice (by decide +kernel)
  obtain ⟨executed, assigned⟩ := of_decide_eq_true reached
  refine ⟨s, life, fun once => ?_⟩
  have entry : ∀ h, (h, 0) ∈ [(0, 0), (1, 0)] → ∃ call, (h, call) ∈ s.sequencer.assigned ∧
      call.id = 0 := by
    intro h listed
    rw [← assigned] at listed
    obtain ⟨⟨height, call⟩, member, same⟩ := List.mem_map.mp listed
    obtain ⟨rfl, named⟩ := Prod.mk.inj same
    exact ⟨call, member, named⟩
  obtain ⟨first, firstIn, firstId⟩ := entry 0 (by simp)
  obtain ⟨second, secondIn, secondId⟩ := entry 1 (by simp)
  have same := once _ firstIn _ secondIn (firstId.trans secondId.symm)
    ⟨⟨0, 1, 10⟩, by simp [executed], rfl⟩ ⟨⟨1, 1, 10⟩, by simp [executed], rfl⟩
  cases same

end Restaking.Router
