import Mathlib.Data.List.TakeWhile
import Restaking.ReleaseBuild
import Restaking.RouterQueues

/-! The router across restarts. A new life keeps nothing of the last one: its engine
replays the journal, the reporter works through what is replayed before it answers
the sequencer's first query, and the sequencer starts above every height that was
certified before. So a height belongs to the life that certified it. -/
namespace Restaking.Router
open Lib

variable {T D P G S : Type*} [LinearOrder P]
variable {cfg : Config D P G S} {s s' : Router T D P S} {label : Label T D P S} {h : Nat}

/-! ## One life -/

/-- Handling the message leaves the reporter's tip above the height. -/
def lifts (cfg : Config D P G S) (h : Nat) : CertReporter.Message D (Bn254Certificate S) → Bool
  | .certified c => cfg.verify c && h == c.height
  | .tip tip => h < tip
  | .getTip => false
  | .get _ => false

def isGetTip : CertReporter.Message D (Bn254Certificate S) → Bool
  | .getTip => true
  | _ => false

/-- The next tip query is answered from above the height. -/
def Ready (cfg : Config D P G S) (h : Nat) (s : Router T D P S) : Prop :=
  h < s.reporter.log.tip ∨ ∃ message ∈ s.reporter.inbox.takeWhile (!isGetTip ·),
    lifts cfg h message = true

/-- The life stays above the height. -/
structure Behind (cfg : Config D P G S) (h : Nat) (s : Router T D P S) : Prop where
  up : s.reporter.up = true
  ready : Ready cfg h s
  answer : ∀ answer ∈ s.tipAnswer, h < answer.tip
  next : (∀ wake, s.sequencer.phase ≠ .settling wake) → s.sequencer.phase ≠ .startingTip →
    h < s.sequencer.nextHeight
  inserting : ∀ call height, s.sequencer.phase = .inserting call height → h < height
  assigned : ∀ entry ∈ s.sequencer.assigned, h < entry.1

/-- Messages at the end of the mailbox change nothing for the first query. -/
theorem Ready.append {more : List (CertReporter.Message D (Bn254Certificate S))}
    (ready : Ready cfg h s) (log : s'.reporter.log = s.reporter.log)
    (inbox : s'.reporter.inbox = s.reporter.inbox ++ more) : Ready cfg h s' := by
  refine ready.imp (fun above => log ▸ above) ?_
  rintro ⟨message, before, lifting⟩
  refine ⟨message, ?_, lifting⟩
  rw [inbox, List.takeWhile_append]
  split
  · exact List.mem_append_left _ (List.takeWhile_sublist _ |>.subset before)
  · exact before

theorem Ready.of_getTip {rest : List (CertReporter.Message D (Bn254Certificate S))}
    (ready : Ready cfg h s) (waiting : s.reporter.inbox = .getTip :: rest) :
    h < s.reporter.log.tip := by
  rcases ready with above | ⟨message, before, -⟩
  · exact above
  · rw [waiting] at before
    cases before

/-- A tip never falls. -/
theorem tip_le_of_reported (taken : Reported cfg s label s') :
    s.reporter.log.tip ≤ s'.reporter.log.tip := by
  cases taken with
  | retained | forwarded | tip => simp
  | _ => exact le_rfl

/-- A message that lifts the tip does so, also where the height is on file already. -/
theorem report_lifts {message : CertReporter.Message D (Bn254Certificate S)}
    {rest : List (CertReporter.Message D (Bn254Certificate S))} (taken : s.report cfg = some s')
    (waiting : s.reporter.inbox = message :: rest) (below : s.reporter.log.BelowTip)
    (lifting : lifts cfg h message = true) : h < s'.reporter.log.tip := by
  unfold report at taken
  split at taken
  · cases taken
  · simp only [waiting] at taken
    cases message with
    | certified c =>
      simp only [lifts, Bool.and_eq_true, beq_iff_eq] at lifting
      obtain ⟨verified, rfl⟩ := lifting
      obtain ⟨⟨log, forward⟩, handled, shape⟩ := Option.map_eq_some_iff.mp taken
      have lifted : c.height < log.tip := by
        rcases CertReporter.handleCertified_cases handled with ⟨rfl, rfl⟩ | ⟨-, -, -, rfl⟩
        · cases found : s.reporter.log.certified.get? c.height with
          | none => simp [CertReporter.handleCertified, found, verified] at handled
          | some digest => exact below c.height digest found
        · simp
      split at shape <;> cases shape <;> exact lifted
    | tip tip =>
      cases taken
      simpa using .inr (of_decide_eq_true lifting)
    | getTip => cases lifting
    | get height => cases lifting

theorem Ready.report (ready : Ready cfg h s) (below : s.reporter.log.BelowTip)
    (reports : s.report cfg = some s') (taken : Reported cfg s label s')
    {first : CertReporter.Message D (Bn254Certificate S)}
    (waiting : s.reporter.inbox = first :: s'.reporter.inbox) : Ready cfg h s' := by
  rcases ready with above | ⟨message, before, lifting⟩
  · exact .inl (above.trans_le (tip_le_of_reported taken))
  · rw [waiting, List.takeWhile_cons] at before
    split at before
    · rcases List.mem_cons.mp before with rfl | later
      · exact .inl (report_lifts reports waiting below lifting)
      · exact .inr ⟨message, later, lifting⟩
    · cases before

/-- A step that leaves the sequencer and the queries alone. -/
theorem Behind.still (behind : Behind cfg h s) (ready : Ready cfg h s')
    (up : s'.reporter.up = s.reporter.up) (answer : s'.tipAnswer = s.tipAnswer)
    (sequencer : s'.sequencer = s.sequencer) : Behind cfg h s' where
  up := up.trans behind.up
  ready := ready
  answer := answer ▸ behind.answer
  next := sequencer ▸ behind.next
  inserting := sequencer ▸ behind.inserting
  assigned := sequencer ▸ behind.assigned

theorem Behind.environment (behind : Behind cfg h s) (taken : Environment cfg s label s')
    (alive : label ≠ .reporterStops) (asked : label ≠ .unanswered) : Behind cfg h s' := by
  cases taken with
  | activity activity =>
    exact behind.still (behind.ready.append rfl rfl) rfl rfl rfl
  | reporterStopped => exact absurd rfl alive
  | noTip => exact absurd rfl asked
  | noDigest => exact absurd rfl asked
  | _ => exact behind.still behind.ready rfl rfl rfl

theorem Behind.reported (behind : Behind cfg h s) (below : s.reporter.log.BelowTip)
    (reports : s.report cfg = some s') (taken : Reported cfg s label s')
    {first : CertReporter.Message D (Bn254Certificate S)}
    (waiting : s.reporter.inbox = first :: s'.reporter.inbox) : Behind cfg h s' := by
  have ready := behind.ready.report below reports taken waiting
  cases taken with
  | answeredTip here =>
    refine ⟨behind.up, ready, ?_, behind.next, behind.inserting, behind.assigned⟩
    rintro answer ⟨⟩
    exact behind.ready.of_getTip here
  | _ => exact behind.still ready rfl rfl rfl

theorem Behind.submitted (behind : Behind cfg h s) (taken : Submitted cfg s label s') :
    Behind cfg h s' := by
  cases taken <;> exact behind.still behind.ready rfl rfl rfl

/-- A step of the sequencer that assigns nothing and begins no insertion. -/
theorem Behind.moved (behind : Behind cfg h s) (ready : Ready cfg h s')
    (next : h < s'.sequencer.nextHeight)
    (inserting : ∀ call height, s'.sequencer.phase ≠ .inserting call height)
    (up : s'.reporter.up = s.reporter.up) (answer : s'.tipAnswer = s.tipAnswer ∨ s'.tipAnswer = none)
    (assigned : s'.sequencer.assigned = s.sequencer.assigned) : Behind cfg h s' where
  up := up.trans behind.up
  ready := ready
  answer := by
    rcases answer with same | gone
    · exact same ▸ behind.answer
    · rw [gone]
      exact nofun
  next := fun _ _ => next
  inserting := fun call height here => absurd here (inserting call height)
  assigned := assigned ▸ behind.assigned

theorem Behind.sequenced (behind : Behind cfg h s) (taken : Sequenced cfg s label s') :
    Behind cfg h s' := by
  have above {phase : Phase T D} (here : s.sequencer.phase = phase)
      (slept : ∀ wake, phase ≠ .settling wake) (begun : phase ≠ .startingTip) :
      h < s.sequencer.nextHeight :=
    behind.next (by rw [here]; exact slept) (by rw [here]; exact begun)
  have same := behind.ready
  cases taken with
  | settled here =>
    refine ⟨behind.up, same.append rfl rfl, behind.answer, fun _ begun => absurd rfl begun,
      fun _ _ => nofun, behind.assigned⟩
  | started here answered =>
    have lower := behind.answer _ answered
    exact behind.moved same (lower.trans_le (le_max_left _ _)) (by simp) rfl (.inr rfl) rfl
  | passedOver _ origin =>
    refine behind.moved same ?_ ?_ rfl (.inl rfl) rfl
    · refine lt_max_of_lt_left ?_
      rcases origin with ⟨here, -⟩ | ⟨call, here, -⟩ | ⟨call, drive, wake, here, -⟩ <;>
        exact above here (by simp) (by simp)
    · rcases origin with ⟨-, rfl, -⟩ | ⟨_, -, rfl, -⟩ | ⟨_, _, _, -, -, rfl, -⟩ <;> simp
  | asked here | polled here =>
    exact behind.moved (same.append rfl rfl) (above here (by simp) (by simp)) (by simp) rfl
      (.inl rfl) rfl
  | @chosen call answer height here answered shape =>
    have lower : h < height := by
      rw [shape]
      exact (behind.answer _ answered).trans_le ((le_max_right _ _).trans (le_max_left _ _))
    refine ⟨behind.up, same, nofun, fun _ _ => lower.trans (Nat.lt_succ_self _), ?_,
      behind.assigned⟩
    rintro call' height' ⟨⟩
    exact lower
  | @inserted call height here _ =>
    refine ⟨behind.up, same, behind.answer, fun _ _ => above here (by simp) (by simp),
      fun _ _ => nofun, ?_⟩
    intro entry member
    rcases List.mem_append.mp member with earlier | last
    · exact behind.assigned entry earlier
    · cases List.mem_singleton.mp last
      exact behind.inserting call height here
  | @released call height outcome here =>
    refine behind.moved same (above here (by simp) (by simp)) ?_ rfl (.inl rfl) rfl
    rcases outcome with (_ | _ | _) | _ | _ <;> simp [Phase.after]
  | drained here | dropped here | begun here | latched here | gaveUp here | announced here
  | abandoned here | exhausted here | taken here | resolved here | closed here | idled here =>
    exact behind.moved same (above here (by simp) (by simp)) (by simp) rfl (.inl rfl) rfl

theorem Behind.step [DecidableEq D] (behind : Behind cfg h s) (life : InLife cfg s)
    (taken : step cfg s label = some s') (alive : label ≠ .reporterStops) : Behind cfg h s' := by
  have asked : label ≠ .unanswered := by
    rintro rfl
    simp [Router.step, Router.stepWith, unanswered, behind.up] at taken
  rcases step_cases taken with environment | reported | submitted | sequenced
  · exact behind.environment environment alive asked
  · have report : label = .report := by cases reported <;> rfl
    subst report
    obtain ⟨first, waiting⟩ := report_pops taken
    exact behind.reported (InLife.ledger life).1.log taken reported waiting
  · exact behind.submitted submitted
  · exact behind.sequenced sequenced

/-! ## All lives -/

/-- A router whose engine replays these activities before anything else happens. -/
def replayed (cfg : Config D P G S) (replay : List (Activity D (Bn254Certificate S))) :
    Router T D P S := replay.foldl enqueue (init cfg)

/-- The replay takes the tip above the height. -/
def covers (cfg : Config D P G S) (replay : List (Activity D (Bn254Certificate S))) (h : Nat) :
    Bool :=
  (replay.filterMap CertReporter.message).any (lifts cfg h)

theorem inLife_replayed [DecidableEq D] (replay : List (Activity D (Bn254Certificate S))) :
    InLife cfg (replayed cfg replay : Router T D P S) := by
  have enqueued (s : Router T D P S) (life : InLife cfg s) : InLife cfg (replay.foldl enqueue s) := by
    induction replay generalizing s with
    | nil => exact life
    | cons activity replay ih => exact ih _ (life.next (a := .activity activity) rfl)
  exact enqueued _ (.start rfl)

/-- A replay only fills the mailbox. -/
theorem foldl_enqueue (replay : List (Activity D (Bn254Certificate S))) (s : Router T D P S) :
    (replay.foldl enqueue s).reporter.inbox =
        s.reporter.inbox ++ replay.filterMap CertReporter.message ∧
      (replay.foldl enqueue s).reporter.up = s.reporter.up ∧
      (replay.foldl enqueue s).tipAnswer = s.tipAnswer ∧
      (replay.foldl enqueue s).sequencer = s.sequencer := by
  induction replay generalizing s with
  | nil => exact ⟨(List.append_nil _).symm, rfl, rfl, rfl⟩
  | cons activity replay ih =>
    obtain ⟨inbox, up, answer, sequencer⟩ := ih (s.enqueue activity)
    refine ⟨inbox.trans ?_, up, answer, sequencer⟩
    cases activity <;> simp [enqueue, CertReporter.message, List.filterMap_cons]

theorem behind_replayed {replay : List (Activity D (Bn254Certificate S))}
    (covered : covers cfg replay h = true) : Behind cfg h (replayed cfg replay : Router T D P S) := by
  obtain ⟨inbox, up, answer, sequencer⟩ := foldl_enqueue replay (init cfg : Router T D P S)
  refine ⟨up, .inr ?_, ?_, ?_, ?_, ?_⟩
  rotate_left
  · rw [replayed, answer]
    exact nofun
  · rw [replayed, sequencer]
    exact fun slept => absurd rfl (slept settleDelay)
  · rw [replayed, sequencer]
    exact fun _ _ => nofun
  · rw [replayed, sequencer]
    exact nofun
  obtain ⟨message, member, lifting⟩ := List.any_eq_true.mp covered
  have messages : ∀ message ∈ replay.filterMap CertReporter.message,
      (!isGetTip message) = true := by
    intro message member
    obtain ⟨activity, -, sent⟩ := List.mem_filterMap.mp member
    cases activity <;> cases sent <;> rfl
  refine ⟨message, ?_, lifting⟩
  rw [replayed, inbox]
  show message ∈ List.takeWhile _ ([] ++ replay.filterMap CertReporter.message)
  rw [List.nil_append, List.takeWhile_eq_self_iff.mpr messages]
  exact member

/-- A router over its lives. -/
structure History (T D P S : Type*) [LinearOrder P] where
  current : Router T D P S
  /-- The certificates that the engine reported in earlier lives. -/
  journal : List (Cert D S) := []
  /-- The calls of the handler in earlier lives, life by life. -/
  executed : List (List (Execution T D)) := []

namespace History

inductive Label (T D P S : Type*) where
  | act (label : Router.Label T D P S)
  /-- The process ends and starts again. -/
  | restart (replay : List (Activity D (Bn254Certificate S)))

def step [DecidableEq D] (cfg : Config D P G S) (history : History T D P S) :
    Label T D P S → Option (History T D P S)
  | .act label => (history.current.stepWith wrapHeight cfg label).map fun current =>
      { history with current }
  | .restart replay => some {
      current := replayed cfg replay
      journal := history.journal ++ history.current.reporter.reported
      executed := history.executed ++ [history.current.submitter.executions] }

/-- The reporter lives as long as its router, a router adds 1 to no last height, and
the engine replays its journal: it reports a certificate again for every height it
reported one for, or a tip above the height. -/
def Replays [DecidableEq D] (cfg : Config D P G S) (history : History T D P S) :
    Label T D P S → Prop
  | .act label => label ≠ .reporterStops ∧ Bounded cfg history.current label
  | .restart replay => ∀ c ∈ history.journal ++ history.current.reporter.reported,
      cfg.verify c = true → covers cfg replay c.height = true

/-- All executions of the first life are at lower heights. -/
def Lower (earlier later : List (Execution T D)) : Prop :=
  ∀ e ∈ earlier, ∀ e' ∈ later, e.height < e'.height

variable [DecidableEq D] {history history' : History T D P S} {act : Label T D P S}

/-- Some sequence of lives so far. -/
abbrev InLives (cfg : Config D P G S) (history : History T D P S) : Prop :=
  ReachableWhere (· = { current := init cfg }) (step cfg) (Replays cfg) history

/-- What all lives keep. -/
structure Separate (cfg : Config D P G S) (history : History T D P S) : Prop where
  life : InLife cfg history.current
  behind : ∀ c ∈ history.journal, cfg.verify c = true → Behind cfg c.height history.current
  executed : ∀ calls ∈ history.executed, ∀ e ∈ calls, ∃ c ∈ history.journal,
    cfg.verify c = true ∧ c.height = e.height
  ordered : history.executed.Pairwise Lower

/-- A call of the handler was made for an assigned height, on a certificate that was
reported in the same life. -/
theorem execution_origin {e : Execution T D} (life : InLife cfg s)
    (called : e ∈ s.submitter.executions) :
    (∃ call, (e.height, call) ∈ s.sequencer.assigned) ∧
      ∃ c ∈ s.reporter.reported, cfg.verify c = true ∧ c.height = e.height := by
  have origins := InLife.origins life
  obtain ⟨⟨c, task⟩, picked, rfl⟩ := origins.executions e called
  obtain ⟨⟨reported, verified⟩, -, call, assigned, -⟩ := origins.picked _ picked
  exact ⟨⟨call, assigned⟩, c, reported, verified, rfl⟩

/-- The current life calls the handler above the heights of earlier ones. -/
theorem Separate.lower (separate : Separate cfg history) {calls : List (Execution T D)}
    (earlier : calls ∈ history.executed) : Lower calls history.current.submitter.executions := by
  intro e member e' called
  obtain ⟨c, journaled, verified, height⟩ := separate.executed calls earlier e member
  obtain ⟨⟨call, assigned⟩, -⟩ := execution_origin separate.life called
  have above := (separate.behind c journaled verified).assigned _ assigned
  rwa [height] at above

theorem Separate.step (separate : Separate cfg history) (allowed : Replays cfg history act)
    (taken : step cfg history act = some history') : Separate cfg history' := by
  cases act with
  | act label =>
    obtain ⟨current, moved, rfl⟩ := Option.map_eq_some_iff.mp taken
    have checked := step_iff_bounded.mpr ⟨moved, allowed.2⟩
    refine ⟨separate.life.next checked, ?_, separate.executed, separate.ordered⟩
    exact fun c journaled verified =>
      (separate.behind c journaled verified).step separate.life checked allowed.1
  | restart replay =>
    cases taken
    refine ⟨inLife_replayed replay, fun c journaled verified =>
      behind_replayed (allowed c journaled verified), ?_, ?_⟩
    · intro calls ended e member
      rcases List.mem_append.mp ended with earlier | last
      · obtain ⟨c, journaled, verified⟩ := separate.executed calls earlier e member
        exact ⟨c, List.mem_append_left _ journaled, verified⟩
      · cases List.mem_singleton.mp last
        obtain ⟨-, c, reported, verified⟩ := execution_origin separate.life member
        exact ⟨c, List.mem_append_right _ reported, verified⟩
    · refine List.pairwise_append.mpr ⟨separate.ordered, List.pairwise_singleton _ _, ?_⟩
      intro calls earlier last member
      cases List.mem_singleton.mp member
      exact separate.lower earlier

theorem InLives.separate (lives : InLives cfg history) : Separate cfg history := by
  refine ReachableWhere.preserves lives ?_ fun history act history' _ separate allowed taken =>
    separate.step allowed taken
  rintro start rfl
  exact ⟨.start rfl, nofun, nofun, .nil⟩

/-- **A height belongs to one life.** However often a router is restarted, as long as it
adds 1 to no last height, it assigns only heights above every height for which a
certificate was reported in an earlier life and passes verification, and the handler is
called at higher heights in every later life than in an earlier one. -/
theorem restart_reuses_no_height (lives : InLives cfg history) :
    (∀ c ∈ history.journal, cfg.verify c = true →
        ∀ entry ∈ history.current.sequencer.assigned, c.height < entry.1) ∧
      (history.executed ++ [history.current.submitter.executions]).Pairwise Lower := by
  have separate := InLives.separate lives
  refine ⟨fun c journaled verified => (separate.behind c journaled verified).assigned, ?_⟩
  refine List.pairwise_append.mpr ⟨separate.ordered, List.pairwise_singleton _ _, ?_⟩
  intro calls earlier last member
  cases List.mem_singleton.mp member
  exact separate.lower earlier

section Examples

abbrev SoloHistory := History Nat Nat Nat Unit

/-- The steps that a deployment with a journal allows, as a test. -/
def replaysSolo (history : SoloHistory) : Label Nat Nat Nat Unit → Bool
  | .act .reporterStops => false
  | .act label => Bounded solo history.current label
  | .restart replay =>
    (history.journal ++ history.current.reporter.reported).all fun c => covers solo replay c.height

def soloFirstLife : List SoloLabel := soloStart ++ soloAssign 10 1 ++ soloExecute 0 1

def soloSecondLife : List SoloLabel :=
  [.elapse settleDelay, .sequence, .report, .report, .report, .sequence, .sequence] ++
    soloAssign 20 2 ++ [.receive, .look] ++ soloExecute 1 2

def soloLives : List (Label Nat Nat Nat Unit) :=
  soloFirstLife.map .act ++ [.restart [.certified (soloCertificate 0 1), .tip 1]] ++
    soloSecondLife.map .act

/-- A task is executed at height 0, the router restarts, and its next task is executed
at height 1 while the replayed certificate is resolved as foreign. -/
theorem second_life_executes_above_first : ∃ history : SoloHistory,
    history.executed = [[⟨0, 1, 10⟩]] ∧ history.current.submitter.executions = [⟨1, 2, 20⟩] ∧
      (history.executed ++ [history.current.submitter.executions]).Pairwise Lower := by
  let test (history : SoloHistory) : Bool := history.executed = [[⟨0, 1, 10⟩]] ∧
    history.current.submitter.executions = [⟨1, 2, 20⟩]
  have ran : (exec (guarded (step solo) fun history act => replaysSolo history act = true)
      ({ current := init solo } : SoloHistory) soloLives).any test = true := by decide +kernel
  obtain ⟨history, run, reached⟩ := runWhere_of_exec_any ran
  obtain ⟨before, now⟩ := of_decide_eq_true reached
  have lives : InLives solo history := by
    refine ⟨_, soloLives, rfl, run.weaken fun history act allowed => ?_⟩
    cases act with
    | act label =>
      cases label with
      | reporterStops => cases allowed
      | _ => exact ⟨nofun, of_decide_eq_true allowed⟩
    | restart replay => exact fun c member _ => List.all_eq_true.mp allowed c member
  exact ⟨history, before, now, (restart_reuses_no_height lives).2⟩

end Examples
end History
end Restaking.Router
