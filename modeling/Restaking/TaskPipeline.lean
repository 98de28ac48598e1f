import Restaking.Lib.Simulation
import Restaking.OnChain
import Restaking.OwnCertificates
import Restaking.ReleaseBuild
import Restaking.Worklist

/-! The router works its tasks off one after the other. Whatever the reporter, the
submitter and the tip reports do in between, the sequencer's steps are those of the
worker of `Restaking.Worklist`: tasks are finished in the order in which they were
taken, each by one last attempt, and every attempt before it gave way to a foreign
certificate or to a higher safe tip. -/
namespace Restaking.Router
open Lib

variable {T D P G S : Type*}

/-- What the sequencer has on record for the end of a drive. -/
def Witnessed (q : SequencerActor T D S) (h : Nat) : HeightOutcome → Prop
  | .resolved kind => ∃ notice ∈ q.consumed, notice.resolution = ⟨h, kind⟩
  | .superseded => ∃ tip, (h, tip) ∈ q.superseded ∧ h < tip
  | .closed => True

/-- The drive under way, with the number of its task. -/
def SequencerActor.underWay (q : SequencerActor T D S) : Option (Nat × Nat) :=
  q.phase.driven.bind fun h => q.phase.held.map fun call => (h, call.id)

/-- The sequencer has done this work. -/
structure Works (q : SequencerActor T D S) (w : Worklist) : Prop where
  taken : w.taken = q.calls
  current : w.current = q.phase.held.map fun call => (call.id, q.phase.driven)
  attempts : (w.attempts.map fun a => (a.height, a.task)) ++ q.underWay.toList =
    q.assigned.map fun entry => (entry.1, entry.2.id)
  outcomes : ∀ a ∈ w.attempts, Witnessed q a.height a.outcome
  releasing : ∀ call h outcome, q.phase = .releasing call h outcome → Witnessed q h outcome
  stopped : ∀ a ∈ w.attempts, a.outcome = .closed → q.phase = .stopped

variable {q q' : SequencerActor T D S} {w : Worklist}

theorem Witnessed.mono {h : Nat} {outcome : HeightOutcome} (witnessed : Witnessed q h outcome)
    (consumed : q.consumed ⊆ q'.consumed) (superseded : q.superseded ⊆ q'.superseded) :
    Witnessed q' h outcome := by
  cases outcome with
  | resolved kind =>
    obtain ⟨notice, member, same⟩ := witnessed
    exact ⟨notice, consumed member, same⟩
  | superseded =>
    obtain ⟨tip, member, above⟩ := witnessed
    exact ⟨tip, superseded member, above⟩
  | closed => trivial

/-- A step that neither takes a task nor begins or ends an attempt. -/
theorem Works.still (works : Works q w) (live : q.phase ≠ .stopped) (calls : q'.calls = q.calls)
    (held : q'.phase.held = q.phase.held) (driven : q'.phase.driven = q.phase.driven)
    (assigned : q'.assigned = q.assigned) (consumed : q.consumed ⊆ q'.consumed)
    (superseded : q.superseded ⊆ q'.superseded)
    (releasing : ∀ call h outcome, q'.phase = .releasing call h outcome →
      Witnessed q' h outcome) : Works q' w where
  taken := works.taken.trans calls.symm
  current := by rw [held, driven, works.current]
  attempts := by rw [SequencerActor.underWay, held, driven, assigned, ← works.attempts]; rfl
  outcomes := fun a member => (works.outcomes a member).mono consumed superseded
  releasing := releasing
  stopped := fun a member closed => absurd (works.stopped a member closed) live

theorem Works.init : Works ({} : SequencerActor T D S) {} where
  taken := rfl
  current := rfl
  attempts := rfl
  outcomes := fun _ member => nomatch member
  releasing := fun _ _ _ phase => nomatch phase
  stopped := fun _ member => nomatch member

/-- `next_task` returns a task where the worker takes one. -/
theorem Works.take (works : Works q w) (here : q.phase = .awaitingTask)
    (sequenced : SequencedTask T D) : ∃ w', w.step .take = some w' ∧
      Works { q with phase := .redraining ⟨q.calls, sequenced⟩, calls := q.calls + 1 } w' := by
  have free : w.current = none := by rw [works.current, here]; rfl
  have live : ∀ a ∈ w.attempts, a.outcome ≠ .closed := by
    intro a member closed
    rw [works.stopped a member closed] at here
    cases here
  have attempts := works.attempts
  rw [SequencerActor.underWay, here] at attempts
  exact ⟨_, if_pos ⟨free, live⟩, congrArg (· + 1) works.taken, by rw [works.taken]; rfl, attempts,
    works.outcomes, by rintro _ _ _ ⟨⟩, fun a member closed => absurd closed (live a member)⟩

/-- An insertion begins an attempt, under a height above all of those before. -/
theorem Works.insert {call : Call T D} {height : Nat} (works : Works q w)
    (here : q.phase = .inserting call height) (highest : ∀ entry ∈ q.assigned, entry.1 < height) :
    ∃ w', w.step (.assign height) = some w' ∧
      Works { q with
        phase := .starting call height
        assigned := q.assigned ++ [(height, call)] } w' := by
  have current : w.current = some (call.id, none) := by rw [works.current, here]; rfl
  have attempts := works.attempts
  rw [SequencerActor.underWay, here] at attempts
  have above : ∀ a ∈ w.attempts, a.height < height := by
    intro a member
    have listed : (a.height, a.task) ∈ q.assigned.map fun entry => (entry.1, entry.2.id) := by
      rw [← attempts]
      exact List.mem_append_left _ (List.mem_map_of_mem member)
    obtain ⟨entry, assigned, same⟩ := List.mem_map.mp listed
    have lower := highest entry assigned
    rwa [congrArg Prod.fst same] at lower
  refine ⟨{ w with current := some (call.id, some height) }, ?_, works.taken, rfl, ?_, works.outcomes,
    by rintro _ _ _ ⟨⟩, ?_⟩
  · simp only [Worklist.step, current]
    exact if_pos above
  · simp only [Phase.driven, Option.bind_none, Option.toList_none, List.append_nil] at attempts
    simp [SequencerActor.underWay, Phase.driven, Phase.held, attempts]
  · intro a member closed
    rw [works.stopped a member closed] at here
    cases here

/-- A removal ends the attempt with the outcome of the drive. -/
theorem Works.release {call : Call T D} {height : Nat} {outcome : HeightOutcome} (works : Works q w)
    (here : q.phase = .releasing call height outcome) :
    ∃ w', w.step (.finish outcome) = some w' ∧ Works { q with phase := .after call outcome } w' := by
  have current : w.current = some (call.id, some height) := by rw [works.current, here]; rfl
  have attempts := works.attempts
  rw [SequencerActor.underWay, here] at attempts
  refine ⟨{ w with
      current := if outcome.final then none else some (call.id, none)
      attempts := w.attempts ++ [⟨call.id, height, outcome⟩] },
    by simp only [Worklist.step, current], works.taken, ?_, ?_, ?_, ?_, ?_⟩
  · rcases outcome with (_ | _ | _) | _ | _ <;> rfl
  · have free : (Phase.after call outcome).driven = none := Phase.driven_after call outcome
    simp only [SequencerActor.underWay, free, List.map_append, List.append_assoc]
    exact attempts
  · intro a member
    rcases List.mem_append.mp member with earlier | last
    · exact works.outcomes a earlier
    · cases List.mem_singleton.mp last
      exact works.releasing call height outcome here
  · intro call' h outcome' phase
    rcases outcome with (_ | _ | _) | _ | _ <;> cases phase
  · intro a member closed
    rcases List.mem_append.mp member with earlier | last
    · rw [works.stopped a earlier closed] at here
      cases here
    · cases List.mem_singleton.mp last
      dsimp only at closed
      subst closed
      rfl

variable [LinearOrder P]
variable {cfg : Config D P G S} {s s' : Router T D P S} {label : Label T D P S}

/-- Every step of the sequencer is matched by at most one step of the worker. -/
theorem Works.sequenced (works : Works s.sequencer w) (inputs : Inputs s)
    (ledger : Ledger s.sequencer s.assignments) (taken : Sequenced cfg s label s') :
    ∃ steps w', Run Worklist.step w steps w' ∧ Works s'.sequencer w' := by
  have quiet {phase : Phase T D} (enters : ∀ call h outcome, phase ≠ .releasing call h outcome)
      (call : Call T D) (h : Nat) (outcome : HeightOutcome)
      (releasing : phase = .releasing call h outcome) : Witnessed s'.sequencer h outcome :=
    absurd releasing (enters call h outcome)
  have rest (works' : Works s'.sequencer w) :
      ∃ steps w', Run Worklist.step w steps w' ∧ Works s'.sequencer w' :=
    ⟨[], w, .nil, works'⟩
  have kept := List.Subset.refl s.sequencer.consumed
  have same := List.Subset.refl s.sequencer.superseded
  cases taken with
  | settled here _ | started here _ | drained here _ | exhausted here | asked here _
  | chosen here _ _ | begun here | latched here _ | announced here _ _ _ _ | abandoned here _ _ _
  | idled here _ | polled here _ _ =>
    exact rest (works.still (by simp [here]) rfl (by rw [here]; rfl) (by rw [here]; rfl) rfl
      kept same (quiet (by simp)))
  | @passedOver _ notice rest' phase waiting origin =>
    have more : s.sequencer.consumed ⊆ s.sequencer.consumed ++ [notice] :=
      List.subset_append_left _ _
    rcases origin with ⟨here, rfl, -⟩ | ⟨call, here, rfl, -⟩ | ⟨call, drive, wake, here, -, rfl, -⟩
    all_goals exact rest (works.still (by simp [here]) rfl (by simp [here, Phase.held])
      (by simp [here, Phase.driven]) rfl more same (quiet (by simp)))
  | dropped _ poisoned =>
    rw [inputs.sane] at poisoned
    cases poisoned
  | @gaveUp call drive here _ above =>
    refine rest (works.still (by simp [here]) rfl (by rw [here]; rfl) (by rw [here]; rfl) rfl
      kept (List.subset_append_left _ _) ?_)
    rintro call' h outcome ⟨⟩
    exact ⟨s.safeTip, List.mem_append_right _ (List.mem_singleton_self _), above⟩
  | @resolved call drive wake notice rest' here waiting own =>
    refine rest (works.still (by simp [here]) rfl (by rw [here]; rfl) (by rw [here]; rfl) rfl
      (List.subset_append_left _ _) same ?_)
    rintro call' h outcome ⟨⟩
    exact ⟨notice, List.mem_append_right _ (List.mem_singleton_self _), own ▸ rfl⟩
  | closed here _ _ =>
    refine rest (works.still (by simp [here]) rfl (by rw [here]; rfl) (by rw [here]; rfl) rfl
      kept same ?_)
    rintro call' h outcome ⟨⟩
    trivial
  | @taken sequenced here =>
    obtain ⟨w', takes, works'⟩ := works.take here sequenced
    exact ⟨[.take], w', .single takes, works'⟩
  | @inserted call height here sane =>
    obtain ⟨w', assigns, works'⟩ := works.insert here (ledger.chosen call height here).2.1
    exact ⟨[.assign height], w', .single assigns, works'⟩
  | @released call height outcome here =>
    obtain ⟨w', finishes, works'⟩ := works.release here
    exact ⟨[.finish outcome], w', .single finishes, works'⟩

/-- The router refines the worker. -/
theorem refines_worklist [DecidableEq D] (cfg : Config D P G S) :
    Simulation (· = init cfg) (step (T := T) cfg) (· = ({} : Worklist)) Worklist.step
      fun s w => Works s.sequencer w where
  starts := by
    rintro start rfl
    exact ⟨{}, rfl, .init⟩
  matched := by
    intro s label s' w life works taken
    obtain ⟨inputs, ledger⟩ := InLife.ledger life
    rcases step_sequenced taken with kept | sequenced
    · exact ⟨[], w, .nil, kept.sequencer ▸ works⟩
    · exact works.sequenced inputs ledger sequenced

/-- **Tasks are finished one by one, in order.** In every state of a router life that
added 1 to no last height the assigned heights are those of a list of finished attempts and of the drive under
way. Along the attempts heights increase, tasks come in the order in which they were
taken, and a final attempt is the last one at its task; each outcome is on record.
The task in hand is the last one taken and no attempt at it was final; every other
task that was taken has had its final attempt. -/
theorem tasks_finished_in_order [DecidableEq D] (life : InBoundedLife cfg s) :
    ∃ attempts : List Attempt, attempts.Pairwise Worklist.Before ∧
      (attempts.map fun a => (a.height, a.task)) ++ s.sequencer.underWay.toList =
        (s.sequencer.assigned.map fun entry => (entry.1, entry.2.id)) ∧
      (∀ a ∈ attempts, Witnessed s.sequencer a.height a.outcome) ∧
      (∀ a ∈ attempts, a.outcome = .closed → s.sequencer.phase = .stopped) ∧
      (∀ call, s.sequencer.phase.held = some call → call.id + 1 = s.sequencer.calls ∧
        ∀ a ∈ attempts, a.outcome.final = true → a.task < call.id) ∧
      ∀ task < s.sequencer.calls, (∀ call, s.sequencer.phase.held = some call → call.id ≠ task) →
        ∃ a ∈ attempts, a.task = task ∧ a.outcome.final = true := by
  obtain ⟨w, reached, works⟩ := (refines_worklist cfg).reachable (inBoundedLife_iff.mp life)
  have orderly := Worklist.orderly_of_reachable reached
  refine ⟨w.attempts, orderly.ordered, works.attempts, works.outcomes, works.stopped, ?_, ?_⟩
  · intro call holds
    have current := works.current
    rw [holds] at current
    obtain ⟨last, unfinished, -⟩ := orderly.inHand call.id _ current
    exact ⟨last.trans works.taken, unfinished⟩
  · intro task early other
    apply orderly.done task (works.taken ▸ early)
    intro height current
    rw [works.current] at current
    obtain ⟨call, holds, same⟩ := Option.map_eq_some_iff.mp current
    exact other call holds (congrArg Prod.fst same)

/-- The first task moves from height 0, where a foreign digest is certified, to
height 1 and is executed there; the second one is driven at height 2. -/
theorem second_task_at_height_two : ∃ s : Router Nat Nat Nat Unit,
    s.sequencer.underWay = some (2, 1) ∧
      (s.sequencer.assigned.map fun entry => (entry.1, entry.2.id)) = [(0, 0), (1, 0), (2, 1)] ∧
      ∃ a : Attempt, a.task = 0 ∧ a.outcome.final = true ∧
        Witnessed s.sequencer a.height a.outcome := by
  let labels : List SoloLabel := soloStart ++ soloAssign 10 1 ++
    [.activity (.certified (soloCertificate 0 7)), .report, .receive, .look, .resolution] ++
    soloReassign ++ soloExecute 1 1 ++ soloRelease ++ soloAssign 20 2
  let driving (s : Router Nat Nat Nat Unit) : Bool := s.sequencer.underWay = some (2, 1) ∧
    s.sequencer.calls = 2 ∧ (s.sequencer.phase.held.map Call.id) = some 1 ∧
      (s.sequencer.assigned.map fun entry => (entry.1, entry.2.id)) = [(0, 0), (1, 0), (2, 1)]
  have ran : (exec (guarded (stepWith wrapHeight solo) (Bounded solo)) (init solo) labels).any
      driving = true := by
    decide +kernel
  obtain ⟨s, life, reached⟩ : ∃ s, InBoundedLife solo s ∧ driving s = true :=
    ReachableWhere.of_exec_any rfl ran
  obtain ⟨driven, calls, hand, assigned⟩ := of_decide_eq_true reached
  obtain ⟨attempts, -, -, recorded, -, -, done⟩ := tasks_finished_in_order life
  obtain ⟨a, member, first, final⟩ := done 0 (by omega) (by
    intro call holds zero
    rw [holds] at hand
    cases zero.symm.trans (Option.some.inj hand))
  exact ⟨s, driven, assigned, a, first, final, recorded a member⟩

end Restaking.Router
