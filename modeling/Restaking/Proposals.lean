import Restaking.DirectiveStream
import Restaking.ReleaseBuild
import Restaking.Submissions

/-! The answers to the router's own engine (`router/src/automaton.rs`). The engine asks
for a digest at every height of its window, at any time, and filters buffered acks
by what it was told, so an answer must never be contradicted later. -/
namespace Restaking.Router
open Lib

variable {T D P G S : Type*} [LinearOrder P]
variable {cfg : Config D P G S} {s s' : Router T D P S} {label : Label T D P S}
variable {labels : List (Label T D P S)} {h : Nat} {digest : D}

/-- `RouterAutomaton::propose`; `none` where the sender is dropped. -/
def propose (s : Router T D P S) (height : Nat) : Option D :=
  if s.poisoned then none else (s.assignments.get? height).map (·.digest)

/-- An answer is the digest of the assignment in drive. -/
theorem propose_eq_some [DecidableEq D] (life : InLife cfg s)
    (answered : s.propose h = some digest) :
    s.sequencer.phase.driven = some h ∧
      ∃ call, (h, call) ∈ s.sequencer.assigned ∧ call.sequenced.digest = digest := by
  obtain ⟨-, found⟩ := Option.ite_none_left_eq_some.mp answered
  obtain ⟨assignment, present, rfl⟩ := Option.map_eq_some_iff.mp found
  obtain ⟨call, assigned, driven, -, rfl⟩ := life.ledger.2.expected present
  exact ⟨driven, call, assigned, rfl⟩

/-- Nothing above the driven height has been assigned. -/
theorem Ledger.le_driven {q : SequencerActor T D S} {table : OrderedMap Nat (Assignment T D)}
    (ledger : Ledger q table) (driven : q.phase.driven = some h) {entry : Nat × Call T D}
    (assigned : entry ∈ q.assigned) : entry.1 ≤ h := by
  obtain ⟨earlier, call, -, last, -, -⟩ := ledger.driven h driven
  have increasing := ledger.increasing
  rw [last] at assigned increasing
  rw [List.map_append] at increasing
  rcases List.mem_append.mp assigned with before | same
  · exact ((List.pairwise_append.mp increasing).2.2 entry.1 (List.mem_map_of_mem before) h
      (List.mem_singleton_self h)).le
  · cases List.mem_singleton.mp same
    exact le_rfl

/-- What is assigned stays assigned. -/
theorem assigned_subset_of_run [DecidableEq D] (run : Run (step cfg) s labels s') :
    s.sequencer.assigned ⊆ s'.sequencer.assigned := by
  induction run with
  | nil => exact List.Subset.refl _
  | cons _ taken _ ih => exact List.Subset.trans (step_extended taken).assigned ih

/-- **The engine is never told two digests.** An answer for a height is given while the
height is in drive. In every later state of the life, as long as it adds 1 to no last
height, any answer for the height is the same, lower heights are answered no more, and
whatever was announced or submitted at the height belongs to an assignment with this
digest. -/
theorem proposals_consistent [DecidableEq D] (bounded : InBoundedLife cfg s)
    (goesOn : RunWhere (stepWith wrapHeight cfg) (Bounded cfg) s labels s')
    (answered : s.propose h = some digest) :
    s.sequencer.phase.driven = some h ∧
      (∀ other, s'.propose h = some other → other = digest) ∧
      (∀ lower < h, s'.propose lower = none) ∧
      (∀ entry ∈ s'.sequencer.sent, ∀ task, entry.2 = .announce h task → ∃ call,
        (h, call) ∈ s'.sequencer.assigned ∧ call.sequenced.announce = task ∧
          call.sequenced.digest = digest) ∧
      ∀ e ∈ s'.submitter.executions, e.height = h → e.msgHash = digest := by
  have life := inBoundedLife_iff.mp bounded
  have run := run_iff_bounded.mpr goesOn
  obtain ⟨driven, call, assigned, rfl⟩ := propose_eq_some life answered
  have later : InLife cfg s' := life.run run
  have ledger := later.ledger.2
  have kept := assigned_subset_of_run run assigned
  have only {other : Call T D} (member : (h, other) ∈ s'.sequencer.assigned) : other = call :=
    (Prod.mk.inj (ledger.assigned_unique member kept rfl)).2
  refine ⟨driven, ?_, ?_, ?_, ?_⟩
  · intro other told
    obtain ⟨-, last, member, rfl⟩ := propose_eq_some later told
    rw [only member]
  · intro lower below
    by_contra told
    obtain ⟨other, told⟩ := Option.ne_none_iff_exists'.mp told
    obtain ⟨now, -⟩ := propose_eq_some later told
    exact absurd (ledger.le_driven now kept) (by simpa using below)
  · intro entry sent task announces
    obtain ⟨other, member, view⟩ := later.assigned_of_sent sent announces
    exact ⟨other, member, view, congrArg (·.sequenced.digest) (only member)⟩
  · rintro e called rfl
    obtain ⟨⟨c, task⟩, picked, rfl⟩ := later.origins.executions e called
    obtain ⟨-, -, other, member, same, -⟩ := later.origins.picked _ picked
    rw [← same, only member]

/-- Height 0 is answered while it is in drive; its task is executed under that digest, and
nobody is told anything when height 1 is chosen. -/
theorem solo_proposal_executed : ∃ s s' : Router Nat Nat Nat Unit,
    s.propose 0 = some 1 ∧ s'.submitter.executions = [⟨0, 1, 10⟩] ∧ s'.propose 0 = none ∧
      ∀ e ∈ s'.submitter.executions, e.height = 0 → e.msgHash = 1 := by
  let release (s : Router Nat Nat Nat Unit) := guarded (stepWith wrapHeight solo) (Bounded solo) s
  let answers (s : Router Nat Nat Nat Unit) : Bool := s.propose 0 = some 1 ∧
    (exec release s (soloExecute 0 1 ++ soloRelease)).any
      (fun s' => s'.submitter.executions = [⟨0, 1, 10⟩] ∧ s'.propose 0 = none)
  have ran : (exec release (init solo) (soloStart ++ soloAssign 10 1)).any answers = true := by
    decide +kernel
  obtain ⟨s, life, reached⟩ : ∃ s, InBoundedLife solo s ∧ answers s = true :=
    ReachableWhere.of_exec_any rfl ran
  obtain ⟨answered, goes⟩ := of_decide_eq_true reached
  obtain ⟨s', run, last⟩ := runWhere_of_exec_any goes
  obtain ⟨executed, dropped⟩ := of_decide_eq_true last
  obtain ⟨-, -, -, -, same⟩ := proposals_consistent life run answered
  exact ⟨s, s', answered, executed, dropped, same⟩

end Restaking.Router
