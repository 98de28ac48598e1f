import Restaking.Submissions

/-! Certificates that an earlier router life left behind. One that carries its
height's assigned digest is submitted, one that carries a foreign digest costs
the height but not the task, and one that carries the skip digest costs the
task as well: nothing in a resolution tells it from the quorum's own skip. -/
namespace Restaking.Router
open Lib

variable {T D P G S : Type*} [LinearOrder P]
variable {cfg : Config D P G S} {s s' : Router T D P S} {label : Label T D P S}

/-- The task was submitted under the certificate's digest, which is its own: the handler
was called with it, or every attempt failed. -/
def SubmittedUnder (s : Router T D P S) (call : Call T D) (notice : Notice D S) : Prop :=
  notice.cause.digest = call.sequenced.digest ∧
    ∃ success, notice.resolution.kind = .executed success ∧
      (notice.cause, call.sequenced.task) ∈ s.submitter.picked ∧
        (⟨notice.cause.height, notice.cause.digest, call.sequenced.task⟩ ∈ s.submitter.executions ∨
          success = false ∧ Spent s notice.cause)

/-- The sequencer holds the task, or has assigned it to a later height. -/
def Kept (call : Call T D) (h : Nat) (q : SequencerActor T D S) : Prop :=
  q.phase.held = some call ∨ ∃ later, h < later ∧ (later, call) ∈ q.assigned

/-- A task on its way from one height to the next. -/
def Carried (call : Call T D) (h : Nat) (q : SequencerActor T D S) : Prop :=
  (h < q.nextHeight ∧ (q.phase = .releasing call h (.resolved .foreign) ∨
    q.phase = .redraining call ∨ q.phase = .awaitingTip call ∨
    ∃ later, h < later ∧ q.phase = .inserting call later)) ∨
  ∃ later, h < later ∧ (later, call) ∈ q.assigned

theorem Carried.kept {call : Call T D} {h : Nat} {q : SequencerActor T D S}
    (carried : Carried call h q) : Kept call h q := by
  rcases carried with ⟨-, phase | phase | phase | ⟨later, -, phase⟩⟩ | assigned
  · exact .inl (by rw [phase]; rfl)
  · exact .inl (by rw [phase]; rfl)
  · exact .inl (by rw [phase]; rfl)
  · exact .inl (by rw [phase]; rfl)
  · exact .inr assigned

/-- No step loses a task on its way. -/
theorem Carried.sequenced {call : Call T D} {h : Nat} (carried : Carried call h s.sequencer)
    (sane : s.poisoned = false) (taken : Sequenced cfg s label s') :
    Carried call h s'.sequencer := by
  rcases carried with ⟨below, origin⟩ | ⟨later, above, assigned⟩
  · rcases origin with phase | phase | phase | ⟨later, above, phase⟩
    · cases taken with
      | released releasing =>
        rw [phase] at releasing
        cases releasing
        exact .inl ⟨below, .inr (.inl rfl)⟩
      | passedOver _ from' => simp [phase] at from'
      | _ => simp_all
    · cases taken with
      | passedOver _ from' =>
        rcases from' with ⟨other, -⟩ | ⟨call', same, rfl, -⟩ | ⟨_, _, _, other, -⟩
        · simp [phase] at other
        · rw [phase] at same
          cases same
          exact .inl ⟨below.trans_le (le_max_left _ _), .inr (.inl rfl)⟩
        · simp [phase] at other
      | asked same _ =>
        rw [phase] at same
        cases same
        exact .inl ⟨below, .inr (.inr (.inl rfl))⟩
      | _ => simp_all
    · cases taken with
      | @chosen call' answer height same _ choice =>
        rw [phase] at same
        cases same
        have above : h < height := by omega
        exact .inl ⟨above.trans (Nat.lt_succ_self _), .inr (.inr (.inr ⟨height, above, rfl⟩))⟩
      | passedOver _ from' => simp [phase] at from'
      | _ => simp_all
    · cases taken with
      | inserted same _ =>
        rw [phase] at same
        cases same
        exact .inr ⟨later, above, List.mem_append_right _ (List.mem_singleton_self _)⟩
      | passedOver _ from' => simp [phase] at from'
      | _ => simp_all
  · exact .inr ⟨later, above, taken.extended.assigned assigned⟩

/-- A carried task stays carried in every continuation of a life. -/
theorem Carried.run [DecidableEq D] {call : Call T D} {h : Nat} {labels : List (Label T D P S)}
    (carried : Carried call h s.sequencer) (life : InLife cfg s)
    (run : Run (step cfg) s labels s') : Carried call h s'.sequencer := by
  let held : Router T D P S → Prop := fun s => Carried call h s.sequencer
  suffices kept : held s' from kept
  apply Reachable.run_preserves life run carried
  intro before label after alive carried taken
  rcases step_sequenced taken with kept | sequenced
  · show Carried call h after.sequencer
    rw [kept.sequencer]
    exact carried
  · exact carried.sequenced (InLife.ledger alive).1.sane sequenced

variable {call : Call T D} {drive : Drive} {notice : Notice D S}

/-- In some life the drive of a task receives the resolution of its height. -/
structure Resolves [DecidableEq D] (cfg : Config D P G S) (s s' : Router T D P S)
    (call : Call T D) (drive : Drive) (notice : Notice D S) : Prop where
  life : InLife cfg s
  selecting : ∃ wake, s.sequencer.phase = .selecting call drive wake
  first : ∃ rest, s.resolutions = notice :: rest
  own : notice.resolution.height = drive.height
  taken : step cfg s .resolution = some s'

/-- The task in drive is the one assigned to the driven height. -/
theorem Ledger.in_drive {wake : Nat} (ledger : Ledger s.sequencer s.assignments)
    (selecting : s.sequencer.phase = .selecting call drive wake) :
    (drive.height, call) ∈ s.sequencer.assigned := by
  obtain ⟨earlier, current, holds, last, -⟩ := ledger.driven drive.height (by rw [selecting]; rfl)
  rw [selecting] at holds
  cases holds
  rw [last]
  exact List.mem_append_right _ (List.mem_singleton_self _)

/-- What the sequencer continues with is the kind of its own resolution. -/
theorem Resolves.releasing [DecidableEq D] (resolves : Resolves cfg s s' call drive notice) :
    s'.sequencer.phase = .releasing call drive.height (.resolved notice.resolution.kind) ∧
      s'.sequencer.nextHeight = s.sequencer.nextHeight := by
  obtain ⟨-, ⟨wake, selecting⟩, ⟨rest, first⟩, own, taken⟩ := resolves
  simp only [stepWith, resolution, selecting, first, own, if_true] at taken
  cases taken
  exact ⟨rfl, rfl⟩

theorem Resolves.justified [DecidableEq D] (resolves : Resolves cfg s s' call drive notice) :
    Justified cfg s notice := by
  obtain ⟨rest, first⟩ := resolves.first
  have sent : notice ∈ s.submitter.notified := by
    rw [resolves.life.ledger.1.channel, first]
    exact List.mem_append_right _ List.mem_cons_self
  exact resolves.life.origins.notified notice sent

/-- An executed resolution is of the task in drive. -/
theorem Resolves.submitted [DecidableEq D] {success : Bool}
    (resolves : Resolves cfg s s' call drive notice)
    (kind : notice.resolution.kind = .executed success) : SubmittedUnder s call notice := by
  obtain ⟨height, reason⟩ := resolves.justified
  rw [kind] at reason
  obtain ⟨task, picked, ended⟩ := reason
  obtain ⟨-, -, assigned, member, digest, same⟩ := resolves.life.origins.picked _ picked
  obtain ⟨wake, selecting⟩ := resolves.selecting
  have ledger := resolves.life.ledger.2
  have one : (notice.cause.height, assigned) = (drive.height, call) :=
    ledger.assigned_unique member (ledger.in_drive selecting) (height.symm.trans resolves.own)
  obtain rfl : assigned = call := congrArg Prod.snd one
  exact ⟨digest.symm, success, kind, same ▸ picked, same ▸ ended⟩

section Examples

end Examples

end Restaking.Router
