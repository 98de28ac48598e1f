import Restaking.Lib.Liveness
import Restaking.ProposalSteps
import Restaking.Supersede

/-! No call of `propose` hangs once the router has decided its height. A directive ends
the wait at the task book, and from there the retry budget and the clock bring the call
to an answer. -/
namespace Restaking.Cluster
open Lib

variable {n : Nat} {T D G S : Type*} [DecidableEq T] [DecidableEq D]
variable {cfg : Config n T D G S} {c c' : Cluster n T D S} {label : Label n T D S}
variable {i : Fin n} {id height : Nat} {proposal : Proposal T D} {state : ProposalState T D}
variable {digest : D}

/-- The node gives this call of `propose` its turns, its validator returns, and the
clock advances. -/
structure Served (b : Behaviour (step cfg)) (i : Fin n) (id : Nat) : Prop where
  begins : InLife cfg (b.state 0)
  resumes : b.WeaklyFair (· = .resume i id)
  validator : b.WeaklyFair fun label => ∃ result, label = .validated i id result
  wakes : b.WeaklyFair (· = .retry i id)
  clock : ∀ t, ∃ m, t ≤ (b.state m).router.now

/-- The call has resolved. -/
def Resolved (c : Cluster n T D S) (i : Fin n) (id height : Nat) : Prop :=
  ∃ digest, (c.nodes i).proposals.get? id = some ⟨height, .resolved digest⟩

/-- The call validates, or sleeps, until its budget ends. -/
def InLoop (c : Cluster n T D S) (i : Fin n) (id height deadline : Nat) : Prop :=
  ∃ state, (c.nodes i).proposals.get? id = some ⟨height, state⟩ ∧ state.deadline? = some deadline

namespace Served

variable {b : Behaviour (step cfg)} {m k deadline : Nat}

theorem life (served : Served b i id) (m : Nat) : InLife cfg (b.state m) :=
  b.reachable served.begins m

theorem fresh (served : Served b i id)
    (found : ((b.state m).nodes i).proposals.get? id = some proposal) :
    id < ((b.state m).nodes i).subscriptions :=
  (InLife.heeded (served.life m) i).fresh id proposal found

/-- A call keeps its height. -/
theorem found_later (served : Served b i id)
    (found : ∃ state, ((b.state m).nodes i).proposals.get? id = some ⟨height, state⟩)
    (later : m ≤ k) : ∃ state, ((b.state k).nodes i).proposals.get? id = some ⟨height, state⟩ := by
  induction k, later using Nat.le_induction with
  | base => exact found
  | succ k later ih =>
    obtain ⟨state, found⟩ := ih
    rcases step_proposal (served.fresh found) (b.next k) found with ⟨-, same⟩ | ⟨state', -, goes⟩
    · exact ⟨state, same⟩
    · exact ⟨state', goes⟩

/-- A digest that a call has resolved to stays. -/
theorem resolved_later (served : Served b i id)
    (found : ((b.state m).nodes i).proposals.get? id = some ⟨height, .resolved digest⟩)
    (later : m ≤ k) :
    ((b.state k).nodes i).proposals.get? id = some ⟨height, .resolved digest⟩ := by
  induction k, later using Nat.le_induction with
  | base => exact found
  | succ k later ih =>
    rcases step_proposal (served.fresh ih) (b.next k) ih with ⟨-, same⟩ | ⟨state', proceeds, -⟩
    · exact same
    · generalize b.label k = label at proceeds
      cases proceeds

/-- A call that was told goes on. -/
theorem goes_on (served : Served b i id) : LeadsTo
    (fun m => ((b.state m).nodes i).proposals.get? id = some ⟨height, .subscribed⟩ ∧
      ∃ told, (⟨id, height⟩, told) ∈ ((b.state m).nodes i).answers)
    fun m => (∃ deadline, InLoop (b.state m) i id height deadline) ∨
      Resolved (b.state m) i id height := by
  have proceeds {m : Nat} {state' : ProposalState T D}
      (goes : Proceeds cfg (b.state m) i id height (b.label m) .subscribed state')
      (found : ((b.state (m + 1)).nodes i).proposals.get? id = some ⟨height, state'⟩) :
      (∃ deadline, InLoop (b.state (m + 1)) i id height deadline) ∨
        Resolved (b.state (m + 1)) i id height := by
    generalize b.label m = label at goes
    cases goes with
    | told => exact .inl ⟨_, _, found, rfl⟩
    | skipped => exact .inr ⟨_, found⟩
  refine served.resumes.leadsTo (fun m here => ?_) (fun m here label => ?_) fun m always =>
    ⟨m, le_rfl, fun k later => ⟨_, rfl, ?_⟩⟩
  · obtain ⟨found, told, member⟩ := here
    rcases step_proposal (served.fresh found) (b.next m) found with ⟨-, same⟩ | ⟨state', goes, found'⟩
    · exact .inl ⟨same, told, answers_subset (b.next m) member⟩
    · exact .inr (proceeds goes found')
  · rcases step_proposal (served.fresh here.1) (b.next m) here.1 with
      ⟨other, -⟩ | ⟨state', goes, found'⟩
    · rw [label] at other
      exact absurd ⟨rfl, rfl⟩ other
    · exact proceeds goes found'
  · obtain ⟨found, answer, member⟩ := always k later
    obtain ⟨told, known⟩ := told_of_answer member
    show ((b.state k).resume cfg i id).isSome = true
    simp only [resume, found, known]
    cases told <;> rfl

/-- A call in its loop stays there until it resolves. -/
theorem stays_in_loop (served : Served b i id) (here : InLoop (b.state m) i id height deadline) :
    InLoop (b.state (m + 1)) i id height deadline ∨ Resolved (b.state (m + 1)) i id height := by
  obtain ⟨state, found, ends⟩ := here
  rcases step_proposal (served.fresh found) (b.next m) found with ⟨-, same⟩ | ⟨state', goes, found'⟩
  · exact .inl ⟨state, same, ends⟩
  · generalize b.label m = label at goes
    cases goes with
    | told | skipped => cases ends
    | accepted | exhausted => exact .inr ⟨_, found'⟩
    | postponed again =>
      obtain ⟨-, ⟨⟩⟩ := Option.ite_none_right_eq_some.mp again
      exact .inl ⟨_, found', ends⟩
    | retried => exact .inl ⟨_, found', ends⟩

theorem run_now (later : m ≤ k) : (b.state m).router.now ≤ (b.state k).router.now := by
  induction k, later using Nat.le_induction with
  | base => exact le_rfl
  | succ k later ih => exact ih.trans (now_le (b.next k))

/-- The budget of a call that stays in its loop runs out. -/
theorem expires (served : Served b i id) : LeadsTo
    (fun m => InLoop (b.state m) i id height deadline)
    fun m => (InLoop (b.state m) i id height deadline ∧ deadline ≤ (b.state m).router.now) ∨
      Resolved (b.state m) i id height := by
  refine .of_not_forever (fun m here => ?_) fun m always => ?_
  · exact (served.stays_in_loop here).imp_right .inr
  · obtain ⟨late, passed⟩ := served.clock deadline
    have after : late ≤ max m late := le_max_right _ _
    exact ⟨max m late, le_max_left _ _,
      .inl ⟨always _ (le_max_left _ _), passed.trans (run_now after)⟩⟩

/-- A call wakes up. -/
theorem wakes_up (served : Served b i id) : LeadsTo
    (fun m => (∃ validation wake, ((b.state m).nodes i).proposals.get? id =
        some ⟨height, .sleeping validation wake⟩ ∧ validation.deadline = deadline) ∧
      deadline ≤ (b.state m).router.now)
    fun m => (∃ validation, ((b.state m).nodes i).proposals.get? id =
        some ⟨height, .validating validation⟩ ∧ validation.deadline = deadline) ∧
      deadline ≤ (b.state m).router.now := by
  refine served.wakes.leadsTo (fun m here => ?_) (fun m here label => ?_) fun m always =>
    ⟨m, le_rfl, fun k later => ⟨_, rfl, ?_⟩⟩
  · obtain ⟨⟨validation, wake, found, ends⟩, passed⟩ := here
    have passed := passed.trans (now_le (b.next m))
    rcases step_proposal (served.fresh found) (b.next m) found with ⟨-, same⟩ | ⟨state', goes, found'⟩
    · exact .inl ⟨⟨validation, wake, same, ends⟩, passed⟩
    · generalize b.label m = label at goes
      cases goes
      exact .inr ⟨⟨validation, found', ends⟩, passed⟩
  · obtain ⟨⟨validation, wake, found, ends⟩, passed⟩ := here
    have passed := passed.trans (now_le (b.next m))
    rcases step_proposal (served.fresh found) (b.next m) found with ⟨other, -⟩ | ⟨state', goes, found'⟩
    · rw [label] at other
      exact absurd ⟨rfl, rfl⟩ other
    · generalize b.label m = label at goes
      cases goes
      exact ⟨⟨validation, found', ends⟩, passed⟩
  · obtain ⟨⟨validation, wake, found, rfl⟩, passed⟩ := always k later
    have early := (InLife.heeded (served.life k) i).sleeping id height validation wake found
    show ((b.state k).retry i id).isSome = true
    simp only [retry, found, if_pos (early.le.trans passed)]
    rfl

/-- The last call of the validator resolves the proposal. -/
theorem resolves_late (served : Served b i id) : LeadsTo
    (fun m => (∃ validation, ((b.state m).nodes i).proposals.get? id =
        some ⟨height, .validating validation⟩ ∧ validation.deadline = deadline) ∧
      deadline ≤ (b.state m).router.now)
    fun m => Resolved (b.state m) i id height := by
  have proceeds {m : Nat} {validation : Validation T} {state' : ProposalState T D}
      (passed : validation.deadline ≤ (b.state m).router.now)
      (goes : Proceeds cfg (b.state m) i id height (b.label m) (.validating validation) state')
      (found : ((b.state (m + 1)).nodes i).proposals.get? id = some ⟨height, state'⟩) :
      Resolved (b.state (m + 1)) i id height := by
    generalize b.label m = label at goes
    cases goes with
    | accepted | exhausted => exact ⟨_, found⟩
    | postponed again =>
      obtain ⟨within, -⟩ := Option.ite_none_right_eq_some.mp again
      omega
  refine served.validator.leadsTo (fun m here => ?_) (fun m here label => ?_) fun m always =>
    ⟨m, le_rfl, fun k later => ⟨.validated i id none, ⟨none, rfl⟩, ?_⟩⟩
  · obtain ⟨⟨validation, found, rfl⟩, passed⟩ := here
    rcases step_proposal (served.fresh found) (b.next m) found with ⟨-, same⟩ | ⟨state', goes, found'⟩
    · exact .inl ⟨⟨validation, same, rfl⟩, passed.trans (now_le (b.next m))⟩
    · exact .inr (proceeds passed goes found')
  · obtain ⟨⟨validation, found, rfl⟩, passed⟩ := here
    obtain ⟨result, label⟩ := label
    rcases step_proposal (served.fresh found) (b.next m) found with ⟨other, -⟩ | ⟨state', goes, found'⟩
    · rw [label] at other
      exact absurd ⟨rfl, rfl⟩ other
    · exact proceeds passed goes found'
  · obtain ⟨⟨validation, found, -⟩, -⟩ := always k later
    show ((b.state k).validated cfg i id none).isSome = true
    simp only [validated, found]
    split <;> rfl

/-- A call in its loop resolves. -/
theorem loop_ends (served : Served b i id) :
    LeadsTo (fun m => InLoop (b.state m) i id height deadline)
      fun m => Resolved (b.state m) i id height := by
  refine served.expires.trans fun m here => ?_
  rcases here with ⟨⟨state, found, ends⟩, passed⟩ | resolved
  · cases state with
    | validating validation =>
      exact served.resolves_late m ⟨⟨validation, found, Option.some.inj ends⟩, passed⟩
    | sleeping validation wake =>
      exact served.wakes_up.trans served.resolves_late m
        ⟨⟨validation, wake, found, Option.some.inj ends⟩, passed⟩
    | subscribed | resolved => cases ends
  · exact ⟨m, le_rfl, resolved⟩

/-- Nobody waits at a height that was passed. -/
theorem passed_later (served : Served b i id) {highest : Nat} (above : height < highest)
    (seen : ∃ m', ((b.state m).nodes i).book.maxSeen = some m' ∧ highest ≤ m') (later : m ≤ k) :
    ((b.state k).nodes i).book.waiters.getD height [] = [] := by
  have seen : ∃ m', ((b.state k).nodes i).book.maxSeen = some m' ∧ highest ≤ m' := by
    induction k, later using Nat.le_induction with
    | base => exact seen
    | succ k later ih =>
      obtain ⟨m', seen, reaches⟩ := ih
      obtain ⟨m'', seen', more⟩ := maxSeen_later (b.next k) seen
      exact ⟨m'', seen', reaches.trans more⟩
  obtain ⟨m', seen, reaches⟩ := seen
  by_contra parked
  have lower := ((InLife.heeded (served.life k) i).opened height parked).2 m' seen
  omega

/-- A directive that reaches the height of a call leaves nobody waiting there. -/
theorem hears (served : Served b i id) {start : Nat} {directive : TaskDirective T}
    (delivered : b.label m = .deliver i directive) (real : directive.isTipReport = false)
    (reaches : height < directive.height ∨ height = directive.height ∧ start ≤ m) :
    ∃ k ≥ start, ((b.state k).nodes i).book.waiters.getD height [] = [] := by
  have heeded := InLife.heeded (served.life m) i
  have taken := b.next m
  rw [delivered] at taken
  have handled : ((b.state (m + 1)).nodes i).book =
      (((b.state m).nodes i).book.handleDirective directive).1 := by
    obtain ⟨-, next⟩ := Option.ite_none_right_eq_some.mp taken
    rw [← Option.some.inj next, tell, setNode_nodes, if_pos rfl]
  by_cases late : start ≤ m
  · refine ⟨m + 1, by omega, ?_⟩
    rw [handled]
    exact TaskBook.waiters_cleared heeded.opened heeded.windowed real (by omega)
  · have above : height < directive.height := by omega
    refine ⟨start, le_rfl, served.passed_later (m := m + 1) above ?_ (by omega)⟩
    rw [handled]
    exact TaskBook.maxSeen_directive heeded.windowed real

end Served

theorem run_grown {b : Behaviour (step cfg)} {m k : Nat} (later : m ≤ k) :
    Grown (b.state m) (b.state k) := by
  induction k, later using Nat.le_induction with
  | base => exact ⟨List.Subset.refl _, fun _ _ _ signed => signed⟩
  | succ k later ih =>
    have next := step_grown (b.next k)
    exact ⟨List.Subset.trans ih.acks next.acks, fun height i digest signed =>
      next.signatures height i digest (ih.signatures height i digest signed)⟩

/-- A call that has resolved has no step left. -/
theorem Resolved.not_enabled (resolved : Resolved c i id height) :
    ¬ Enabled (step cfg) (· = .resume i id) c ∧
      ¬ Enabled (step cfg) (fun label => ∃ result, label = .validated i id result) c ∧
      ¬ Enabled (step cfg) (· = .retry i id) c := by
  obtain ⟨digest, found⟩ := resolved
  refine ⟨?_, ?_, ?_⟩
  · rintro ⟨label, rfl, possible⟩
    simp [step, stepWith, resume, found] at possible
  · rintro ⟨label, ⟨result, rfl⟩, possible⟩
    simp [step, stepWith, validated, found] at possible
  · rintro ⟨label, rfl, possible⟩
    simp [step, stepWith, retry, found] at possible

/-- So it has had its turns. -/
theorem Served.of_resolved {b : Behaviour (step cfg)} {last : Nat} (begins : InLife cfg (b.state 0))
    (resolved : ∀ k ≥ last, Resolved (b.state k) i id height)
    (clock : ∀ t, ∃ m, t ≤ (b.state m).router.now) : Served b i id where
  begins := begins
  resumes := Behaviour.weaklyFair_of_idle fun k later => (resolved k later).not_enabled.1
  validator := Behaviour.weaklyFair_of_idle fun k later => (resolved k later).not_enabled.2.1
  wakes := Behaviour.weaklyFair_of_idle fun k later => (resolved k later).not_enabled.2.2
  clock := clock

/-- **No proposal hangs.** A call of `propose` that its node serves resolves if the node
handles a directive for the height after the call, or one above the height at any time.
From then on it has one digest, which is the height's skip digest or one that the node's
validator can return for what was announced there, and the node has signed the height and
sent its ack. -/
theorem proposal_resolves {b : Behaviour (step cfg)} (served : Served b i id) {start m : Nat}
    {directive : TaskDirective T}
    (proposed : ((b.state start).nodes i).proposals.get? id = some ⟨height, state⟩)
    (delivered : b.label m = .deliver i directive) (real : directive.isTipReport = false)
    (reaches : height < directive.height ∨ height = directive.height ∧ start ≤ m) :
    ∃ last ≥ start, ∃ digest signed, ∀ k ≥ last,
      ((b.state k).nodes i).proposals.get? id = some ⟨height, .resolved digest⟩ ∧
        Resolvable cfg (b.state k).broadcast i height digest ∧
          (b.state k).signatures height i = some signed ∧
            ⟨i, height, signed⟩ ∈ (b.state k).acks := by
  obtain ⟨heard, later, nobody⟩ := served.hears delivered real reaches
  obtain ⟨state, found⟩ := served.found_later ⟨state, proposed⟩ later
  have begun : ∃ k ≥ heard, (∃ deadline, InLoop (b.state k) i id height deadline) ∨
      Resolved (b.state k) i id height := by
    cases state with
    | subscribed =>
      rcases (InLife.heeded (served.life heard) i).subscribed id height found with waits | told
      · rw [nobody] at waits
        cases waits
      · exact served.goes_on heard ⟨found, told⟩
    | validating | sleeping => exact ⟨heard, le_rfl, .inl ⟨_, _, found, rfl⟩⟩
    | resolved digest => exact ⟨heard, le_rfl, .inr ⟨digest, found⟩⟩
  obtain ⟨last, latest, digest, resolved⟩ : ∃ k ≥ heard, Resolved (b.state k) i id height := by
    obtain ⟨k, after, ⟨deadline, inLoop⟩ | resolved⟩ := begun
    · obtain ⟨last, latest, resolved⟩ := served.loop_ends k inLoop
      exact ⟨last, after.trans latest, resolved⟩
    · exact ⟨k, after, resolved⟩
  obtain ⟨signed, first⟩ :=
    (InLife.acknowledged (served.life last)).resolved i id height digest resolved
  refine ⟨last, later.trans latest, digest, signed, fun k beyond => ?_⟩
  have stays := served.resolved_later resolved beyond
  have signs := (run_grown beyond).signatures height i signed first
  exact ⟨stays, (InLife.agreed (served.life k) i).proposals id _ stays, signs,
    (InLife.acknowledged (served.life k)).signed i height signed signs⟩

section Examples

/-- The only operator is asked for height 0, learns its task and signs it. -/
def signsTen : List (Label 1 Nat Nat Unit) :=
  operatorsAssign 10 1 ++ [.propose (.last 0) 0, .deliver (.last 0) (.announce 0 10),
    .resume (.last 0) 0, .validated (.last 0) 0 (some 1)]

/-- Then time passes. -/
def signsTenLabel (k : Nat) : Label 1 Nat Nat Unit := signsTen[k]?.getD (.router (.elapse 1))

def signsTenState : Nat → Cluster 1 Nat Nat Unit :=
  Behaviour.along (step (operators 0)) (init (operators 0)) signsTenLabel

theorem signsTenLabel_later {k : Nat} (later : 15 ≤ k) : signsTenLabel k = .router (.elapse 1) := by
  rw [signsTenLabel, List.getElem?_eq_none later]
  rfl

def signsTenBehaviour : Behaviour (step (operators 0)) :=
  .ofLabels (init (operators 0)) signsTenLabel fun k => by
    rcases Nat.lt_or_ge k 15 with early | later
    · exact (by decide +kernel : ∀ k < 15,
        (step (operators 0) (signsTenState k) (signsTenLabel k)).isSome = true) k early
    · rw [signsTenLabel_later later]
      rfl

/-- Only the clock moves in the end. -/
theorem signsTen_tail (k : Nat) :
    (signsTenState (15 + k)).nodes = (signsTenState 15).nodes ∧
      (signsTenState (15 + k)).router.now = (signsTenState 15).router.now + k := by
  induction k with
  | zero => exact ⟨rfl, rfl⟩
  | succ k ih =>
    have next : signsTenState (15 + (k + 1)) = (signsTenState (15 + k)).elapse 1 := by
      show ((step (operators 0) (signsTenState (15 + k)) (signsTenLabel (15 + k))).getD _) = _
      rw [signsTenLabel_later (Nat.le_add_right _ _)]
      rfl
    rw [next]
    exact ⟨ih.1, congrArg (· + 1) ih.2⟩

theorem signsTen_resolved (k : Nat) :
    ((signsTenState (15 + k)).nodes 0).proposals.get? 0 = some ⟨0, .resolved 1⟩ := by
  rw [(signsTen_tail k).1]
  rfl

theorem signsTen_served : Served signsTenBehaviour 0 0 := by
  have resolved : ∀ k ≥ 15, Resolved (signsTenState k) 0 0 0 := by
    intro k later
    obtain ⟨k, rfl⟩ := Nat.exists_eq_add_of_le later
    exact ⟨1, signsTen_resolved k⟩
  exact .of_resolved (.start rfl) resolved fun t =>
    ⟨15 + t, (signsTen_tail t).2 ▸ Nat.le_add_left _ _⟩

/-- The operator's call waits, is told and resolves. -/
theorem call_resolves_at_zero : ∃ last ≥ 12, ∃ digest signed, ∀ k ≥ last,
    ((signsTenState k).nodes 0).proposals.get? 0 = some ⟨0, .resolved digest⟩ ∧
      Resolvable (operators 0) (signsTenState k).broadcast 0 0 digest ∧
        (signsTenState k).signatures 0 0 = some signed ∧ ⟨0, 0, signed⟩ ∈ (signsTenState k).acks := by
  have proposed : ((signsTenBehaviour.state 12).nodes 0).proposals.get? 0 =
      some ⟨0, .subscribed⟩ := rfl
  have delivered : signsTenBehaviour.label 12 = .deliver 0 (.announce 0 10) := rfl
  exact proposal_resolves signsTen_served proposed delivered rfl (.inr ⟨rfl, le_rfl⟩)

end Examples

end Restaking.Cluster
