import Restaking.Lib.Ballot
import Restaking.TaskAgreement

/-! Whether a height can still certify. The engine signs the first digest that
`propose` resolves to and no other, so the signatures of a height are a vote
between the digest of its task and the skip digest. The nodes vote on what has
reached them so far: a router that turns from announcing to skipping can find
some of them committed to the task already, and the vote can split for good. -/
namespace Restaking.Cluster
open Lib

variable {n : Nat} {T D G S : Type*} [DecidableEq D]
variable {cfg : Config n T D G S} {c c' : Cluster n T D S} {label : Label n T D S}
variable {i j : Fin n} {height height' : Nat} {digest digest' : D}

/-- Validators return one digest for a task, whenever they succeed. -/
def Agreeing (cfg : Config n T D G S) : Prop :=
  ∀ i j task digest digest', cfg.validates i task digest = true →
    cfg.validates j task digest' = true → digest = digest'

/-- What each node has signed for a height. -/
def signatures (c : Cluster n T D S) (height : Nat) : Ballot (Fin n) D :=
  fun i => (c.nodes i).signed.get? height

/-- Some digest is signed, or can still be signed, by a quorum. -/
def Certifiable (c : Cluster n T D S) (height : Nat) : Prop := (c.signatures height).Winnable

/-- The node, the height and the digest of a step that resolves a proposal: the
task book said skip, the validator returned, or it failed with the retry budget
spent. -/
def resolving (cfg : Config n T D G S) (c : Cluster n T D S) :
    Label n T D S → Option (Fin n × Nat × D)
  | .resume i id => match (c.nodes i).proposals.get? id with
    | some ⟨height, .subscribed⟩ => match c.told i ⟨id, height⟩ with
      | some .skip => some (i, height, cfg.router.skip height)
      | _ => none
    | _ => none
  | .validated i id result => match (c.nodes i).proposals.get? id with
    | some ⟨height, .validating validation⟩ => match result with
      | some digest => some (i, height, digest)
      | none => match validation.afterError c.router.now with
        | some _ => none
        | none => some (i, height, cfg.router.skip height)
    | _ => none
  | _ => none

/-- A node that has not signed resolves its proposal to the skip digest only while
fewer nodes than the tolerated faults have signed it or no more than these have
signed another, and to another digest only while it is the other way round. -/
def Unsplit (cfg : Config n T D G S) (c : Cluster n T D S) (label : Label n T D S) : Prop :=
  ∀ signing ∈ resolving cfg c label, c.signatures signing.2.1 signing.1 = none →
    (c.signatures signing.2.1).Admits (cfg.router.skip signing.2.1) signing.2.2

instance : Decidable (Unsplit cfg c label) := by
  unfold Unsplit
  infer_instance

omit [DecidableEq D] in
theorem signatures_resolve_again {id : Nat} (signed : c.signatures height i ≠ none) :
    (c.resolve i id height digest).signatures = c.signatures := by
  funext height' j
  have again : ((c.nodes i).signed.get? height).isSome := Option.isSome_iff_ne_none.mpr signed
  simp only [signatures, resolve, again, if_true, setProposal, setNode_nodes]
  split
  · rename_i same
    rw [same]
  · rfl

omit [DecidableEq D] in
theorem signatures_resolve_fresh {id : Nat} (fresh : c.signatures height i = none) :
    (c.resolve i id height digest).signatures height' =
      if height' = height then (c.signatures height).cast i digest else c.signatures height' := by
  have unsigned : (c.nodes i).signed.get? height = none := fresh
  funext j
  by_cases node : j = i
  · subst node
    by_cases here : height' = height <;>
      simp [signatures, resolve, unsigned, here, Ballot.cast, OrderedMap.get?_insert]
  · by_cases here : height' = height <;>
      simp [signatures, resolve, unsigned, here, node, Ballot.cast]

omit [DecidableEq D] in
theorem signatures_setNode {node : Node T D} (same : node.signed = (c.nodes i).signed) :
    (c.setNode i node).signatures = c.signatures := by
  funext height j
  simp only [signatures, setNode_nodes]
  split
  · rename_i here
    rw [here, same]
  · rfl

variable [DecidableEq T]

/-- A step resolves a proposal, or every signature stays as it is. -/
theorem step_resolving (taken : step cfg c label = some c') :
    (∃ i id height digest, resolving cfg c label = some (i, height, digest) ∧
      c' = c.resolve i id height digest) ∨
      resolving cfg c label = none ∧ c'.signatures = c.signatures := by
  cases step_stepped taken with
  | @skipped i id height found told =>
    exact .inl ⟨i, id, height, cfg.router.skip height, by simp [resolving, found, told], rfl⟩
  | @accepted i id height validation digest found _ =>
    exact .inl ⟨i, id, height, digest, by simp [resolving, found], rfl⟩
  | @exhausted i id height validation found spent =>
    exact .inl ⟨i, id, height, cfg.router.skip height, by simp [resolving, found, spent], rfl⟩
  | announced found told =>
    exact .inr ⟨by simp [resolving, found, told], signatures_setNode rfl⟩
  | postponed found again =>
    exact .inr ⟨by simp [resolving, found, again], signatures_setNode rfl⟩
  | routed _ => exact .inr ⟨rfl, rfl⟩
  | forged => exact .inr ⟨rfl, rfl⟩
  | _ => exact .inr ⟨rfl, signatures_setNode rfl⟩

/-- Every signature is the skip digest or one digest of the height's task. -/
theorem InLife.twoWay (life : InLife cfg c) (agree : Agreeing cfg) (height : Nat) :
    (c.signatures height).TwoWay (cfg.router.skip height) := by
  intro i j digest digest' signed signed' other other'
  have agreed := InLife.agreed life
  have announced := ((agreed i).signed height digest signed).resolve_left other
  have announced' := ((agreed j).signed height digest' signed').resolve_left other'
  obtain ⟨task, sent, valid⟩ := announced
  obtain ⟨task', sent', valid'⟩ := announced'
  obtain ⟨call, member, view⟩ := life.assigned sent
  obtain ⟨call', member', view'⟩ := life.assigned sent'
  have one := (InLife.router life).ledger.2.assigned_unique member member' rfl
  obtain rfl : call = call' := congrArg Prod.snd one
  subst view
  subst view'
  exact agree i j _ digest digest' valid valid'

/-- The step decides whether every height can still certify. -/
theorem certifiable_step (agree : Agreeing cfg) (life : InLife cfg c)
    (winnable : ∀ height, Certifiable c height) (taken : step cfg c label = some c') :
    (∀ height, Certifiable c' height) ↔ Unsplit cfg c label := by
  rcases step_resolving taken with ⟨i, id, height, digest, resolves, rfl⟩ | ⟨none, same⟩
  · have unsplit : Unsplit cfg c label ↔ (c.signatures height i = none →
        (c.signatures height).Admits (cfg.router.skip height) digest) := by
      simp [Unsplit, resolves]
    rw [unsplit]
    by_cases fresh : c.signatures height i = none
    · have after : (c.resolve i id height digest).signatures height =
          (c.signatures height).cast i digest := by
        rw [signatures_resolve_fresh fresh, if_pos rfl]
      have two := InLife.twoWay (Reachable.next life taken) agree height
      rw [after] at two
      have here : Certifiable (c.resolve i id height digest) height ↔
          (c.signatures height).Admits (cfg.router.skip height) digest := by
        rw [Certifiable, after]
        exact Ballot.winnable_cast_iff fresh two
      constructor
      · intro always _
        exact here.mp (always height)
      · intro allowed height'
        by_cases same : height' = height
        · rw [same]
          exact here.mpr (allowed fresh)
        · have kept := winnable height'
          rw [Certifiable] at kept ⊢
          rwa [signatures_resolve_fresh fresh, if_neg same]
    · constructor
      · intro _ unsigned
        exact absurd unsigned fresh
      · intro _ height'
        have kept := winnable height'
        rw [Certifiable] at kept ⊢
        rwa [signatures_resolve_again fresh]
  · constructor
    · intro _ signing resolves
      rw [none] at resolves
      cases resolves
    · intro _ height
      have kept := winnable height
      rw [Certifiable] at kept ⊢
      rwa [same]

section Examples

/-- A node hears the announcement of height 0 and signs the digest of its task. -/
def signsTask (i : Fin 4) : List (Label 4 Nat Nat Unit) :=
  [.deliver i (.announce 0 10), .propose i 0, .resume i 0, .validated i 0 (some 1)]

/-- A node hears that height 0 is skipped and signs the skip digest. -/
def signsSkip (i : Fin 4) : List (Label 4 Nat Nat Unit) :=
  [.deliver i (.skip 0), .propose i 0, .resume i 0]

/-- The round of the router times out. -/
def timesOut : List (Label 4 Nat Nat Unit) :=
  [.router (.elapse 11), .router .tick, .router .report, .router .sequence]

theorem operators_agree {n : Nat} : Agreeing (operators n) := by
  intro i j task digest digest' valid valid'
  simp only [operators, decide_eq_true_eq] at valid valid'
  rw [valid, valid']

end Examples

/-- **No split vote.** Let the validators agree on every task they accept. All along
a run every height can still certify exactly when no step of the run lets a node
sign the skip digest after as many nodes as the tolerated faults have signed it and
more than these another, or another digest after more have signed the skip digest
and as many another. -/
theorem certifiable_iff_unsplit (agree : Agreeing cfg) {labels : List (Label n T D S)}
    (run : Run (step cfg) (init cfg) labels c) :
    (∀ before after middle, labels = before ++ after →
      Run (step cfg) (init cfg) before middle → ∀ height, Certifiable middle height) ↔
      RunWhere (step cfg) (Unsplit cfg) (init cfg) labels c := by
  have lives : ∀ c label c', InLife cfg c → step cfg c label = some c' → InLife cfg c' := by
    intro c label c' life taken
    exact life.next taken
  apply always_iff_guarded lives _ run (.start rfl)
  · intro height
    refine ⟨cfg.router.skip height, ?_⟩
    rw [Ballot.quorum_le_iff]
    simp [Ballot.opposed, signatures, init]
  · intro c label c' life winnable taken
    exact certifiable_step agree life winnable taken

/-- Three nodes sign the digest of the task before its round times out, and the
fourth signs the skip digest. -/
theorem late_skip_leaves_quorum : ∃ (labels : List (Label 4 Nat Nat Unit))
    (c : Cluster 4 Nat Nat Unit), Run (step (operators 3)) (init (operators 3)) labels c ∧
      ((c.signatures 0).voters 1).card = 3 ∧ ((c.signatures 0).voters 16).card = 1 ∧
      ∀ before after middle, labels = before ++ after →
        Run (step (operators 3)) (init (operators 3)) before middle →
          ∀ height, Certifiable middle height := by
  let labels : List (Label 4 Nat Nat Unit) := operatorsAssign 10 1 ++
    signsTask 0 ++ signsTask 1 ++ signsTask 2 ++ timesOut ++ signsSkip 3
  let signed (c : Cluster 4 Nat Nat Unit) : Bool :=
    ((c.signatures 0).voters 1).card = 3 ∧ ((c.signatures 0).voters 16).card = 1
  obtain ⟨c, unsplit, reached⟩ : ∃ c, RunWhere (step (operators 3)) (Unsplit (operators 3))
      (init (operators 3)) labels c ∧ signed c = true :=
    runWhere_of_exec_any (by decide +kernel)
  have run : Run (step (operators 3)) (init (operators 3)) labels c :=
    unsplit.weaken fun _ _ _ => trivial
  obtain ⟨task, skip⟩ := of_decide_eq_true reached
  exact ⟨labels, c, run, task, skip, (certifiable_iff_unsplit operators_agree run).mpr unsplit⟩

/-- The router drives a height that can never certify: two nodes of four have signed
the digest of its task and two the skip digest. -/
theorem timed_out_round_splits_votes : ∃ c : Cluster 4 Nat Nat Unit,
    InLife (operators 3) c ∧ c.router.sequencer.phase.driven = some 0 ∧ ¬ Certifiable c 0 := by
  obtain ⟨c, life, reached⟩ := InLife.of_exec_any (operators 3)
    (operatorsAssign 10 1 ++ signsTask 0 ++ signsTask 1 ++ timesOut ++ signsSkip 2 ++ signsSkip 3)
    (fun c => c.router.sequencer.phase.driven = some 0 ∧
      ((c.signatures 0).voters 16).card = 2 ∧ ((c.signatures 0).opposed 16).card = 2)
    (by decide +kernel)
  obtain ⟨driven, skips, tasks⟩ := of_decide_eq_true reached
  refine ⟨c, life, driven, ?_⟩
  intro certifiable
  have decided := (life.twoWay operators_agree 0).winnable_iff.mp certifiable
  have skip : (operators 3).router.skip 0 = 16 := by decide
  rw [skip, skips, tasks] at decided
  revert decided
  decide

end Restaking.Cluster
