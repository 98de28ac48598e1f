import Restaking.RetrySchedule
import Restaking.RouterQueues
import Restaking.TaskAgreement
import Restaking.TaskBookWaiters

/-! A call of `propose`, step by step: what a step of the deployment can do to it, that
no call is forgotten by its task book, and that a call which has resolved leaves a
signature behind. -/
namespace Restaking
open Lib

/-- When the retry budget of a call in its loop ends. -/
def ProposalState.deadline? {T D : Type*} : ProposalState T D → Option Nat
  | .validating validation => some validation.deadline
  | .sleeping validation _ => some validation.deadline
  | .subscribed | .resolved _ => none

namespace Cluster

variable {n : Nat} {T D G S : Type*} {cfg : Config n T D G S} {c c' : Cluster n T D S}
variable {label : Label n T D S} {i j : Fin n} {id id' height : Nat}
variable {proposal : Proposal T D} {state state' : ProposalState T D} {digest : D}

/-- The steps of this call. -/
def concerns (i : Fin n) (id : Nat) : Label n T D S → Prop
  | .resume j id' => j = i ∧ id' = id
  | .validated j id' _ => j = i ∧ id' = id
  | .retry j id' => j = i ∧ id' = id
  | _ => False

/-- A step of the call for the height. -/
inductive Proceeds (cfg : Config n T D G S) (c : Cluster n T D S) (i : Fin n) (id height : Nat) :
    Label n T D S → ProposalState T D → ProposalState T D → Prop where
  | told {task} : c.told i ⟨id, height⟩ = some (.announce task) →
      Proceeds cfg c i id height (.resume i id) .subscribed
        (.validating (.begin c.router.now cfg.retryBudget task))
  | skipped : c.told i ⟨id, height⟩ = some .skip →
      Proceeds cfg c i id height (.resume i id) .subscribed (.resolved (cfg.router.skip height))
  | accepted {validation digest} : cfg.validates i validation.task digest = true →
      Proceeds cfg c i id height (.validated i id (some digest)) (.validating validation)
        (.resolved digest)
  | postponed {validation validation' wake} :
      validation.afterError c.router.now = some (validation', wake) →
      Proceeds cfg c i id height (.validated i id none) (.validating validation)
        (.sleeping validation' wake)
  | exhausted {validation} : validation.afterError c.router.now = none →
      Proceeds cfg c i id height (.validated i id none) (.validating validation)
        (.resolved (cfg.router.skip height))
  | retried {validation wake} : Proceeds cfg c i id height (.retry i id)
      (.sleeping validation wake) (.validating validation)

theorem get?_setProposal : ((c.setProposal j id' proposal).nodes i).proposals.get? id =
    if i = j ∧ id = id' then some proposal else (c.nodes i).proposals.get? id := by
  rw [setProposal, setNode_nodes]
  by_cases own : i = j
  · subst own
    simp
  · simp [own]

theorem get?_resolve : ((c.resolve j id' height digest).nodes i).proposals.get? id =
    if i = j ∧ id = id' then some ⟨height, .resolved digest⟩
    else (c.nodes i).proposals.get? id := by
  unfold resolve
  split
  · exact get?_setProposal
  · rw [setNode_nodes]
    by_cases own : i = j
    · subst own
      simp
    · simp [own]

theorem found_setNode {node : Node T D} (same : node.proposals = (c.nodes j).proposals)
    (found : (c.nodes i).proposals.get? id = some proposal) :
    ((c.setNode j node).nodes i).proposals.get? id = some proposal := by
  rw [setNode_nodes]
  split
  · rename_i own
    rw [same, ← own, found]
  · exact found

/-- Every call that has not gone on yet waits or has been told. -/
structure Heeded (node : Node T D) : Prop where
  windowed : TaskBook.Windowed node.book
  opened : TaskBook.WaitersOpen node.book
  fresh : ∀ id proposal, node.proposals.get? id = some proposal → id < node.subscriptions
  subscribed : ∀ id height, node.proposals.get? id = some ⟨height, .subscribed⟩ →
    ⟨id, height⟩ ∈ node.book.waiters.getD height [] ∨
      ∃ told, (⟨id, height⟩, told) ∈ node.answers
  sleeping : ∀ id height validation wake,
    node.proposals.get? id = some ⟨height, .sleeping validation wake⟩ → wake < validation.deadline

theorem Heeded.init : Heeded ({} : Node T D) where
  windowed := .init
  opened := fun _ parked => (parked rfl).elim
  fresh := fun _ _ found => nomatch found
  subscribed := fun _ _ found => nomatch found
  sleeping := fun _ _ _ _ found => nomatch found

/-- A call goes on. -/
theorem Heeded.proceed {node : Node T D} (heeded : Heeded node) (live : id < node.subscriptions)
    (state : ProposalState T D) (begun : state ≠ .subscribed)
    (within : ∀ validation wake, state = .sleeping validation wake → wake < validation.deadline) :
    Heeded { node with proposals := node.proposals.insert id ⟨height, state⟩ } where
  windowed := heeded.windowed
  opened := heeded.opened
  fresh := by
    intro id' proposal found
    rw [OrderedMap.get?_insert] at found
    split at found
    · rename_i own
      exact own ▸ live
    · exact heeded.fresh id' proposal found
  subscribed := by
    intro id' height' found
    rw [OrderedMap.get?_insert] at found
    split at found
    · cases found
      exact absurd rfl begun
    · exact heeded.subscribed id' height' found
  sleeping := by
    intro id' height' validation wake found
    rw [OrderedMap.get?_insert] at found
    split at found
    · cases found
      exact within validation wake rfl
    · exact heeded.sleeping id' height' validation wake found

/-- The task book handles a message without forgetting anybody. -/
theorem Heeded.tell {node : Node T D} (heeded : Heeded node) {book : TaskBook T Subscriber}
    {answers : List (TaskBook.Answer T Subscriber)} (windowed : TaskBook.Windowed book)
    (opened : TaskBook.WaitersOpen book)
    (kept : ∀ height, ∀ waiter ∈ node.book.waiters.getD height [],
      waiter ∈ book.waiters.getD height [] ∨ ∃ told, (waiter, told) ∈ answers) :
    Heeded { node with book, answers := node.answers ++ answers } where
  windowed := windowed
  opened := opened
  fresh := heeded.fresh
  sleeping := heeded.sleeping
  subscribed := by
    intro id height found
    rcases heeded.subscribed id height found with waits | ⟨told, member⟩
    · refine (kept height _ waits).imp_right ?_
      rintro ⟨told, member⟩
      exact ⟨told, List.mem_append_right _ member⟩
    · exact .inr ⟨told, List.mem_append_left _ member⟩

theorem heeded_setNode (heeded : ∀ j, Heeded (c.nodes j)) {node : Node T D} (changed : Heeded node) :
    ∀ j, Heeded ((c.setNode i node).nodes j) := by
  intro j
  rw [setNode_nodes]
  split
  · exact changed
  · exact heeded j

variable [DecidableEq T]

/-- A subscription of a call or of anyone else. -/
theorem heeded_subscribe (heeded : ∀ j, Heeded (c.nodes j))
    {proposals : OrderedMap Nat (Proposal T D)}
    (kept : ∀ id proposal, proposals.get? id = some proposal →
      (c.nodes i).proposals.get? id = some proposal ∨
        id = (c.nodes i).subscriptions ∧ proposal = { height }) :
    ∀ j, Heeded ((c.subscribe i height proposals).nodes j) := by
  have node := heeded i
  let subscriber : Subscriber := ⟨(c.nodes i).subscriptions, height⟩
  have asked := (TaskBook.waiters_subscribe (c.nodes i).book 0 height subscriber).2
  have told : Heeded { c.nodes i with
      book := ((c.nodes i).book.handleSubscribe height subscriber).1
      answers := (c.nodes i).answers ++ ((c.nodes i).book.handleSubscribe height subscriber).2 } :=
    node.tell (node.windowed.handle (.subscribe height subscriber)) (node.opened.subscribe _)
      fun height' _ waits => .inl ((TaskBook.waiters_subscribe _ height' height _).1 waits)
  refine heeded_setNode heeded ⟨told.windowed, told.opened, ?_, ?_, ?_⟩
  · intro id proposal found
    rcases kept id proposal found with before | ⟨rfl, -⟩
    · exact (node.fresh id proposal before).trans (Nat.lt_succ_self _)
    · exact Nat.lt_succ_self _
  · intro id height' found
    rcases kept id _ found with before | ⟨rfl, same⟩
    · exact told.subscribed id height' before
    · cases same
      refine asked.imp_right ?_
      rintro ⟨told, member⟩
      exact ⟨told, List.mem_append_right _ member⟩
  · intro id height' validation wake found
    rcases kept id _ found with before | ⟨-, same⟩
    · exact node.sleeping id height' validation wake before
    · cases same

variable [DecidableEq D]

/-- Every step heeds every call. -/
theorem heeded_step (heeded : ∀ j, Heeded (c.nodes j)) (taken : step cfg c label = some c') :
    ∀ j, Heeded (c'.nodes j) := by
  have proceed {j : Fin n} {id height : Nat} {before : ProposalState T D}
      (here : (c.nodes j).proposals.get? id = some ⟨height, before⟩) (state : ProposalState T D)
      (begun : state ≠ .subscribed)
      (within : ∀ validation wake, state = .sleeping validation wake → wake < validation.deadline) :
      Heeded { c.nodes j with
        proposals := (c.nodes j).proposals.insert id ⟨height, state⟩ } :=
    (heeded j).proceed ((heeded j).fresh id _ here) state begun within
  have resolves {j : Fin n} {id height : Nat} {before : ProposalState T D}
      (here : (c.nodes j).proposals.get? id = some ⟨height, before⟩) (digest : D) :
      ∀ i, Heeded ((c.resolve j id height digest).nodes i) := by
    have changed := proceed here (.resolved digest) (by rintro ⟨⟩) (by rintro _ _ ⟨⟩)
    unfold resolve
    split
    · exact heeded_setNode heeded changed
    · exact heeded_setNode heeded { changed with }
  cases step_stepped taken with
  | routed | forged => exact heeded
  | ingested | certified | raised | observed => exact heeded_setNode heeded { heeded _ with }
  | @delivered j directive =>
    have node := heeded j
    refine heeded_setNode heeded (node.tell (node.windowed.handle (.directive directive))
      (node.opened.directed node.windowed) fun height waiter waits => ?_)
    rcases TaskBook.waiters_directive (c.nodes j).book directive height with same | ⟨-, told⟩
    · exact .inl (same ▸ waits)
    · exact .inr (told waiter waits)
  | @pruned j floor =>
    have node := heeded j
    exact heeded_setNode heeded (node.tell node.windowed.prune (node.opened.prune floor)
      fun _ _ waits => .inl waits)
  | subscribed => exact heeded_subscribe heeded fun _ _ found => .inl found
  | @proposed j height =>
    refine heeded_subscribe heeded fun id proposal found => ?_
    rw [OrderedMap.get?_insert] at found
    split at found
    · exact .inr ⟨‹_›, (Option.some.inj found).symm⟩
    · exact .inl found
  | announced here _ =>
    exact heeded_setNode heeded (proceed here _ (by rintro ⟨⟩) (by rintro _ _ ⟨⟩))
  | skipped here _ => exact resolves here _
  | accepted here _ => exact resolves here _
  | exhausted here _ => exact resolves here _
  | postponed here again =>
    refine heeded_setNode heeded (proceed here _ (by rintro ⟨⟩) ?_)
    rintro _ _ ⟨⟩
    obtain ⟨within, ⟨⟩⟩ := Option.ite_none_right_eq_some.mp again
    exact within
  | retried here => exact heeded_setNode heeded (proceed here _ (by rintro ⟨⟩) (by rintro _ _ ⟨⟩))

theorem InLife.heeded (life : InLife cfg c) : ∀ j, Heeded (c.nodes j) := by
  let within : Cluster n T D S → Prop := fun c => ∀ j, Heeded (c.nodes j)
  suffices held : within c from held
  refine Reachable.preserves life ?_ fun c label c' _ heeded taken => heeded_step heeded taken
  rintro start rfl j
  exact .init

/-- A call is left alone or proceeds. -/
theorem step_proposal (fresh : id < (c.nodes i).subscriptions) (taken : step cfg c label = some c')
    (found : (c.nodes i).proposals.get? id = some ⟨height, state⟩) :
    ¬ concerns i id label ∧ (c'.nodes i).proposals.get? id = some ⟨height, state⟩ ∨
      ∃ state', Proceeds cfg c i id height label state state' ∧
        (c'.nodes i).proposals.get? id = some ⟨height, state'⟩ := by
  -- a step of one call, which is either this one or not
  have inserted {j : Fin n} {id' height' : Nat} {before after : ProposalState T D}
      (here : (c.nodes j).proposals.get? id' = some ⟨height', before⟩)
      (concerned : concerns i id label → i = j ∧ id = id')
      (becomes : (c'.nodes i).proposals.get? id = if i = j ∧ id = id' then some ⟨height', after⟩
        else (c.nodes i).proposals.get? id)
      (proceeds : i = j → id = id' → Proceeds cfg c i id height' label before after) :
      ¬ concerns i id label ∧ (c'.nodes i).proposals.get? id = some ⟨height, state⟩ ∨
        ∃ state', Proceeds cfg c i id height label state state' ∧
          (c'.nodes i).proposals.get? id = some ⟨height, state'⟩ := by
    by_cases own : i = j ∧ id = id'
    · obtain ⟨rfl, rfl⟩ := own
      rw [found] at here
      cases here
      exact .inr ⟨after, proceeds rfl rfl, by rw [becomes, if_pos ⟨rfl, rfl⟩]⟩
    · exact .inl ⟨fun concerns => own (concerned concerns), by rw [becomes, if_neg own, found]⟩
  have swap {j : Fin n} {id' : Nat} (named : j = i ∧ id' = id) : i = j ∧ id = id' :=
    ⟨named.1.symm, named.2.symm⟩
  cases step_stepped taken with
  | routed | forged => exact .inl ⟨fun concerned => concerned, found⟩
  | delivered | ingested | subscribed | pruned | certified | raised | observed =>
    exact .inl ⟨fun concerned => concerned, found_setNode rfl found⟩
  | @proposed j h =>
    refine .inl ⟨fun concerned => concerned, ?_⟩
    rw [subscribe, setNode_nodes]
    split
    · rename_i own
      subst own
      rw [OrderedMap.get?_insert, if_neg fresh.ne, found]
    · exact found
  | announced here told =>
    exact inserted here swap get?_setProposal (by rintro rfl rfl; exact .told told)
  | skipped here told =>
    exact inserted here swap get?_resolve (by rintro rfl rfl; exact .skipped told)
  | accepted here valid =>
    exact inserted here swap get?_resolve (by rintro rfl rfl; exact .accepted valid)
  | postponed here again =>
    exact inserted here swap get?_setProposal (by rintro rfl rfl; exact .postponed again)
  | exhausted here spent =>
    exact inserted here swap get?_resolve (by rintro rfl rfl; exact .exhausted spent)
  | retried here => exact inserted here swap get?_setProposal (by rintro rfl rfl; exact .retried)

/-- A call that has resolved found the height signed, or signed it and sent the ack. -/
structure Acknowledged (c : Cluster n T D S) : Prop where
  signed : ∀ i height digest, (c.nodes i).signed.get? height = some digest →
    ⟨i, height, digest⟩ ∈ c.acks
  resolved : ∀ i id height digest,
    (c.nodes i).proposals.get? id = some ⟨height, .resolved digest⟩ →
      ∃ signed, (c.nodes i).signed.get? height = some signed

omit [DecidableEq T] [DecidableEq D] in
/-- A step that signs nothing and resolves no call. -/
theorem Acknowledged.kept (acknowledged : Acknowledged c) (acks : c.acks ⊆ c'.acks)
    (signed : ∀ i, (c'.nodes i).signed = (c.nodes i).signed)
    (resolved : ∀ i id height digest,
      (c'.nodes i).proposals.get? id = some ⟨height, .resolved digest⟩ →
        (c.nodes i).proposals.get? id = some ⟨height, .resolved digest⟩) : Acknowledged c' where
  signed := fun i height digest found => acks (acknowledged.signed i height digest (signed i ▸ found))
  resolved := fun i id height digest found => by
    rw [signed]
    exact acknowledged.resolved i id height digest (resolved i id height digest found)

omit [DecidableEq T] [DecidableEq D] in
theorem Acknowledged.setNode (acknowledged : Acknowledged c) {node : Node T D}
    (signed : node.signed = (c.nodes j).signed)
    (resolved : ∀ id height digest, node.proposals.get? id = some ⟨height, .resolved digest⟩ →
      (c.nodes j).proposals.get? id = some ⟨height, .resolved digest⟩) :
    Acknowledged (c.setNode j node) := by
  refine acknowledged.kept (List.Subset.refl _) (fun i => ?_) fun i id height digest found => ?_
  · rw [setNode_nodes]
    split
    · rename_i own
      rw [signed, own]
    · rfl
  · rw [setNode_nodes] at found
    split at found
    · rename_i own
      exact own ▸ resolved id height digest found
    · exact found

omit [DecidableEq T] [DecidableEq D] in
/-- A call goes on without resolving. -/
theorem Acknowledged.setProposal (acknowledged : Acknowledged c)
    (unresolved : ∀ digest, state ≠ .resolved digest) :
    Acknowledged (c.setProposal j id' ⟨height, state⟩) := by
  refine acknowledged.setNode rfl fun id height' digest found => ?_
  rw [OrderedMap.get?_insert] at found
  split at found
  · cases found
    exact absurd rfl (unresolved digest)
  · exact found

omit [DecidableEq T] [DecidableEq D] in
/-- The first digest signed for a height stays. -/
theorem signed_resolve {height' : Nat} :
    ((c.resolve j id' height digest).nodes i).signed.get? height' =
      if i = j ∧ height' = height then some (((c.nodes j).signed.get? height).getD digest)
      else (c.nodes i).signed.get? height' := by
  unfold Cluster.resolve
  split
  · rename_i before
    obtain ⟨signed, found⟩ := Option.isSome_iff_exists.mp before
    rw [Cluster.setProposal, setNode_nodes]
    by_cases own : i = j
    · subst own
      by_cases here : height' = height <;> simp [here, found]
    · simp [own]
  · rename_i unsigned
    have none : (c.nodes j).signed.get? height = none := by simpa using unsigned
    rw [setNode_nodes]
    by_cases own : i = j
    · subst own
      by_cases here : height' = height <;> simp [here, none]
    · simp [own]

omit [DecidableEq T] [DecidableEq D] in
theorem Acknowledged.resolve (acknowledged : Acknowledged c) :
    Acknowledged (c.resolve j id' height digest) where
  signed := by
    intro i height' digest' found
    rw [signed_resolve] at found
    rw [resolve_acks, ackedBy]
    split at found
    · rename_i own
      obtain ⟨rfl, rfl⟩ := own
      cases before : (c.nodes i).signed.get? height' with
      | some signed =>
        rw [before] at found
        cases found
        exact acknowledged.signed i height' signed before
      | none =>
        rw [before] at found
        cases found
        exact List.mem_append_right _ (List.mem_singleton_self _)
    · have earlier := acknowledged.signed i height' digest' found
      split
      · exact earlier
      · exact List.mem_append_left _ earlier
  resolved := by
    intro i id height' digest' found
    rw [signed_resolve]
    split
    · exact ⟨_, rfl⟩
    · rename_i other
      rw [get?_resolve] at found
      split at found
      · rename_i own
        cases found
        exact absurd ⟨own.1, rfl⟩ other
      · exact acknowledged.resolved i id height' digest' found

theorem acknowledged_step (acknowledged : Acknowledged c) (taken : step cfg c label = some c') :
    Acknowledged c' := by
  cases step_stepped taken with
  | routed => exact acknowledged.kept (List.Subset.refl _) (fun _ => rfl) fun _ _ _ _ found => found
  | forged =>
    exact acknowledged.kept (List.subset_append_left _ _) (fun _ => rfl) fun _ _ _ _ found => found
  | @ingested j directive =>
    have node (ingest : Ingest) : Acknowledged (c.setNode j { c.nodes j with ingest }) :=
      acknowledged.setNode rfl fun _ _ _ found => found
    exact ⟨(node _).signed, (node _).resolved⟩
  | delivered | subscribed | pruned | certified | raised | observed =>
    exact acknowledged.setNode rfl fun _ _ _ found => found
  | proposed =>
    refine acknowledged.setNode rfl fun id height digest found => ?_
    rw [OrderedMap.get?_insert] at found
    split at found
    · cases found
    · exact found
  | announced | postponed | retried => exact acknowledged.setProposal (by rintro _ ⟨⟩)
  | skipped | accepted | exhausted => exact acknowledged.resolve

theorem InLife.acknowledged (life : InLife cfg c) : Acknowledged c := by
  refine Reachable.preserves life ?_ fun c label c' _ acknowledged taken =>
    acknowledged_step acknowledged taken
  rintro start rfl
  exact ⟨fun _ _ _ found => (nomatch found), fun _ _ _ _ found => (nomatch found)⟩

/-- What a subscriber was told is not forgotten. -/
theorem answers_subset (taken : step cfg c label = some c') :
    (c.nodes i).answers ⊆ (c'.nodes i).answers := by
  have changed {j : Fin n} {node : Node T D} (more : (c.nodes j).answers ⊆ node.answers) :
      (c.nodes i).answers ⊆ ((c.setNode j node).nodes i).answers := by
    rw [setNode_nodes]
    split
    · rename_i own
      exact own ▸ more
    · exact List.Subset.refl _
  have resolves (j : Fin n) (id height : Nat) (digest : D) :
      (c.nodes i).answers ⊆ ((c.resolve j id height digest).nodes i).answers := by
    unfold resolve
    split <;> exact changed (List.Subset.refl _)
  cases step_stepped taken with
  | routed | forged => exact List.Subset.refl _
  | ingested | certified | raised | observed | announced | postponed | retried =>
    exact changed (List.Subset.refl _)
  | delivered | subscribed | pruned | proposed => exact changed (List.subset_append_left _ _)
  | skipped | accepted | exhausted => exact resolves _ _ _ _

omit [DecidableEq T] [DecidableEq D] in
theorem told_of_answer {subscriber : Subscriber} {answer : TaskBook.Resolution T}
    (member : (subscriber, answer) ∈ (c.nodes i).answers) :
    ∃ told, c.told i subscriber = some told := by
  rw [told]
  cases first : (c.nodes i).answers.find? (·.1 = subscriber) with
  | some answer => exact ⟨answer.2, rfl⟩
  | none =>
    have absent := List.find?_eq_none.mp first _ member
    simp at absent

/-- `max_seen` does not decrease. -/
theorem maxSeen_later (taken : step cfg c label = some c') {m : Nat}
    (seen : (c.nodes i).book.maxSeen = some m) :
    ∃ m', (c'.nodes i).book.maxSeen = some m' ∧ m ≤ m' := by
  have changed {j : Fin n} {node : Node T D}
      (more : ∀ m, (c.nodes j).book.maxSeen = some m → ∃ m', node.book.maxSeen = some m' ∧ m ≤ m') :
      ∃ m', ((c.setNode j node).nodes i).book.maxSeen = some m' ∧ m ≤ m' := by
    rw [setNode_nodes]
    split
    · rename_i own
      exact more m (own ▸ seen)
    · exact ⟨m, seen, le_rfl⟩
  have kept {j : Fin n} (m : Nat) (seen : (c.nodes j).book.maxSeen = some m) :
      ∃ m', (c.nodes j).book.maxSeen = some m' ∧ m ≤ m' := ⟨m, seen, le_rfl⟩
  have resolves (j : Fin n) (id height : Nat) (digest : D) :
      ∃ m', ((c.resolve j id height digest).nodes i).book.maxSeen = some m' ∧ m ≤ m' := by
    unfold resolve
    split <;> exact changed kept
  cases step_stepped taken with
  | routed | forged => exact ⟨m, seen, le_rfl⟩
  | ingested | certified | raised | observed | announced | postponed | retried => exact changed kept
  | @delivered _ directive =>
    exact changed fun _ seen => TaskBook.maxSeen_handle (.directive directive) seen
  | @subscribed j height | @proposed j height =>
    let subscriber : Subscriber := ⟨(c.nodes j).subscriptions, height⟩
    exact changed fun _ seen => TaskBook.maxSeen_handle (.subscribe height subscriber) seen
  | @pruned _ floor => exact changed fun _ seen => TaskBook.maxSeen_handle (.pruneBelow floor) seen
  | skipped | accepted | exhausted => exact resolves _ _ _ _

theorem now_le (taken : step cfg c label = some c') : c.router.now ≤ c'.router.now := by
  cases step_stepped taken with
  | routed routed => exact Router.step_now routed
  | skipped | accepted | exhausted => rw [resolve_router]
  | _ => exact le_rfl

end Cluster
end Restaking
