import Restaking.Cluster
import Restaking.DirectiveStream
import Restaking.ReleaseBuild
import Restaking.TaskBookOrigins

/-! The nodes agree on the task of every height, as long as the router does not assign
the last height there is. Uniqueness comes from the router, which then assigns no height
twice and announces one payload for it; the task books add nothing to what was
broadcast, however the network delivers it; and a proposal resolves to a digest of what
its task book announced, or gives up. -/
namespace Restaking.Cluster
open Lib

variable {n : Nat} {T D G S : Type*}
variable {cfg : Config n T D G S} {c c' : Cluster n T D S} {label : Label n T D S}
variable {sent sent' : List (TaskDirective T)} {i j : Fin n} {node : Node T D}

/-- The digests a node's proposal for a height may resolve to. -/
def Resolvable (cfg : Config n T D G S) (sent : List (TaskDirective T)) (i : Fin n) (height : Nat)
    (digest : D) : Prop :=
  digest = cfg.router.skip height ∨
    ∃ task, .announce height task ∈ sent ∧ cfg.validates i task digest = true

/-- A proposal validates and resolves what was announced for its height. -/
def Proposed (cfg : Config n T D G S) (sent : List (TaskDirective T)) (i : Fin n)
    (proposal : Proposal T D) : Prop :=
  match proposal.state with
  | .subscribed => True
  | .validating validation => .announce proposal.height validation.task ∈ sent
  | .sleeping validation _ => .announce proposal.height validation.task ∈ sent
  | .resolved digest => Resolvable cfg sent i proposal.height digest

/-- Everything a node holds goes back to what was broadcast. -/
structure Agreed (cfg : Config n T D G S) (sent : List (TaskDirective T)) (i : Fin n)
    (node : Node T D) : Prop where
  book : TaskBook.Filed Subscriber.height (· ∈ sent) node.book
  answers : TaskBook.Announced Subscriber.height (· ∈ sent) node.answers
  proposals : ∀ id proposal, node.proposals.get? id = some proposal → Proposed cfg sent i proposal
  signed : ∀ height digest, node.signed.get? height = some digest →
    Resolvable cfg sent i height digest

theorem Resolvable.mono {height : Nat} {digest : D} (resolvable : Resolvable cfg sent i height digest)
    (more : sent ⊆ sent') : Resolvable cfg sent' i height digest := by
  rcases resolvable with skip | ⟨task, announced, valid⟩
  · exact .inl skip
  · exact .inr ⟨task, more announced, valid⟩

theorem Proposed.mono {proposal : Proposal T D} (proposed : Proposed cfg sent i proposal)
    (more : sent ⊆ sent') : Proposed cfg sent' i proposal := by
  obtain ⟨height, state⟩ := proposal
  cases state with
  | subscribed => trivial
  | validating validation => exact more proposed
  | sleeping validation wake => exact more proposed
  | resolved digest => exact Resolvable.mono proposed more

theorem Agreed.mono (agreed : Agreed cfg sent i node) (more : sent ⊆ sent') :
    Agreed cfg sent' i node where
  book := agreed.book.mono fun _ member => more member
  answers := agreed.answers.mono fun _ member => more member
  proposals := by
    intro id proposal found
    exact (agreed.proposals id proposal found).mono more
  signed := by
    intro height digest found
    exact (agreed.signed height digest found).mono more

/-- The proposals may change one at a time. -/
theorem Agreed.insert (agreed : Agreed cfg sent i node) {id : Nat} {proposal : Proposal T D}
    (proposed : Proposed cfg sent i proposal) :
    ∀ id' proposal', (node.proposals.insert id proposal).get? id' = some proposal' →
      Proposed cfg sent i proposal' := by
  intro id' proposal' found
  rw [OrderedMap.get?_insert] at found
  split at found
  · cases found
    exact proposed
  · exact agreed.proposals id' proposal' found

private theorem agreed_setNode (agreed : ∀ j, Agreed cfg sent j (c.nodes j))
    (changed : Agreed cfg sent i node) : ∀ j, Agreed cfg sent j ((c.setNode i node).nodes j) := by
  intro j
  rw [setNode_nodes]
  split
  · rename_i same
    subst same
    exact changed
  · exact agreed j

private theorem agreed_setProposal {id : Nat} {proposal : Proposal T D}
    (agreed : ∀ j, Agreed cfg sent j (c.nodes j)) (proposed : Proposed cfg sent i proposal) :
    ∀ j, Agreed cfg sent j ((c.setProposal i id proposal).nodes j) :=
  agreed_setNode agreed { agreed i with proposals := (agreed i).insert proposed }

private theorem agreed_tell {outcome : TaskBook T Subscriber × List (TaskBook.Answer T Subscriber)}
    (agreed : ∀ j, Agreed cfg sent j (c.nodes j))
    (filed : TaskBook.Filed Subscriber.height (· ∈ sent) outcome.1)
    (announced : TaskBook.Announced Subscriber.height (· ∈ sent) outcome.2) :
    ∀ j, Agreed cfg sent j ((c.tell i outcome).nodes j) :=
  agreed_setNode agreed { agreed i with
    book := filed
    answers := (agreed i).answers.append announced }

private theorem agreed_subscribe {height : Nat} {proposals : OrderedMap Nat (Proposal T D)}
    (agreed : ∀ j, Agreed cfg sent j (c.nodes j))
    (kept : ∀ id proposal, proposals.get? id = some proposal → Proposed cfg sent i proposal) :
    ∀ j, Agreed cfg sent j ((c.subscribe i height proposals).nodes j) := by
  obtain ⟨filed, announced⟩ := (agreed i).book.handleSubscribe
    (show Subscriber.height ⟨(c.nodes i).subscriptions, height⟩ = height from rfl)
  exact agreed_setNode agreed { agreed i with
    book := filed
    answers := (agreed i).answers.append announced
    proposals := kept }

/-- Resolving a proposal signs what it resolved to, or nothing. -/
private theorem agreed_resolve {id height : Nat} {digest : D}
    (agreed : ∀ j, Agreed cfg sent j (c.nodes j)) (resolvable : Resolvable cfg sent i height digest) :
    ∀ j, Agreed cfg sent j ((c.resolve i id height digest).nodes j) := by
  have proposed : Proposed cfg sent i ⟨height, .resolved digest⟩ := resolvable
  unfold resolve
  split
  · exact agreed_setProposal agreed proposed
  · refine agreed_setNode agreed { agreed i with
      proposals := (agreed i).insert proposed
      signed := ?_ }
    intro height' digest' found
    rw [OrderedMap.get?_insert] at found
    split at found
    · rename_i same
      cases found
      exact same ▸ resolvable
    · exact (agreed i).signed height' digest' found

variable [DecidableEq T] [DecidableEq D]

/-- What was broadcast stays broadcast. -/
theorem broadcast_subset (taken : step cfg c label = some c') : c.broadcast ⊆ c'.broadcast := by
  cases step_stepped taken with
  | @routed label router routed =>
    apply List.map_subset _
    rcases Router.step_sequenced routed with kept | sequenced
    · rw [kept.sequencer]
      exact List.Subset.refl _
    · cases sequenced with
      | begun _ => exact List.subset_append_left _ _
      | announced _ _ _ _ _ => exact List.subset_append_left _ _
      | abandoned _ _ _ _ => exact List.subset_append_left _ _
      | _ => exact List.Subset.refl _
  | skipped _ _ => simp [broadcast]
  | accepted _ _ => simp [broadcast]
  | exhausted _ _ => simp [broadcast]
  | _ => exact List.Subset.refl _

/-- Every step of the deployment keeps every node within the broadcasts. -/
theorem agreed_step (agreed : ∀ j, Agreed cfg c.broadcast j (c.nodes j))
    (taken : step cfg c label = some c') : ∀ j, Agreed cfg c'.broadcast j (c'.nodes j) := by
  have more := broadcast_subset taken
  suffices kept : ∀ j, Agreed cfg c.broadcast j (c'.nodes j) by
    intro j
    exact (kept j).mono more
  have book := fun i => (agreed i).book
  cases step_stepped taken with
  | routed _ => exact agreed
  | @delivered i directive member =>
    obtain ⟨filed, announced⟩ := (book i).handleDirective member
    exact agreed_tell agreed filed announced
  | ingested _ => exact agreed_setNode agreed { agreed _ with }
  | subscribed => exact agreed_subscribe agreed (agreed _).proposals
  | @pruned i floor =>
    exact agreed_tell agreed ((book i).prune floor) fun _ _ member => by cases member
  | proposed => exact agreed_subscribe agreed ((agreed _).insert trivial)
  | @announced i id height task _ told =>
    exact agreed_setProposal agreed
      ((agreed i).answers ⟨id, height⟩ task (mem_answers_of_told told))
  | skipped _ _ => exact agreed_resolve agreed (.inl rfl)
  | @accepted i id height validation digest validating valid =>
    exact agreed_resolve agreed
      (.inr ⟨validation.task, (agreed i).proposals id _ validating, valid⟩)
  | @postponed i id height validation validation' wake validating again =>
    apply agreed_setProposal agreed
    have announced : .announce height validation.task ∈ c.broadcast :=
      (agreed i).proposals id _ validating
    rw [← Validation.afterError_task again] at announced
    exact announced
  | exhausted _ _ => exact agreed_resolve agreed (.inl rfl)
  | @retried i id height validation wake sleeping =>
    have announced : .announce height validation.task ∈ c.broadcast :=
      (agreed i).proposals id _ sleeping
    exact agreed_setProposal agreed announced
  | certified _ => exact agreed_setNode agreed { agreed _ with }
  | raised _ => exact agreed_setNode agreed { agreed _ with }
  | observed _ => exact agreed_setNode agreed { agreed _ with }
  | forged => exact agreed

omit [DecidableEq T] [DecidableEq D] in
theorem agreed_init : ∀ j, Agreed cfg (init cfg).broadcast j ((init cfg).nodes j) := by
  intro j
  constructor
  · constructor <;> simp [init]
  · intro responder task member
    cases member
  · simp [init]
  · simp [init]

/-- A state of one deployment life. -/
abbrev InLife (cfg : Config n T D G S) (c : Cluster n T D S) : Prop :=
  Reachable (· = init cfg) (step cfg) c

theorem InLife.of_exec_any (cfg : Config n T D G S) (labels : List (Label n T D S))
    (p : Cluster n T D S → Bool)
    (passed : (exec (guarded (step cfg) fun _ _ => True) (init cfg) labels).any p = true) :
    ∃ c, InLife cfg c ∧ p c = true :=
  Reachable.of_exec_any rfl passed

/-- Whatever the nodes hold at the start, the router lives as it would alone. -/
theorem router_inLife {initial : Cluster n T D S → Prop}
    (starts : ∀ c, initial c → c.router = .init cfg.router)
    (life : Reachable initial (step cfg) c) : Router.InLife cfg.router c.router := by
  let within : Cluster n T D S → Prop := fun c => Router.InLife cfg.router c.router
  suffices held : within c from held
  refine Reachable.preserves life (fun start begins => ?_) fun c label c' _ held taken => ?_
  · exact Reachable.start (starts start begins)
  · exact Reachable.next held (step_routed taken)

theorem InLife.router (life : InLife cfg c) : Router.InLife cfg.router c.router :=
  router_inLife (by rintro _ rfl; rfl) life

/-- An announcement that was broadcast is of the task assigned to its height. -/
theorem InLife.assigned {height : Nat} {task : T} (life : InLife cfg c)
    (sent : .announce height task ∈ c.broadcast) :
    ∃ call, (height, call) ∈ c.router.sequencer.assigned ∧ call.sequenced.announce = task := by
  obtain ⟨entry, member, announces⟩ := List.mem_map.mp sent
  exact (InLife.router life).assigned_of_sent member announces

/-! ## The release build -/

/-- The next height to be assigned is not the last one. -/
def Roomy (c : Cluster n T D S) (label : Label n T D S) : Prop := c.router.Roomy label.routed

instance : Decidable (Roomy c label) := inferInstanceAs (Decidable (Router.Roomy _ _))

/-- A state of one life of a deployment whose router wraps. -/
abbrev InReleaseLife (cfg : Config n T D G S) (c : Cluster n T D S) : Prop :=
  Reachable (· = init cfg) (stepWith wrapHeight cfg) c

/-- A state of such a life in which the last height has not been assigned. -/
abbrev InRoomyLife (cfg : Config n T D G S) (c : Cluster n T D S) : Prop :=
  ReachableWhere (· = init cfg) (stepWith wrapHeight cfg) Roomy c

/-- Only the router overflows. -/
theorem stepWith_wrap (taken : stepWith wrapHeight cfg c label = some c') :
    step cfg c label = some c' ∨ ∃ act router h, label = .router act ∧ 2 ^ 64 ≤ h + 1 ∧
      Router.Continued c.router h 0 act router ∧ c' = { c with router } := by
  cases label with
  | router act =>
    obtain ⟨router, routed, rfl⟩ := Option.map_eq_some_iff.mp taken
    rcases Router.stepWith_wrap routed with checked | ⟨h, last, continued⟩
    · exact .inl (Option.map_eq_some_iff.mpr ⟨router, checked, rfl⟩)
    · exact .inr ⟨act, router, h, rfl, last, continued, rfl⟩
  | _ => exact .inl taken

/-- The step adds 1 to no last height. -/
def Bounded (cfg : Config n T D G S) (c : Cluster n T D S) (label : Label n T D S) : Prop :=
  c.router.Bounded cfg.router label.routed

/-- The overflow checks stop exactly the steps that add 1 to a last height. -/
theorem step_iff_bounded : step cfg c label = some c' ↔
    stepWith wrapHeight cfg c label = some c' ∧ Bounded cfg c label := by
  cases label with
  | router act =>
    constructor
    · intro checked
      obtain ⟨router, routed, rfl⟩ := Option.map_eq_some_iff.mp checked
      obtain ⟨taken, bounded⟩ := Router.step_iff_bounded.mp routed
      exact ⟨Option.map_eq_some_iff.mpr ⟨router, taken, rfl⟩, bounded⟩
    · rintro ⟨taken, bounded⟩
      obtain ⟨router, routed, rfl⟩ := Option.map_eq_some_iff.mp taken
      exact Option.map_eq_some_iff.mpr
        ⟨router, Router.step_iff_bounded.mpr ⟨routed, bounded⟩, rfl⟩
  | _ => exact (and_iff_left (Router.bounded_elapse 0)).symm

/-- So a life that passes the overflow checks is one in which the last height is not
assigned. -/
theorem InLife.roomy (life : InLife cfg c) : InRoomyLife cfg c := by
  obtain ⟨start, labels, begins, run⟩ := life
  refine ⟨start, labels, begins, run.transfer fun _ _ _ _ taken => ?_⟩
  obtain ⟨taken, bounded⟩ := step_iff_bounded.mp taken
  exact ⟨Router.Bounded.roomy bounded, taken⟩

theorem InReleaseLife.agreed (life : InReleaseLife cfg c) :
    ∀ j, Agreed cfg c.broadcast j (c.nodes j) := by
  let within : Cluster n T D S → Prop := fun c => ∀ j, Agreed cfg c.broadcast j (c.nodes j)
  suffices held : within c from held
  refine Reachable.preserves life ?_ fun c label c' _ held taken => ?_
  · rintro start rfl
    exact agreed_init
  · rcases stepWith_wrap taken with checked | ⟨act, router, h, rfl, -, continued, rfl⟩
    · exact agreed_step held checked
    · have same : broadcast { c with router } = c.broadcast :=
        congrArg (List.map Prod.snd) continued.sent
      intro j
      rw [same]
      exact held j

theorem InLife.agreed (life : InLife cfg c) : ∀ j, Agreed cfg c.broadcast j (c.nodes j) :=
  InReleaseLife.agreed (InLife.roomy life).reachable

theorem InRoomyLife.serial (life : InRoomyLife cfg c) : Router.Serial c.router.sequencer := by
  let within : Cluster n T D S → Prop := fun c => Router.Serial c.router.sequencer
  suffices held : within c from held
  refine ReachableWhere.preserves life ?_ fun c label c' _ held roomy taken => ?_
  · rintro start rfl
    exact Router.Serial.init
  · rcases stepWith_wrap taken with checked | ⟨act, router, h, rfl, last, continued, rfl⟩
    · exact held.checked (step_routed checked)
    · exact held.wrapped roomy last continued

/-- **Task agreement.** In every run of one router life in which the last height is
not assigned, whatever the network and the subscribers do, the tasks that
subscribers of a height are told are one and the same at all nodes, the announce
view of the task assigned to the height; and a proposal resolves to the skip digest
or to a digest its own validator returned for that view. -/
theorem announced_tasks_agree (life : InRoomyLife cfg c) :
    (∀ i j first second task task', (first, .announce task) ∈ (c.nodes i).answers →
      (second, .announce task') ∈ (c.nodes j).answers → first.height = second.height →
        task = task') ∧
      (∀ i subscriber task, (subscriber, .announce task) ∈ (c.nodes i).answers →
        ∃ call, (subscriber.height, call) ∈ c.router.sequencer.assigned ∧
          call.sequenced.announce = task) ∧
      ∀ i id height digest, (c.nodes i).proposals.get? id = some ⟨height, .resolved digest⟩ →
        digest = cfg.router.skip height ∨ ∃ call,
          (height, call) ∈ c.router.sequencer.assigned ∧
            cfg.validates i call.sequenced.announce digest = true := by
  have agreed := InReleaseLife.agreed life.reachable
  have serial := life.serial
  have issued : ∀ height task, .announce height task ∈ c.broadcast →
      ∃ call, (height, call) ∈ c.router.sequencer.assigned ∧ call.sequenced.announce = task := by
    intro height task sent
    obtain ⟨entry, member, announces⟩ := List.mem_map.mp sent
    exact serial.issued entry member height task announces
  have assigned : ∀ i subscriber task, (subscriber, .announce task) ∈ (c.nodes i).answers →
      ∃ call, (subscriber.height, call) ∈ c.router.sequencer.assigned ∧
        call.sequenced.announce = task := by
    intro i subscriber task told
    exact issued _ _ ((agreed i).answers subscriber task told)
  refine ⟨?_, assigned, ?_⟩
  · intro i j first second task task' told told' same
    obtain ⟨call, member, view⟩ := assigned i first task told
    obtain ⟨call', member', view'⟩ := assigned j second task' told'
    have one := serial.assigned_unique member member' same
    obtain rfl : call = call' := congrArg Prod.snd one
    exact view.symm.trans view'
  · intro i id height digest resolved
    rcases (agreed i).proposals id _ resolved with skip | ⟨task, sent, valid⟩
    · exact .inl skip
    · obtain ⟨call, member, view⟩ := issued height task sent
      exact .inr ⟨call, member, view ▸ valid⟩

/-- One node proposes height 0 after the announcement reached it; another learns of
it while its subscription is parked. -/
theorem two_nodes_told_one_task : ∃ c : Cluster 4 Nat Nat Unit,
    (∃ id, (⟨id, 0⟩, .announce 10) ∈ (c.nodes 0).answers) ∧
      (∃ id, (⟨id, 0⟩, .announce 10) ∈ (c.nodes 1).answers) ∧
      ∀ i subscriber task, (subscriber, .announce task) ∈ (c.nodes i).answers →
        ∃ call, (subscriber.height, call) ∈ c.router.sequencer.assigned ∧
          call.sequenced.announce = task := by
  let labels : List (Label 4 Nat Nat Unit) := operatorsAssign 10 1 ++
    [.deliver 0 (.announce 0 10), .propose 0 0, .propose 1 0, .deliver 1 (.announce 0 10)]
  let told (c : Cluster 4 Nat Nat Unit) : Bool :=
    (⟨0, 0⟩, .announce 10) ∈ (c.nodes 0).answers ∧ (⟨0, 0⟩, .announce 10) ∈ (c.nodes 1).answers
  have ran : (exec (guarded (stepWith wrapHeight (operators 3)) Roomy) (init (operators 3))
      labels).any told = true := by
    decide +kernel
  obtain ⟨c, life, reached⟩ : ∃ c, InRoomyLife (operators 3) c ∧ told c = true :=
    ReachableWhere.of_exec_any rfl ran
  obtain ⟨first, second⟩ := of_decide_eq_true reached
  exact ⟨c, ⟨0, first⟩, ⟨0, second⟩, (announced_tasks_agree life).2.1⟩

section Examples

/-- Two participants report the last height, at which the router assigns a task. -/
def assignsLast : List (Router.Label Nat Nat (Fin 4) Unit) :=
  [.message 0 (some (.tipReport (2 ^ 64 - 1))), .message 1 (some (.tipReport (2 ^ 64 - 1))),
    .elapse settleDelay, .sequence, .report, .sequence, .sequence,
    .task (some ⟨10, 10, 1⟩), .sequence, .report, .sequence, .sequence, .sequence]

/-- The last height is certified with the digest of that task and submitted. -/
def certifiesLast : List (Router.Label Nat Nat (Fin 4) Unit) :=
  [.activity (.certified ⟨2 ^ 64 - 1, 1, ⟨[true, true, true, false], ()⟩⟩), .report, .receive,
    .look, .attempt true, .outcome (some (some true)), .resolution, .sequence, .sequence]

/-- The next task is assigned and announced. -/
def assignsAgain : List (Router.Label Nat Nat (Fin 4) Unit) :=
  [.task (some ⟨20, 20, 2⟩), .sequence, .report, .sequence, .sequence, .sequence]

end Examples

/-- The last height is assigned twice, and two nodes are told different tasks. -/
theorem last_height_assigned_again : ∃ c : Cluster 4 Nat Nat Unit,
    InReleaseLife (operators 3) c ∧ ∃ first second : Subscriber,
      (first, .announce 10) ∈ (c.nodes 0).answers ∧ (second, .announce 20) ∈ (c.nodes 1).answers ∧
        first.height = second.height := by
  let labels : List (Label 4 Nat Nat Unit) :=
    (assignsLast ++ certifiesLast ++ assignsAgain).map .router ++
      [.deliver 0 (.announce (2 ^ 64 - 1) 10), .subscribe 0 (2 ^ 64 - 1),
        .deliver 1 (.announce (2 ^ 64 - 1) 20), .subscribe 1 (2 ^ 64 - 1)]
  let told (c : Cluster 4 Nat Nat Unit) : Bool :=
    (⟨0, 2 ^ 64 - 1⟩, .announce 10) ∈ (c.nodes 0).answers ∧
      (⟨0, 2 ^ 64 - 1⟩, .announce 20) ∈ (c.nodes 1).answers
  have ran : (exec (guarded (stepWith wrapHeight (operators 3)) fun _ _ => True)
      (init (operators 3)) labels).any told = true := by
    decide +kernel
  obtain ⟨c, life, reached⟩ : ∃ c, InReleaseLife (operators 3) c ∧ told c = true :=
    Reachable.of_exec_any rfl ran
  obtain ⟨first, second⟩ := of_decide_eq_true reached
  exact ⟨c, life, _, _, first, second, rfl⟩

end Restaking.Cluster
