import Mathlib.Data.Fintype.Card
import Mathlib.Data.Fin.Basic
import Mathlib.Logic.Function.Basic
import Restaking.Automaton
import Restaking.RouterSteps
import Restaking.TaskBook
import Restaking.TipMirror

/-! The router and the nodes of its operators, joined by a network that loses,
repeats and reorders. A node is its task book, its automaton, its engine and its
reporter; the engine itself is the environment's. Whatever the router has
broadcast can reach any node at any time, any number of times or never, and so
can the acks and tip reports that nodes have sent. -/
namespace Restaking
open Lib

namespace Cluster

/-- A subscriber of a node's task book. -/
structure Subscriber where
  id : Nat
  height : Nat
  deriving DecidableEq

/-- A signature that a node sent to its peers and to the router. -/
structure Ack (n : Nat) (D : Type*) where
  signer : Fin n
  height : Nat
  digest : D
  deriving DecidableEq

structure Node (T D : Type*) where
  book : TaskBook T Subscriber := {}
  /-- The subscriptions made so far. -/
  subscriptions : Nat := 0
  /-- Record: what subscribers were told. -/
  answers : List (TaskBook.Answer T Subscriber) := []
  /-- The calls of `propose` by the subscription each made. -/
  proposals : OrderedMap Nat (Proposal T D) := .empty
  /-- The digest the engine signed for each height: the first that `propose`
  resolved to. -/
  signed : OrderedMap Nat D := .empty
  engine : TipMirror.Engine := { tip := 0, certified := [] }
  /-- The mailbox of the reporter. -/
  activities : List (Activity D Unit) := []
  reporter : NodeReporter := {}
  ingest : Ingest := {}

/-- The deployment. -/
structure Config (n : Nat) (T D G S : Type*) where
  router : Router.Config D (Fin n) G S
  sized : router.scheme.participants = List.finRange n
  /-- The digests that an operator's validator can return for a task. -/
  validates : Fin n → T → D → Bool
  retryBudget : Nat
  window : Nat
  minReportInterval : Nat

inductive Label (n : Nat) (T D S : Type*) where
  /-- A step of the router. -/
  | router (label : Router.Label T D (Fin n) S)
  /-- A node's task book handles a directive that was broadcast. -/
  | deliver (node : Fin n) (directive : TaskDirective T)
  /-- A node's intake handles a directive that was broadcast. -/
  | ingest (node : Fin n) (directive : TaskDirective T)
  /-- A subscription that no proposal made. -/
  | subscribe (node : Fin n) (height : Nat)
  /-- The task book handles a request to prune. -/
  | prune (node : Fin n) (floor : Nat)
  /-- The engine calls `propose`. -/
  | propose (node : Fin n) (height : Nat)
  /-- A proposal reads what its subscription was told. -/
  | resume (node : Fin n) (id : Nat)
  /-- The validator returns. -/
  | validated (node : Fin n) (id : Nat) (result : Option D)
  /-- The sleep before the next validation ends. -/
  | retry (node : Fin n) (id : Nat)
  /-- The node's engine assembles a certificate. -/
  | certify (node : Fin n) (height : Nat) (digest : D)
  /-- The node's engine moves its tip. -/
  | raise (node : Fin n) (tip : Nat)
  /-- The node's reporter handles its next activity. -/
  | observe (node : Fin n)
  /-- A node sends an ack that its engine did not sign. -/
  | forge (node : Fin n) (height : Nat) (digest : D)

end Cluster

/-- The state of the deployment. -/
structure Cluster (n : Nat) (T D S : Type*) where
  router : Router T D (Fin n) S
  nodes : Fin n → Cluster.Node T D
  /-- Every ack sent so far. -/
  acks : List (Cluster.Ack n D) := []
  /-- Every tip report sent so far. -/
  reports : List (Fin n × Nat) := []

namespace Cluster

variable {n : Nat} {T D G S : Type*}

/-- Every node starts afresh. -/
def init (cfg : Config n T D G S) : Cluster n T D S :=
  { router := .init cfg.router, nodes := fun _ => {} }

/-- The directives the router has broadcast. -/
def broadcast (c : Cluster n T D S) : List (TaskDirective T) :=
  c.router.sequencer.sent.map Prod.snd

/-- One node's state changes. -/
def setNode (c : Cluster n T D S) (i : Fin n) (node : Node T D) : Cluster n T D S :=
  { c with nodes := Function.update c.nodes i node }

/-- A proposal changes its state. -/
def setProposal (c : Cluster n T D S) (i : Fin n) (id : Nat) (proposal : Proposal T D) :
    Cluster n T D S :=
  c.setNode i { c.nodes i with proposals := (c.nodes i).proposals.insert id proposal }

/-- A proposal resolves: the engine signs the digest and sends its ack, unless
the height is signed already. -/
def resolve (c : Cluster n T D S) (i : Fin n) (id height : Nat) (digest : D) : Cluster n T D S :=
  if ((c.nodes i).signed.get? height).isSome then
    c.setProposal i id ⟨height, .resolved digest⟩
  else
    { c.setNode i { c.nodes i with
        proposals := (c.nodes i).proposals.insert id ⟨height, .resolved digest⟩
        signed := (c.nodes i).signed.insert height digest } with
      acks := c.acks ++ [⟨i, height, digest⟩] }

/-- The task book handles a message and its subscribers learn the answers. -/
def tell (c : Cluster n T D S) (i : Fin n) (outcome : TaskBook T Subscriber ×
    List (TaskBook.Answer T Subscriber)) : Cluster n T D S :=
  c.setNode i { c.nodes i with
    book := outcome.1
    answers := (c.nodes i).answers ++ outcome.2 }

/-- `task_book.subscribe(height)`, by a proposal or by anyone else. -/
def subscribe (c : Cluster n T D S) (i : Fin n) (height : Nat) (proposals :
    OrderedMap Nat (Proposal T D)) : Cluster n T D S :=
  let outcome := (c.nodes i).book.handleSubscribe height ⟨(c.nodes i).subscriptions, height⟩
  c.setNode i { c.nodes i with
    book := outcome.1
    answers := (c.nodes i).answers ++ outcome.2
    subscriptions := (c.nodes i).subscriptions + 1
    proposals }

/-- What a subscription was told. -/
def told (c : Cluster n T D S) (i : Fin n) (subscriber : Subscriber) :
    Option (TaskBook.Resolution T) :=
  ((c.nodes i).answers.find? (·.1 = subscriber)).map Prod.snd

/-- `resolve` after the subscription was answered. -/
def resume (cfg : Config n T D G S) (c : Cluster n T D S) (i : Fin n) (id : Nat) :
    Option (Cluster n T D S) :=
  match (c.nodes i).proposals.get? id with
  | some ⟨height, .subscribed⟩ =>
    match c.told i ⟨id, height⟩ with
    | some .skip => some (c.resolve i id height (cfg.router.skip height))
    | some (.announce task) =>
      some (c.setProposal i id ⟨height, .validating (.begin c.router.now cfg.retryBudget task)⟩)
    | none => none
  | _ => none

/-- The loop of `digest_for_announce` after the validator returned. -/
def validated (cfg : Config n T D G S) (c : Cluster n T D S) (i : Fin n) (id : Nat)
    (result : Option D) : Option (Cluster n T D S) :=
  match (c.nodes i).proposals.get? id with
  | some ⟨height, .validating validation⟩ =>
    match result with
    | some digest =>
      if cfg.validates i validation.task digest then some (c.resolve i id height digest) else none
    | none =>
      match validation.afterError c.router.now with
      | some (validation, wake) =>
        some (c.setProposal i id ⟨height, .sleeping validation wake⟩)
      | none => some (c.resolve i id height (cfg.router.skip height))
  | _ => none

/-- The next turn of the loop. -/
def retry (c : Cluster n T D S) (i : Fin n) (id : Nat) : Option (Cluster n T D S) :=
  match (c.nodes i).proposals.get? id with
  | some ⟨height, .sleeping validation wake⟩ =>
    if wake ≤ c.router.now then
      some (c.setProposal i id ⟨height, .validating validation⟩)
    else none
  | _ => none

/-- The router's part in a step; the rest of the deployment moves without it. -/
def Label.routed : Label n T D S → Router.Label T D (Fin n) S
  | .router label => label
  | _ => .elapse 0

/-- One message of the intake. -/
def ingest (cfg : Config n T D G S) (c : Cluster n T D S) (i : Fin n)
    (directive : TaskDirective T) : Cluster n T D S :=
  let outcome := (c.nodes i).ingest.handle () () cfg.window cfg.minReportInterval c.router.now
    (c.nodes i).reporter.tipHandle (some directive)
  { c.setNode i { c.nodes i with ingest := outcome.1 } with
    reports := c.reports ++ outcome.2.report.toList.map fun tip => (i, tip) }

variable [DecidableEq T] [DecidableEq D]

/-- One step of the deployment, whose router adds 1 to a height by `succ`. -/
def stepWith (succ : Nat → Option Nat) (cfg : Config n T D G S) (c : Cluster n T D S) :
    Label n T D S → Option (Cluster n T D S)
  | .router label => (c.router.stepWith succ cfg.router label).map fun router => { c with router }
  | .deliver i directive =>
    if directive ∈ c.broadcast then
      some (c.tell i ((c.nodes i).book.handleDirective directive))
    else none
  | .ingest i directive =>
    if directive ∈ c.broadcast then some (c.ingest cfg i directive) else none
  | .subscribe i height => some (c.subscribe i height (c.nodes i).proposals)
  | .prune i floor => some (c.tell i ((c.nodes i).book.prune floor, []))
  | .propose i height =>
    some (c.subscribe i height
      ((c.nodes i).proposals.insert (c.nodes i).subscriptions { height }))
  | .resume i id => c.resume cfg i id
  | .validated i id result => c.validated cfg i id result
  | .retry i id => c.retry i id
  | .certify i height digest =>
    if height ∈ (c.nodes i).engine.certified then none
    else some (c.setNode i { c.nodes i with
      engine := { (c.nodes i).engine with certified := height :: (c.nodes i).engine.certified }
      activities := (c.nodes i).activities ++ [.certified ⟨height, digest, ()⟩] })
  | .raise i tip =>
    if tip ≤ (c.nodes i).engine.tip then none
    else some (c.setNode i { c.nodes i with
      engine := { (c.nodes i).engine with tip }
      activities := (c.nodes i).activities ++ [.tip tip] })
  | .observe i =>
    match (c.nodes i).activities with
    | [] => none
    | activity :: activities => some (c.setNode i { c.nodes i with
        activities
        reporter := ((c.nodes i).reporter.handle cfg.router.skip activity).1 })
  | .forge i height digest => some { c with acks := c.acks ++ [⟨i, height, digest⟩] }

/-- One step of the deployment, with overflow checks. -/
abbrev step (cfg : Config n T D G S) (c : Cluster n T D S) (label : Label n T D S) :
    Option (Cluster n T D S) :=
  stepWith succHeight cfg c label

/-- What a step of the deployment can do. -/
inductive Stepped (cfg : Config n T D G S) (c : Cluster n T D S) :
    Label n T D S → Cluster n T D S → Prop where
  | routed {label router} : c.router.step cfg.router label = some router →
      Stepped cfg c (.router label) { c with router }
  | delivered {i directive} : directive ∈ c.broadcast → Stepped cfg c (.deliver i directive)
      (c.tell i ((c.nodes i).book.handleDirective directive))
  | ingested {i directive} : directive ∈ c.broadcast →
      Stepped cfg c (.ingest i directive) (c.ingest cfg i directive)
  | subscribed {i height} : Stepped cfg c (.subscribe i height)
      (c.subscribe i height (c.nodes i).proposals)
  | pruned {i floor} : Stepped cfg c (.prune i floor) (c.tell i ((c.nodes i).book.prune floor, []))
  | proposed {i height} : Stepped cfg c (.propose i height) (c.subscribe i height
      ((c.nodes i).proposals.insert (c.nodes i).subscriptions { height }))
  | announced {i id height task} : (c.nodes i).proposals.get? id = some ⟨height, .subscribed⟩ →
      c.told i ⟨id, height⟩ = some (.announce task) → Stepped cfg c (.resume i id)
        (c.setProposal i id ⟨height, .validating (.begin c.router.now cfg.retryBudget task)⟩)
  | skipped {i id height} : (c.nodes i).proposals.get? id = some ⟨height, .subscribed⟩ →
      c.told i ⟨id, height⟩ = some .skip → Stepped cfg c (.resume i id)
        (c.resolve i id height (cfg.router.skip height))
  | accepted {i id height validation digest} :
      (c.nodes i).proposals.get? id = some ⟨height, .validating validation⟩ →
      cfg.validates i validation.task digest = true →
      Stepped cfg c (.validated i id (some digest)) (c.resolve i id height digest)
  | postponed {i id height validation validation' wake} :
      (c.nodes i).proposals.get? id = some ⟨height, .validating validation⟩ →
      validation.afterError c.router.now = some (validation', wake) →
      Stepped cfg c (.validated i id none) (c.setProposal i id ⟨height, .sleeping validation' wake⟩)
  | exhausted {i id height validation} :
      (c.nodes i).proposals.get? id = some ⟨height, .validating validation⟩ →
      validation.afterError c.router.now = none →
      Stepped cfg c (.validated i id none) (c.resolve i id height (cfg.router.skip height))
  | retried {i id height validation wake} :
      (c.nodes i).proposals.get? id = some ⟨height, .sleeping validation wake⟩ →
      Stepped cfg c (.retry i id) (c.setProposal i id ⟨height, .validating validation⟩)
  | certified {i height digest} : height ∉ (c.nodes i).engine.certified →
      Stepped cfg c (.certify i height digest) (c.setNode i { c.nodes i with
        engine := { (c.nodes i).engine with
          certified := height :: (c.nodes i).engine.certified }
        activities := (c.nodes i).activities ++ [.certified ⟨height, digest, ()⟩] })
  | raised {i tip} : (c.nodes i).engine.tip < tip →
      Stepped cfg c (.raise i tip) (c.setNode i { c.nodes i with
        engine := { (c.nodes i).engine with tip }
        activities := (c.nodes i).activities ++ [.tip tip] })
  | observed {i activity activities} : (c.nodes i).activities = activity :: activities →
      Stepped cfg c (.observe i) (c.setNode i { c.nodes i with
        activities
        reporter := ((c.nodes i).reporter.handle cfg.router.skip activity).1 })
  | forged {i height digest} : Stepped cfg c (.forge i height digest)
      { c with acks := c.acks ++ [⟨i, height, digest⟩] }

variable {cfg : Config n T D G S} {c c' : Cluster n T D S} {label : Label n T D S}
variable {i : Fin n} {id : Nat}

omit [DecidableEq T] [DecidableEq D] in
theorem mem_answers_of_told {subscriber : Subscriber} {resolution : TaskBook.Resolution T}
    (told : c.told i subscriber = some resolution) :
    (subscriber, resolution) ∈ (c.nodes i).answers := by
  obtain ⟨answer, first, rfl⟩ := Option.map_eq_some_iff.mp told
  have named : answer.1 = subscriber := by simpa using List.find?_some first
  subst named
  exact List.mem_of_find?_eq_some first

private theorem resumed (taken : c.resume cfg i id = some c') :
    Stepped cfg c (.resume i id) c' := by
  unfold resume at taken
  split at taken
  · rename_i subscribed
    split at taken <;> cases taken
    · exact .skipped subscribed ‹_›
    · exact .announced subscribed ‹_›
  · cases taken

private theorem validatedCases {result : Option D} (taken : c.validated cfg i id result = some c') :
    Stepped cfg c (.validated i id result) c' := by
  unfold validated at taken
  split at taken
  · rename_i validating
    split at taken
    · obtain ⟨valid, ⟨⟩⟩ := Option.ite_none_right_eq_some.mp taken
      exact .accepted validating valid
    · split at taken <;> cases taken
      · exact .postponed validating ‹_›
      · exact .exhausted validating ‹_›
  · cases taken

/-- A step is one of these. -/
theorem step_stepped (taken : step cfg c label = some c') : Stepped cfg c label c' := by
  cases label with
  | router label =>
    obtain ⟨router, routed, ⟨⟩⟩ := Option.map_eq_some_iff.mp taken
    exact .routed routed
  | deliver i directive =>
    obtain ⟨sent, ⟨⟩⟩ := Option.ite_none_right_eq_some.mp taken
    exact .delivered sent
  | ingest i directive =>
    obtain ⟨sent, ⟨⟩⟩ := Option.ite_none_right_eq_some.mp taken
    exact .ingested sent
  | subscribe i height =>
    cases taken
    exact .subscribed
  | prune i floor =>
    cases taken
    exact .pruned
  | propose i height =>
    cases taken
    exact .proposed
  | resume i id => exact resumed taken
  | validated i id result => exact validatedCases taken
  | retry i id =>
    simp only [stepWith, retry] at taken
    split at taken
    · obtain ⟨-, ⟨⟩⟩ := Option.ite_none_right_eq_some.mp taken
      exact .retried ‹_›
    · cases taken
  | certify i height digest =>
    obtain ⟨fresh, ⟨⟩⟩ := Option.ite_none_left_eq_some.mp taken
    exact .certified fresh
  | raise i tip =>
    obtain ⟨higher, ⟨⟩⟩ := Option.ite_none_left_eq_some.mp taken
    exact .raised (not_le.mp higher)
  | observe i =>
    simp only [stepWith] at taken
    split at taken <;> cases taken
    exact .observed ‹_›
  | forge i height digest =>
    cases taken
    exact .forged

omit [DecidableEq T] [DecidableEq D] in
@[simp] theorem setNode_nodes {node : Node T D} {j : Fin n} :
    (c.setNode i node).nodes j = if j = i then node else c.nodes j :=
  Function.update_apply _ _ _ _

omit [DecidableEq T] [DecidableEq D] in
@[simp] theorem resolve_router {height : Nat} {digest : D} :
    (c.resolve i id height digest).router = c.router := by
  unfold resolve
  split <;> rfl

theorem step_routed (taken : step cfg c label = some c') :
    Router.step cfg.router c.router label.routed = some c'.router := by
  cases step_stepped taken with
  | routed routed => exact routed
  | skipped | accepted | exhausted =>
    rw [resolve_router]
    rfl
  | _ => rfl

section Examples

/-- A deployment whose certificates all verify and whose validators compute a
tenth of the task. -/
def operators (n : Nat) : Config (n + 1) Nat Nat Unit Unit where
  router := {
    sha256 := List.length
    namespaceBytes := []
    scheme := {
      participants := List.finRange (n + 1)
      g1Keys := List.replicate (n + 1) ()
      distinct := List.nodup_finRange _
      nonempty := by simp
      aligned := by simp
      aggregateVerify := fun _ _ _ => true }
    roundTimeout := 10
    rebroadcastInterval := 1 }
  sized := rfl
  validates := fun _ task digest => digest = task / 10
  retryBudget := 0
  window := 8
  minReportInterval := 0

/-- The router starts, takes a task, assigns it to the next height and announces
it. -/
def operatorsAssign {n : Nat} (task digest : Nat) : List (Label n Nat Nat Unit) :=
  ([.elapse settleDelay, .sequence, .report, .sequence, .sequence,
    .task (some ⟨task, task, digest⟩), .sequence, .report, .sequence, .sequence,
    .sequence] : List (Router.Label Nat Nat (Fin n) Unit)).map .router

end Examples

end Cluster
end Restaking
