import Restaking.Cluster
import Restaking.RetryBudget

/-! A whole call of `digest_for_announce` is a schedule of the deployment: whatever the
validator answers and however late it and the wake-ups are, the deployment has steps
that make the same calls and send the engine the same digest. -/
namespace Restaking

/-- The turn's durations are whole milliseconds, as all times of the deployment are. -/
def Turn.WholeMillis {D : Type*} (turn : Turn D) : Prop :=
  ∃ elapsed delay, turn.elapsed = fromMillis elapsed ∧ turn.delay = fromMillis delay

theorem fromMillis_add (m n : Nat) : fromMillis (m + n) = fromMillis m + fromMillis n :=
  Nat.add_mul m n _

section Turns

variable {T : Type*} {validation validation' : Validation T} {now wake : Nat} {backoff : Backoff}

theorem not_within (same : backoff.length = fromMillis validation.backoff)
    (spent : validation.afterError now = none) :
    ¬ fromMillis now + backoff.length < fromMillis validation.deadline := by
  have turn := @afterError_fromMillis _ validation now _ same
  rwa [spent] at turn

theorem next_turn (same : backoff.length = fromMillis validation.backoff)
    (again : validation.afterError now = some (validation', wake)) :
    fromMillis now + backoff.length < fromMillis validation.deadline ∧
      wake = now + validation.backoff ∧ backoff.double.length = fromMillis validation'.backoff ∧
      validation'.deadline = validation.deadline := by
  have turn := @afterError_fromMillis _ validation now _ same
  simp only [again] at turn
  obtain ⟨within, wakes, doubled, deadline⟩ := turn
  refine ⟨within, ?_, doubled, deadline⟩
  rw [same, ← fromMillis_add] at wakes
  exact (Nat.eq_of_mul_eq_mul_right (by decide) wakes).symm

end Turns

namespace Cluster

open Lib

variable {n : Nat} {T D G S : Type*} {cfg : Config n T D G S} {c : Cluster n T D S}
variable {i : Fin n} {id height wake : Nat} {digest : D} {proposal : Proposal T D}
variable {validation validation' : Validation T}

/-- Time passes. -/
def elapse (c : Cluster n T D S) (duration : Nat) : Cluster n T D S :=
  { c with router := { c.router with now := c.router.now + duration } }

/-- The result of the validator that a step takes. -/
def called : Label n T D S → Option (Option D)
  | .validated _ _ result => some result
  | _ => none

/-- The acks once a proposal has resolved: a height is signed once. -/
def ackedBy (c : Cluster n T D S) (i : Fin n) (height : Nat) (digest : D) : List (Ack n D) :=
  if ((c.nodes i).signed.get? height).isSome then c.acks else c.acks ++ [⟨i, height, digest⟩]

@[simp] theorem setProposal_get? :
    ((c.setProposal i id proposal).nodes i).proposals.get? id = some proposal := by
  simp [setProposal]

@[simp] theorem ackedBy_setProposal :
    (c.setProposal i id proposal).ackedBy i height digest = c.ackedBy i height digest := by
  simp [ackedBy, setProposal, setNode]

theorem resolve_get? : ((c.resolve i id height digest).nodes i).proposals.get? id =
    some ⟨height, .resolved digest⟩ := by
  unfold resolve
  split
  · exact setProposal_get?
  · simp [setNode]

theorem resolve_acks : (c.resolve i id height digest).acks = c.ackedBy i height digest := by
  unfold resolve ackedBy
  split <;> rfl

variable [DecidableEq T] [DecidableEq D]

theorem step_elapse (duration : Nat) :
    step cfg c (.router (.elapse duration)) = some (c.elapse duration) := rfl

/-- A step after some time. -/
theorem exec_elapse {duration : Nat} {label : Label n T D S} {c' : Cluster n T D S}
    (taken : step cfg (c.elapse duration) label = some c') :
    exec (step cfg) c [.router (.elapse duration), label] = some c' := by
  rw [exec, step_elapse, Option.bind_some, exec, taken]
  rfl

omit [DecidableEq T] [DecidableEq D] in
theorem fromMillis_elapse (duration : Nat) : fromMillis (c.elapse duration).router.now =
    fromMillis c.router.now + fromMillis duration := fromMillis_add _ _

theorem step_returned (waiting : (c.nodes i).proposals.get? id = some ⟨height, .validating validation⟩)
    (valid : cfg.validates i validation.task digest = true) :
    step cfg c (.validated i id (some digest)) = some (c.resolve i id height digest) := by
  show c.validated cfg i id (some digest) = _
  rw [validated, waiting]
  exact if_pos valid

theorem step_failed (waiting : (c.nodes i).proposals.get? id = some ⟨height, .validating validation⟩)
    (again : validation.afterError c.router.now = some (validation', wake)) :
    step cfg c (.validated i id none) =
      some (c.setProposal i id ⟨height, .sleeping validation' wake⟩) := by
  show c.validated cfg i id none = _
  simp only [validated, waiting, again]

theorem step_spent (waiting : (c.nodes i).proposals.get? id = some ⟨height, .validating validation⟩)
    (spent : validation.afterError c.router.now = none) :
    step cfg c (.validated i id none) = some (c.resolve i id height (cfg.router.skip height)) := by
  show c.validated cfg i id none = _
  simp only [validated, waiting, spent]

theorem step_retry
    (sleeping : (c.nodes i).proposals.get? id = some ⟨height, .sleeping validation wake⟩)
    (due : wake ≤ c.router.now) :
    step cfg c (.retry i id) = some (c.setProposal i id ⟨height, .validating validation⟩) := by
  show c.retry i id = _
  rw [retry, sleeping]
  exact if_pos due

/-- The loop from any of its turns on. -/
theorem resolveFrom_scheduled {deadline now : Nat} {turns : Nat → Turn D} {backoff : Backoff}
    (whole : ∀ k, (turns k).WholeMillis)
    (valid : ∀ k digest, (turns k).result = some digest →
      cfg.validates i validation.task digest = true)
    (clock : now = fromMillis c.router.now) (ends : deadline = fromMillis validation.deadline)
    (same : backoff.length = fromMillis validation.backoff)
    (waiting : (c.nodes i).proposals.get? id = some ⟨height, .validating validation⟩) :
    let resolving := resolveFrom (cfg.router.skip height) deadline turns now backoff
    ∃ labels c', exec (step cfg) c labels = some c' ∧ labels.filterMap called = resolving.calls ∧
      (c'.nodes i).proposals.get? id = some ⟨height, .resolved resolving.digest⟩ ∧
      c'.acks = c.ackedBy i height resolving.digest := by
  fun_induction resolveFrom (cfg.router.skip height) deadline turns now backoff
    generalizing c validation with
  | case1 turns now backoff digest found =>
    obtain ⟨elapsed, delay, took, -⟩ := whole 0
    have returned : step cfg (c.elapse elapsed) (.validated i id (some digest)) =
        some ((c.elapse elapsed).resolve i id height digest) :=
      step_returned waiting (valid 0 digest found)
    exact ⟨[.router (.elapse elapsed), .validated i id (some digest)],
      (c.elapse elapsed).resolve i id height digest, exec_elapse returned, rfl, resolve_get?,
      resolve_acks⟩
  | case2 turns now backoff failing failed within =>
    rename_i rest ih
    obtain ⟨elapsed, delay, took, late⟩ := whole 0
    have stopped : failed = fromMillis (c.elapse elapsed).router.now := by
      rw [fromMillis_elapse, ← clock, ← took]
    rw [stopped, ends] at within
    cases again : validation.afterError (c.elapse elapsed).router.now with
    | none => exact absurd within (not_within same again)
    | some next =>
      obtain ⟨validation', wake⟩ := next
      obtain ⟨-, wakes, doubled, deadline'⟩ := next_turn same again
      let asleep := (c.elapse elapsed).setProposal i id ⟨height, .sleeping validation' wake⟩
      let awake := asleep.elapse (validation.backoff + delay)
      have slept : awake.router.now = wake + delay := by
        rw [wakes]
        exact (Nat.add_assoc _ _ _).symm
      have later : failed + backoff.length + (turns 0).delay = fromMillis awake.router.now := by
        rw [slept, wakes, fromMillis_add, fromMillis_add, stopped, same, late]
      have valid' : ∀ k digest, (turns (k + 1)).result = some digest →
          cfg.validates i validation'.task digest = true := by
        rw [Validation.afterError_task again]
        exact fun k => valid (k + 1)
      obtain ⟨labels, c', ran, calls, resolved, acks⟩ :=
        ih (c := awake.setProposal i id ⟨height, .validating validation'⟩) (fun k => whole (k + 1))
          valid' later (ends.trans (congrArg fromMillis deadline'.symm)) doubled setProposal_get?
      refine ⟨[.router (.elapse elapsed), .validated i id none] ++
        ([.router (.elapse (validation.backoff + delay)), .retry i id] ++ labels), c', ?_, ?_, resolved,
        ?_⟩
      · have failed : step cfg (c.elapse elapsed) (.validated i id none) = some asleep :=
          step_failed waiting again
        have retried : step cfg awake (.retry i id) =
            some (awake.setProposal i id ⟨height, .validating validation'⟩) :=
          step_retry setProposal_get? (slept ▸ Nat.le_add_right _ _)
        rw [exec_append, exec_elapse failed, Option.bind_some, exec_append, exec_elapse retried]
        exact ran
      · rw [List.filterMap_append, List.filterMap_append, calls]
        rfl
      · rw [acks, ackedBy_setProposal]
        exact ackedBy_setProposal
  | case3 turns now backoff failing failed =>
    rename_i spent
    obtain ⟨elapsed, delay, took, -⟩ := whole 0
    have stopped : failed = fromMillis (c.elapse elapsed).router.now := by
      rw [fromMillis_elapse, ← clock, ← took]
    rw [stopped, ends] at spent
    cases again : validation.afterError (c.elapse elapsed).router.now with
    | some next => exact absurd (next_turn same again).1 spent
    | none =>
      have ended : step cfg (c.elapse elapsed) (.validated i id none) =
          some ((c.elapse elapsed).resolve i id height (cfg.router.skip height)) :=
        step_spent waiting again
      exact ⟨[.router (.elapse elapsed), .validated i id none],
        (c.elapse elapsed).resolve i id height (cfg.router.skip height), exec_elapse ended, rfl,
        resolve_get?, resolve_acks⟩

/-- **A retry loop is a schedule of the deployment.** Take a proposal whose subscription
was told a task, and any answers and delays of the validator in whole milliseconds.
Then the deployment has steps that make the calls of `digest_for_announce`, in order
and with their results, after which the proposal is resolved to the digest that it
returns, and the node has sent one ack for it unless it had signed the height before. -/
theorem digestForAnnounce_scheduled {turns : Nat → Turn D} {task : T}
    (whole : ∀ k, (turns k).WholeMillis)
    (valid : ∀ k digest, (turns k).result = some digest → cfg.validates i task digest = true)
    (waiting : (c.nodes i).proposals.get? id = some ⟨height, .subscribed⟩)
    (told : c.told i ⟨id, height⟩ = some (.announce task)) :
    let resolving := digestForAnnounce cfg.router.sha256 cfg.router.namespaceBytes height
      (fromMillis cfg.retryBudget) (fromMillis c.router.now) turns
    ∃ labels c', exec (step cfg) c labels = some c' ∧ labels.filterMap called = resolving.calls ∧
      (c'.nodes i).proposals.get? id = some ⟨height, .resolved resolving.digest⟩ ∧
      c'.acks = c.ackedBy i height resolving.digest := by
  intro resolving
  have whence : resolving = resolveFrom (cfg.router.skip height)
      (fromMillis c.router.now + fromMillis cfg.retryBudget) turns (fromMillis c.router.now)
      .initial := rfl
  rw [whence]
  let begun := c.setProposal i id ⟨height, .validating (.begin c.router.now cfg.retryBudget task)⟩
  have resumed : step cfg c (.resume i id) = some begun := by
    show c.resume cfg i id = _
    simp only [resume, waiting, told]
    rfl
  have ends : fromMillis c.router.now + fromMillis cfg.retryBudget =
      fromMillis (Validation.begin c.router.now cfg.retryBudget task).deadline :=
    (fromMillis_add _ _).symm
  have first : Backoff.initial.length =
      fromMillis (Validation.begin c.router.now cfg.retryBudget task).backoff := rfl
  have clock : fromMillis c.router.now = fromMillis begun.router.now := rfl
  obtain ⟨labels, c', ran, calls, resolved, acks⟩ :=
    resolveFrom_scheduled whole valid clock ends first
      (setProposal_get? : (begun.nodes i).proposals.get? id = _)
  refine ⟨.resume i id :: labels, c', ?_, calls, resolved, acks.trans ackedBy_setProposal⟩
  rw [exec, resumed]
  exact ran

section Examples

/-- One operator that has two seconds for a task. -/
def patient : Config 1 Nat Nat Unit Unit := { operators 0 with retryBudget := 2000 }

/-- It was told the task 10 at height 0. -/
def toldTen : Cluster 1 Nat Nat Unit where
  router := .init patient.router
  nodes := fun _ => {
    answers := [(⟨0, 0⟩, .announce 10)]
    proposals := .insert .empty 0 ⟨0, .subscribed⟩ }

/-- The validator fails after a tenth of a second and answers on the next call. -/
def secondAnswer (k : Nat) : Turn Nat where
  result := if k = 0 then none else some 1
  elapsed := fromMillis 100
  delay := fromMillis 0

end Examples

/-- The operator calls its validator twice, half a second apart, and sends one ack. -/
theorem second_answer_acked : ∃ labels c', exec (step patient) toldTen labels = some c' ∧
    labels.filterMap called = [none, some 1] ∧ c'.acks = [⟨0, 0, 1⟩] := by
  have whole (k : Nat) : (secondAnswer k).WholeMillis := ⟨100, 0, rfl, rfl⟩
  have valid (k digest : Nat) (found : (secondAnswer k).result = some digest) :
      patient.validates 0 10 digest = true := by
    obtain ⟨-, ⟨⟩⟩ := Option.ite_none_left_eq_some.mp found
    rfl
  have twice : digestForAnnounce patient.router.sha256 patient.router.namespaceBytes 0
      (fromMillis patient.retryBudget) (fromMillis toldTen.router.now) secondAnswer =
        { calls := [none, some 1], sleeps := [(fromMillis 100, fromMillis 500)], digest := 1 } := by
    have first : (secondAnswer 0).result = none := rfl
    have second : (secondAnswer (0 + 1)).result = some 1 := rfl
    have within : fromMillis toldTen.router.now + (secondAnswer 0).elapsed +
        Backoff.initial.length <
          fromMillis toldTen.router.now + fromMillis patient.retryBudget := by decide
    rw [digestForAnnounce, resolveFrom]
    simp only [first]
    rw [if_pos within, resolveFrom]
    simp only [second]
    rfl
  have waiting : (toldTen.nodes 0).proposals.get? 0 = some ⟨0, .subscribed⟩ := rfl
  have told : toldTen.told 0 ⟨0, 0⟩ = some (.announce 10) := rfl
  have alone : toldTen.ackedBy 0 0 1 = [⟨0, 0, 1⟩] := rfl
  obtain ⟨labels, c', ran, calls, -, acks⟩ :=
    digestForAnnounce_scheduled whole valid waiting told
  rw [twice] at calls acks
  exact ⟨labels, c', ran, calls, acks.trans alone⟩

end Cluster
end Restaking
