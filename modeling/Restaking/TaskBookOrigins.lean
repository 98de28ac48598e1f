import Restaking.TaskBook

/-! A task book announces nothing of its own: whatever task it tells a subscriber
of a height came in a directive for that height. -/
namespace Restaking.TaskBook
open Lib

variable {T ρ : Type*} {heightOf : ρ → Nat} {allowed : TaskDirective T → Prop}
variable {book : TaskBook T ρ} {directive : TaskDirective T} {height : Nat} {responder : ρ}

/-- The log holds allowed directives and the waiters wait, each under the height
it is filed for. -/
structure Filed (heightOf : ρ → Nat) (allowed : TaskDirective T → Prop) (book : TaskBook T ρ) :
    Prop where
  log : ∀ k d, book.directives.get? k = some d → d.height = k ∧ allowed d
  waiters : ∀ k, ∀ waiter ∈ book.waiters.getD k [], heightOf waiter = k

/-- Every announcement among the answers is allowed for its subscriber's height. -/
def Announced (heightOf : ρ → Nat) (allowed : TaskDirective T → Prop)
    (answers : List (Answer T ρ)) : Prop :=
  ∀ responder task, (responder, .announce task) ∈ answers →
    allowed (.announce (heightOf responder) task)

theorem Announced.append {first second : List (Answer T ρ)}
    (left : Announced heightOf allowed first) (right : Announced heightOf allowed second) :
    Announced heightOf allowed (first ++ second) := by
  intro responder task member
  rcases List.mem_append.mp member with earlier | later
  · exact left responder task earlier
  · exact right responder task later

theorem Announced.mono {allowed' : TaskDirective T → Prop} {answers : List (Answer T ρ)}
    (announced : Announced heightOf allowed answers) (more : ∀ d, allowed d → allowed' d) :
    Announced heightOf allowed' answers := by
  intro responder task member
  exact more _ (announced responder task member)

theorem Filed.mono {allowed' : TaskDirective T → Prop} (filed : Filed heightOf allowed book)
    (more : ∀ d, allowed d → allowed' d) : Filed heightOf allowed' book where
  log := by
    intro k d found
    obtain ⟨named, permitted⟩ := filed.log k d found
    exact ⟨named, more d permitted⟩
  waiters := filed.waiters

theorem announced_skips (waiters : List ρ) :
    Announced heightOf allowed (sendAll waiters (.skip : Resolution T)) := by
  intro responder task member
  obtain ⟨waiter, -, told⟩ := List.mem_map.mp member
  cases told

theorem announced_directive {waiters : List ρ} (permitted : allowed directive)
    (filed : ∀ waiter ∈ waiters, heightOf waiter = directive.height) :
    Announced heightOf allowed (sendAll waiters (resolution directive)) := by
  intro responder task member
  obtain ⟨waiter, waits, told⟩ := List.mem_map.mp member
  obtain ⟨rfl, announces⟩ := Prod.mk.inj told
  cases directive with
  | announce height task' =>
    cases announces
    rw [filed waiter waits]
    exact permitted
  | skip height => cases announces
  | tipReport height => cases announces

private theorem waiters_erase {waiters : OrderedMap Nat (List ρ)} {k : Nat}
    (filed : ∀ k, ∀ waiter ∈ waiters.getD k [], heightOf waiter = k) :
    ∀ k', ∀ waiter ∈ (waiters.erase k).getD k' [], heightOf waiter = k' := by
  intro k' waiter member
  rw [OrderedMap.getD_erase] at member
  split at member
  · cases member
  · exact filed k' waiter member

theorem passOver_filed {directives : OrderedMap Nat (TaskDirective T)} (heights : List Nat)
    {waiters : OrderedMap Nat (List ρ)}
    (filed : ∀ k, ∀ waiter ∈ waiters.getD k [], heightOf waiter = k) :
    (∀ k, ∀ waiter ∈ (passOver directives heights waiters).1.getD k [], heightOf waiter = k) ∧
      Announced heightOf allowed (passOver directives heights waiters).2 := by
  induction heights generalizing waiters with
  | nil => exact ⟨filed, fun _ _ member => by cases member⟩
  | cons k rest ih =>
    simp only [passOver]
    split
    · exact ih filed
    · obtain ⟨kept, announced⟩ := ih (waiters_erase (k := k) filed)
      exact ⟨kept, (announced_skips _).append announced⟩

theorem Filed.store (filed : Filed heightOf allowed book) (permitted : allowed directive) :
    Filed heightOf allowed (book.store directive) where
  log := by
    intro k d found
    simp only [TaskBook.store, OrderedMap.get?_insert] at found
    split at found
    · rename_i here
      cases found
      exact ⟨here.symm, permitted⟩
    · exact filed.log k d found
  waiters := waiters_erase filed.waiters

theorem Filed.prune (filed : Filed heightOf allowed book) (floor : Nat) :
    Filed heightOf allowed (book.prune floor) where
  log := by
    intro k d found
    simp only [TaskBook.prune, OrderedMap.get?_splitOff, Option.ite_none_right_eq_some] at found
    exact filed.log k d found.2
  waiters := filed.waiters

theorem Filed.record (filed : Filed heightOf allowed book) (permitted : allowed directive) :
    Filed heightOf allowed (book.record directive).1 ∧
      Announced heightOf allowed (book.record directive).2 := by
  have stored := filed.store permitted
  have own := announced_directive permitted (filed.waiters directive.height)
  have swept : (∀ k, ∀ waiter ∈ ((book.store directive).sweep directive.height).1.getD k [],
      heightOf waiter = k) ∧
      Announced heightOf allowed ((book.store directive).sweep directive.height).2 :=
    passOver_filed _ stored.waiters
  obtain ⟨swept, skipped⟩ := swept
  unfold TaskBook.record
  dsimp only
  split
  · have higher : Filed heightOf allowed { book.store directive with
        maxSeen := some directive.height
        waiters := ((book.store directive).sweep directive.height).1 } := ⟨stored.log, swept⟩
    exact ⟨higher.prune _, own.append skipped⟩
  · exact ⟨stored, own⟩

theorem Filed.handleDirective [DecidableEq T] (filed : Filed heightOf allowed book)
    (permitted : allowed directive) :
    Filed heightOf allowed (book.handleDirective directive).1 ∧
      Announced heightOf allowed (book.handleDirective directive).2 := by
  have silent : Announced heightOf allowed ([] : List (Answer T ρ)) := fun _ _ member => by
    cases member
  cases report : directive.isTipReport with
  | true =>
    rw [handleDirective_tipReport book report]
    exact ⟨filed, silent⟩
  | false =>
    have handled := handleDirective_handled book report
    generalize book.handleDirective directive = outcome at handled ⊢
    cases handled with
    | kept => exact ⟨filed, silent⟩
    | overridden => exact ⟨filed.store permitted, announced_skips _⟩
    | stale => exact ⟨filed, silent⟩
    | recorded => exact filed.record permitted

theorem Filed.handleSubscribe (filed : Filed heightOf allowed book) (named : heightOf responder = height) :
    Filed heightOf allowed (book.handleSubscribe height responder).1 ∧
      Announced heightOf allowed (book.handleSubscribe height responder).2 := by
  unfold TaskBook.handleSubscribe
  split
  · rename_i d found
    obtain ⟨here, permitted⟩ := filed.log height d found
    have own : ∀ waiter ∈ [responder], heightOf waiter = d.height := by
      intro waiter member
      rw [List.mem_singleton.mp member, named, here]
    exact ⟨filed, announced_directive permitted own⟩
  · split
    · exact ⟨filed, announced_skips [responder]⟩
    · refine ⟨⟨filed.log, ?_⟩, fun _ _ member => by cases member⟩
      intro k waiter member
      rw [OrderedMap.getD_insert] at member
      split at member
      · rename_i here
        rcases List.mem_append.mp member with earlier | new
        · rw [here]
          exact filed.waiters height waiter earlier
        · rw [List.mem_singleton.mp new, named, here]
      · exact filed.waiters k waiter member

end Restaking.TaskBook
