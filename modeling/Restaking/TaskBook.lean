import Restaking.Lib.OrderedMap
import Restaking.Wire

/-! The TaskBook actor (`node/src/task_book.rs`): the directive log, the parked
subscribers of each height, and the handler of each mailbox message. A handler
returns the answers it sends, in the order of the source's `send` calls; a
subscriber that has gone away changes nothing the actor does. -/
namespace Restaking
open Lib

namespace TaskBook

/-- `task_book.rs::Resolution`: what a subscriber of a height is told. -/
inductive Resolution (T : Type*) where
  /-- The router announced this task for the height. -/
  | announce (task : T)
  /-- The height carries no task. -/
  | skip
  deriving DecidableEq

/-- `task_book.rs::Message`. `ρ` stands for the reply channels. -/
inductive Message (T ρ : Type*) where
  | directive (directive : TaskDirective T)
  | subscribe (height : Nat) (responder : ρ)
  | pruneBelow (floor : Nat)

/-- One `send` on a reply channel. -/
abbrev Answer (T ρ : Type*) := ρ × Resolution T

end TaskBook

/-- `task_book.rs::TaskBook`. -/
structure TaskBook (T ρ : Type*) where
  /-- The directive recorded for each height. -/
  directives : OrderedMap Nat (TaskDirective T) := .empty
  /-- The highest height with any directive. -/
  maxSeen : Option Nat := none
  /-- The subscribers awaiting a resolution, in the order they came. -/
  waiters : OrderedMap Nat (List ρ) := .empty

namespace TaskBook

variable {T ρ : Type*}

/-- `task_book.rs::resolution`. -/
def resolution : TaskDirective T → Resolution T
  | .announce _ task => .announce task
  | .skip _ | .tipReport _ => .skip

/-- `for waiter in waiters { waiter.send(resolution) }`. -/
def sendAll (waiters : List ρ) (resolution : Resolution T) : List (Answer T ρ) :=
  waiters.map fun waiter => (waiter, resolution)

/-- `prune_below`: the log keeps the entries at or above the floor. -/
def prune (book : TaskBook T ρ) (floor : Nat) : TaskBook T ρ :=
  { book with directives := book.directives.splitOff floor }

/-- The loop of skip rule 2 over the heights passed over. A height that has a
directive is left alone; every other one is resolved as skipped. -/
def passOver (directives : OrderedMap Nat (TaskDirective T)) :
    List Nat → OrderedMap Nat (List ρ) → OrderedMap Nat (List ρ) × List (Answer T ρ)
  | [], waiters => (waiters, [])
  | height :: heights, waiters =>
    if (directives.get? height).isSome then passOver directives heights waiters
    else
      let (rest, answers) := passOver directives heights (waiters.erase height)
      (rest, sendAll (waiters.getD height []) .skip ++ answers)

/-- `self.directives.insert(height, directive)` and
`self.waiters.remove(&height)`. -/
def store (book : TaskBook T ρ) (directive : TaskDirective T) : TaskBook T ρ :=
  { book with
    directives := book.directives.insert directive.height directive
    waiters := book.waiters.erase directive.height }

/-- Skip rule 2 for a directive at this height. -/
def sweep (book : TaskBook T ρ) (height : Nat) : OrderedMap Nat (List ρ) × List (Answer T ρ) :=
  passOver book.directives (book.waiters.keys.filter (· < height)) book.waiters

/-- The part of `handle_directive` after the checks: record the directive,
resolve the height's own subscribers, then apply skip rule 2 and prune if no
directive reached this height before. -/
def record (book : TaskBook T ρ) (directive : TaskDirective T) :
    TaskBook T ρ × List (Answer T ρ) :=
  let height := directive.height
  let stored := book.store directive
  let answers := sendAll (book.waiters.getD height []) (resolution directive)
  if book.maxSeen.all (· < height) then
    let (waiters, skipped) := stored.sweep height
    (prune { stored with maxSeen := some height, waiters } (height - pruneSlack), answers ++ skipped)
  else (stored, answers)

/-- The directive lies below the prune horizon: recording it would regrow
pruned state. -/
def belowHorizon (book : TaskBook T ρ) (height : Nat) : Bool :=
  book.maxSeen.any fun maxSeen => height < maxSeen - pruneSlack

/-- The router's one change of mind, after its round timeout: the recorded
announcement gives way to a skip, and subscribers still parked learn of it. -/
def override (book : TaskBook T ρ) (directive : TaskDirective T) :
    TaskBook T ρ × List (Answer T ρ) :=
  (book.store directive, sendAll (book.waiters.getD directive.height []) .skip)

variable [DecidableEq T]

/-- `handle_directive`. -/
def handleDirective (book : TaskBook T ρ) (directive : TaskDirective T) :
    TaskBook T ρ × List (Answer T ρ) :=
  if directive.isTipReport then (book, [])
  else
    match book.directives.get? directive.height with
    | some existing =>
      if existing = directive then (book, [])
      else if existing.isAnnounce && directive.isSkip then book.override directive
      else (book, [])
    | none =>
      if book.belowHorizon directive.height then (book, []) else book.record directive

omit [DecidableEq T] in
/-- `handle_subscribe`. -/
def handleSubscribe (book : TaskBook T ρ) (height : Nat) (responder : ρ) :
    TaskBook T ρ × List (Answer T ρ) :=
  match book.directives.get? height with
  | some directive => (book, [(responder, resolution directive)])
  | none =>
    if book.maxSeen.any (height < ·) then (book, [(responder, .skip)])
    else
      ({ book with
          waiters := book.waiters.insert height (book.waiters.getD height [] ++ [responder]) }, [])

/-- One iteration of `run`. -/
def handle (book : TaskBook T ρ) : Message T ρ → TaskBook T ρ × List (Answer T ρ)
  | .directive directive => book.handleDirective directive
  | .subscribe height responder => book.handleSubscribe height responder
  | .pruneBelow floor => (book.prune floor, [])

/-- What a directive does to the book, case by case: the handler's guards and
its outcome. -/
inductive Handled (book : TaskBook T ρ) (directive : TaskDirective T) :
    TaskBook T ρ × List (Answer T ρ) → Prop where
  /-- A replay, or a conflict with the directive recorded first. -/
  | kept (existing : TaskDirective T) :
      book.directives.get? directive.height = some existing →
      (existing = directive ∨ ¬ (existing.isAnnounce && directive.isSkip)) →
      Handled book directive (book, [])
  | overridden (existing : TaskDirective T) :
      book.directives.get? directive.height = some existing →
      existing.isAnnounce → directive.isSkip → Handled book directive (book.override directive)
  | stale : book.directives.get? directive.height = none → book.belowHorizon directive.height →
      Handled book directive (book, [])
  | recorded : book.directives.get? directive.height = none →
      ¬ book.belowHorizon directive.height → Handled book directive (book.record directive)

theorem handleDirective_handled (book : TaskBook T ρ) {directive : TaskDirective T}
    (real : directive.isTipReport = false) :
    Handled book directive (book.handleDirective directive) := by
  unfold handleDirective
  rw [if_neg (by simp [real])]
  split
  · rename_i existing found
    split
    · exact .kept existing found (.inl ‹_›)
    · split
      · rename_i allowed
        rw [Bool.and_eq_true] at allowed
        exact .overridden existing found allowed.1 allowed.2
      · exact .kept existing found (.inr ‹_›)
  · split
    · exact .stale ‹_› ‹_›
    · exact .recorded ‹_› ‹_›

theorem handleDirective_tipReport (book : TaskBook T ρ) {directive : TaskDirective T}
    (report : directive.isTipReport = true) : book.handleDirective directive = (book, []) := by
  simp [handleDirective, report]

end TaskBook
end Restaking
