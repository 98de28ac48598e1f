import Mathlib.Data.List.Induction
import Restaking.TaskBookAnswers

/-! What the subscribers of one height are told over the life of the TaskBook,
whatever its mailbox brings: directives out of order, floors above every
directive, subscriptions at any moment. A log that forgets what it answered can
take it back, so the answers of a height are announcements of one task and then
skips exactly as long as no announcement is recorded against an earlier answer. -/
namespace Restaking.TaskBook
open Lib

variable {T : Type*}

/-- Each answer is a skip or repeats all answers before it: announcements of one
task, then skips. -/
def Steady (told : List (Resolution T)) : Prop :=
  told.Pairwise fun earlier later => later = .skip ∨ later = earlier

instance [DecidableEq T] (told : List (Resolution T)) : Decidable (Steady told) :=
  inferInstanceAs (Decidable (List.Pairwise _ _))

/-! ### A desk where every subscriber is known by its height -/

/-- The message of a request, its subscriber's channel named by the height the
subscriber asked for. -/
def Request.asked : Request T → Message T Nat
  | .directive d => .directive d
  | .subscribe height => .subscribe height height
  | .pruneBelow floor => .pruneBelow floor

/-- The directives a request adds to the history. -/
def Request.delivers : Request T → List (TaskDirective T)
  | .directive d => if d.isTipReport then [] else [d]
  | .subscribe _ | .pruneBelow _ => []

/-- The actor, the directives delivered to it and the answers it has sent. -/
structure Desk (T : Type*) where
  book : TaskBook T Nat := {}
  delivered : List (TaskDirective T) := []
  answers : List (Answer T Nat) := []

/-- What a subscription would be told now. -/
def reply {ρ : Type*} (book : TaskBook T ρ) (height : Nat) : Option (Resolution T) :=
  match book.directives.get? height with
  | some directive => some (resolution directive)
  | none => if book.maxSeen.any (height < ·) then some .skip else none

variable [DecidableEq T]

namespace Desk

/-- One iteration of `run`. -/
def handle (desk : Desk T) (request : Request T) : Desk T where
  book := (desk.book.handle request.asked).1
  delivered := desk.delivered ++ request.delivers
  answers := desk.answers ++ (desk.book.handle request.asked).2

/-- The desk after these requests. -/
def serve (desk : Desk T) (requests : List (Request T)) : Desk T := requests.foldl handle desk

omit [DecidableEq T] in
/-- The answers of one height's subscribers, in the order they were sent. -/
def told (desk : Desk T) (height : Nat) : List (Resolution T) := toChannel height desk.answers

omit [DecidableEq T] in
/-- A directive at this height would be recorded. -/
def records (desk : Desk T) (height : Nat) : Bool :=
  (desk.book.directives.get? height).isNone && !desk.book.belowHorizon height

/-- An announcement that is about to be recorded contradicts no directive
delivered before: none lies above it, and its own height was not skipped or
announced with another task. -/
def inOrder (desk : Desk T) : Request T → Bool
  | .directive (.announce height task) => !desk.records height ||
      (desk.book.maxSeen.all (· ≤ height) &&
        (recorded desk.delivered height).all (· = .announce height task))
  | _ => true

/-- Every one of these requests is handled in order. -/
def InOrder (desk : Desk T) : List (Request T) → Prop
  | [] => True
  | request :: requests => desk.inOrder request ∧ (desk.handle request).InOrder requests

end Desk

theorem Desk.serve_delivered (desk : Desk T) (requests : List (Request T)) :
    (desk.serve requests).delivered = desk.delivered ++ requests.flatMap Request.delivers := by
  induction requests generalizing desk with
  | nil => simp [Desk.serve]
  | cons request rest ih => simpa [Desk.serve, Desk.handle] using ih (desk.handle request)

/-! ### What one request does -/

section Steps

variable {book : TaskBook T Nat} {desk : Desk T} {request : Request T} {height k : Nat}
variable {directives : List (TaskDirective T)} {floors : List Nat} {answer : Resolution T}

theorem follows_asked (follows : Follows directives floors book) (request : Request T) :
    ∃ floors', Follows (directives ++ request.delivers) floors' (book.handle request.asked).1 := by
  cases request with
  | directive d =>
    refine ⟨floors, ?_⟩
    cases report : d.isTipReport with
    | true =>
      simpa [Request.asked, Request.delivers, handle, report, handleDirective_tipReport] using follows
    | false =>
      simpa [Request.asked, Request.delivers, handle, report] using follows_directive follows report
  | subscribe height =>
    refine ⟨floors, ?_⟩
    rw [Request.delivers, List.append_nil]
    simp only [Request.asked, handle, handleSubscribe]
    split
    · exact follows
    · split
      · exact follows
      · exact follows.of_same_log rfl rfl
  | pruneBelow floor =>
    refine ⟨floor :: floors, ?_⟩
    rw [Request.delivers, List.append_nil]
    exact follows_prune follows floor

/-- Every channel waits at the height it is named by. -/
def Named (waiters : OrderedMap Nat (List Nat)) : Prop :=
  ∀ k, ∀ channel ∈ waiters.getD k [], channel = k

omit [DecidableEq T] in
theorem mem_toChannel {answers : List (Answer T Nat)} :
    answer ∈ toChannel k answers ↔ (k, answer) ∈ answers := by
  simp only [toChannel, List.mem_filterMap, Option.ite_none_right_eq_some, Option.some.injEq]
  constructor
  · rintro ⟨⟨channel, told⟩, member, rfl, rfl⟩
    exact member
  · intro member
    exact ⟨(k, answer), member, rfl, rfl⟩

omit [DecidableEq T] in
theorem Named.erase {waiters : OrderedMap Nat (List Nat)} (named : Named waiters) :
    Named (waiters.erase height) := by
  intro k channel member
  rw [OrderedMap.getD_erase] at member
  split at member
  · cases member
  · exact named k channel member

omit [DecidableEq T] in
/-- Skip rule 2 tells skips, to the subscribers of swept heights that have no
directive. -/
theorem passOver_named {log : OrderedMap Nat (TaskDirective T)} {heights : List Nat}
    {waiters : OrderedMap Nat (List Nat)} (named : Named waiters) :
    Named (passOver log heights waiters).1 ∧ ∀ k answer,
      (k, answer) ∈ (passOver log heights waiters).2 →
        answer = .skip ∧ k ∈ heights ∧ log.get? k = none := by
  induction heights generalizing waiters with
  | nil => exact ⟨named, by simp [passOver]⟩
  | cons height rest ih =>
    simp only [passOver]
    split
    · obtain ⟨after, told⟩ := ih named
      refine ⟨after, fun k answer member => ?_⟩
      obtain ⟨skip, swept, absent⟩ := told k answer member
      exact ⟨skip, List.mem_cons_of_mem _ swept, absent⟩
    · rename_i undirected
      obtain ⟨after, told⟩ := ih named.erase
      refine ⟨after, fun k answer member => ?_⟩
      rcases List.mem_append.mp member with here | later
      · obtain ⟨channel, waits, same⟩ := List.mem_map.mp here
        cases same
        obtain rfl := named height k waits
        exact ⟨rfl, List.mem_cons_self, by simpa using undirected⟩
      · obtain ⟨skip, swept, absent⟩ := told k answer later
        exact ⟨skip, List.mem_cons_of_mem _ swept, absent⟩

omit [DecidableEq T] in
theorem sendAll_named {directive : TaskDirective T} (named : Named book.waiters)
    (member : (k, answer) ∈ sendAll (book.waiters.getD directive.height []) (resolution directive)) :
    k = directive.height ∧ answer = resolution directive := by
  obtain ⟨channel, waits, same⟩ := List.mem_map.mp member
  cases same
  exact ⟨named _ _ waits, rfl⟩

omit [DecidableEq T] in
theorem reply_of_recorded {directive : TaskDirective T}
    (found : book.directives.get? k = some directive) :
    reply book k = some (resolution directive) := by
  simp [reply, found]

omit [DecidableEq T] in
theorem reply_of_passed {m : Nat} (absent : book.directives.get? k = none)
    (seen : book.maxSeen = some m) (below : k < m) : reply book k = some .skip := by
  simp [reply, absent, seen, below]

omit [DecidableEq T] in
/-- A directive that is recorded answers its own height from then on. -/
theorem record_reply (directive : TaskDirective T) :
    reply (book.record directive).1 directive.height = some (resolution directive) := by
  apply reply_of_recorded
  rw [record_directives, if_neg, if_pos rfl]
  rintro ⟨-, below⟩
  omega

omit [DecidableEq T] in
theorem record_told {directive : TaskDirective T} (named : Named book.waiters)
    (member : (k, answer) ∈ (book.record directive).2) :
    reply (book.record directive).1 k = some answer := by
  rw [record_answers] at member
  rcases List.mem_append.mp member with own | swept
  · obtain ⟨rfl, rfl⟩ := sendAll_named named own
    exact record_reply directive
  · split at swept
    · rename_i higher
      obtain ⟨rfl, passed, absent⟩ := (passOver_named named.erase).2 k answer swept
      have below : k < directive.height := by simpa using (List.mem_filter.mp passed).2
      have unrecorded : book.directives.get? k = none := by
        simpa [store, below.ne] using absent
      apply reply_of_passed (m := directive.height)
      · rw [record_directives]
        simp [unrecorded, below.ne]
      · rw [record_maxSeen, if_pos higher]
      · exact below
    · cases swept

omit [DecidableEq T] in
theorem record_named {directive : TaskDirective T} (named : Named book.waiters) :
    Named (book.record directive).1.waiters := by
  rw [record_waiters]
  split
  · exact (passOver_named named.erase).1
  · exact named.erase

/-- Whoever is told something is told what the next subscriber would be. -/
theorem told_reply (named : Named book.waiters) (request : Request T) :
    Named (book.handle request.asked).1.waiters ∧ ∀ k answer,
      (k, answer) ∈ (book.handle request.asked).2 →
        reply (book.handle request.asked).1 k = some answer := by
  cases request with
  | directive directive =>
    simp only [Request.asked, handle]
    cases report : directive.isTipReport with
    | true =>
      rw [handleDirective_tipReport book report]
      exact ⟨named, by simp⟩
    | false =>
      have handled := handleDirective_handled book report
      generalize book.handleDirective directive = outcome at handled ⊢
      cases handled with
      | kept => exact ⟨named, by simp⟩
      | overridden _ _ _ skips =>
        refine ⟨named.erase, fun k answer member => ?_⟩
        obtain ⟨channel, waits, same⟩ := List.mem_map.mp member
        cases same
        obtain rfl := named _ _ waits
        have stored : (book.override directive).1.directives.get? directive.height = some directive := by
          simp [override, store]
        apply (reply_of_recorded stored).trans
        cases directive <;> first | rfl | cases skips
      | stale => exact ⟨named, by simp⟩
      | recorded => exact ⟨record_named named, fun k answer member => record_told named member⟩
  | subscribe height =>
    simp only [Request.asked, handle, handleSubscribe]
    split
    · rename_i directive found
      exact ⟨named, by simp [reply, found]⟩
    · rename_i absent
      split
      · rename_i moved
        exact ⟨named, by simp [reply, absent, moved]⟩
      · refine ⟨fun k channel member => ?_, by simp⟩
        rw [OrderedMap.getD_insert] at member
        split at member
        · rename_i here
          rcases List.mem_append.mp member with waits | new
          · exact here ▸ named _ _ waits
          · exact here ▸ List.mem_singleton.mp new
        · exact named k channel member
  | pruneBelow floor => exact ⟨named, by simp [Request.asked, handle]⟩

/-- An announcement is in the log because it was there or because this request
records it. -/
theorem log_announce {task : T}
    (found : (desk.handle request).book.directives.get? height = some (.announce k task)) :
    desk.book.directives.get? height = some (.announce k task) ∨
      request = .directive (.announce height task) ∧ desk.records height := by
  cases request with
  | directive directive =>
    simp only [Desk.handle, Request.asked, handle] at found
    cases report : directive.isTipReport with
    | true =>
      rw [handleDirective_tipReport _ report] at found
      exact .inl found
    | false =>
      have handled := handleDirective_handled desk.book report
      generalize desk.book.handleDirective directive = outcome at handled found
      cases handled with
      | kept => exact .inl found
      | overridden _ _ _ skips =>
        simp only [override, store, OrderedMap.get?_insert] at found
        split at found
        · cases found
          cases skips
        · exact .inl found
      | stale => exact .inl found
      | recorded absent horizon =>
        rw [record_directives] at found
        split at found
        · cases found
        · split at found
          · rename_i here
            cases found
            obtain rfl : height = k := here
            refine .inr ⟨rfl, ?_⟩
            have unrecorded : desk.book.directives.get? height = none := absent
            have within : desk.book.belowHorizon height = false := Bool.eq_false_iff.mpr horizon
            simp [Desk.records, unrecorded, within]
          · exact .inl found
  | subscribe height' =>
    simp only [Desk.handle, Request.asked, handle, handleSubscribe] at found
    split at found
    · exact .inl found
    · split at found <;> exact .inl found
  | pruneBelow floor =>
    simp only [Desk.handle, Request.asked, handle, prune, OrderedMap.get?_splitOff,
      Option.ite_none_right_eq_some] at found
    exact .inl found.2

end Steps

/-! ### In order, answers are steady -/

/-- What every run keeps: the log follows the deliveries, and channels wait at
their own height. -/
structure Desk.Sound (desk : Desk T) : Prop where
  follows : ∃ floors, Follows desk.delivered floors desk.book
  named : Named desk.book.waiters

/-- What an in-order run keeps for one height. -/
structure Desk.Settled (desk : Desk T) (height : Nat) : Prop where
  /-- A height with an announcement in the log has been told no skip. -/
  open' : ∀ k task, desk.book.directives.get? height = some (.announce k task) →
    firstAnnounced desk.delivered height = some task ∧ .skip ∉ desk.told height
  /-- Only the first announced task is told. -/
  announced : ∀ task, .announce task ∈ desk.told height →
    firstAnnounced desk.delivered height = some task
  /-- A skip is told for a reason. -/
  skipped : .skip ∈ desk.told height →
    passed desk.delivered height ∨ .skip height ∈ desk.delivered
  steady : Steady (desk.told height)

section Forward

variable {desk : Desk T} {request : Request T} {height : Nat}

theorem Desk.Sound.empty : Sound ({} : Desk T) where
  follows := ⟨[], follows_empty⟩
  named k channel member := by cases member

theorem Desk.Sound.handle (sound : desk.Sound) (request : Request T) :
    (desk.handle request).Sound where
  follows := by
    obtain ⟨floors, follows⟩ := sound.follows
    exact follows_asked follows request
  named := (told_reply sound.named request).1

/-- The answers one request sends to a height, all of them what the next
subscriber would be told. -/
theorem told_handle (sound : desk.Sound) (request : Request T) (height : Nat) :
    ∃ new, (desk.handle request).told height = desk.told height ++ new ∧
      ∀ answer ∈ new, reply (desk.handle request).book height = some answer := by
  refine ⟨toChannel height (desk.book.handle request.asked).2, toChannel_append, ?_⟩
  intro answer member
  exact (told_reply sound.named request).2 height answer (mem_toChannel.mp member)

omit [DecidableEq T] in
theorem firstAnnounced_append {directives later : List (TaskDirective T)} {task : T}
    (first : firstAnnounced directives height = some task) :
    firstAnnounced (directives ++ later) height = some task := by
  unfold firstAnnounced at first ⊢
  rw [List.findSome?_append, first]
  rfl

/-- An announcement that is recorded in order contradicts no answer. -/
theorem announce_in_order {task : T} (sound : desk.Sound) (settled : desk.Settled height)
    (records : desk.records height)
    (orderly : desk.inOrder (.directive (.announce height task))) :
    .skip ∉ desk.told height ∧
      firstAnnounced (desk.delivered ++ [.announce height task]) height = some task := by
  obtain ⟨floors, follows⟩ := sound.follows
  simp only [Desk.inOrder, records, Bool.not_true, Bool.false_or, Bool.and_eq_true] at orderly
  obtain ⟨highest, own⟩ := orderly
  have own : recorded desk.delivered height = none ∨
      recorded desk.delivered height = some (.announce height task) := by
    cases before : recorded desk.delivered height with
    | none => exact .inl rfl
    | some d => exact .inr (by simpa [before] using own)
  have unskipped : .skip height ∉ desk.delivered := by
    intro member
    simp [recorded, member] at own
  constructor
  · intro told
    rcases settled.skipped told with pass | skip
    · obtain ⟨d, member, above⟩ := List.any_eq_true.mp pass
      cases seen : desk.book.maxSeen with
      | none => simp [follows.unseen seen] at member
      | some m =>
        have bound := follows.bound m seen d member
        have low : m ≤ height := by simpa [seen] using highest
        have high : height < d.height := by simpa using above
        omega
    · exact unskipped skip
  · simp only [recorded, if_neg unskipped, Option.map_eq_none_iff] at own
    rcases own with absent | present
    · unfold firstAnnounced at absent ⊢
      rw [List.findSome?_append, absent]
      simp [taskAt]
    · obtain ⟨task', first, same⟩ := Option.map_eq_some_iff.mp present
      cases same
      exact firstAnnounced_append first

omit [DecidableEq T] in
theorem reply_announce {book : TaskBook T Nat} {task : T}
    (told : reply book height = some (.announce task)) :
    ∃ k, book.directives.get? height = some (.announce k task) := by
  unfold reply at told
  split at told
  · rename_i directive found
    cases directive with
    | announce k task' =>
      cases told
      exact ⟨k, found⟩
    | skip => cases told
    | tipReport => cases told
  · split at told <;> cases told

theorem reply_skip {directives : List (TaskDirective T)} {floors : List Nat}
    {book : TaskBook T Nat} (follows : Follows directives floors book)
    (told : reply book height = some .skip) :
    passed directives height ∨ .skip height ∈ directives := by
  unfold reply at told
  split at told
  · rename_i directive found
    obtain ⟨member, named⟩ := follows.sound _ _ found
    cases directive with
    | announce => cases told
    | skip k =>
      obtain rfl : k = height := named
      exact .inr member
    | tipReport k => cases follows.real _ member
  · split at told
    · rename_i moved
      cases seen : book.maxSeen with
      | none => simp [seen] at moved
      | some m =>
        obtain ⟨d, member, named⟩ := follows.attained m seen
        have above : height < m := by simpa [seen] using moved
        exact .inl (List.any_eq_true.mpr ⟨d, member, by simpa [named] using above⟩)
    · cases told

theorem Desk.Settled.handle (sound : desk.Sound) (settled : desk.Settled height)
    (orderly : desk.inOrder request) : (desk.handle request).Settled height := by
  obtain ⟨new, told, same⟩ := told_handle sound request height
  obtain ⟨floors, follows⟩ := (sound.handle request).follows
  have grown : (desk.handle request).delivered = desk.delivered ++ request.delivers := rfl
  -- An announcement in the log has told no skip, neither before nor now.
  have stays : ∀ k task, (desk.handle request).book.directives.get? height =
      some (.announce k task) → firstAnnounced (desk.handle request).delivered height = some task ∧
        .skip ∉ desk.told height := by
    intro k task found
    rcases log_announce found with old | ⟨rfl, records⟩
    · obtain ⟨first, quiet⟩ := settled.open' k task old
      exact ⟨grown ▸ firstAnnounced_append first, quiet⟩
    · exact (announce_in_order sound settled records orderly).symm
  have news : ∀ task, .announce task ∈ new →
      firstAnnounced (desk.handle request).delivered height = some task ∧
        .skip ∉ desk.told height := by
    intro task member
    obtain ⟨k, found⟩ := reply_announce (same _ member)
    exact stays k task found
  constructor
  · intro k task found
    obtain ⟨first, quiet⟩ := stays k task found
    refine ⟨first, fun member => ?_⟩
    rw [told] at member
    rcases List.mem_append.mp member with old | now
    · exact quiet old
    · have answers := same _ now
      rw [reply_of_recorded found] at answers
      cases answers
  · intro task member
    rw [told] at member
    rcases List.mem_append.mp member with old | now
    · exact grown ▸ firstAnnounced_append (settled.announced task old)
    · exact (news task now).1
  · intro member
    rw [told] at member
    rcases List.mem_append.mp member with old | now
    · rw [grown]
      rcases settled.skipped old with pass | skip
      · left
        simp only [passed, List.any_append, Bool.or_eq_true]
        exact .inl pass
      · exact .inr (List.mem_append_left _ skip)
    · exact reply_skip follows (same _ now)
  · rw [told]
    refine List.pairwise_append.mpr ⟨settled.steady, ?_, ?_⟩
    · apply List.pairwise_of_forall_mem_list
      intro earlier first later second
      exact .inr (Option.some.inj ((same _ second).symm.trans (same _ first)))
    · intro earlier old later now
      cases later with
      | skip => exact .inl rfl
      | announce task =>
        obtain ⟨first, quiet⟩ := news task now
        cases earlier with
        | skip => exact absurd old quiet
        | announce task' =>
          have before : firstAnnounced (desk.handle request).delivered height = some task' :=
            grown ▸ firstAnnounced_append (settled.announced task' old)
          rw [first] at before
          cases before
          exact .inr rfl

theorem Desk.InOrder.settled {requests : List (Request T)} (orderly : desk.InOrder requests)
    (sound : desk.Sound) (settled : desk.Settled height) :
    (desk.serve requests).Settled height := by
  induction requests generalizing desk with
  | nil => exact settled
  | cons request requests ih =>
    exact ih orderly.2 (sound.handle request) (settled.handle sound orderly.1)

omit [DecidableEq T] in
theorem Desk.Settled.empty : ({} : Desk T).Settled height where
  open' := by simp
  announced := by simp [told]
  skipped := by simp [told]
  steady := .nil

end Forward

/-! ### Out of order, some subscribers are told both -/

/-- The requests without the subscriptions. -/
def feed (requests : List (Request T)) : List (Request T) :=
  requests.filter fun
    | .subscribe _ => false
    | _ => true

/-- The same requests with a subscriber of one height after each of them. -/
def probe (height : Nat) (requests : List (Request T)) : List (Request T) :=
  requests.flatMap fun request => [request, .subscribe height]

/-- Two desks whose logs have come to the same. -/
structure Desk.SameLog (desk desk' : Desk T) : Prop where
  directives : desk.book.directives = desk'.book.directives
  maxSeen : desk.book.maxSeen = desk'.book.maxSeen
  delivered : desk.delivered = desk'.delivered

section Backward

variable {desk desk' : Desk T} {request : Request T} {height : Nat} {requests : List (Request T)}

omit [DecidableEq T] in
theorem Desk.SameLog.refl : SameLog desk desk := ⟨rfl, rfl, rfl⟩

theorem Desk.SameLog.inOrder (same : SameLog desk desk') :
    desk.inOrder request = desk'.inOrder request := by
  unfold Desk.inOrder Desk.records belowHorizon
  rw [same.directives, same.maxSeen, same.delivered]

/-- A subscription leaves the log alone. -/
theorem Desk.sameLog_subscribe (desk : Desk T) (height : Nat) :
    SameLog (desk.handle (.subscribe height)) desk := by
  have history : (desk.handle (.subscribe height)).delivered = desk.delivered := List.append_nil _
  have log : (desk.handle (.subscribe height)).book.directives = desk.book.directives ∧
      (desk.handle (.subscribe height)).book.maxSeen = desk.book.maxSeen := by
    simp only [Desk.handle, Request.asked, TaskBook.handle, handleSubscribe]
    split
    · exact ⟨rfl, rfl⟩
    · split <;> exact ⟨rfl, rfl⟩
  exact ⟨log.1, log.2, history⟩

private theorem handleDirective_log (log : OrderedMap Nat (TaskDirective T)) (highest : Option Nat)
    (waiters waiters' : OrderedMap Nat (List Nat)) (directive : TaskDirective T) :
    (handleDirective ⟨log, highest, waiters⟩ directive).1.directives =
        (handleDirective ⟨log, highest, waiters'⟩ directive).1.directives ∧
      (handleDirective ⟨log, highest, waiters⟩ directive).1.maxSeen =
        (handleDirective ⟨log, highest, waiters'⟩ directive).1.maxSeen := by
  unfold handleDirective
  split
  · exact ⟨rfl, rfl⟩
  · cases log.get? directive.height with
    | some existing =>
      dsimp only
      split
      · exact ⟨rfl, rfl⟩
      · split <;> exact ⟨rfl, rfl⟩
    | none =>
      dsimp only
      by_cases stale : highest.any fun m => directive.height < m - pruneSlack
      · simp [belowHorizon, stale]
      · by_cases higher : highest.all (· < directive.height) <;>
          simp [belowHorizon, stale, record, higher, prune, store]

/-- What a request does to the log does not depend on who is waiting. -/
theorem Desk.SameLog.handle (same : SameLog desk desk') (request : Request T) :
    SameLog (desk.handle request) (desk'.handle request) := by
  obtain ⟨⟨log, highest, waiters⟩, history, answers⟩ := desk
  obtain ⟨⟨log', highest', waiters'⟩, history', answers'⟩ := desk'
  obtain ⟨rfl, rfl, rfl⟩ : log = log' ∧ highest = highest' ∧ history = history' :=
    ⟨same.directives, same.maxSeen, same.delivered⟩
  cases request with
  | subscribe height =>
    have first := Desk.sameLog_subscribe ⟨⟨log, highest, waiters⟩, history, answers⟩ height
    have second := Desk.sameLog_subscribe ⟨⟨log, highest, waiters'⟩, history, answers'⟩ height
    exact ⟨first.directives.trans second.directives.symm, first.maxSeen.trans second.maxSeen.symm, rfl⟩
  | pruneBelow floor => exact ⟨rfl, rfl, rfl⟩
  | directive directive =>
    have outcome := handleDirective_log log highest waiters waiters' directive
    exact ⟨outcome.1, outcome.2, rfl⟩

/-- Whether requests are handled in order does not depend on where the
subscriptions fall. -/
theorem Desk.inOrder_feed (same : SameLog desk desk') :
    desk.InOrder requests ↔ desk'.InOrder (feed requests) := by
  induction requests generalizing desk desk' with
  | nil => exact Iff.rfl
  | cons request requests ih =>
    have other (kept : feed (request :: requests) = request :: feed requests) :
        desk.InOrder (request :: requests) ↔ desk'.InOrder (feed (request :: requests)) := by
      rw [kept, Desk.InOrder, Desk.InOrder, same.inOrder, ih (same.handle request)]
    cases request with
    | directive directive => exact other rfl
    | pruneBelow floor => exact other rfl
    | subscribe height =>
      have after : SameLog (desk.handle (.subscribe height)) desk' := by
        have log := desk.sameLog_subscribe height
        exact ⟨log.directives.trans same.directives, log.maxSeen.trans same.maxSeen,
          log.delivered.trans same.delivered⟩
      have dropped : feed (.subscribe height :: requests) = feed requests := rfl
      rw [dropped, Desk.InOrder, ih after]
      exact and_iff_right rfl

omit [DecidableEq T] in
theorem feed_probe (requests : List (Request T)) : feed (probe height requests) = feed requests := by
  induction requests with
  | nil => rfl
  | cons request requests ih => cases request <;> simpa [feed, probe] using ih

theorem Desk.sameLog_probe (height : Nat) (requests : List (Request T)) :
    SameLog (desk.serve (probe height requests)) (desk.serve requests) := by
  induction requests using List.reverseRecOn with
  | nil => exact .refl
  | append_singleton requests request ih =>
    have both := ih.handle request
    have last := ((desk.serve (probe height requests)).handle request).sameLog_subscribe height
    simp only [probe, List.flatMap_append, List.flatMap_singleton, Desk.serve, List.foldl_append,
      List.foldl_cons, List.foldl_nil] at both last ⊢
    exact ⟨last.directives.trans both.directives, last.maxSeen.trans both.maxSeen,
      last.delivered.trans both.delivered⟩

theorem Desk.Sound.serve (sound : desk.Sound) (requests : List (Request T)) :
    (desk.serve requests).Sound := by
  induction requests generalizing desk with
  | nil => exact sound
  | cons request requests ih => exact ih (sound.handle request)

/-- Answers are never taken back. -/
theorem Desk.told_serve (sound : desk.Sound) (requests : List (Request T)) (height : Nat) :
    ∃ more, (desk.serve requests).told height = desk.told height ++ more := by
  induction requests generalizing desk with
  | nil => exact ⟨[], (List.append_nil _).symm⟩
  | cons request requests ih =>
    obtain ⟨new, told, -⟩ := told_handle sound request height
    obtain ⟨more, later⟩ := ih (sound.handle request)
    exact ⟨new ++ more, by rw [Desk.serve, List.foldl_cons, ← Desk.serve, later, told, List.append_assoc]⟩

/-- A new subscriber is told the reply, if there is one. -/
theorem Desk.told_subscribe {answer : Resolution T} (answers : reply desk.book height = some answer) :
    (desk.handle (.subscribe height)).told height = desk.told height ++ [answer] := by
  have sent : (desk.book.handle (Request.subscribe height).asked).2 = [(height, answer)] := by
    unfold reply at answers
    cases found : desk.book.directives.get? height with
    | some directive =>
      rw [found] at answers
      cases answers
      simp [Request.asked, TaskBook.handle, handleSubscribe, found]
    | none =>
      rw [found] at answers
      obtain ⟨moved, same⟩ := Option.ite_none_right_eq_some.mp answers
      cases same
      simp [Request.asked, TaskBook.handle, handleSubscribe, found, moved]
  rw [Desk.told, Desk.handle, sent, toChannel_append]
  simp [Desk.told, toChannel]

theorem highest_iff {directives : List (TaskDirective T)} {floors : List Nat} {book : TaskBook T Nat}
    (follows : Follows directives floors book) :
    book.maxSeen.all (· ≤ height) = true ↔ passed directives height = false := by
  rw [passed, List.any_eq_false]
  cases seen : book.maxSeen with
  | none => simp [follows.unseen seen]
  | some m =>
    obtain ⟨top, member, rfl⟩ := follows.attained m seen
    simp only [Option.all_some, decide_eq_true_eq, not_lt]
    exact ⟨fun low d other => (follows.bound _ seen d other).trans low, fun low => low top member⟩

/-- A directive that changes what is recorded for the highest height is what the
log holds afterwards, whatever was pruned before. -/
theorem log_of_recorded_changed {directives : List (TaskDirective T)} {floors : List Nat}
    {book : TaskBook T Nat} {directive : TaskDirective T} (follows : Follows directives floors book)
    (real : directive.isTipReport = false) (unpassed : passed directives directive.height = false)
    (changed : recorded (directives ++ [directive]) directive.height ≠
      recorded directives directive.height) :
    (book.handleDirective directive).1.directives.get? directive.height = some directive := by
  have handled := handleDirective_handled book real
  generalize book.handleDirective directive = outcome at handled ⊢
  cases handled with
  | kept existing found kept =>
    obtain ⟨member, named⟩ := follows.sound _ _ found
    cases before : recorded directives directive.height with
    | none =>
      have decided : ∀ d ∈ directives, d.height < directive.height :=
        (verdict_eq_none_iff follows.real).mp (by rw [verdict, before]; simp [unpassed])
      exact absurd named (decided existing member).ne
    | some old =>
      rw [recorded_append, before] at changed
      by_cases skips : directive = .skip directive.height
      · have unskipped : .skip directive.height ∉ directives := by
          intro skipped
          rw [if_pos skips, ← before, recorded, if_pos skipped] at changed
          exact changed rfl
        cases existing with
        | announce => rw [skips] at kept; simp [TaskDirective.isAnnounce, TaskDirective.isSkip] at kept
        | skip k =>
          obtain rfl : k = directive.height := named
          exact absurd member unskipped
        | tipReport => cases follows.real _ member
      · rw [if_neg skips] at changed
        exact absurd rfl changed
  | overridden => simp [override, store]
  | stale _ stale =>
    cases seen : book.maxSeen with
    | none => simp [belowHorizon, seen] at stale
    | some m =>
      have low : directive.height < m - pruneSlack := by simpa [belowHorizon, seen] using stale
      have high := (highest_iff follows).mpr unpassed
      rw [seen, Option.all_some, decide_eq_true_eq] at high
      omega
  | recorded =>
    rw [record_directives, if_neg, if_pos rfl]
    rintro ⟨-, below⟩
    omega

/-- What is newly recorded for a height is the directive that changed it. -/
theorem recorded_changed {directives : List (TaskDirective T)} {directive d : TaskDirective T}
    (changed : recorded (directives ++ [directive]) directive.height ≠
      recorded directives directive.height)
    (found : recorded (directives ++ [directive]) directive.height = some d) : d = directive := by
  rw [recorded_append] at changed found
  by_cases skips : directive = .skip directive.height
  · rw [if_pos skips] at found
    exact (Option.some.inj found).symm.trans skips.symm
  · rw [if_neg skips] at changed found
    cases before : recorded directives directive.height with
    | some old => simp [before] at changed
    | none =>
      rw [before, Option.none_or] at found
      obtain ⟨task, announces, rfl⟩ := Option.map_eq_some_iff.mp found
      cases directive with
      | announce k task' =>
        simp only [taskAt, TaskDirective.height, if_true, Option.some.injEq] at announces
        rw [announces]
        rfl
      | skip => cases announces
      | tipReport => cases announces

/-- What a subscriber after every request shows of one height. -/
structure Desk.Probed (desk : Desk T) (height : Nat) : Prop where
  /-- The current reply has been told. -/
  asked : ∀ answer, reply desk.book height = some answer → answer ∈ desk.told height
  /-- While no directive lies above the height, what is recorded for it has been
  told. -/
  own : passed desk.delivered height = false →
    ∀ d, recorded desk.delivered height = some d → resolution d ∈ desk.told height

omit [DecidableEq T] in
theorem reply_congr {book book' : TaskBook T Nat} (height : Nat) (log : book.directives = book'.directives)
    (highest : book.maxSeen = book'.maxSeen) : reply book height = reply book' height := by
  unfold reply
  rw [log, highest]

theorem Desk.Probed.next (sound : desk.Sound) (probed : desk.Probed height) (request : Request T) :
    ((desk.handle request).handle (.subscribe height)).Probed height := by
  have same := (desk.handle request).sameLog_subscribe height
  have replies := reply_congr height same.directives same.maxSeen
  have asked : ∀ answer, reply (desk.handle request).book height = some answer →
      answer ∈ ((desk.handle request).handle (.subscribe height)).told height := by
    intro answer answers
    rw [Desk.told_subscribe answers]
    exact List.mem_append_right _ (List.mem_singleton.mpr rfl)
  refine ⟨fun answer answers => asked answer (replies ▸ answers), ?_⟩
  rw [same.delivered]
  intro unpassed d found
  obtain ⟨more, told⟩ := desk.told_serve sound [request, .subscribe height] height
  have earlier : ∀ d, passed desk.delivered height = false →
      recorded desk.delivered height = some d →
      resolution d ∈ ((desk.handle request).handle (.subscribe height)).told height := by
    intro d unpassed found
    exact told ▸ List.mem_append_left more (probed.own unpassed d found)
  have grown : (desk.handle request).delivered = desk.delivered ++ request.delivers := rfl
  rw [grown] at unpassed found
  cases delivers : request.delivers with
  | nil =>
    rw [delivers, List.append_nil] at unpassed found
    exact earlier d unpassed found
  | cons directive rest =>
    -- Only a directive is delivered, and it comes alone.
    cases request with
    | directive directive' =>
      simp only [Request.delivers] at delivers
      split at delivers
      · cases delivers
      · rename_i report
        cases delivers
        have real : directive.isTipReport = false := Bool.eq_false_iff.mpr report
        simp only [Request.delivers, real, Bool.false_eq_true, if_false] at unpassed found
        rw [passed_append, Bool.or_eq_false_iff] at unpassed
        by_cases changed : recorded (desk.delivered ++ [directive]) height =
            recorded desk.delivered height
        · exact earlier d unpassed.1 (changed ▸ found)
        · have here : directive.height = height := by
            by_contra elsewhere
            exact changed (recorded_append_elsewhere elsewhere)
          subst here
          obtain ⟨floors, follows⟩ := sound.follows
          have log := log_of_recorded_changed follows real unpassed.1 changed
          rw [recorded_changed changed found]
          exact asked _ (reply_of_recorded log)
    | subscribe => cases delivers
    | pruneBelow => cases delivers

theorem Desk.probed_serve (requests : List (Request T)) :
    (({} : Desk T).serve (probe height requests)).Probed height := by
  induction requests using List.reverseRecOn with
  | nil =>
    constructor
    · intro answer answers
      cases answers
    · intro _ d found
      cases found
  | append_singleton requests request ih =>
    have next := ih.next (Desk.Sound.empty.serve _) request
    simpa [probe, Desk.serve] using next

theorem Desk.inOrder_of_splits
    (splits : ∀ before request after, requests = before ++ request :: after →
      (desk.serve before).inOrder request) : desk.InOrder requests := by
  induction requests generalizing desk with
  | nil => trivial
  | cons request requests ih =>
    refine ⟨splits [] request requests rfl, ih fun before request' after split => ?_⟩
    exact splits (request :: before) request' after (by rw [split]; rfl)

/-- An announcement that is recorded out of order finds a subscriber that was
told otherwise. -/
theorem Desk.Probed.contradicted {task : T} (probed : desk.Probed height) (sound : desk.Sound)
    (disorder : desk.inOrder (.directive (.announce height task)) = false) :
    desk.records height ∧ ∃ answer ∈ desk.told height, answer ≠ .announce task := by
  simp only [Desk.inOrder, Bool.or_eq_false_iff, Bool.not_eq_false', Bool.and_eq_false_iff] at disorder
  obtain ⟨records, contradiction⟩ := disorder
  obtain ⟨floors, follows⟩ := sound.follows
  refine ⟨records, ?_⟩
  by_cases highest : desk.book.maxSeen.all (· ≤ height) = true
  · have unpassed := (highest_iff follows).mp highest
    rw [highest] at contradiction
    have other := contradiction.resolve_left (by simp)
    cases found : recorded desk.delivered height with
    | none => simp [found] at other
    | some d =>
      refine ⟨resolution d, probed.own unpassed d found, fun same => ?_⟩
      have named := (recorded_mem found).2
      have different : d ≠ .announce height task := by simpa [found] using other
      cases d with
      | announce k task' =>
        cases same
        exact different (congrArg (TaskDirective.announce · task) named)
      | skip => cases same
      | tipReport => cases same
  · refine ⟨.skip, probed.asked .skip ?_, by simp⟩
    simp only [Desk.records, Bool.and_eq_true, Option.isNone_iff_eq_none] at records
    cases seen : desk.book.maxSeen with
    | none => simp [seen] at highest
    | some m => exact reply_of_passed records.1 seen (by simpa [seen] using highest)

/-- The next subscriber of a height is told the announcement that is recorded
for it. -/
theorem Desk.reply_of_records (task : T) (records : desk.records height) :
    reply (desk.handle (.directive (.announce height task))).book height = some (.announce task) := by
  simp only [Desk.records, Bool.and_eq_true, Option.isNone_iff_eq_none, Bool.not_eq_true'] at records
  have stored : desk.book.handleDirective (.announce height task) =
      desk.book.record (.announce height task) := by
    simp [handleDirective, TaskDirective.isTipReport, TaskDirective.height, records]
  simp only [Desk.handle, Request.asked, TaskBook.handle]
  rw [stored]
  exact record_reply (TaskDirective.announce height task)

theorem Desk.inOrder_of_steady
    (steady : ∀ height, Steady ((({} : Desk T).serve (probe height requests)).told height)) :
    ({} : Desk T).InOrder requests := by
  apply Desk.inOrder_of_splits
  rintro before request after rfl
  cases request with
  | subscribe => rfl
  | pruneBelow => rfl
  | directive directive =>
    cases directive with
    | skip => rfl
    | tipReport => rfl
    | announce height task =>
      by_contra disorder
      rw [← (Desk.sameLog_probe height before).inOrder, Bool.not_eq_true] at disorder
      have sound := Desk.Sound.empty.serve (T := T) (probe height before)
      obtain ⟨records, answer, earlier, other⟩ :=
        (Desk.probed_serve before).contradicted sound disorder
      obtain ⟨new, told, -⟩ := told_handle sound (.directive (.announce height task)) height
      have asked := Desk.told_subscribe (Desk.reply_of_records task records)
      obtain ⟨more, all⟩ := Desk.told_serve
        ((sound.handle (.directive (.announce height task))).handle (.subscribe height))
        (probe height after) height
      have whole := steady height
      have shape : ({} : Desk T).serve (probe height (before ++ .directive (.announce height task) :: after)) =
          (((({} : Desk T).serve (probe height before)).handle
            (.directive (.announce height task))).handle (.subscribe height)).serve
              (probe height after) := by
        simp [probe, Desk.serve]
      rw [shape, all, asked, told, Steady, List.pairwise_append, List.pairwise_append] at whole
      have clash := whole.1.2.2 answer (List.mem_append_left _ earlier) _ (List.mem_singleton.mpr rfl)
      rcases clash with skip | same
      · cases skip
      · exact other same.symm

end Backward

/-- **When a height's answers are steady.** However subscriptions are placed
among the directives and floors, each height is told one task and then only
skips, exactly when no announcement is recorded against an earlier directive. -/
theorem answers_steady_iff_in_order (requests : List (Request T)) :
    (∀ placed : List (Request T), feed placed = feed requests →
      ∀ height, Steady ((({} : Desk T).serve placed).told height)) ↔
    ({} : Desk T).InOrder requests := by
  constructor
  · intro steady
    exact Desk.inOrder_of_steady fun height => steady _ (feed_probe requests) height
  · intro orderly placed same height
    rw [Desk.inOrder_feed .refl, ← same, ← Desk.inOrder_feed .refl] at orderly
    exact (orderly.settled .empty .empty).steady

/-- Height 5 is passed over and its subscriber told to skip; its announcement
then comes late, is recorded, and the next subscriber is told the task. -/
theorem late_announcement_takes_back_skip :
    ¬ ∀ (requests : List (Request Unit)) (height : Nat),
      Steady ((({} : Desk Unit).serve requests).told height) := by
  intro steady
  have flipped := steady [.directive (.announce 6 ()), .subscribe 5, .directive (.announce 5 ()),
    .subscribe 5] 5
  revert flipped
  decide +kernel

end Restaking.TaskBook
