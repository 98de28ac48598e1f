import Mathlib.Data.List.Perm.Subperm
import Restaking.Lib.Run
import Restaking.TaskBookSpec

/-! What holds of the TaskBook's own state in every run, whatever its mailbox
brings. The log lies in a window below the highest directive, which bounds its
size. A subscriber waits at a height without a directive; it waits above the
highest directive, too, unless a floor has made the log forget that directive and
a subscription for its height comes afterwards. -/
namespace Restaking.TaskBook
open Lib

variable {T ρ : Type*}

/-- One iteration of `run`, the answers aside. -/
def step [DecidableEq T] (book : TaskBook T ρ) (message : Message T ρ) : Option (TaskBook T ρ) :=
  some (book.handle message).1

/-- The book after these messages. -/
def run [DecidableEq T] (messages : List (Message T ρ)) : TaskBook T ρ :=
  messages.foldl (fun book message => (book.handle message).1) {}

section Run

variable [DecidableEq T] {messages : List (Message T ρ)} {message : Message T ρ}

theorem run_append : run (messages ++ [message]) = ((run messages).handle message).1 := by
  rw [run, List.foldl_append]
  rfl

/-- The messages lead to this book and to no other. -/
theorem run_step {first book : TaskBook T ρ} : Run step first messages book ↔
    book = messages.foldl (fun book message => (book.handle message).1) first := by
  induction messages generalizing first with
  | nil =>
    constructor
    · rintro ⟨⟩
      rfl
    · rintro rfl
      exact .nil
  | cons message messages ih =>
    constructor
    · rintro (_ | ⟨-, taken, rest⟩)
      cases taken
      exact ih.mp rest
    · intro same
      exact .cons trivial rfl (ih.mpr same)

end Run

/-! ### The log -/

/-- The entries are directives of the router for heights in a window that ends at
the highest directive. -/
def Windowed (book : TaskBook T ρ) : Prop :=
  ∀ k d, book.directives.get? k = some d → d.isTipReport = false ∧
    ∃ m, book.maxSeen = some m ∧ m - pruneSlack ≤ k ∧ k ≤ m

section Log

variable {book book' : TaskBook T ρ} {directive : TaskDirective T} {floor k : Nat}

theorem Windowed.init : Windowed ({} : TaskBook T ρ) := fun _ _ found => nomatch found

/-- Fewer entries under the same highest directive. -/
theorem Windowed.sub (windowed : Windowed book) (same : book'.maxSeen = book.maxSeen)
    (kept : ∀ k d, book'.directives.get? k = some d → book.directives.get? k = some d) :
    Windowed book' := by
  intro k d found
  rw [same]
  exact windowed k d (kept k d found)

theorem Windowed.prune (windowed : Windowed book) : Windowed (book.prune floor) := by
  refine windowed.sub rfl fun k d found => ?_
  simp only [TaskBook.prune, OrderedMap.get?_splitOff] at found
  exact (Option.ite_none_right_eq_some.mp found).2

theorem Windowed.override (windowed : Windowed book) {existing : TaskDirective T}
    (found : book.directives.get? directive.height = some existing) (skips : directive.isSkip) :
    Windowed (book.override directive).1 := by
  intro k d stored
  simp only [TaskBook.override, store, OrderedMap.get?_insert] at stored ⊢
  split at stored
  · rename_i here
    cases stored
    have real : directive.isTipReport = false := by
      cases directive <;> first | rfl | cases skips
    rw [here]
    exact ⟨real, (windowed _ _ found).2⟩
  · exact windowed k d stored

/-- Recording moves the window up and drops what falls out of it, or adds an entry
inside the window. -/
theorem Windowed.record (windowed : Windowed book) (real : directive.isTipReport = false)
    (above : ¬ book.belowHorizon directive.height) : Windowed (book.record directive).1 := by
  intro k d stored
  rw [record_directives] at stored
  rw [record_maxSeen]
  by_cases higher : book.maxSeen.all (· < directive.height) = true
  · rw [if_pos higher]
    obtain ⟨low, stored⟩ := Option.ite_none_left_eq_some.mp stored
    have inside : directive.height - pruneSlack ≤ k := not_lt.mp fun below => low ⟨higher, below⟩
    split at stored
    · rename_i here
      cases stored
      exact ⟨real, _, rfl, inside, here.le⟩
    · obtain ⟨real', m, seen, -, below⟩ := windowed k d stored
      have risen : m < directive.height := by simpa [seen] using higher
      exact ⟨real', _, rfl, inside, below.trans risen.le⟩
  · rw [if_neg higher]
    rw [if_neg fun both => higher both.1] at stored
    split at stored
    · rename_i here
      cases stored
      cases seen : book.maxSeen with
      | none => simp [seen] at higher
      | some m =>
        have within : directive.height ≤ m := by simpa [seen] using higher
        have retained : m - pruneSlack ≤ directive.height := by
          simpa [belowHorizon, seen] using above
        rw [here]
        exact ⟨real, m, rfl, retained, within⟩
    · exact windowed k d stored

variable [DecidableEq T]

theorem Windowed.handle (windowed : Windowed book) (message : Message T ρ) :
    Windowed (book.handle message).1 := by
  cases message with
  | directive directive =>
    cases report : directive.isTipReport with
    | true =>
      rw [TaskBook.handle, handleDirective_tipReport book report]
      exact windowed
    | false =>
      rw [TaskBook.handle]
      have handled := handleDirective_handled book report
      generalize book.handleDirective directive = outcome at handled ⊢
      cases handled with
      | kept | stale => exact windowed
      | overridden existing found _ skips => exact windowed.override found skips
      | recorded _ above => exact windowed.record report above
  | subscribe height responder =>
    refine windowed.sub ?_ fun k d found => ?_
    · rw [TaskBook.handle, handleSubscribe]
      split <;> [rfl; split <;> rfl]
    · rw [TaskBook.handle, handleSubscribe] at found
      split at found
      · exact found
      · split at found <;> exact found
  | pruneBelow floor => exact windowed.prune

/-- `max_seen` does not decrease. -/
theorem maxSeen_handle (message : Message T ρ) {m : Nat} (seen : book.maxSeen = some m) :
    ∃ m', (book.handle message).1.maxSeen = some m' ∧ m ≤ m' := by
  cases message with
  | directive directive =>
    cases report : directive.isTipReport with
    | true =>
      rw [TaskBook.handle, handleDirective_tipReport book report]
      exact ⟨m, seen, le_rfl⟩
    | false =>
      rw [TaskBook.handle]
      have handled := handleDirective_handled book report
      generalize book.handleDirective directive = outcome at handled ⊢
      cases handled with
      | kept | overridden | stale => exact ⟨m, seen, le_rfl⟩
      | recorded =>
        rw [record_maxSeen]
        split
        · rename_i higher
          have risen : m < directive.height := by simpa [seen] using higher
          exact ⟨_, rfl, risen.le⟩
        · exact ⟨m, seen, le_rfl⟩
  | subscribe height responder =>
    refine ⟨m, ?_, le_rfl⟩
    rw [TaskBook.handle, handleSubscribe]
    split <;> [exact seen; split <;> exact seen]
  | pruneBelow floor => exact ⟨m, seen, le_rfl⟩

theorem run_windowed (messages : List (Message T ρ)) : Windowed (run messages) := by
  have reached : Run step {} messages (run messages) := run_step.mpr rfl
  refine reached.preserves (fun book message book' windowed _ taken => ?_) Windowed.init
  cases taken
  exact windowed.handle message

theorem maxSeen_run (messages more : List (Message T ρ)) {m : Nat}
    (seen : (run messages).maxSeen = some m) :
    ∃ m', (run (messages ++ more)).maxSeen = some m' ∧ m ≤ m' := by
  let risen : TaskBook T ρ → Prop := fun book => ∃ m', book.maxSeen = some m' ∧ m ≤ m'
  have later : Run step (run messages) more (run (messages ++ more)) :=
    run_step.mpr List.foldl_append
  suffices kept : risen (run (messages ++ more)) from kept
  refine later.preserves (fun book message book' held _ taken => ?_) ⟨m, seen, le_rfl⟩
  cases taken
  obtain ⟨m', seen', low⟩ := held
  obtain ⟨m'', seen'', low'⟩ := maxSeen_handle message seen'
  exact ⟨m'', seen'', low.trans low'⟩

omit [DecidableEq T] in
/-- As many heights fit into the window as it is wide. -/
theorem Windowed.length_le (windowed : Windowed book) :
    book.directives.entries.length ≤ pruneSlack + 1 := by
  rw [← List.length_map (f := Prod.fst)]
  cases seen : book.maxSeen with
  | none =>
    have empty : book.directives.keys = [] := by
      refine List.eq_nil_iff_forall_not_mem.mpr fun k member => ?_
      obtain ⟨d, found⟩ := OrderedMap.mem_keys_iff.mp member
      obtain ⟨-, m, named, -⟩ := windowed k d found
      rw [seen] at named
      cases named
    exact (congrArg List.length empty).trans_le (Nat.zero_le _)
  | some m =>
    have distinct : book.directives.keys.Nodup :=
      List.pairwise_map.mpr (book.directives.sorted.imp fun below => below.ne)
    have inside : book.directives.keys ⊆ List.range' (m - pruneSlack) (pruneSlack + 1) := by
      intro k member
      obtain ⟨d, found⟩ := OrderedMap.mem_keys_iff.mp member
      obtain ⟨-, m', named, low, high⟩ := windowed k d found
      rw [seen] at named
      cases named
      exact List.mem_range'_1.mpr ⟨low, by omega⟩
    exact (distinct.subperm inside).length_le.trans_eq List.length_range'

/-- **The log is bounded.** Whatever the mailbox brings, every entry is an
announcement or a skip for a height in the window below the highest directive,
the window only moves up, and the log holds no more entries than the window has
heights. -/
theorem log_bounded (messages : List (Message T ρ)) :
    (∀ k d, (run messages).directives.get? k = some d → d.isTipReport = false ∧
      ∃ m, (run messages).maxSeen = some m ∧ m - pruneSlack ≤ k ∧ k ≤ m) ∧
    (∀ more m, (run messages).maxSeen = some m →
      ∃ m', (run (messages ++ more)).maxSeen = some m' ∧ m ≤ m') ∧
    (run messages).directives.entries.length ≤ pruneSlack + 1 :=
  ⟨run_windowed messages, fun more _ => maxSeen_run messages more, (run_windowed messages).length_le⟩

end Log

/-! ### The waiters -/

/-- A subscriber waits at this height. -/
def Parked (book : TaskBook T ρ) (height : Nat) : Prop := book.waiters.getD height [] ≠ []

/-- The documented invariant of the waiters: every parked height has no directive
and is above `max_seen`. -/
def WaitersAhead (book : TaskBook T ρ) : Prop :=
  ∀ h, Parked book h → book.directives.get? h = none ∧ ∀ m, book.maxSeen = some m → m < h

/-- The message is no subscription to the highest directive's own height after that
directive was pruned. -/
def AsksAhead (book : TaskBook T ρ) : Message T ρ → Prop
  | .subscribe height _ => ¬ (book.maxSeen = some height ∧ book.directives.get? height = none)
  | .directive _ | .pruneBelow _ => True

section Waiters

variable {book book' : TaskBook T ρ} {directive : TaskDirective T} {height k : Nat}
variable {directives : OrderedMap Nat (TaskDirective T)} {waiters : OrderedMap Nat (List ρ)}

/-- Skip rule 2 clears the swept heights without a directive. -/
theorem getD_passOver (heights : List Nat) : (passOver directives heights waiters).1.getD k [] =
    if k ∈ heights ∧ directives.get? k = none then [] else waiters.getD k [] := by
  induction heights generalizing waiters with
  | nil => simp [passOver]
  | cons h heights ih =>
    rw [passOver]
    split
    · rename_i directed
      rw [ih]
      by_cases here : k = h
      · subst here
        simp [Option.ne_none_iff_isSome.mpr directed]
      · simp [here]
    · rename_i undirected
      dsimp only
      rw [ih, OrderedMap.getD_erase]
      by_cases here : k = h
      · subst here
        simp [show directives.get? k = none by simpa using undirected]
      · simp [here]

theorem WaitersAhead.init : WaitersAhead ({} : TaskBook T ρ) := fun _ parked => (parked rfl).elim

theorem parked_store (parked : Parked (book.store directive) k) :
    k ≠ directive.height ∧ Parked book k := by
  simp only [Parked, store, OrderedMap.getD_erase] at parked
  split at parked
  · exact (parked rfl).elim
  · rename_i apart
    exact ⟨apart, parked⟩

theorem WaitersAhead.override (ahead : WaitersAhead book) :
    WaitersAhead (book.override directive).1 := by
  intro h parked
  obtain ⟨apart, parked⟩ := parked_store parked
  obtain ⟨undirected, above⟩ := ahead h parked
  exact ⟨by simpa [TaskBook.override, store, apart] using undirected, above⟩

/-- Whoever still waits after a directive waits at a height above it, or had
waited above `max_seen` before. -/
theorem WaitersAhead.record (ahead : WaitersAhead book) :
    WaitersAhead (book.record directive).1 := by
  have undirected {h : Nat} (parked : Parked book h) (apart : h ≠ directive.height) :
      (book.record directive).1.directives.get? h = none := by
    rw [record_directives, if_neg apart, (ahead h parked).1, ite_self]
  intro h parked
  rw [Parked, record_waiters] at parked
  rw [record_maxSeen]
  by_cases higher : book.maxSeen.all (· < directive.height) = true
  · rw [if_pos higher] at parked ⊢
    rw [sweep, getD_passOver] at parked
    split at parked
    · exact (parked rfl).elim
    · rename_i unswept
      obtain ⟨apart, before⟩ := parked_store parked
      refine ⟨undirected before apart, fun m named => ?_⟩
      cases named
      by_contra below
      have low : h < directive.height := lt_of_le_of_ne (not_lt.mp below) apart
      have waits : h ∈ (book.store directive).waiters.keys := by
        by_contra absent
        exact parked (OrderedMap.getD_of_not_mem_keys absent)
      have fresh : (book.store directive).directives.get? h = none := by
        simpa [store, apart] using (ahead h before).1
      exact unswept ⟨List.mem_filter.mpr ⟨waits, decide_eq_true low⟩, fresh⟩
  · rw [if_neg higher] at parked ⊢
    have stored : Parked (book.store directive) h := parked
    obtain ⟨apart, before⟩ := parked_store stored
    exact ⟨undirected before apart, (ahead h before).2⟩

/-- A subscription is the one message after which a subscriber may wait too low. -/
theorem waitersAhead_subscribe (ahead : WaitersAhead book) (responder : ρ) :
    WaitersAhead (book.handleSubscribe height responder).1 ↔
      ¬ (book.maxSeen = some height ∧ book.directives.get? height = none) := by
  unfold handleSubscribe
  split
  · rename_i found
    simp [ahead, found]
  · rename_i absent
    split
    · rename_i passed
      refine iff_of_true ahead fun both => ?_
      rw [both.1] at passed
      simp at passed
    · rename_i unpassed
      constructor
      · rintro ahead' ⟨seen, -⟩
        refine lt_irrefl height ((ahead' height ?_).2 height seen)
        simp [Parked]
      · intro above h parked
        by_cases here : h = height
        · subst here
          refine ⟨absent, fun m seen => lt_of_le_of_ne ?_ ?_⟩
          · have seen : book.maxSeen = some m := seen
            simpa [seen] using unpassed
          · rintro rfl
            exact above ⟨seen, absent⟩
        · exact ahead h (by simpa [Parked, here] using parked)

variable [DecidableEq T]

/-- What each message does to the invariant. -/
theorem waitersAhead_handle (ahead : WaitersAhead book) (message : Message T ρ) :
    WaitersAhead (book.handle message).1 ↔ AsksAhead book message := by
  cases message with
  | directive directive =>
    refine iff_of_true ?_ trivial
    cases report : directive.isTipReport with
    | true =>
      rw [TaskBook.handle, handleDirective_tipReport book report]
      exact ahead
    | false =>
      rw [TaskBook.handle]
      have handled := handleDirective_handled book report
      generalize book.handleDirective directive = outcome at handled ⊢
      cases handled with
      | kept | stale => exact ahead
      | overridden => exact ahead.override
      | recorded => exact ahead.record
  | subscribe height responder => exact waitersAhead_subscribe ahead responder
  | pruneBelow floor =>
    refine iff_of_true (fun h parked => ?_) trivial
    obtain ⟨undirected, above⟩ := ahead h parked
    exact ⟨by simp [TaskBook.handle, prune, undirected], above⟩

/-- **Nobody waits at a decided height.** Over any messages, every parked height
has no directive and is above `max_seen` in all states, if and only if none of the
messages is a subscription to the highest directive's own height at a moment at
which a floor has pruned that directive. -/
theorem waiters_ahead_iff_asked_ahead (messages : List (Message T ρ)) :
    (∀ before after, messages = before ++ after → WaitersAhead (run before)) ↔
      RunWhere step AsksAhead {} messages (run messages) := by
  have whole : Run step {} messages (run messages) := run_step.mpr rfl
  have decided := always_iff_guarded (fun _ _ _ _ _ => trivial)
    (fun book message book' _ ahead taken => by
      cases taken
      exact waitersAhead_handle ahead message) whole trivial WaitersAhead.init
  refine Iff.trans ?_ decided
  constructor
  · intro always before after middle split reaches
    rw [run_step.mp reaches]
    exact always before after split
  · intro always before after split
    exact always before after (run before) split (run_step.mpr rfl)

/-- A skip is pruned by a floor above it; the next subscriber of its height waits. -/
theorem pruned_height_parked : ¬ WaitersAhead
    (run [.directive (.skip 5), .pruneBelow 6, .subscribe 5 ()] : TaskBook Unit Unit) :=
  fun ahead => lt_irrefl 5 ((ahead 5 (List.cons_ne_nil () [])).2 5 rfl)

end Waiters
end Restaking.TaskBook
