import Restaking.TaskBookState

/-! Who waits at a task book. Whoever waits, waits at a height that nothing has decided
yet: a directive at the height or above it tells everyone there. Unlike the documented
invariant this one holds in every state; it leaves out the highest directive's own
height, where a subscription may come after the directive was pruned. -/
namespace Restaking.TaskBook
open Lib

variable {T ρ : Type*} {book : TaskBook T ρ} {directive : TaskDirective T} {k : Nat}

/-- Whoever waits, waits at a height that has no directive and was not passed. -/
def WaitersOpen (book : TaskBook T ρ) : Prop :=
  ∀ k, Parked book k → book.directives.get? k = none ∧ ∀ m, book.maxSeen = some m → m ≤ k

/-- Skip rule 2 tells everyone who waits at a height that it sweeps. -/
theorem mem_passOver {directives : OrderedMap Nat (TaskDirective T)} {heights : List Nat}
    {waiters : OrderedMap Nat (List ρ)} {waiter : ρ} (swept : k ∈ heights)
    (undirected : directives.get? k = none) (waits : waiter ∈ waiters.getD k []) :
    (waiter, .skip) ∈ (passOver directives heights waiters).2 := by
  induction heights generalizing waiters with
  | nil => cases swept
  | cons height heights ih =>
    rw [passOver]
    by_cases here : k = height
    · subst here
      rw [undirected]
      exact List.mem_append_left _ (List.mem_map_of_mem waits)
    · have later := (List.mem_cons.mp swept).resolve_left here
      split
      · exact ih later waits
      · refine List.mem_append_right _ (ih later ?_)
        rwa [OrderedMap.getD_erase, if_neg here]

/-- Whoever waits at a height after a directive waited there before, and whoever does
not wait any more has been told. -/
theorem waiters_record : (book.record directive).1.waiters.getD k [] = book.waiters.getD k [] ∨
    (book.record directive).1.waiters.getD k [] = [] ∧
      ∀ waiter ∈ book.waiters.getD k [], ∃ told, (waiter, told) ∈ (book.record directive).2 := by
  rw [record_waiters, record_answers]
  by_cases own : k = directive.height
  · subst own
    refine .inr ⟨?_, fun waiter waits =>
      ⟨_, List.mem_append_left _ (List.mem_map_of_mem waits)⟩⟩
    split
    · rw [sweep, getD_passOver, store, OrderedMap.getD_erase, if_pos rfl, ite_self]
    · rw [OrderedMap.getD_erase, if_pos rfl]
  · have same : (book.store directive).waiters.getD k [] = book.waiters.getD k [] := by
      rw [store, OrderedMap.getD_erase, if_neg own]
    split
    · rw [sweep, getD_passOver, same]
      split
      · rename_i swept
        refine .inr ⟨rfl, fun waiter waits => ⟨.skip, List.mem_append_right _ ?_⟩⟩
        exact mem_passOver swept.1 swept.2 (same ▸ waits)
      · exact .inl rfl
    · exact .inl same

variable [DecidableEq T]

variable (book directive k) in
theorem waiters_directive :
    (book.handleDirective directive).1.waiters.getD k [] = book.waiters.getD k [] ∨
      (book.handleDirective directive).1.waiters.getD k [] = [] ∧
        ∀ waiter ∈ book.waiters.getD k [],
          ∃ told, (waiter, told) ∈ (book.handleDirective directive).2 := by
  cases report : directive.isTipReport with
  | true =>
    rw [handleDirective_tipReport book report]
    exact .inl rfl
  | false =>
    have handled := handleDirective_handled book report
    generalize book.handleDirective directive = outcome at handled ⊢
    cases handled with
    | kept | stale => exact .inl rfl
    | overridden =>
      rw [override, store, OrderedMap.getD_erase]
      split
      · rename_i own
        refine .inr ⟨rfl, fun waiter waits => ⟨.skip, List.mem_map_of_mem ?_⟩⟩
        exact own ▸ waits
      · exact .inl rfl
    | recorded => exact waiters_record

/-- Nobody waits at a directive's height, or below it, once it has been handled. -/
theorem waiters_cleared (opened : WaitersOpen book) (windowed : Windowed book)
    (real : directive.isTipReport = false) (reaches : k ≤ directive.height) :
    (book.handleDirective directive).1.waiters.getD k [] = [] := by
  have decided {m : Nat} (seen : book.maxSeen = some m) (passed : k < m) :
      book.waiters.getD k [] = [] := by
    by_contra parked
    exact absurd ((opened k parked).2 m seen) (Nat.not_le.mpr passed)
  -- a directive in the log is not above the highest one, so it clears what lies below it
  have logged {existing : TaskDirective T}
      (found : book.directives.get? directive.height = some existing) :
      book.waiters.getD k [] = [] := by
    obtain ⟨-, m, seen, -, highest⟩ := windowed _ _ found
    rcases Nat.lt_or_eq_of_le reaches with below | own
    · exact decided seen (below.trans_le highest)
    · by_contra parked
      have undirected := (opened k parked).1
      rw [own, found] at undirected
      cases undirected
  have handled := handleDirective_handled book real
  generalize book.handleDirective directive = outcome at handled ⊢
  cases handled with
  | kept _ found => exact logged found
  | overridden _ found =>
    rw [override, store, OrderedMap.getD_erase, logged found, ite_self]
  | stale _ below =>
    obtain ⟨m, seen, lower⟩ := seen_of_belowHorizon below
    exact decided seen (by omega)
  | recorded unlogged above =>
    rw [record_waiters]
    by_cases own : k = directive.height
    · subst own
      split
      · rw [sweep, getD_passOver, store, OrderedMap.getD_erase, if_pos rfl, ite_self]
      · rw [OrderedMap.getD_erase, if_pos rfl]
    have same : (book.store directive).waiters.getD k [] = book.waiters.getD k [] := by
      rw [store, OrderedMap.getD_erase, if_neg own]
    split
    · rw [sweep, getD_passOver, same]
      by_contra parked
      split at parked
      · exact parked rfl
      · rename_i unswept
        refine unswept ⟨List.mem_filter.mpr ⟨?_, decide_eq_true (by omega)⟩, ?_⟩
        · by_contra absent
          exact parked (same ▸ OrderedMap.getD_of_not_mem_keys absent)
        · simpa [store, own] using (opened k parked).1
    · rename_i lower
      rw [OrderedMap.getD_erase, if_neg own]
      cases seen : book.maxSeen with
      | none => simp [seen] at lower
      | some m =>
        have highest : directive.height ≤ m := by simpa [seen] using lower
        exact decided seen (by omega)

/-- A directive that was handled is not above the highest one. -/
theorem maxSeen_directive (windowed : Windowed book) (real : directive.isTipReport = false) :
    ∃ m, (book.handleDirective directive).1.maxSeen = some m ∧ directive.height ≤ m := by
  have handled := handleDirective_handled book real
  generalize book.handleDirective directive = outcome at handled ⊢
  cases handled with
  | kept _ found | overridden _ found =>
    obtain ⟨-, m, seen, -, highest⟩ := windowed _ _ found
    exact ⟨m, seen, highest⟩
  | stale _ below =>
    obtain ⟨m, seen, lower⟩ := seen_of_belowHorizon below
    exact ⟨m, seen, by omega⟩
  | recorded =>
    rw [record_maxSeen]
    split
    · exact ⟨_, rfl, le_rfl⟩
    · rename_i lower
      cases seen : book.maxSeen with
      | none => simp [seen] at lower
      | some m => exact ⟨m, rfl, by simpa [seen] using lower⟩

theorem WaitersOpen.directed (opened : WaitersOpen book) (windowed : Windowed book) :
    WaitersOpen (book.handleDirective directive).1 := by
  cases report : directive.isTipReport with
  | true =>
    rw [handleDirective_tipReport book report]
    exact opened
  | false =>
    intro k parked
    have before : Parked book k := by
      rcases waiters_directive book directive k with same | ⟨gone, -⟩
      · rw [Parked, ← same]
        exact parked
      · exact absurd gone parked
    have above : directive.height < k := by
      by_contra reaches
      exact parked (waiters_cleared opened windowed report (Nat.not_lt.mp reaches))
    obtain ⟨undirected, highest⟩ := opened k before
    have handled := handleDirective_handled book report
    generalize book.handleDirective directive = outcome at handled ⊢
    cases handled with
    | kept | stale => exact ⟨undirected, highest⟩
    | overridden => exact ⟨by simp [override, store, above.ne', undirected], highest⟩
    | recorded =>
      rw [record_directives, if_neg above.ne', undirected, ite_self, record_maxSeen]
      refine ⟨rfl, ?_⟩
      split
      · rintro m ⟨⟩
        exact above.le
      · exact highest

omit [DecidableEq T] in
theorem WaitersOpen.subscribe (opened : WaitersOpen book) {height : Nat} (responder : ρ) :
    WaitersOpen (book.handleSubscribe height responder).1 := by
  unfold handleSubscribe
  split
  · exact opened
  · rename_i undirected
    split
    · exact opened
    · rename_i unpassed
      intro k parked
      by_cases here : k = height
      · subst here
        refine ⟨undirected, fun m seen => ?_⟩
        have seen : book.maxSeen = some m := seen
        simpa [seen] using unpassed
      · exact opened k (by simpa [Parked, here] using parked)

omit [DecidableEq T] in
theorem WaitersOpen.prune (opened : WaitersOpen book) (floor : Nat) :
    WaitersOpen (book.prune floor) := fun k parked =>
  ⟨by simp [TaskBook.prune, (opened k parked).1], (opened k parked).2⟩

omit [DecidableEq T] in
variable (book k) in
/-- A subscriber waits or is told at once, and nobody else is concerned. -/
theorem waiters_subscribe (height : Nat) (responder : ρ) :
    book.waiters.getD k [] ⊆ (book.handleSubscribe height responder).1.waiters.getD k [] ∧
      (responder ∈ (book.handleSubscribe height responder).1.waiters.getD height [] ∨
        ∃ told, (responder, told) ∈ (book.handleSubscribe height responder).2) := by
  unfold handleSubscribe
  split
  · exact ⟨List.Subset.refl _, .inr ⟨_, List.mem_singleton_self _⟩⟩
  · split
    · exact ⟨List.Subset.refl _, .inr ⟨_, List.mem_singleton_self _⟩⟩
    · refine ⟨?_, .inl (by simp)⟩
      rw [OrderedMap.getD_insert]
      split
      · rename_i here
        subst here
        exact List.subset_append_left _ _
      · exact List.Subset.refl _

end Restaking.TaskBook
