import Restaking.TaskBook

/-! What a subscriber of the TaskBook is told, as a function of the directives
delivered so far and of nothing the actor prunes, overrides or drops.
`verdict` is that function. `Follows` relates the actor's log to the whole
history of directives: for the heights above both pruning floors the log holds
exactly what `recorded` says. A parked subscriber is one whose verdict is still
open (`parked_directive`), so the pruned and incremental actor answers as the
closed form does. -/
namespace Restaking.TaskBook
open Lib

variable {T ρ : Type*} [DecidableEq T]

/-! ### The closed form -/

/-- The task of a directive that announces one for this height. -/
def taskAt (height : Nat) : TaskDirective T → Option T
  | .announce height' task => if height' = height then some task else none
  | _ => none

/-- The task of the first announcement of a height. -/
def firstAnnounced (directives : List (TaskDirective T)) (height : Nat) : Option T :=
  directives.findSome? (taskAt height)

/-- The directive that decides a height by itself: a skip if there is one,
otherwise the first announcement. -/
def recorded (directives : List (TaskDirective T)) (height : Nat) : Option (TaskDirective T) :=
  if .skip height ∈ directives then some (.skip height)
  else (firstAnnounced directives height).map (.announce height)

/-- A directive for a higher height: evidence the router moved past this one. -/
def passed (directives : List (TaskDirective T)) (height : Nat) : Bool :=
  directives.any (height < ·.height)

/-- The skip rules: the height's own directive if it has one, otherwise skip as
soon as a higher height has one. -/
def verdict (directives : List (TaskDirective T)) (height : Nat) : Option (Resolution T) :=
  match recorded directives height with
  | some directive => some (resolution directive)
  | none => if passed directives height then some .skip else none

section ClosedForm

variable {directives : List (TaskDirective T)} {directive : TaskDirective T} {height : Nat}

theorem recorded_append : recorded (directives ++ [directive]) height =
    if directive = .skip height then some (.skip height)
    else (recorded directives height).or ((taskAt height directive).map (.announce height)) := by
  by_cases skips : directive = .skip height
  · simp [recorded, skips]
  · by_cases skipped : .skip height ∈ directives
    · simp [recorded, skipped, skips]
    · have absent : .skip height ∉ directives ++ [directive] := by
        simpa [skipped] using Ne.symm skips
      simp only [recorded, if_neg absent, if_neg skipped, if_neg skips, firstAnnounced,
        List.findSome?_append]
      cases List.findSome? (taskAt height) directives <;> simp

theorem recorded_append_elsewhere (other : directive.height ≠ height) :
    recorded (directives ++ [directive]) height = recorded directives height := by
  rw [recorded_append]
  cases directive with
  | announce height' task =>
    have apart : height' ≠ height := other
    simp [taskAt, apart]
  | skip height' =>
    have apart : height' ≠ height := other
    simp [taskAt, apart]
  | tipReport height' => simp [taskAt]

theorem recorded_append_first (fresh : recorded directives directive.height = none)
    (real : directive.isTipReport = false) :
    recorded (directives ++ [directive]) directive.height = some directive := by
  rw [recorded_append, fresh]
  cases directive with
  | announce => simp [TaskDirective.height, taskAt]
  | skip => simp [TaskDirective.height]
  | tipReport => cases real

omit [DecidableEq T] in
theorem passed_append :
    passed (directives ++ [directive]) height = (passed directives height || height < directive.height) := by
  simp [passed]

theorem recorded_mem (found : recorded directives height = some directive) :
    directive ∈ directives ∧ directive.height = height := by
  unfold recorded at found
  split at found
  · rename_i member
    cases found
    exact ⟨member, rfl⟩
  · obtain ⟨task, first, rfl⟩ := Option.map_eq_some_iff.mp found
    obtain ⟨source, member, announced⟩ := List.exists_of_findSome?_eq_some first
    cases source with
    | announce height' task' =>
      simp only [taskAt, Option.ite_none_right_eq_some, Option.some.injEq] at announced
      obtain ⟨rfl, rfl⟩ := announced
      exact ⟨member, rfl⟩
    | skip => cases announced
    | tipReport => cases announced

/-- An undecided height has no directive of its own, and none lies above it. -/
theorem verdict_eq_none_iff (real : ∀ d ∈ directives, d.isTipReport = false) :
    verdict directives height = none ↔ ∀ d ∈ directives, d.height < height := by
  have unrecorded : recorded directives height = none ↔ ∀ d ∈ directives, d.height ≠ height := by
    constructor
    · intro absent d member named
      unfold recorded at absent
      split at absent
      · cases absent
      · rename_i noSkip
        have silent := List.findSome?_eq_none_iff.mp (Option.map_eq_none_iff.mp absent) d member
        cases d with
        | announce height' task => simp [taskAt, show height' = height from named] at silent
        | skip height' =>
          obtain rfl : height' = height := named
          exact noSkip member
        | tipReport => exact absurd (real _ member) (by simp [TaskDirective.isTipReport])
    · intro apart
      by_contra found
      obtain ⟨d, found⟩ := Option.ne_none_iff_exists'.mp found
      exact apart d (recorded_mem found).1 (recorded_mem found).2
  have unpassed : passed directives height = false ↔ ∀ d ∈ directives, d.height ≤ height := by
    simp [passed]
  unfold verdict
  split
  · rename_i d found
    simp only [reduceCtorEq, false_iff, not_forall]
    exact ⟨d, (recorded_mem found).1, by simp [(recorded_mem found).2]⟩
  · rename_i absent
    simp only [ite_eq_right_iff, reduceCtorEq, imp_false, Bool.not_eq_true, unpassed]
    have apart := unrecorded.mp absent
    exact ⟨fun below d member => lt_of_le_of_ne (below d member) (apart d member),
      fun below d member => (below d member).le⟩

end ClosedForm

/-! ### The log follows the history -/

/-- Neither the highest directive nor a requested floor has moved the pruning
past this height. -/
def RetainedBy (book : TaskBook T ρ) (floors : List Nat) (height : Nat) : Prop :=
  book.maxSeen.getD 0 - pruneSlack ≤ height ∧ ∀ floor ∈ floors, floor ≤ height

/-- The actor's log after these directives and floors. -/
structure Follows (directives : List (TaskDirective T)) (floors : List Nat)
    (book : TaskBook T ρ) : Prop where
  /-- Tip reports are not part of the history. -/
  real : ∀ d ∈ directives, d.isTipReport = false
  /-- `max_seen` is unset only before the first directive. -/
  unseen : book.maxSeen = none → directives = []
  /-- `max_seen` is the height of some directive. -/
  attained : ∀ m, book.maxSeen = some m → ∃ d ∈ directives, d.height = m
  /-- `max_seen` bounds every directive. -/
  bound : ∀ m, book.maxSeen = some m → ∀ d ∈ directives, d.height ≤ m
  /-- The log holds nothing but delivered directives, under their own height. -/
  sound : ∀ k d, book.directives.get? k = some d → d ∈ directives ∧ d.height = k
  /-- Above the floors the log holds what the closed form says. -/
  exact : ∀ k, RetainedBy book floors k → book.directives.get? k = recorded directives k

theorem follows_empty : Follows ([] : List (TaskDirective T)) [] ({} : TaskBook T ρ) where
  real := by simp
  unseen _ := rfl
  attained := by simp
  bound := by simp
  sound := by simp
  exact := by simp [recorded, firstAnnounced]

section Record

variable {book : TaskBook T ρ} {directive : TaskDirective T} {k : Nat}

omit [DecidableEq T] in
theorem record_maxSeen : (book.record directive).1.maxSeen =
    if book.maxSeen.all (· < directive.height) then some directive.height else book.maxSeen := by
  unfold record
  split <;> simp_all [prune, store]

omit [DecidableEq T] in
theorem record_directives : (book.record directive).1.directives.get? k =
    if book.maxSeen.all (· < directive.height) ∧ k < directive.height - pruneSlack then none
    else if k = directive.height then some directive else book.directives.get? k := by
  unfold record
  by_cases higher : book.maxSeen.all (· < directive.height) = true
  · by_cases kept : k < directive.height - pruneSlack
    · simp [prune, higher, kept, not_le.mpr kept]
    · simp [prune, store, higher, kept, not_lt.mp kept]
  · simp [store, higher]

omit [DecidableEq T] in
theorem record_waiters : (book.record directive).1.waiters =
    if book.maxSeen.all (· < directive.height) then
      ((book.store directive).sweep directive.height).1
    else book.waiters.erase directive.height := by
  unfold record
  split <;> simp_all [prune, store]

omit [DecidableEq T] in
theorem record_answers : (book.record directive).2 =
    sendAll (book.waiters.getD directive.height []) (resolution directive) ++
      if book.maxSeen.all (· < directive.height) then
        ((book.store directive).sweep directive.height).2
      else [] := by
  unfold record
  split <;> simp_all

end Record

/-! What each outcome does to one height's entry, given that the entry was what
the closed form says. -/

section Log

variable {directives : List (TaskDirective T)} {book : TaskBook T ρ} {directive : TaskDirective T}
variable {k : Nat}

omit [DecidableEq T] in
theorem record_maxSeen_le (book : TaskBook T ρ) (directive : TaskDirective T) :
    book.maxSeen.getD 0 ≤ (book.record directive).1.maxSeen.getD 0 := by
  rw [record_maxSeen]
  split
  · rename_i higher
    cases seen : book.maxSeen with
    | none => simp
    | some m =>
      have above : m < directive.height := by simpa [seen] using higher
      simpa using above.le
  · exact le_rfl

theorem record_log (own : book.directives.get? k = recorded directives k)
    (real : directive.isTipReport = false)
    (fresh : book.directives.get? directive.height = none)
    (retained : (book.record directive).1.maxSeen.getD 0 - pruneSlack ≤ k) :
    (book.record directive).1.directives.get? k = recorded (directives ++ [directive]) k := by
  have kept : ¬ (book.maxSeen.all (· < directive.height) = true ∧
      k < directive.height - pruneSlack) := by
    rintro ⟨higher, below⟩
    rw [record_maxSeen, if_pos higher, Option.getD_some] at retained
    omega
  rw [record_directives, if_neg kept]
  split
  · rename_i here
    subst here
    exact (recorded_append_first (own.symm.trans fresh) real).symm
  · rename_i apart
    rw [recorded_append_elsewhere (Ne.symm apart)]
    exact own

theorem override_log (own : book.directives.get? k = recorded directives k)
    (skips : directive.isSkip) :
    (book.override directive).1.directives.get? k = recorded (directives ++ [directive]) k := by
  have isSkip : directive = .skip directive.height := by
    cases directive <;> first | rfl | cases skips
  simp only [override, store, OrderedMap.get?_insert]
  split
  · rename_i here
    subst here
    rw [recorded_append, if_pos isSkip, ← isSkip]
  · rename_i apart
    rw [recorded_append_elsewhere (Ne.symm apart)]
    exact own

end Log

section Follows

variable {directives : List (TaskDirective T)} {floors : List Nat} {book : TaskBook T ρ}
variable {directive : TaskDirective T} {height : Nat}

theorem Follows.of_same_log {book' : TaskBook T ρ} (follows : Follows directives floors book)
    (sameLog : book'.directives = book.directives) (sameMax : book'.maxSeen = book.maxSeen) :
    Follows directives floors book' where
  real := follows.real
  unseen := by simpa only [sameMax] using follows.unseen
  attained := by simpa only [sameMax] using follows.attained
  bound := by simpa only [sameMax] using follows.bound
  sound := by simpa only [sameLog] using follows.sound
  exact := by simpa only [RetainedBy, sameMax, sameLog] using follows.exact

theorem follows_prune (follows : Follows directives floors book) (floor : Nat) :
    Follows directives (floor :: floors) (book.prune floor) where
  real := follows.real
  unseen := follows.unseen
  attained := follows.attained
  bound := follows.bound
  sound k d found := by
    simp only [prune, OrderedMap.get?_splitOff, Option.ite_none_right_eq_some] at found
    exact follows.sound k d found.2
  exact k retained := by
    have above : floor ≤ k := retained.2 floor List.mem_cons_self
    have kept : RetainedBy book floors k :=
      ⟨retained.1, fun f member => retained.2 f (List.mem_cons_of_mem _ member)⟩
    simpa [prune, above] using follows.exact k kept

/-- A directive that changes neither the log nor `max_seen` is one the closed
form already accounts for. -/
theorem follows_ignored (follows : Follows directives floors book)
    (real : directive.isTipReport = false)
    (below : ∃ m, book.maxSeen = some m ∧ directive.height ≤ m)
    (settled : ∀ k, RetainedBy book floors k →
      recorded (directives ++ [directive]) k = recorded directives k) :
    Follows (directives ++ [directive]) floors book where
  real d member := by
    rcases List.mem_append.mp member with old | new
    · exact follows.real d old
    · simpa [List.mem_singleton.mp new] using real
  unseen absent := by
    obtain ⟨m, seen, -⟩ := below
    simp [seen] at absent
  attained m seen := by
    obtain ⟨d, member, named⟩ := follows.attained m seen
    exact ⟨d, List.mem_append_left _ member, named⟩
  bound m seen d member := by
    obtain ⟨m', seen', within⟩ := below
    rcases List.mem_append.mp member with old | new
    · exact follows.bound m seen d old
    · rw [seen] at seen'
      cases seen'
      simpa [List.mem_singleton.mp new] using within
  sound k d found :=
    ⟨List.mem_append_left _ (follows.sound k d found).1, (follows.sound k d found).2⟩
  exact k retained := by rw [settled k retained, follows.exact k retained]

/-- A recorded height lies at or below `max_seen`. -/
theorem Follows.seen_of_recorded (follows : Follows directives floors book)
    (found : book.directives.get? height = some directive) :
    ∃ m, book.maxSeen = some m ∧ height ≤ m := by
  obtain ⟨member, named⟩ := follows.sound _ _ found
  cases seen : book.maxSeen with
  | none => simp [follows.unseen seen] at member
  | some m => exact ⟨m, rfl, named ▸ follows.bound m seen _ member⟩

theorem follows_record (follows : Follows directives floors book)
    (real : directive.isTipReport = false)
    (fresh : book.directives.get? directive.height = none) :
    Follows (directives ++ [directive]) floors (book.record directive).1 where
  real d member := by
    rcases List.mem_append.mp member with old | new
    · exact follows.real d old
    · simpa [List.mem_singleton.mp new] using real
  unseen absent := by
    rw [record_maxSeen] at absent
    split at absent
    · cases absent
    · rename_i lower
      simp [absent] at lower
  attained m seen := by
    rw [record_maxSeen] at seen
    split at seen
    · cases seen
      exact ⟨directive, by simp, rfl⟩
    · obtain ⟨d, member, named⟩ := follows.attained m seen
      exact ⟨d, List.mem_append_left _ member, named⟩
  bound m seen d member := by
    rw [record_maxSeen] at seen
    rcases List.mem_append.mp member with old | new
    · split at seen
      · rename_i higher
        cases seen
        cases before : book.maxSeen with
        | none => simp [follows.unseen before] at old
        | some m' =>
          have above : m' < directive.height := by simpa [before] using higher
          exact (follows.bound m' before d old).trans above.le
      · exact follows.bound m seen d old
    · rw [List.mem_singleton.mp new]
      split at seen
      · exact (Option.some.inj seen).le
      · rename_i lower
        simpa [seen] using lower
  sound k d found := by
    rw [record_directives] at found
    split at found
    · cases found
    · split at found
      · cases found
        rename_i here
        exact ⟨by simp, here.symm⟩
      · exact ⟨List.mem_append_left _ (follows.sound k d found).1, (follows.sound k d found).2⟩
  exact k retained := by
    have before : RetainedBy book floors k :=
      ⟨(Nat.sub_le_sub_right (record_maxSeen_le book directive) _).trans retained.1, retained.2⟩
    exact record_log (follows.exact k before) real fresh retained.1

theorem follows_override {existing : TaskDirective T} (follows : Follows directives floors book)
    (found : book.directives.get? directive.height = some existing) (skips : directive.isSkip) :
    Follows (directives ++ [directive]) floors (book.override directive).1 := by
  obtain ⟨m, seen, within⟩ := follows.seen_of_recorded found
  have isSkip : directive = .skip directive.height := by
    cases directive <;> simp_all [TaskDirective.isSkip, TaskDirective.height]
  constructor
  · intro d member
    rcases List.mem_append.mp member with old | new
    · exact follows.real d old
    · rw [List.mem_singleton.mp new, isSkip]
      rfl
  · intro absent
    exact absurd seen (by simp [show book.maxSeen = none from absent])
  · intro m' seen'
    obtain ⟨d, member, named⟩ := follows.attained m' seen'
    exact ⟨d, List.mem_append_left _ member, named⟩
  · intro m' seen' d member
    obtain rfl : m = m' := Option.some.inj (seen.symm.trans seen')
    rcases List.mem_append.mp member with old | new
    · exact follows.bound m seen d old
    · simpa [List.mem_singleton.mp new] using within
  · intro k d stored
    simp only [override, store, OrderedMap.get?_insert] at stored
    split at stored
    · cases stored
      rename_i here
      exact ⟨by simp, here.symm⟩
    · exact ⟨List.mem_append_left _ (follows.sound k d stored).1, (follows.sound k d stored).2⟩
  · intro k retained
    exact override_log (follows.exact k retained) skips

/-- A directive the first-recorded rule keeps out does not change what is
recorded for its height. -/
theorem recorded_of_kept {existing : TaskDirective T}
    (old : recorded directives directive.height = some existing)
    (real : existing.isTipReport = false)
    (kept : existing = directive ∨ ¬ (existing.isAnnounce && directive.isSkip)) :
    recorded (directives ++ [directive]) directive.height = some existing := by
  rw [recorded_append, old]
  split
  · rename_i skips
    rcases kept with rfl | noOverride
    · rw [← skips]
    · have skip : directive.isSkip = true := by rw [skips]; rfl
      have named := (recorded_mem old).2
      cases existing with
      | announce => simp [TaskDirective.isAnnounce, skip] at noOverride
      | skip height' => exact congrArg (some <| TaskDirective.skip ·) named.symm
      | tipReport => cases real
  · rfl

/-- A directive that the log keeps its own entry against changes no height. -/
theorem recorded_append_kept {existing : TaskDirective T} {k : Nat}
    (reals : ∀ d ∈ directives, d.isTipReport = false)
    (found : book.directives.get? directive.height = some existing)
    (own : book.directives.get? k = recorded directives k)
    (kept : existing = directive ∨ ¬ (existing.isAnnounce && directive.isSkip)) :
    recorded (directives ++ [directive]) k = recorded directives k := by
  by_cases here : directive.height = k
  · subst here
    have old := own.symm.trans found
    rw [recorded_of_kept old (reals _ (recorded_mem old).1) kept, old]
  · exact recorded_append_elsewhere here

omit [DecidableEq T] in
theorem seen_of_belowHorizon (stale : book.belowHorizon height = true) :
    ∃ m, book.maxSeen = some m ∧ height < m - pruneSlack := by
  cases seen : book.maxSeen with
  | none => simp [belowHorizon, seen] at stale
  | some m => exact ⟨m, rfl, by simpa [belowHorizon, seen] using stale⟩

omit [DecidableEq T] in
/-- A directive below the prune horizon lies below every retained height. -/
theorem lt_of_belowHorizon {k : Nat} (stale : book.belowHorizon height = true)
    (retained : book.maxSeen.getD 0 - pruneSlack ≤ k) : height < k := by
  obtain ⟨m, seen, low⟩ := seen_of_belowHorizon stale
  rw [seen, Option.getD_some] at retained
  exact low.trans_le retained

theorem follows_directive (follows : Follows directives floors book)
    (real : directive.isTipReport = false) :
    Follows (directives ++ [directive]) floors (book.handleDirective directive).1 := by
  have handled := handleDirective_handled book real
  generalize book.handleDirective directive = outcome at handled ⊢
  cases handled with
  | kept existing found kept =>
    apply follows_ignored follows real (follows.seen_of_recorded found)
    intro k retained
    exact recorded_append_kept follows.real found (follows.exact k retained) kept
  | overridden existing found _ skips => exact follows_override follows found skips
  | stale _ stale =>
    obtain ⟨m, seen, low⟩ := seen_of_belowHorizon stale
    apply follows_ignored follows real ⟨m, seen, by omega⟩
    intro k retained
    exact recorded_append_elsewhere (lt_of_belowHorizon stale retained.1).ne
  | recorded fresh _ => exact follows_record follows real fresh

/-- The entry of a height that the directive leaves retained follows the
directives, wherever they start. -/
theorem directive_log {k : Nat} (own : book.directives.get? k = recorded directives k)
    (reals : ∀ d ∈ directives, d.isTipReport = false) (real : directive.isTipReport = false)
    (retained : (book.handleDirective directive).1.maxSeen.getD 0 - pruneSlack ≤ k) :
    (book.handleDirective directive).1.directives.get? k = recorded (directives ++ [directive]) k := by
  have handled := handleDirective_handled book real
  generalize book.handleDirective directive = outcome at handled retained ⊢
  cases handled with
  | kept existing found kept => exact own.trans (recorded_append_kept reals found own kept).symm
  | overridden _ _ _ skips => exact override_log own skips
  | stale _ stale =>
    exact own.trans (recorded_append_elsewhere (lt_of_belowHorizon stale retained).ne).symm
  | recorded fresh _ => exact record_log own real fresh retained

end Follows
end Restaking.TaskBook
