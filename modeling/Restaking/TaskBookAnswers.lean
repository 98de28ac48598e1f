import Restaking.TaskBookSpec

/-! Every subscriber of a retained height is answered exactly once, with the
verdict on the directives delivered so far, at the first step at which there is
one. The invariant is that a channel waits where its verdict is open, once, and
nowhere else; pruning, overriding and dropping stale directives never decide a
height that anyone is still waiting for. -/
namespace Restaking.TaskBook
open Lib

variable {T : Type*}

/-- What a list of answers tells one channel. -/
def toChannel (channel : Nat) (answers : List (Answer T Nat)) : List (Resolution T) :=
  answers.filterMap fun answer => if answer.1 = channel then some answer.2 else none

section ToChannel

variable {channel : Nat} {first second : List (Answer T Nat)} {waiters : List Nat}
variable {told : Resolution T}

@[simp] theorem toChannel_nil : toChannel channel ([] : List (Answer T Nat)) = [] := rfl

@[simp] theorem toChannel_append :
    toChannel channel (first ++ second) = toChannel channel first ++ toChannel channel second :=
  List.filterMap_append

theorem toChannel_sendAll :
    toChannel channel (sendAll waiters told) = List.replicate (waiters.count channel) told := by
  induction waiters with
  | nil => rfl
  | cons waiter rest ih =>
    by_cases here : waiter = channel
    · subst here
      simpa [toChannel, sendAll, List.replicate_succ] using ih
    · simpa [toChannel, sendAll, here] using ih

theorem toChannel_sendAll_of_not_mem (absent : channel ∉ waiters) :
    toChannel channel (sendAll waiters told) = [] := by
  rw [toChannel_sendAll, List.count_eq_zero_of_not_mem absent, List.replicate_zero]

end ToChannel

/-! ### The parked channels -/

/-- The channel waits once at this height and at no other. -/
def ParkedAt (waiters : OrderedMap Nat (List Nat)) (channel height : Nat) : Prop :=
  (waiters.getD height []).count channel = 1 ∧ ∀ k, k ≠ height → channel ∉ waiters.getD k []

/-- The channel waits nowhere. -/
def NotParked (waiters : OrderedMap Nat (List Nat)) (channel : Nat) : Prop :=
  ∀ k, channel ∉ waiters.getD k []

section Parked

variable {waiters : OrderedMap Nat (List Nat)} {channel height k : Nat}
variable {directives : OrderedMap Nat (TaskDirective T)} {heights : List Nat}

theorem NotParked.erase (absent : NotParked waiters channel) :
    NotParked (waiters.erase k) channel := by
  intro k'
  by_cases here : k' = k
  · simp [here]
  · simpa [here] using absent k'

theorem ParkedAt.erase_elsewhere (parked : ParkedAt waiters channel height) (apart : k ≠ height) :
    ParkedAt (waiters.erase k) channel height := by
  refine ⟨by simpa [Ne.symm apart] using parked.1, fun k' other => ?_⟩
  by_cases here : k' = k
  · simp [here]
  · simpa [here] using parked.2 k' other

theorem ParkedAt.erase_here (parked : ParkedAt waiters channel height) :
    NotParked (waiters.erase height) channel := by
  intro k
  by_cases here : k = height
  · simp [here]
  · simpa [here] using parked.2 k here

theorem ParkedAt.mem_keys (parked : ParkedAt waiters channel height) : height ∈ waiters.keys := by
  by_contra absent
  have counted := parked.1
  rw [OrderedMap.getD_of_not_mem_keys absent] at counted
  cases counted

theorem passOver_notParked (directives : OrderedMap Nat (TaskDirective T)) (heights : List Nat)
    (absent : NotParked waiters channel) :
    NotParked (passOver directives heights waiters).1 channel ∧
      toChannel channel (passOver directives heights waiters).2 = [] := by
  induction heights generalizing waiters with
  | nil => exact ⟨absent, rfl⟩
  | cons k rest ih =>
    simp only [passOver]
    split
    · exact ih absent
    · obtain ⟨after, silent⟩ := ih (absent.erase (k := k))
      exact ⟨after, by simp [toChannel_sendAll_of_not_mem (absent k), silent]⟩

/-- A channel parked at a height that is not swept, or that has a directive,
stays parked and hears nothing. -/
theorem passOver_stays (parked : ParkedAt waiters channel height)
    (kept : height ∈ heights → (directives.get? height).isSome) :
    ParkedAt (passOver directives heights waiters).1 channel height ∧
      toChannel channel (passOver directives heights waiters).2 = [] := by
  induction heights generalizing waiters with
  | nil => exact ⟨parked, rfl⟩
  | cons k rest ih =>
    have later : height ∈ rest → (directives.get? height).isSome :=
      fun member => kept (List.mem_cons_of_mem _ member)
    simp only [passOver]
    split
    · exact ih parked later
    · rename_i undirected
      have apart : k ≠ height := by
        rintro rfl
        exact undirected (kept List.mem_cons_self)
      obtain ⟨after, silent⟩ := ih (parked.erase_elsewhere apart) later
      exact ⟨after, by simp [toChannel_sendAll_of_not_mem (parked.2 k apart), silent]⟩

/-- A channel parked at a swept height without a directive is told to skip. -/
theorem passOver_skips (parked : ParkedAt waiters channel height) (swept : height ∈ heights)
    (undirected : directives.get? height = none) :
    NotParked (passOver directives heights waiters).1 channel ∧
      toChannel channel (passOver directives heights waiters).2 = [.skip] := by
  induction heights generalizing waiters with
  | nil => cases swept
  | cons k rest ih =>
    simp only [passOver]
    by_cases here : k = height
    · subst here
      obtain ⟨after, silent⟩ := passOver_notParked directives rest parked.erase_here
      simp [undirected, after, silent, toChannel_sendAll, parked.1]
    · have later : height ∈ rest := (List.mem_cons.mp swept).resolve_left (Ne.symm here)
      split
      · exact ih parked later
      · obtain ⟨after, told⟩ := ih (parked.erase_elsewhere here) later
        exact ⟨after, by simp [toChannel_sendAll_of_not_mem (parked.2 k here), told]⟩

variable {book : TaskBook T Nat} {directive : TaskDirective T}

theorem sweep_notParked (absent : NotParked book.waiters channel) :
    NotParked ((book.store directive).sweep k).1 channel ∧
      toChannel channel ((book.store directive).sweep k).2 = [] :=
  passOver_notParked _ _ absent.erase

end Parked

variable [DecidableEq T]

section Steps

variable {directives : List (TaskDirective T)} {floors : List Nat} {book : TaskBook T Nat}
variable {directive : TaskDirective T} {channel height : Nat}

omit [DecidableEq T] in
theorem record_notParked (absent : NotParked book.waiters channel) :
    NotParked (book.record directive).1.waiters channel ∧
      toChannel channel (book.record directive).2 = [] := by
  rw [record_waiters, record_answers, toChannel_append, toChannel_sendAll_of_not_mem (absent _)]
  split
  · simpa using sweep_notParked absent
  · exact ⟨absent.erase, rfl⟩

/-- A channel that waits nowhere is not told anything by a directive. -/
theorem notParked_directive (absent : NotParked book.waiters channel) :
    NotParked (book.handleDirective directive).1.waiters channel ∧
      toChannel channel (book.handleDirective directive).2 = [] := by
  cases real : directive.isTipReport with
  | true =>
    rw [handleDirective_tipReport book real]
    exact ⟨absent, rfl⟩
  | false =>
    have handled := handleDirective_handled book real
    generalize book.handleDirective directive = outcome at handled ⊢
    cases handled with
    | kept => exact ⟨absent, rfl⟩
    | overridden => exact ⟨absent.erase, toChannel_sendAll_of_not_mem (absent _)⟩
    | stale => exact ⟨absent, rfl⟩
    | recorded => exact record_notParked absent

/-- An undecided height lies above every directive, so the log has nothing
there and `max_seen` is below it. -/
theorem Follows.undecided (follows : Follows directives floors book)
    (undecided : verdict directives height = none) :
    book.directives.get? height = none ∧ ∀ m, book.maxSeen = some m → m < height := by
  have below := (verdict_eq_none_iff follows.real).mp undecided
  constructor
  · by_contra found
    obtain ⟨d, found⟩ := Option.ne_none_iff_exists'.mp found
    obtain ⟨member, named⟩ := follows.sound _ _ found
    exact (below d member).ne named
  · intro m seen
    obtain ⟨d, member, named⟩ := follows.attained m seen
    exact named ▸ below d member

theorem verdict_append_below (follows : Follows directives floors book)
    (undecided : verdict directives height = none) (real : directive.isTipReport = false)
    (below : directive.height < height) : verdict (directives ++ [directive]) height = none := by
  refine (verdict_eq_none_iff ?_).mpr ?_ <;> intro d member <;>
    rcases List.mem_append.mp member with old | new
  · exact follows.real d old
  · simpa [List.mem_singleton.mp new] using real
  · exact (verdict_eq_none_iff follows.real).mp undecided d old
  · simpa [List.mem_singleton.mp new] using below

/-- What one directive does to a parked channel whose verdict was open: it is
told the verdict the directive brings, and otherwise keeps waiting. -/
def Told (directives : List (TaskDirective T)) (height channel : Nat)
    (outcome : TaskBook T Nat × List (Answer T Nat)) : Prop :=
  toChannel channel outcome.2 = (verdict directives height).toList ∧
    (verdict directives height = none → ParkedAt outcome.1.waiters channel height) ∧
    (verdict directives height ≠ none → NotParked outcome.1.waiters channel)

theorem told_of_open {outcome : TaskBook T Nat × List (Answer T Nat)}
    (undecided : verdict directives height = none)
    (waits : ParkedAt outcome.1.waiters channel height)
    (silent : toChannel channel outcome.2 = []) : Told directives height channel outcome :=
  ⟨by rw [undecided, silent]; rfl, fun _ => waits, fun decided => absurd undecided decided⟩

theorem told_of_decided {outcome : TaskBook T Nat × List (Answer T Nat)} {told : Resolution T}
    (decided : verdict directives height = some told) (gone : NotParked outcome.1.waiters channel)
    (heard : toChannel channel outcome.2 = [told]) : Told directives height channel outcome :=
  ⟨by rw [decided, heard]; rfl, fun undecided => by simp [undecided] at decided, fun _ => gone⟩

omit [DecidableEq T] in
/-- A sweep below the channel's height passes it by. -/
theorem sweep_stays (parked : ParkedAt book.waiters channel height)
    (below : directive.height < height) :
    ParkedAt ((book.store directive).sweep directive.height).1 channel height ∧
      toChannel channel ((book.store directive).sweep directive.height).2 = [] := by
  apply passOver_stays (parked.erase_elsewhere below.ne)
  intro swept
  have under : height < directive.height := by simpa using (List.mem_filter.mp swept).2
  omega

omit [DecidableEq T] in
/-- A sweep above the channel's height resolves it, unless the height has a
directive. -/
theorem sweep_skips (parked : ParkedAt book.waiters channel height)
    (above : height < directive.height) (undirected : book.directives.get? height = none) :
    NotParked ((book.store directive).sweep directive.height).1 channel ∧
      toChannel channel ((book.store directive).sweep directive.height).2 = [.skip] := by
  have waits := parked.erase_elsewhere above.ne'
  apply passOver_skips waits (List.mem_filter.mpr ⟨waits.mem_keys, by simpa using above⟩)
  simp [store, above.ne, undirected]

theorem recorded_of_undecided (undecided : verdict directives height = none) :
    recorded directives height = none := by
  unfold verdict at undecided
  split at undecided
  · cases undecided
  · assumption

theorem told_record (follows : Follows directives floors book)
    (undecided : verdict directives height = none) (real : directive.isTipReport = false)
    (parked : ParkedAt book.waiters channel height) :
    Told (directives ++ [directive]) height channel (book.record directive) := by
  obtain ⟨unrecorded, lower⟩ := follows.undecided undecided
  have fresh := recorded_of_undecided undecided
  rcases lt_trichotomy directive.height height with below | here | above
  · -- A lower directive resolves its own subscribers and those below it.
    obtain ⟨waits, silent⟩ := sweep_stays parked below
    refine told_of_open (verdict_append_below follows undecided real below) ?_ ?_
    · rw [record_waiters]
      split
      · exact waits
      · exact parked.erase_elsewhere below.ne
    · rw [record_answers, toChannel_append, toChannel_sendAll_of_not_mem (parked.2 _ below.ne)]
      split
      · exact silent
      · rfl
  · subst here
    have decided : verdict (directives ++ [directive]) directive.height =
        some (resolution directive) := by
      rw [verdict, recorded_append_first fresh real]
    obtain ⟨gone, silent⟩ := passOver_notParked (book.store directive).directives
      ((book.store directive).waiters.keys.filter (· < directive.height)) parked.erase_here
    refine told_of_decided decided ?_ ?_
    · rw [record_waiters]
      split
      · exact gone
      · exact parked.erase_here
    · rw [record_answers, toChannel_append, toChannel_sendAll, parked.1]
      split
      · exact congrArg ([resolution directive] ++ ·) silent
      · rfl
  · -- A higher directive is the highest so far: skip rule 2.
    have higher : book.maxSeen.all (· < directive.height) = true := by
      cases seen : book.maxSeen with
      | none => rfl
      | some m => simpa [seen] using (lower m seen).trans above
    have decided : verdict (directives ++ [directive]) height = some .skip := by
      rw [verdict, recorded_append_elsewhere above.ne', fresh, passed_append]
      simp [above]
    obtain ⟨gone, heard⟩ := sweep_skips parked above unrecorded
    refine told_of_decided decided ?_ ?_
    · rw [record_waiters, if_pos higher]
      exact gone
    · rw [record_answers, if_pos higher, toChannel_append,
        toChannel_sendAll_of_not_mem (parked.2 _ above.ne')]
      exact heard

/-- One directive and a channel parked at a height without a verdict. -/
theorem told_directive (follows : Follows directives floors book)
    (undecided : verdict directives height = none) (real : directive.isTipReport = false)
    (parked : ParkedAt book.waiters channel height) :
    Told (directives ++ [directive]) height channel (book.handleDirective directive) := by
  obtain ⟨unrecorded, lower⟩ := follows.undecided undecided
  -- A directive the log already decided lies below every open height.
  have recordedBelow {existing : TaskDirective T}
      (found : book.directives.get? directive.height = some existing) :
      directive.height < height := by
    obtain ⟨m, seen, within⟩ := follows.seen_of_recorded found
    exact within.trans_lt (lower m seen)
  have handled := handleDirective_handled book real
  generalize book.handleDirective directive = outcome at handled ⊢
  cases handled with
  | kept _ found _ =>
    exact told_of_open (verdict_append_below follows undecided real (recordedBelow found)) parked rfl
  | overridden _ found _ _ =>
    have below := recordedBelow found
    exact told_of_open (verdict_append_below follows undecided real below)
      (parked.erase_elsewhere below.ne) (toChannel_sendAll_of_not_mem (parked.2 _ below.ne))
  | stale _ stale =>
    have below : directive.height < height := by
      cases seen : book.maxSeen with
      | none => simp [belowHorizon, seen] at stale
      | some m =>
        have low : directive.height < m - pruneSlack := by simpa [belowHorizon, seen] using stale
        have high := lower m seen
        omega
    exact told_of_open (verdict_append_below follows undecided real below) parked rfl
  | recorded => exact told_record follows undecided real parked

/-- A new subscription of a retained height is told the verdict at once, or
waits for it. -/
theorem told_subscribe (follows : Follows directives floors book)
    (retained : RetainedBy book floors height) (fresh : NotParked book.waiters channel) :
    Told directives height channel (book.handleSubscribe height channel) := by
  have log := follows.exact height retained
  unfold handleSubscribe
  split
  · rename_i directive found
    have decided : verdict directives height = some (resolution directive) := by
      rw [verdict, ← log, found]
    exact told_of_decided decided fresh (by simp [toChannel])
  · rename_i unrecorded
    have absent : recorded directives height = none := log.symm.trans unrecorded
    split
    · rename_i moved
      cases seen : book.maxSeen with
      | none => simp [seen] at moved
      | some m =>
        obtain ⟨d, member, named⟩ := follows.attained m seen
        have above : height < m := by simpa [seen] using moved
        have pass : passed directives height = true :=
          List.any_eq_true.mpr ⟨d, member, by simpa [named] using above⟩
        have decided : verdict directives height = some .skip := by simp [verdict, absent, pass]
        exact told_of_decided decided fresh (by simp [toChannel])
    · rename_i unmoved
      have noPass : passed directives height = false := by
        apply List.any_eq_false.mpr
        intro d member
        cases seen : book.maxSeen with
        | none => simp [follows.unseen seen] at member
        | some m =>
          have within := follows.bound m seen d member
          have notAbove : ¬ height < m := by simpa [seen] using unmoved
          simp; omega
      have undecided : verdict directives height = none := by simp [verdict, absent, noPass]
      refine told_of_open undecided ⟨?_, fun k apart => ?_⟩ rfl
      · simp [List.count_eq_zero_of_not_mem (fresh height)]
      · simpa [apart] using fresh k

end Steps

/-! ### Whole runs -/

/-- A mailbox message as a caller makes it; the actor answers the subscription
that is the `n`-th message on channel `n`. -/
inductive Request (T : Type*) where
  | directive (directive : TaskDirective T)
  | subscribe (height : Nat)
  | pruneBelow (floor : Nat)

/-- The message with its reply channel. -/
def Request.message (channel : Nat) : Request T → Message T Nat
  | directive d => .directive d
  | subscribe height => .subscribe height channel
  | pruneBelow floor => .pruneBelow floor

/-- The actor after the first `n` requests. -/
def bookAfter (requests : List (Request T)) : Nat → TaskBook T Nat
  | 0 => {}
  | n + 1 => match requests[n]? with
    | some request => ((bookAfter requests n).handle (request.message n)).1
    | none => bookAfter requests n

/-- The answers sent while processing the `n`-th request. -/
def answersAt (requests : List (Request T)) (n : Nat) : List (Answer T Nat) :=
  match requests[n]? with
  | some request => ((bookAfter requests n).handle (request.message n)).2
  | none => []

/-- The directives among the first `n` requests, tip reports removed. -/
def delivered (requests : List (Request T)) (n : Nat) : List (TaskDirective T) :=
  (requests.take n).filterMap fun
    | .directive directive => if directive.isTipReport then none else some directive
    | _ => none

/-- The pruning floors among the first `n` requests. -/
def floorsBefore (requests : List (Request T)) (n : Nat) : List Nat :=
  ((requests.take n).filterMap fun
    | .pruneBelow floor => some floor
    | _ => none).reverse

/-- The height is retained when the `n`-th request is processed: neither the
highest directive nor a requested floor has moved past it. -/
def Retained (requests : List (Request T)) (n height : Nat) : Prop :=
  RetainedBy (bookAfter requests n) (floorsBefore requests n) height

/-- The first step, from the subscription on, after which the height has a
verdict. -/
def FirstDecided (requests : List (Request T)) (subscribed height n : Nat) : Prop :=
  subscribed ≤ n ∧ verdict (delivered requests (n + 1)) height ≠ none ∧
    ∀ k, subscribed ≤ k → k < n → verdict (delivered requests (k + 1)) height = none

section Runs

variable {requests : List (Request T)} {request : Request T} {n channel height : Nat}

theorem bookAfter_succ (here : requests[n]? = some request) :
    bookAfter requests (n + 1) = ((bookAfter requests n).handle (request.message n)).1 := by
  simp [bookAfter, here]

omit [DecidableEq T] in
private theorem take_succ_of (here : requests[n]? = some request) :
    requests.take (n + 1) = requests.take n ++ [request] := by
  rw [List.take_add_one, here]
  rfl

omit [DecidableEq T] in
theorem delivered_succ (here : requests[n]? = some request) :
    delivered requests (n + 1) = delivered requests n ++ match request with
      | .directive directive => if directive.isTipReport then [] else [directive]
      | _ => [] := by
  rw [delivered, take_succ_of here, List.filterMap_append, ← delivered]
  cases request with
  | directive directive => cases report : directive.isTipReport <;> simp [report]
  | subscribe => rfl
  | pruneBelow => rfl

theorem follows_run (requests : List (Request T)) (n : Nat) :
    Follows (delivered requests n) (floorsBefore requests n) (bookAfter requests n) := by
  induction n with
  | zero => exact follows_empty
  | succ n ih =>
    cases here : requests[n]? with
    | none =>
      have ended : requests.take (n + 1) = requests.take n := by rw [List.take_add_one, here]; simp
      simpa [bookAfter, here, delivered, floorsBefore, ended] using ih
    | some request =>
      rw [bookAfter_succ here, delivered_succ here]
      cases request with
      | directive directive =>
        have floors : floorsBefore requests (n + 1) = floorsBefore requests n := by
          simp [floorsBefore, take_succ_of here]
        rw [floors]
        cases report : directive.isTipReport with
        | true =>
          simpa [handle, Request.message, handleDirective_tipReport _ report, report] using ih
        | false => simpa [handle, Request.message, report] using follows_directive ih report
      | subscribe height =>
        have floors : floorsBefore requests (n + 1) = floorsBefore requests n := by
          simp [floorsBefore, take_succ_of here]
        rw [floors, List.append_nil]
        simp only [Request.message, handle, handleSubscribe]
        split
        · exact ih
        · split
          · exact ih
          · exact ih.of_same_log rfl rfl
      | pruneBelow floor =>
        have floors : floorsBefore requests (n + 1) = floor :: floorsBefore requests n := by
          simp [floorsBefore, take_succ_of here]
        rw [floors, List.append_nil]
        exact follows_prune ih floor

/-- A decided height stays decided. -/
theorem verdict_of_later (undecided : verdict (delivered requests (n + 1)) height = none) :
    verdict (delivered requests n) height = none := by
  have later := follows_run requests (n + 1)
  apply (verdict_eq_none_iff (follows_run requests n).real).mpr
  intro d member
  apply (verdict_eq_none_iff later.real).mp undecided d
  rw [delivered] at member ⊢
  exact ((List.take_prefix_take_left (Nat.le_succ n)).filterMap _).subset member

/-- The requests other than the channel's own subscription leave a channel that
waits nowhere alone. -/
theorem notParked_handle {book : TaskBook T Nat} (request : Request T) (absent : NotParked book.waiters channel)
    (other : n ≠ channel) :
    NotParked (book.handle (request.message n)).1.waiters channel ∧
      toChannel channel (book.handle (request.message n)).2 = [] := by
  cases request with
  | directive directive => exact notParked_directive absent
  | pruneBelow floor => exact ⟨absent, rfl⟩
  | subscribe height =>
    simp only [Request.message, handle, handleSubscribe]
    split
    · exact ⟨absent, by simp [toChannel, other]⟩
    · split
      · exact ⟨absent, by simp [toChannel, other]⟩
      · refine ⟨fun k => ?_, rfl⟩
        by_cases here : k = height
        · simpa [here, Ne.symm other] using absent height
        · simpa [here] using absent k

/-- Before its own subscription is processed, a channel waits nowhere. -/
theorem notParked_before (early : n ≤ channel) :
    NotParked (bookAfter requests n).waiters channel := by
  induction n with
  | zero => intro k; simp [bookAfter, OrderedMap.getD_empty]
  | succ n ih =>
    cases here : requests[n]? with
    | none => simpa [bookAfter, here] using ih (by omega)
    | some request =>
      rw [bookAfter_succ here]
      exact (notParked_handle request (ih (by omega)) (by omega)).1

theorem silent_before (early : n < channel) : toChannel channel (answersAt requests n) = [] := by
  unfold answersAt
  split
  · exact (notParked_handle _ (notParked_before early.le) early.ne).2
  · rfl

/-- One more request, for a channel that is parked exactly while its verdict is
open. -/
theorem told_next (other : n ≠ channel)
    (waits : verdict (delivered requests n) height = none →
      ParkedAt (bookAfter requests n).waiters channel height)
    (gone : verdict (delivered requests n) height ≠ none →
      NotParked (bookAfter requests n).waiters channel) :
    toChannel channel (answersAt requests n) =
      (if verdict (delivered requests n) height = none then
        (verdict (delivered requests (n + 1)) height).toList else []) ∧
    (verdict (delivered requests (n + 1)) height = none →
      ParkedAt (bookAfter requests (n + 1)).waiters channel height) ∧
    (verdict (delivered requests (n + 1)) height ≠ none →
      NotParked (bookAfter requests (n + 1)).waiters channel) := by
  cases here : requests[n]? with
  | none =>
    have ended : delivered requests (n + 1) = delivered requests n := by
      rw [delivered, List.take_add_one, here]
      simp [delivered]
    have still : bookAfter requests (n + 1) = bookAfter requests n := by simp [bookAfter, here]
    rw [ended, still, answersAt, here]
    exact ⟨by split <;> simp_all, waits, gone⟩
  | some request =>
    have answers : answersAt requests n =
        ((bookAfter requests n).handle (request.message n)).2 := by simp [answersAt, here]
    rw [answers, bookAfter_succ here]
    by_cases undecided : verdict (delivered requests n) height = none
    · rw [if_pos undecided]
      have parked := waits undecided
      have follows := follows_run requests n
      rw [delivered_succ here]
      cases request with
      | directive directive =>
        cases report : directive.isTipReport with
        | true =>
          simp [Request.message, handle, handleDirective_tipReport _ report, report, undecided, parked]
        | false =>
          simpa [Request.message, handle, report, Told] using
            told_directive follows undecided report parked
      | pruneBelow floor => simpa [Request.message, handle, prune, undecided] using parked
      | subscribe height' =>
        simp only [Request.message, handle, handleSubscribe]
        -- Another subscription answers or parks its own channel only.
        split
        · simpa [toChannel, other, undecided] using parked
        · split
          · simpa [toChannel, other, undecided] using parked
          · refine ⟨by simp [undecided], fun _ => ⟨?_, fun k apart => ?_⟩, by simp [undecided]⟩
            · by_cases same : height = height'
              · subst same
                simpa [List.count_append, other] using parked.1
              · simpa [same] using parked.1
            · by_cases same : k = height'
              · subst same
                simpa [Ne.symm other] using parked.2 k apart
              · simpa [same] using parked.2 k apart
    · obtain ⟨after, silent⟩ := notParked_handle request (gone undecided) other
      rw [if_neg undecided]
      refine ⟨silent, fun reopened => absurd ?_ undecided, fun _ => after⟩
      exact verdict_of_later reopened

/-- From its subscription on, a channel is parked exactly while the verdict is
open, and each step tells it the verdict the step brings. -/
theorem told_after (subscribed : requests[channel]? = some (.subscribe height))
    (retained : Retained requests channel height) (later : channel ≤ n) :
    toChannel channel (answersAt requests n) =
      (if n = channel ∨ verdict (delivered requests n) height = none then
        (verdict (delivered requests (n + 1)) height).toList else []) ∧
    (verdict (delivered requests (n + 1)) height = none →
      ParkedAt (bookAfter requests (n + 1)).waiters channel height) ∧
    (verdict (delivered requests (n + 1)) height ≠ none →
      NotParked (bookAfter requests (n + 1)).waiters channel) := by
  induction n, later using Nat.le_induction with
  | base =>
    have told := told_subscribe (follows_run requests channel) retained
      (notParked_before (le_refl channel))
    have same : delivered requests (channel + 1) = delivered requests channel := by
      rw [delivered_succ subscribed, List.append_nil]
    rw [same, bookAfter_succ subscribed, if_pos (.inl rfl)]
    simpa [answersAt, subscribed, Request.message, handle, Told] using told
  | succ n later ih =>
    have next := told_next (n := n + 1) (by omega) ih.2.1 ih.2.2
    simpa [show n + 1 ≠ channel by omega] using next

/-- A verdict that comes at a step after the subscription is the first exactly
when the step before had none. -/
theorem firstDecided_iff (later : channel ≤ n)
    (decided : verdict (delivered requests (n + 1)) height ≠ none) :
    FirstDecided requests channel height n ↔
      n = channel ∨ verdict (delivered requests n) height = none := by
  constructor
  · rintro ⟨-, -, before⟩
    rcases later.eq_or_lt with rfl | after
    · exact .inl rfl
    · obtain ⟨k, rfl⟩ : ∃ k, n = k + 1 := ⟨n - 1, by omega⟩
      exact .inr (before k (by omega) (by omega))
  · rintro first
    refine ⟨later, decided, fun k atLeast below => ?_⟩
    have openAt : verdict (delivered requests n) height = none := first.resolve_left (by omega)
    obtain ⟨gap, rfl⟩ : ∃ gap, n = k + 1 + gap := ⟨n - (k + 1), by omega⟩
    clear first decided later below
    induction gap with
    | zero => exact openAt
    | succ gap ih => exact ih (verdict_of_later openAt)

theorem firstDecided_existsUnique (later : channel ≤ n)
    (decided : verdict (delivered requests (n + 1)) height ≠ none) :
    ∃! k, k ≤ n ∧ FirstDecided requests channel height k := by
  classical
  let decides : Nat → Prop := fun k => channel ≤ k ∧ verdict (delivered requests (k + 1)) height ≠ none
  have some : ∃ k, decides k := ⟨n, later, decided⟩
  have first := Nat.find_spec some
  refine ⟨Nat.find some, ⟨Nat.find_min' some ⟨later, decided⟩, first.1, first.2, ?_⟩, ?_⟩
  · intro k atLeast below
    by_contra open'
    exact Nat.find_min some below ⟨atLeast, open'⟩
  · rintro k ⟨-, atLeast, decidedHere, before⟩
    refine le_antisymm ?_ (Nat.find_min' some ⟨atLeast, decidedHere⟩)
    by_contra after
    exact first.2 (before _ first.1 (not_le.mp after))

end Runs

/-- **Subscribers are told the verdict, once.** Take the subscription that is
request `channel`, its height retained when it is processed. The step at which
the directives delivered so far first decide the height answers it with that
verdict; no other step answers it; and as soon as the height is decided there
is such a step, and only one. -/
theorem subscription_told_first_verdict (requests : List (Request T)) (channel height : Nat)
    (subscribed : requests[channel]? = some (.subscribe height))
    (retained : Retained requests channel height) (n : Nat) :
    (FirstDecided requests channel height n → toChannel channel (answersAt requests n) =
      (verdict (delivered requests (n + 1)) height).toList) ∧
    (¬ FirstDecided requests channel height n → toChannel channel (answersAt requests n) = []) ∧
    (channel ≤ n → verdict (delivered requests (n + 1)) height ≠ none →
      ∃! k, k ≤ n ∧ FirstDecided requests channel height k) := by
  rcases Nat.lt_or_ge n channel with early | later
  · exact ⟨fun first => absurd first.1 (by omega), fun _ => silent_before early, by omega⟩
  · rw [(told_after subscribed retained later).1]
    by_cases decided : verdict (delivered requests (n + 1)) height = none
    · have never : ¬ FirstDecided requests channel height n := fun first => first.2.1 decided
      simp [never, decided]
    · refine ⟨?_, ?_, firstDecided_existsUnique⟩ <;> rw [firstDecided_iff later decided] <;>
        intro first <;> simp [first]

/-- A directive above a parked height answers it with a skip. -/
theorem passed_over_subscription_told_skip :
    toChannel 0 (answersAt [Request.subscribe 1, .directive (.announce 2 'a')] 1) =
      [Resolution.skip] := by
  have told := subscription_told_first_verdict
    [Request.subscribe 1, .directive (.announce 2 'a')] 0 1 rfl
    ⟨by decide, by simp [floorsBefore]⟩ 1
  refine told.1 ⟨by decide, by decide, fun k _ below => ?_⟩
  obtain rfl : k = 0 := by omega
  rfl

end Restaking.TaskBook
