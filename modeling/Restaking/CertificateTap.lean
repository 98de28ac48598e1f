import Mathlib.Data.Finset.Card
import Restaking.Lib.FirstSeen
import Restaking.NodeReporter

/-! What the node's activity sink counts and forwards. Activities come out of
order and are replayed, the dedupe set is pruned by the mirror it feeds, and the
consumer of the tap may go away at any point. As long as no certificate comes
from below the pruning floor, every height counts once. -/
namespace Restaking
open Lib

namespace NodeReporter

variable {D C : Type*}

/-- What happens to a reporter: an activity, or the receiver of its tap is
dropped. -/
inductive Event (D C : Type*) where
  | activity (activity : Activity D C)
  | receiverDropped

/-- A reporter with everything it has sent. -/
structure Traced (D C : Type*) where
  reporter : NodeReporter
  /-- What reached the consumer of the tap. -/
  observed : List (Certificate D C) := []
  /-- The floors sent to the task book. -/
  floors : List Nat := []

/-- The activities among these events. -/
def activities (events : List (Event D C)) : List (Activity D C) :=
  events.filterMap fun
    | .activity activity => some activity
    | .receiverDropped => none

/-- The certificates among these activities. -/
def certificates (activities : List (Activity D C)) : List (Certificate D C) :=
  activities.filterMap fun
    | .certified c => some c
    | .tip _ | .ack _ => none

/-- The height an activity is evidence for. -/
def heightOf : Activity D C → Nat
  | .certified c => c.height
  | .tip height => height
  | .ack _ => 0

/-- The highest height certified or reported as a tip. -/
def highest (activities : List (Activity D C)) : Nat :=
  activities.foldl (fun seen activity => max seen (heightOf activity)) 0

/-- No certificate is reported for a height below the pruning floor. -/
def InReach (activities : List (Activity D C)) : Prop :=
  ∀ before c after, activities = before ++ .certified c :: after →
    highest before - pruneSlack ≤ c.height

/-- The events until the receiver is dropped. -/
def heard (events : List (Event D C)) : List (Event D C) :=
  events.takeWhile fun
    | .activity _ => true
    | .receiverDropped => false

namespace Traced

variable [DecidableEq D]

def handle (skip : Nat → D) (traced : Traced D C) : Event D C → Traced D C
  | .activity activity =>
    let handled := traced.reporter.handle skip activity
    { reporter := handled.1
      observed := traced.observed ++ observations handled.2
      floors := traced.floors ++ NodeReporter.floors handled.2 }
  | .receiverDropped =>
    { traced with reporter := { traced.reporter with tap := traced.reporter.tap.map fun _ => .gone } }

/-- A fresh reporter with or without a tap, after these events. -/
def run (skip : Nat → D) (tap : Option Tap) (events : List (Event D C)) : Traced D C :=
  events.foldl (handle skip) { reporter := { tap } }

omit [DecidableEq D] in
/-- Everything but the tap and what it received. -/
def accounts (traced : Traced D C) : NodeReporter × List Nat :=
  ({ traced.reporter with tap := none }, traced.floors)

end Traced

/-! ### The dedupe set -/

section Steps

variable {reporter : NodeReporter} {kept : List (Certificate D C)} {height : Nat}

/-- The set holds the heights counted so far down to the floor of the mirror. -/
def Remembers (reporter : NodeReporter) (kept : List (Certificate D C)) : Prop :=
  Tracks (·.height) (fun _ => ()) reporter.certified kept (reporter.tipHandle - pruneSlack)

theorem Remembers.advance (remembers : Remembers reporter kept) (height : Nat) :
    Remembers (advance (D := D) (C := C) reporter height).1 kept := by
  unfold NodeReporter.advance
  split
  · exact remembers
  · rename_i higher
    have raised : reporter.tipHandle - pruneSlack ≤ height - pruneSlack :=
      Nat.sub_le_sub_right (not_le.mp higher).le _
    split
    · exact Tracks.splitOff remembers raised
    · rename_i low
      have floor : reporter.tipHandle - pruneSlack = height - pruneSlack := by omega
      unfold Remembers at remembers ⊢
      rwa [floor] at remembers

@[simp] theorem advance_tap : (advance (D := D) (C := C) reporter height).1.tap = reporter.tap := by
  unfold NodeReporter.advance
  split
  · rfl
  · split <;> rfl

@[simp] theorem advance_certifiedCounter :
    (advance (D := D) (C := C) reporter height).1.certifiedCounter = reporter.certifiedCounter := by
  unfold NodeReporter.advance
  split
  · rfl
  · split <;> rfl

@[simp] theorem advance_skippedCounter :
    (advance (D := D) (C := C) reporter height).1.skippedCounter = reporter.skippedCounter := by
  unfold NodeReporter.advance
  split
  · rfl
  · split <;> rfl

end Steps

/-! ### What one activity adds -/

/-- The certificates kept so far: the first of each height. -/
def kept (activities : List (Activity D C)) : List (Certificate D C) :=
  firstPer (·.height) (certificates activities)

/-- What the next activity adds to them. -/
def newly (activities : List (Activity D C)) : Activity D C → List (Certificate D C)
  | .certified c => if c.height ∈ (kept activities).map (·.height) then [] else [c]
  | .tip _ | .ack _ => []

/-- The floor requested as the highest height moves. -/
def raisedFloor (before after : Nat) : List Nat :=
  if before < after ∧ 0 < after - pruneSlack then [after - pruneSlack] else []

theorem mem_raisedFloor {before after floor : Nat} : floor ∈ raisedFloor before after ↔
    (before < after ∧ 0 < after - pruneSlack) ∧ floor = after - pruneSlack := by
  unfold raisedFloor
  split
  · rename_i raised
    rw [List.mem_singleton]
    exact (and_iff_right raised).symm
  · rename_i still
    exact iff_of_false List.not_mem_nil fun both => still both.1

theorem pairwise_raisedFloor {before after : Nat} : (raisedFloor before after).Pairwise (· < ·) := by
  unfold raisedFloor
  split
  · exact List.pairwise_singleton _ _
  · exact .nil

section Added

variable {activities : List (Activity D C)} {activity : Activity D C}

theorem highest_append :
    highest (activities ++ [activity]) = max (highest activities) (heightOf activity) := by
  simp [highest, List.foldl_append]

theorem kept_append : kept (activities ++ [activity]) = kept activities ++ newly activities activity := by
  cases activity with
  | certified c =>
    have last : certificates (activities ++ [.certified c]) = certificates activities ++ [c] := by
      simp [certificates]
    rw [kept, last, firstPer_append, newly, kept]
    by_cases seen : c.height ∈ (firstPer (·.height) (certificates activities)).map (·.height)
    · rw [if_pos seen, if_pos seen, List.append_nil]
    · rw [if_neg seen, if_neg seen]
  | tip height => simp [kept, certificates, newly]
  | ack height => simp [kept, certificates, newly]

theorem highest_le_append {earlier later : List (Activity D C)} :
    highest earlier ≤ highest (earlier ++ later) := by
  induction later using List.reverseRecOn with
  | nil => rw [List.append_nil]
  | append_singleton later activity ih =>
    rw [← List.append_assoc, highest_append]
    exact ih.trans (le_max_left _ _)

theorem height_le_highest {c : Certificate D C} (member : c ∈ certificates activities) :
    c.height ≤ highest activities := by
  induction activities using List.reverseRecOn with
  | nil => cases member
  | append_singleton activities activity ih =>
    rw [highest_append]
    rw [certificates, List.filterMap_append, ← certificates] at member
    rcases List.mem_append.mp member with earlier | last
    · exact (ih earlier).trans (le_max_left _ _)
    · cases activity with
      | certified c' =>
        obtain rfl : c = c' := by simpa using last
        exact le_max_right _ _
      | tip => simp at last
      | ack => simp at last

end Added

/-- What the reporter has accounted for after these activities. -/
structure Counted [DecidableEq D] (skip : Nat → D) (activities : List (Activity D C))
    (reporter : NodeReporter) : Prop where
  remembers : Remembers reporter (kept activities)
  mirror : reporter.tipHandle = highest activities
  certified : reporter.certifiedCounter = (kept activities).length
  skipped : reporter.skippedCounter = (kept activities).countP fun c => c.digest = skip c.height

section Counted

variable [DecidableEq D] {skip : Nat → D} {activities : List (Activity D C)} {reporter : NodeReporter}
variable {activity : Activity D C} {height : Nat}

omit [DecidableEq D] in
theorem floors_advance (reporter : NodeReporter) (height : Nat) :
    floors (advance (D := D) (C := C) reporter height).2 =
      raisedFloor reporter.tipHandle (max reporter.tipHandle height) := by
  rw [advance_effects, raisedFloor]
  by_cases higher : reporter.tipHandle < height
  · simp only [max_eq_right higher.le]
    split <;> rfl
  · rw [max_eq_left (not_lt.mp higher), if_neg fun moves => higher moves.1,
      if_neg fun moves => lt_irrefl _ moves.1]
    rfl

omit [DecidableEq D] in
theorem observations_advance (reporter : NodeReporter) (height : Nat) :
    observations (advance (D := D) (C := C) reporter height).2 = [] := by
  rw [advance_effects]
  split <;> rfl

/-- What the reporter makes of one more activity. -/
structure Accounted (skip : Nat → D) (activities : List (Activity D C)) (activity : Activity D C)
    (reporter : NodeReporter) : Prop where
  counted : Counted skip (activities ++ [activity]) (reporter.handle skip activity).1
  floors : NodeReporter.floors (reporter.handle skip activity).2 =
    raisedFloor (highest activities) (highest (activities ++ [activity]))
  observed : observations (reporter.handle skip activity).2 =
    if reporter.tap = some .listening then newly activities activity else []

/-- An activity that is ignored adds no certificate and no height. -/
theorem Counted.ignored (counted : Counted skip activities reporter)
    (ignored : reporter.handle skip activity = (reporter, []))
    (nothing : newly activities activity = []) (low : heightOf activity ≤ highest activities) :
    Accounted skip activities activity reporter := by
  obtain ⟨remembers, mirror, certified, skipped⟩ := counted
  have same : highest (activities ++ [activity]) = highest activities := by
    rw [highest_append, max_eq_left low]
  have keeps : kept (activities ++ [activity]) = kept activities := by
    rw [kept_append, nothing, List.append_nil]
  constructor
  · rw [ignored]
    exact ⟨keeps ▸ remembers, same ▸ mirror, keeps ▸ certified, keeps ▸ skipped⟩
  · rw [ignored, same, raisedFloor, if_neg fun moves => lt_irrefl _ moves.1]
    rfl
  · rw [ignored, nothing, ite_self]
    rfl

theorem Counted.tip (counted : Counted skip activities reporter) :
    Accounted skip activities (.tip height) reporter := by
  obtain ⟨remembers, mirror, certified, skipped⟩ := counted
  have nothing : kept (activities ++ [.tip height]) = kept activities := by
    rw [kept_append, newly, List.append_nil]
  have now : highest (activities ++ [.tip height]) = max reporter.tipHandle height := by
    rw [highest_append, mirror, heightOf]
  refine ⟨⟨?_, ?_, ?_, ?_⟩, ?_, ?_⟩
  · rw [nothing]
    exact remembers.advance height
  · rw [now]
    exact advance_tipHandle reporter height
  · rw [nothing, ← certified]
    exact advance_certifiedCounter
  · rw [nothing, ← skipped]
    exact advance_skippedCounter
  · rw [now, ← mirror]
    exact floors_advance reporter height
  · simp [handle, observations_advance, newly]

/-- The first certificate of a height is counted and sent to the tap. -/
theorem Counted.fresh {c : Certificate D C} (counted : Counted skip activities reporter)
    (above : reporter.tipHandle - pruneSlack ≤ c.height)
    (unseen : c.height ∉ (kept activities).map (·.height)) :
    Accounted skip activities (.certified c) reporter := by
  obtain ⟨remembers, mirror, certified, skipped⟩ := counted
  have unknown : reporter.certified.get? c.height = none := by
    simpa using mt (Tracks.isSome_iff remembers above).mp unseen
  have more : kept (activities ++ [.certified c]) = kept activities ++ [c] := by
    rw [kept_append, newly, if_neg unseen]
  have now : highest (activities ++ [.certified c]) = max reporter.tipHandle c.height := by
    rw [highest_append, mirror, heightOf]
  let noted : NodeReporter := { reporter with
    certified := reporter.certified.insert c.height ()
    certifiedCounter := reporter.certifiedCounter + 1
    skippedCounter := reporter.skippedCounter + if c.digest = skip c.height then 1 else 0 }
  have recorded : reporter.handle skip (.certified c) = ((noted.advance (D := D) (C := C) c.height).1,
      (if reporter.tap = some .listening then [.observe c] else []) ++
        (noted.advance c.height).2) := by
    simp [handle, unknown, noted]
  have remembersNoted : Remembers noted (kept activities ++ [c]) :=
    Tracks.insert remembers above unseen
  refine ⟨⟨?_, ?_, ?_, ?_⟩, ?_, ?_⟩
  · rw [recorded, more]
    exact remembersNoted.advance c.height
  · rw [recorded, now]
    exact advance_tipHandle noted c.height
  · rw [recorded, more, List.length_append, ← certified]
    exact advance_certifiedCounter
  · rw [recorded, more, List.countP_append, ← skipped]
    refine advance_skippedCounter.trans (congrArg (reporter.skippedCounter + ·) ?_)
    simp [List.countP_singleton]
  · have raised := floors_advance (D := D) (C := C) noted c.height
    rw [recorded, now, ← mirror, NodeReporter.floors, List.filterMap_append, ← NodeReporter.floors,
      ← NodeReporter.floors, raised]
    split <;> rfl
  · have silent := observations_advance (D := D) (C := C) noted c.height
    rw [recorded, observations, List.filterMap_append, ← observations, ← observations, silent]
    simp only [newly, if_neg unseen]
    split <;> rfl

theorem Counted.next (counted : Counted skip activities reporter)
    (reach : ∀ c, activity = .certified c → highest activities - pruneSlack ≤ c.height) :
    Accounted skip activities activity reporter := by
  cases activity with
  | ack height => exact counted.ignored rfl rfl (Nat.zero_le _)
  | tip height => exact counted.tip
  | certified c =>
    have above : reporter.tipHandle - pruneSlack ≤ c.height := counted.mirror ▸ reach c rfl
    by_cases seen : c.height ∈ (kept activities).map (·.height)
    · have known := (Tracks.isSome_iff counted.remembers above).mpr seen
      refine counted.ignored (by simp [handle, known]) (if_pos seen) ?_
      obtain ⟨c', member, named⟩ := List.mem_map.mp (mem_map_firstPer.mp seen)
      exact named.symm.trans_le (height_le_highest member)
    · exact counted.fresh above seen

theorem handle_tap (skip : Nat → D) (reporter : NodeReporter) (activity : Activity D C) :
    (reporter.handle skip activity).1.tap = reporter.tap := by
  cases activity with
  | certified c =>
    simp only [handle]
    split
    · rfl
    · exact advance_tap
  | tip height => exact advance_tap
  | ack height => rfl

end Counted

/-! ### Whole runs -/

section Runs

variable [DecidableEq D] {skip : Nat → D} {tap : Option Tap} {events : List (Event D C)}
variable {event : Event D C} {acts : List (Activity D C)} {activity : Activity D C}

theorem run_append : Traced.run skip tap (events ++ [event]) =
    (Traced.run skip tap events).handle skip event := by
  simp [Traced.run, List.foldl_append]

omit [DecidableEq D] in
theorem InReach.before (reach : InReach (acts ++ [activity])) : InReach acts :=
  fun before c after split => reach before c (after ++ [activity]) (by simp [split])

omit [DecidableEq D] in
theorem InReach.last (reach : InReach (acts ++ [activity])) :
    ∀ c, activity = .certified c → highest acts - pruneSlack ≤ c.height := by
  rintro c rfl
  exact reach acts c [] rfl

omit [DecidableEq D] in
theorem activities_append_activity :
    activities (events ++ [.activity activity]) = activities events ++ [activity] := by
  simp [activities]

omit [DecidableEq D] in
theorem activities_append_dropped :
    activities (events ++ [.receiverDropped]) = activities events := by
  simp [activities]

omit [DecidableEq D] in
theorem heard_append_whole (whole : heard events = events) :
    heard (events ++ [event]) = events ++ heard [event] := by
  rw [heard, List.takeWhile_append, ← heard, if_pos (congrArg List.length whole)]
  rfl

omit [DecidableEq D] in
theorem heard_append_cut (cut : heard events ≠ events) : heard (events ++ [event]) = heard events := by
  rw [heard, List.takeWhile_append, ← heard, if_neg]
  intro same
  exact cut ((List.takeWhile_sublist _).eq_of_length same)

omit [DecidableEq D] in
theorem longer_ne_heard : heard events ≠ events ++ [event] := by
  intro same
  have shorter : (heard events).length ≤ events.length := (List.takeWhile_sublist _).length_le
  rw [same, List.length_append, List.length_singleton] at shorter
  omega

/-- What a run keeps. -/
structure Traced.Sound (skip : Nat → D) (tap : Option Tap) (events : List (Event D C)) : Prop where
  counted : Counted skip (activities events) (Traced.run skip tap events).reporter
  /-- The tap has a receiver until it is dropped. -/
  listening : (Traced.run skip tap events).reporter.tap = some .listening ↔
    tap = some .listening ∧ heard events = events
  observed : (Traced.run skip tap events).observed =
    if tap = some .listening then kept (activities (heard events)) else []
  increasing : (Traced.run skip tap events).floors.Pairwise (· < ·)
  low : ∀ floor ∈ (Traced.run skip tap events).floors,
    floor ≤ (Traced.run skip tap events).reporter.tipHandle - pruneSlack

theorem Traced.Sound.dropped (sound : Traced.Sound skip tap events) :
    Traced.Sound skip tap (events ++ [.receiverDropped]) := by
  obtain ⟨⟨remembers, mirror, certified, skipped⟩, listening, observed, increasing, low⟩ := sound
  have heardSame : heard (events ++ [.receiverDropped]) = heard events := by
    by_cases whole : heard events = events
    · rw [heard_append_whole whole, whole]
      exact List.append_nil events
    · exact heard_append_cut whole
  have cut : heard (events ++ [.receiverDropped]) ≠ events ++ [.receiverDropped] := by
    rw [heardSame]
    exact longer_ne_heard
  constructor
  · rw [activities_append_dropped, run_append]
    exact ⟨remembers, mirror, certified, skipped⟩
  · rw [run_append]
    simp [Traced.handle, cut]
  · rw [heardSame, run_append]
    exact observed
  · rw [run_append]
    exact increasing
  · rw [run_append]
    exact low

theorem Traced.Sound.reported (sound : Traced.Sound skip tap events)
    (reach : ∀ c, activity = .certified c → highest (activities events) - pruneSlack ≤ c.height) :
    Traced.Sound skip tap (events ++ [.activity activity]) := by
  obtain ⟨counted, listening, observed, increasing, low⟩ := sound
  obtain ⟨next, floors, observations⟩ := counted.next reach
  have moves := (run skip tap events).reporter.tipHandle_le_handle skip activity
  have mirrorNow := next.mirror
  rw [← counted.mirror, ← mirrorNow] at floors
  have last : run skip tap (events ++ [.activity activity]) = {
      reporter := ((run skip tap events).reporter.handle skip activity).1
      observed := (run skip tap events).observed ++
        NodeReporter.observations ((run skip tap events).reporter.handle skip activity).2
      floors := (run skip tap events).floors ++
        NodeReporter.floors ((run skip tap events).reporter.handle skip activity).2 } := run_append
  constructor
  · rw [activities_append_activity, last]
    exact next
  · rw [last]
    dsimp only
    rw [handle_tap, listening]
    refine and_congr_right fun _ => ?_
    by_cases whole : heard events = events
    · rw [heard_append_whole whole]
      exact iff_of_true whole rfl
    · rw [heard_append_cut whole]
      exact iff_of_false whole longer_ne_heard
  · rw [last]
    dsimp only
    rw [observed, observations]
    by_cases tapped : tap = some .listening
    · by_cases whole : heard events = events
      · rw [if_pos tapped, if_pos (listening.mpr ⟨tapped, whole⟩), if_pos tapped,
          heard_append_whole whole, whole]
        exact (activities_append_activity ▸ kept_append).symm
      · rw [if_pos tapped, if_neg fun both => whole (listening.mp both).2, if_pos tapped,
          heard_append_cut whole, List.append_nil]
    · rw [if_neg tapped, if_neg fun both => tapped (listening.mp both).1, if_neg tapped]
      rfl
  · rw [last]
    dsimp only
    rw [floors]
    refine List.pairwise_append.mpr ⟨increasing, pairwise_raisedFloor, ?_⟩
    intro earlier member later new
    obtain ⟨raised, named⟩ := mem_raisedFloor.mp new
    have bound := low earlier member
    rw [named]
    omega
  · rw [last]
    dsimp only
    rw [floors]
    intro floor member
    rcases List.mem_append.mp member with earlier | new
    · exact (low floor earlier).trans (Nat.sub_le_sub_right moves _)
    · exact (mem_raisedFloor.mp new).2.le

theorem Traced.Sound.of_inReach (reach : InReach (activities events)) :
    Traced.Sound skip tap events := by
  induction events using List.reverseRecOn with
  | nil =>
    refine ⟨⟨Tracks.empty, rfl, rfl, rfl⟩, ?_, ?_, .nil, ?_⟩
    · simp [Traced.run, heard]
    · simp [Traced.run, heard, activities, kept, certificates, firstPer]
    · simp [Traced.run]
  | append_singleton events event ih =>
    cases event with
    | receiverDropped =>
      rw [activities_append_dropped] at reach
      exact (ih reach).dropped
    | activity activity =>
      rw [activities_append_activity] at reach
      exact (ih reach.before).reported reach.last

/-! ### The tap does not matter to the rest -/

omit [DecidableEq D] in
theorem advance_withTap (reporter : NodeReporter) (tap : Option Tap) (height : Nat) :
    advance (D := D) (C := C) { reporter with tap } height =
      ({ (advance (D := D) (C := C) reporter height).1 with tap },
        (advance (D := D) (C := C) reporter height).2) := by
  unfold NodeReporter.advance
  split
  · rfl
  · split <;> rfl

theorem handle_withTap (skip : Nat → D) (reporter : NodeReporter) (tap : Option Tap)
    (activity : Activity D C) :
    (handle skip { reporter with tap } activity).1 =
        { (handle skip reporter activity).1 with tap } ∧
      floors (handle skip { reporter with tap } activity).2 =
        floors (handle skip reporter activity).2 := by
  cases activity with
  | ack height => exact ⟨rfl, rfl⟩
  | tip height =>
    rw [handle, handle, advance_withTap]
    exact ⟨rfl, rfl⟩
  | certified c =>
    simp only [handle]
    split
    · exact ⟨rfl, rfl⟩
    · rw [advance_withTap { reporter with
        certified := reporter.certified.insert c.height ()
        certifiedCounter := reporter.certifiedCounter + 1
        skippedCounter := reporter.skippedCounter + if c.digest = skip c.height then 1 else 0 }]
      refine ⟨rfl, ?_⟩
      simp only [floors, List.filterMap_append]
      congr 1
      split <;> split <;> rfl

theorem accounts_handle {traced traced' : Traced D C} (same : traced.accounts = traced'.accounts)
    (activity : Activity D C) : (traced.handle skip (.activity activity)).accounts =
      (traced'.handle skip (.activity activity)).accounts := by
  obtain ⟨reporters, floors⟩ := Prod.mk.inj same
  have left := handle_withTap skip traced.reporter none activity
  have right := handle_withTap skip traced'.reporter none activity
  rw [reporters] at left
  simp only [Traced.accounts, Traced.handle]
  rw [← left.1, ← left.2, ← right.1, ← right.2, floors]

/-- The accounts of a run are those of its activities with no tap at all. -/
theorem accounts_run (skip : Nat → D) (tap : Option Tap) (events : List (Event D C)) :
    (Traced.run skip tap events).accounts =
    (Traced.run skip none ((activities events).map .activity)).accounts := by
  induction events using List.reverseRecOn with
  | nil => rfl
  | append_singleton events event ih =>
    cases event with
    | receiverDropped =>
      rw [activities_append_dropped, ← ih, run_append]
      rfl
    | activity activity =>
      rw [activities_append_activity, List.map_append, List.map_singleton, run_append, run_append]
      exact accounts_handle ih activity

end Runs

/-- **Every height is counted once.** With no certificate from below the pruning
floor, the tap receives the first certificate of each height as long as it has a
receiver; the counters count those heights, and those of them that were skipped;
the mirror is the highest height seen; each floor is the mirror's at the moment
it moves, the floors increase, and none of the accounts depends on the tap. -/
theorem heights_counted_once [DecidableEq D] (skip : Nat → D) (tap : Option Tap)
    (events : List (Event D C)) (reach : InReach (activities events)) :
    (Traced.run skip tap events).observed =
      (if tap = some .listening then
        firstPer (·.height) (certificates (activities (heard events))) else []) ∧
    (Traced.run skip tap events).reporter.certifiedCounter =
      ((certificates (activities events)).map (·.height)).toFinset.card ∧
    (Traced.run skip tap events).reporter.skippedCounter =
      (firstPer (·.height) (certificates (activities events))).countP
        (fun c => c.digest = skip c.height) ∧
    (Traced.run skip tap events).reporter.tipHandle = highest (activities events) ∧
    (∀ before after, events = before ++ after →
      (Traced.run skip tap before).reporter.tipHandle ≤
        (Traced.run skip tap events).reporter.tipHandle) ∧
    (Traced.run skip tap events).floors.Pairwise (· < ·) ∧
    (∀ before event after, events = before ++ event :: after →
      (Traced.run skip tap (before ++ [event])).floors = (Traced.run skip tap before).floors ++
        raisedFloor (highest (activities before)) (highest (activities (before ++ [event])))) ∧
    ∀ tap' events', activities events' = activities events →
      (Traced.run skip tap' events').accounts = (Traced.run skip tap events).accounts := by
  have sound : Traced.Sound skip tap events := .of_inReach reach
  have prefixReach : ∀ before after, events = before ++ after → InReach (activities before) := by
    rintro before after rfl earlier c later split
    apply reach earlier c (later ++ activities after)
    rw [activities, List.filterMap_append, ← activities, ← activities, split]
    exact List.append_assoc _ _ _
  refine ⟨sound.observed, ?_, sound.counted.skipped, sound.counted.mirror, ?_, sound.increasing, ?_, ?_⟩
  · have heights : ((certificates (activities events)).map (·.height)).toFinset =
        ((kept (activities events)).map (·.height)).toFinset := by
      ext height
      rw [List.mem_toFinset, List.mem_toFinset]
      exact mem_map_firstPer.symm
    rw [heights, sound.counted.certified]
    exact ((List.toFinset_card_of_nodup nodup_map_firstPer).trans (List.length_map _)).symm
  · rintro before after rfl
    have soundBefore : Traced.Sound skip tap before := .of_inReach (prefixReach before after rfl)
    rw [soundBefore.counted.mirror, sound.counted.mirror, activities, activities, List.filterMap_append]
    exact highest_le_append
  · rintro before event after rfl
    have soundBefore : Traced.Sound skip tap before := .of_inReach (prefixReach before _ rfl)
    rw [run_append]
    cases event with
    | receiverDropped =>
      rw [activities_append_dropped, raisedFloor, if_neg fun moves => lt_irrefl _ moves.1]
      exact (List.append_nil _).symm
    | activity activity =>
      have reachNow := prefixReach (before ++ [.activity activity]) after (by simp)
      rw [activities_append_activity] at reachNow ⊢
      exact congrArg (_ ++ ·) (soundBefore.counted.next reachNow.last).floors
  · intro tap' events' same
    rw [accounts_run, accounts_run skip tap events, same]

/-- Near the start nothing is pruned. -/
theorem InReach.of_low {activities : List (Activity D C)} (low : highest activities ≤ pruneSlack) :
    InReach activities := by
  rintro before c after rfl
  have grows : highest before ≤ highest (before ++ .certified c :: after) := highest_le_append
  omega

/-- A certificate, its replay and a conflicting one at height 5 count once, and
the receiver that is gone by then misses the certificate at height 6. -/
theorem replayed_height_counted_once :
    (Traced.run (id : Nat → Nat) (some .listening) [.activity (.certified ⟨5, 1, ()⟩),
      .activity (.certified ⟨5, 1, ()⟩), .activity (.certified ⟨5, 2, ()⟩), .receiverDropped,
      .activity (.certified ⟨6, 6, ()⟩)]).observed = [⟨5, 1, ()⟩] := by
  refine (heights_counted_once id (some .listening) _ (.of_low ?_)).1.trans ?_
  · decide
  · decide +kernel

end NodeReporter
end Restaking
