import Restaking.AnswerOrder
import Restaking.Lib.Run
import Restaking.NodeReporter

/-! How long a directive stays answerable on one node. Two floors act on the
log: the reporter's, a distance below the mirror of the engine's tip, and the
TaskBook's own, the same distance below the highest directive. Only the first is
tied to this node's engine. -/
namespace Restaking
open Lib TaskBook

/-- The engine's default `activity_timeout`, which `PRUNE_SLACK` exceeds. -/
def activityTimeout : Nat := 256

namespace Answerable

inductive Label (T D C : Type*) where
  /-- The TaskBook handles a directive. -/
  | directive (directive : TaskDirective T)
  /-- The TaskBook handles a subscription. -/
  | subscribe (height : Nat)
  /-- The reporter handles an activity of the engine. -/
  | activity (activity : Activity D C)
  /-- The TaskBook handles the next floor the reporter requested. -/
  | prune

end Answerable

/-- A TaskBook and the reporter that prunes it. -/
structure Answerable (T : Type*) where
  desk : Desk T := {}
  /-- The mailbox messages the TaskBook has handled. -/
  requests : List (Request T) := []
  reporter : NodeReporter := {}
  /-- The floors on their way to the TaskBook. -/
  floors : List Nat := []
  /-- The highest tip the engine has reported. -/
  engineTip : Nat := 0

namespace Answerable

variable {T D C : Type*}

/-- The tip an activity reports. -/
def tipOf : Activity D C → Nat
  | .tip height => height
  | .certified _ | .ack _ => 0

section Model

variable [DecidableEq T] [DecidableEq D]

def handle (s : Answerable T) (request : Request T) : Answerable T :=
  { s with desk := s.desk.handle request, requests := s.requests ++ [request] }

def step (skip : Nat → D) (s : Answerable T) : Label T D C → Option (Answerable T)
  | .directive d => some (s.handle (.directive d))
  | .subscribe height => some (s.handle (.subscribe height))
  | .activity activity =>
    let handled := s.reporter.handle skip activity
    some { s with
      reporter := handled.1
      floors := s.floors ++ NodeReporter.floors handled.2
      engineTip := max s.engineTip (tipOf activity) }
  | .prune => match s.floors with
    | [] => none
    | floor :: floors => some { s.handle (.pruneBelow floor) with floors }

/-- A node as it starts. -/
def Starts (s : Answerable T) : Prop := s = {}

/-- The directives that reached the log after the last floor above the height. -/
def deliveredSince (height : Nat) (requests : List (Request T)) : List (TaskDirective T) :=
  requests.foldl (fun kept request => match request with
    | .pruneBelow floor => if height < floor then [] else kept
    | .directive _ | .subscribe _ => kept ++ request.delivers) []

/-- The engine may still ask for this height, and the first directive delivered
for it was recorded, announced the task, and was not followed by a skip. -/
structure Due (s : Answerable T) (height : Nat) (task : T) : Prop where
  active : s.engineTip - activityTimeout ≤ height
  recorded : ∃ before after, s.requests = before ++ .directive (.announce height task) :: after ∧
    (∀ d ∈ (({} : Desk T).serve before).delivered, d.height ≠ height) ∧
    (({} : Desk T).serve before).records height
  unskipped : .skip height ∉ s.desk.delivered

end Model

/-! ### What the log holds -/

section Log

variable [DecidableEq T] {requests : List (Request T)} {request : Request T} {height k : Nat}
variable {desk : Desk T} {directive : TaskDirective T}

omit [DecidableEq T] in
theorem deliveredSince_append (request : Request T) :
    deliveredSince height (requests ++ [request]) = match request with
      | .pruneBelow floor => if height < floor then [] else deliveredSince height requests
      | .directive _ | .subscribe _ => deliveredSince height requests ++ request.delivers := by
  simp only [deliveredSince, List.foldl_append, List.foldl_cons, List.foldl_nil]

omit [DecidableEq T] in
theorem real_of_delivers (member : directive ∈ request.delivers) : directive.isTipReport = false := by
  cases request with
  | directive d =>
    simp only [Request.delivers] at member
    split at member
    · cases member
    · rename_i report
      rw [List.mem_singleton.mp member]
      exact Bool.eq_false_iff.mpr report
  | subscribe => cases member
  | pruneBelow => cases member

omit [DecidableEq T] in
theorem real_of_deliveredSince (member : directive ∈ deliveredSince height requests) :
    directive.isTipReport = false := by
  induction requests using List.reverseRecOn with
  | nil => cases member
  | append_singleton requests request ih =>
    rw [deliveredSince_append] at member
    cases request with
    | directive d =>
      rcases List.mem_append.mp member with earlier | now
      · exact ih earlier
      · exact real_of_delivers now
    | subscribe k => exact ih (by simpa [Request.delivers] using member)
    | pruneBelow floor =>
      dsimp only at member
      split at member
      · cases member
      · exact ih member

theorem maxSeen_le_handle (desk : Desk T) (request : Request T) :
    desk.book.maxSeen.getD 0 ≤ (desk.handle request).book.maxSeen.getD 0 := by
  cases request with
  | directive d =>
    simp only [Desk.handle, Request.asked, TaskBook.handle]
    cases report : d.isTipReport with
    | true => rw [handleDirective_tipReport _ report]
    | false =>
      have handled := handleDirective_handled desk.book report
      generalize desk.book.handleDirective d = outcome at handled ⊢
      cases handled with
      | kept => exact le_rfl
      | overridden => exact le_rfl
      | stale => exact le_rfl
      | recorded => exact record_maxSeen_le desk.book d
  | subscribe k => rw [(desk.sameLog_subscribe k).maxSeen]
  | pruneBelow floor => exact le_rfl

/-- No entry lies below the TaskBook's own floor. -/
def OwnFloor (book : TaskBook T Nat) : Prop :=
  ∀ k d, book.directives.get? k = some d → book.maxSeen.getD 0 - pruneSlack ≤ k

theorem OwnFloor.handleDirective {book : TaskBook T Nat} (floor : OwnFloor book)
    (real : directive.isTipReport = false) : OwnFloor (book.handleDirective directive).1 := by
  have handled := handleDirective_handled book real
  generalize book.handleDirective directive = outcome at handled ⊢
  cases handled with
  | kept => exact floor
  | stale => exact floor
  | overridden existing old =>
    intro k d found
    simp only [override, store, OrderedMap.get?_insert] at found
    split at found
    · rename_i here
      exact floor k existing (here ▸ old)
    · exact floor k d found
  | recorded _ horizon =>
    intro k d found
    rw [record_directives] at found
    rw [record_maxSeen]
    split at found
    · cases found
    · rename_i kept
      by_cases higher : book.maxSeen.all (· < directive.height) = true
      · rw [if_pos higher, Option.getD_some]
        exact not_lt.mp fun below => kept ⟨higher, below⟩
      · rw [if_neg higher]
        split at found
        · rename_i here
          cases seen : book.maxSeen with
          | none => simp [seen] at higher
          | some m =>
            simp only [belowHorizon, seen, Option.any_some, decide_eq_true_eq, not_lt] at horizon
            exact here ▸ horizon
        · exact floor k d found

theorem OwnFloor.handle (floor : OwnFloor desk.book) (request : Request T) :
    OwnFloor (desk.handle request).book := by
  cases request with
  | directive d =>
    simp only [Desk.handle, Request.asked, TaskBook.handle]
    cases report : d.isTipReport with
    | true => rwa [handleDirective_tipReport _ report]
    | false => exact OwnFloor.handleDirective floor report
  | subscribe k =>
    have same := desk.sameLog_subscribe k
    rw [OwnFloor, same.directives, same.maxSeen]
    exact floor
  | pruneBelow f =>
    intro k d found
    simp only [Desk.handle, Request.asked, TaskBook.handle, prune, OrderedMap.get?_splitOff,
      Option.ite_none_right_eq_some] at found
    exact floor k d found.2

/-- Above its own floor the log holds what was delivered since the last floor
the reporter set above the height. -/
theorem log_since (requests : List (Request T))
    (retained : (({} : Desk T).serve requests).book.maxSeen.getD 0 - pruneSlack ≤ height) :
    (({} : Desk T).serve requests).book.directives.get? height =
      recorded (deliveredSince height requests) height := by
  induction requests using List.reverseRecOn with
  | nil => rfl
  | append_singleton requests request ih =>
    have last : ({} : Desk T).serve (requests ++ [request]) =
        (({} : Desk T).serve requests).handle request := by simp [Desk.serve]
    rw [last] at retained ⊢
    rw [deliveredSince_append]
    have before := ih ((Nat.sub_le_sub_right (maxSeen_le_handle _ request) _).trans retained)
    cases request with
    | directive d =>
      simp only [Desk.handle, Request.asked, TaskBook.handle, Request.delivers] at retained ⊢
      cases report : d.isTipReport with
      | true =>
        rw [handleDirective_tipReport _ report, if_pos rfl, List.append_nil]
        exact before
      | false =>
        rw [if_neg Bool.false_ne_true]
        exact directive_log before (fun _ member => real_of_deliveredSince member) report retained
    | subscribe k =>
      rw [(Desk.sameLog_subscribe _ k).directives]
      simpa [Request.delivers] using before
    | pruneBelow floor =>
      simp only [Desk.handle, Request.asked, TaskBook.handle, prune, OrderedMap.get?_splitOff]
      by_cases above : height < floor
      · rw [if_neg (not_le.mpr above), if_pos above]
        rfl
      · rw [if_pos (not_lt.mp above), if_neg above]
        exact before

omit [DecidableEq T] in
theorem delivers_of_deliveredSince (member : directive ∈ deliveredSince height requests) :
    directive ∈ requests.flatMap Request.delivers := by
  induction requests using List.reverseRecOn with
  | nil => cases member
  | append_singleton requests request ih =>
    rw [List.flatMap_append, List.flatMap_singleton]
    rw [deliveredSince_append] at member
    cases request with
    | directive d =>
      rcases List.mem_append.mp member with earlier | now
      · exact List.mem_append_left _ (ih earlier)
      · exact List.mem_append_right _ now
    | subscribe k => exact List.mem_append_left _ (ih (by simpa [Request.delivers] using member))
    | pruneBelow floor =>
      dsimp only at member
      split at member
      · cases member
      · exact List.mem_append_left _ (ih member)

/-- The TaskBook's own floor is set by the highest directive. -/
theorem ownFloor_iff {directives : List (TaskDirective T)} {floors : List Nat}
    {book : TaskBook T Nat} (follows : Follows directives floors book) :
    book.maxSeen.getD 0 - pruneSlack ≤ height ↔ ∀ d ∈ directives, d.height ≤ height + pruneSlack := by
  cases seen : book.maxSeen with
  | none => simp [follows.unseen seen]
  | some m =>
    obtain ⟨top, member, rfl⟩ := follows.attained m seen
    rw [Option.getD_some, Nat.sub_le_iff_le_add]
    exact ⟨fun low d other => (follows.bound _ seen d other).trans low, fun low => low top member⟩

end Log

/-! ### Runs of the node -/

section Runs

variable [DecidableEq T] [DecidableEq D] {skip : Nat → D} {s s' : Answerable T}
variable {label : Label T D C} {height responder : Nat} {task : T}

/-- What every run keeps: the desk is the outcome of its mailbox, and no floor
was set higher than the mirror allows. -/
structure Sound (s : Answerable T) : Prop where
  desk : s.desk = ({} : Desk T).serve s.requests
  floors : ∀ floor ∈ s.floors, floor + pruneSlack ≤ s.reporter.tipHandle
  pruned : ∀ floor, .pruneBelow floor ∈ s.requests → floor + pruneSlack ≤ s.reporter.tipHandle

omit [DecidableEq D] in
theorem Starts.sound (starts : Starts s) : Sound s := by
  subst starts
  exact ⟨rfl, by simp, by simp⟩

theorem serve_handle (desk : s.desk = ({} : Desk T).serve s.requests) (request : Request T) :
    (s.handle request).desk = ({} : Desk T).serve (s.handle request).requests := by
  simp [handle, desk, Desk.serve]

theorem Sound.step (sound : Sound s) (taken : step skip s label = some s') : Sound s' := by
  obtain ⟨desk, floors, pruned⟩ := sound
  cases label with
  | directive d | subscribe k =>
    cases taken
    exact ⟨serve_handle desk _, floors, fun floor member => pruned floor (by simpa [handle] using member)⟩
  | activity activity =>
    cases taken
    have moves := s.reporter.tipHandle_le_handle skip activity
    refine ⟨desk, fun floor member => ?_, fun floor member => (pruned floor member).trans moves⟩
    rcases List.mem_append.mp member with earlier | now
    · exact (floors floor earlier).trans moves
    · obtain ⟨effect, sent, floorOf⟩ := List.mem_filterMap.mp now
      cases effect with
      | observe => cases floorOf
      | pruneBelow requested =>
        obtain rfl : requested = floor := Option.some.inj floorOf
        obtain ⟨positive, exact', -⟩ := NodeReporter.handle_floor sent
        dsimp only
        omega
  | prune =>
    simp only [Answerable.step] at taken
    split at taken
    · cases taken
    · rename_i floor rest waiting
      cases taken
      refine ⟨serve_handle desk _, fun f member => floors f (by simp [waiting, member]), fun f member => ?_⟩
      rcases List.mem_append.mp member with earlier | now
      · exact pruned f earlier
      · obtain rfl : f = floor := by simpa using now
        exact floors f (by simp [waiting])

theorem sound_of_reachable (reached : Reachable Starts (step (C := C) skip) s) : Sound s :=
  reached.preserves (fun _ starts => starts.sound) fun _ _ _ _ sound taken => sound.step taken

theorem ownFloor_serve (requests : List (Request T)) :
    OwnFloor (({} : Desk T).serve requests).book := by
  induction requests using List.reverseRecOn with
  | nil =>
    intro k d found
    cases found
  | append_singleton requests request ih =>
    simpa [Desk.serve] using OwnFloor.handle ih request

omit [DecidableEq T] in
/-- A subscriber is answered with an announcement exactly when the log holds it. -/
theorem answered_iff {book : TaskBook T Nat} :
    (book.handleSubscribe height responder).2 = [(responder, .announce task)] ↔
      ∃ k, book.directives.get? height = some (.announce k task) := by
  unfold handleSubscribe
  cases found : book.directives.get? height with
  | none =>
    dsimp only
    split <;> simp
  | some d => cases d <;> simp [resolution]

/-- What the log holds for a height without a skip. -/
theorem logged_iff (sound : Sound s) (unskipped : .skip height ∉ s.desk.delivered) :
    (∃ k, s.desk.book.directives.get? height = some (.announce k task)) ↔
      s.desk.book.maxSeen.getD 0 - pruneSlack ≤ height ∧
        firstAnnounced (deliveredSince height s.requests) height = some task := by
  rw [sound.desk, Desk.serve_delivered] at unskipped
  rw [sound.desk]
  have noSkip : .skip height ∉ deliveredSince height s.requests :=
    fun member => unskipped (delivers_of_deliveredSince member)
  constructor
  · rintro ⟨k, found⟩
    have retained := ownFloor_serve s.requests height _ found
    rw [log_since s.requests retained, recorded, if_neg noSkip] at found
    obtain ⟨task', first, same⟩ := Option.map_eq_some_iff.mp found
    cases same
    exact ⟨retained, first⟩
  · rintro ⟨retained, first⟩
    exact ⟨height, by rw [log_since s.requests retained, recorded, if_neg noSkip, first]; rfl⟩

/-- **How long an announcement is answerable.** A subscription of a height that
is due is answered with its task exactly when no directive lies further above
the height than the slack, and the task was announced first since the last floor
that the reporter set above the height. -/
theorem answered_iff_retained (s : Answerable T)
    (reached : Reachable Starts (step (C := C) skip) s) (due : Due s height task) :
    (s.desk.book.handleSubscribe height responder).2 = [(responder, .announce task)] ↔
      (∀ d ∈ s.desk.delivered, d.height ≤ height + pruneSlack) ∧
        firstAnnounced (deliveredSince height s.requests) height = some task := by
  have sound := sound_of_reachable reached
  obtain ⟨floors, follows⟩ := (Desk.Sound.empty.serve (T := T) s.requests).follows
  rw [← sound.desk] at follows
  rw [answered_iff, logged_iff sound due.unskipped, ownFloor_iff follows]

end Runs

section Examples

/-- A node that has handled an announcement for height 5 and another above it. -/
def announcedTo (higher : Nat) : Answerable Char :=
  (({} : Answerable Char).handle (.directive (.announce 5 'a'))).handle
    (.directive (.announce higher 'b'))

theorem announcedTo_reachable (higher : Nat) :
    Reachable Starts (step (C := Unit) (id : Nat → Nat)) (announcedTo higher) :=
  ⟨{}, [.directive (.announce 5 'a'), .directive (.announce higher 'b')], rfl,
    .cons trivial rfl (.cons trivial rfl .nil)⟩

theorem announcedTo_due (higher : Nat) : Due (announcedTo higher) 5 'a' where
  active := (Nat.zero_sub _).le.trans (Nat.zero_le _)
  recorded := ⟨[], [.directive (.announce higher 'b')], rfl, by simp [Desk.serve], rfl⟩
  unskipped := by
    simp [announcedTo, handle, Desk.handle, Request.delivers, TaskDirective.isTipReport]

/-- The node's engine is at height 0 and may still ask for height 5, but the
router has announced height 1030: the subscriber is told to skip. -/
theorem lagging_node_loses_announcement :
    ¬ ∀ (s : Answerable Char) (height responder : Nat) (task : Char),
      Reachable Starts (step (C := Unit) (id : Nat → Nat)) s → Due s height task →
        (s.desk.book.handleSubscribe height responder).2 = [(responder, .announce task)] := by
  intro answered
  have told := answered (announcedTo 1030) 5 0 'a' (announcedTo_reachable 1030)
    (announcedTo_due 1030)
  revert told
  decide +kernel

/-- At height 1029 the router is still within the slack. -/
theorem announcement_within_slack_answered :
    ((announcedTo 1029).desk.book.handleSubscribe 5 0).2 = [(0, .announce 'a')] := by
  apply (answered_iff_retained (announcedTo 1029) (announcedTo_reachable 1029)
    (announcedTo_due 1029)).mpr
  decide +kernel

end Examples
end Answerable
end Restaking
