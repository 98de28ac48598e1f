import Restaking.Deliveries

/-! The queries of the sequencer while it drives a height. A living reporter has at most
one of them in its mailbox, and whenever it answers with a digest, or the drive has
latched on one, the height's certificate is on its way to the submitter. -/
namespace Restaking.Router
open Lib

variable {T D P G S : Type*} [LinearOrder P]
variable {cfg : Config D P G S} {s s' : Router T D P S} {label : Label T D P S}

/-- The certificates that wait for the reporter. -/
def pending (inbox : List (CertReporter.Message D (Bn254Certificate S))) : List (Cert D S) :=
  inbox.filterMap fun
    | .certified c => some c
    | _ => none

/-- The heights that are asked for. -/
def queried (inbox : List (CertReporter.Message D (Bn254Certificate S))) : List Nat :=
  inbox.filterMap fun
    | .get h => some h
    | _ => none

/-- The height that the sequencer waits for an answer on. -/
def askedIn : Phase T D → Option Nat
  | .polling _ drive => some drive.height
  | _ => none

def asked (s : Router T D P S) : Option Nat := askedIn s.sequencer.phase

theorem asked_eq {phase : Phase T D} (here : s.sequencer.phase = phase) :
    s.asked = askedIn phase := congrArg askedIn here

/-- A certificate for the height has been handed to the submitter. -/
def HandedOn (s : Router T D P S) (h : Nat) : Prop := ∃ c ∈ s.reporter.forwarded, c.height = h

/-- What the queries of the sequencer have come to. -/
structure Polled (s : Router T D P S) : Prop where
  bounded : s.reporter.forwarded.length + (pending s.reporter.inbox).length ≤
    s.reporter.reported.length
  /-- While the reporter lives, the mailbox holds the query that has no answer yet. -/
  queries : s.reporter.up = true →
    queried s.reporter.inbox ++ (s.getAnswer.bind fun _ => s.asked).toList = s.asked.toList ∧
      (s.getAnswer.isSome = true → s.asked.isSome = true)
  answered : s.reporter.up = true → s.submitter.up = true → ∀ digest h,
    s.getAnswer = some (some digest) → s.asked = some h → HandedOn s h
  latched : s.reporter.up = true → s.submitter.up = true → ∀ drive,
    s.sequencer.phase.drive? = some drive → drive.certified = true → HandedOn s drive.height

theorem Polled.init : Polled (init cfg : Router T D P S) where
  bounded := le_rfl
  queries := fun _ => ⟨rfl, nofun⟩
  answered := fun _ _ => nofun
  latched := fun _ _ => nofun

/-- A step that leaves the queries alone. -/
theorem Polled.still (polled : Polled s)
    (bounded : s'.reporter.forwarded.length + (pending s'.reporter.inbox).length ≤
      s'.reporter.reported.length)
    (queried' : queried s'.reporter.inbox = queried s.reporter.inbox)
    (forwarded : s.reporter.forwarded <+: s'.reporter.forwarded)
    (up : s'.reporter.up = true → s.reporter.up = true)
    (up' : s'.submitter.up = true → s.submitter.up = true) (answer : s'.getAnswer = s.getAnswer)
    (asked : s'.asked = s.asked)
    (drive : ∀ drive', s'.sequencer.phase.drive? = some drive' → drive'.certified = true →
      s.sequencer.phase.drive? = some drive') : Polled s' where
  bounded := bounded
  queries := by
    intro alive
    rw [queried', answer, asked]
    exact polled.queries (up alive)
  answered := by
    intro alive alive' digest h found waits
    rw [answer] at found
    rw [asked] at waits
    obtain ⟨c, member, height⟩ := polled.answered (up alive) (up' alive') digest h found waits
    exact ⟨c, forwarded.subset member, height⟩
  latched := by
    intro alive alive' drive' driving certified
    obtain ⟨c, member, height⟩ := polled.latched (up alive) (up' alive') drive'
      (drive drive' driving certified) certified
    exact ⟨c, forwarded.subset member, height⟩

theorem Polled.environment (polled : Polled s) (taken : Environment cfg s label s')
    (asked : s.reporter.up = true → label ≠ .unanswered) : Polled s' := by
  have bounded := polled.bounded
  cases taken with
  | activity activity =>
    refine polled.still ?_ ?_ List.prefix_rfl id id rfl rfl fun _ driving _ => driving
    · cases activity <;> simp [enqueue, CertReporter.message, pending] at bounded ⊢ <;> omega
    · cases activity <;> simp [enqueue, CertReporter.message, queried]
  | reporterStopped =>
    exact polled.still bounded rfl List.prefix_rfl (by rintro ⟨⟩) id rfl rfl fun _ driving _ => driving
  | submitterStopped =>
    exact polled.still bounded rfl List.prefix_rfl id (by rintro ⟨⟩) rfl rfl fun _ driving _ => driving
  | noTip => exact polled.still bounded rfl List.prefix_rfl id id rfl rfl fun _ driving _ => driving
  | noDigest =>
    refine ⟨bounded, ?_, ?_, ?_⟩
    · exact fun alive => absurd rfl (asked alive)
    · exact fun alive => absurd rfl (asked alive)
    · exact fun alive => absurd rfl (asked alive)
  | _ => exact polled.still bounded rfl List.prefix_rfl id id rfl rfl fun _ driving _ => driving

theorem Polled.submitted (polled : Polled s) (taken : Submitted cfg s label s') : Polled s' := by
  cases taken <;> exact polled.still polled.bounded rfl List.prefix_rfl id id rfl rfl
    fun _ driving _ => driving

theorem Polled.reported (polled : Polled s) (deliveries : Deliveries cfg s)
    (taken : Reported cfg s label s') : Polled s' := by
  have bounded := polled.bounded
  cases taken with
  | ignored waiting | retained waiting | tip waiting | answeredTip waiting =>
    rw [waiting] at bounded
    refine polled.still ?_ (by rw [waiting]; rfl) List.prefix_rfl id id rfl rfl
      fun _ driving _ => driving
    simp only [pending, List.filterMap_cons, List.length_cons] at bounded ⊢
    omega
  | forwarded waiting =>
    rw [waiting] at bounded
    refine polled.still ?_ (by rw [waiting]; rfl) (List.prefix_append _ _) id id rfl rfl
      fun _ driving _ => driving
    simp only [pending, List.filterMap_cons, List.length_cons, List.length_append,
      List.length_nil] at bounded ⊢
    omega
  | @answeredGet height inbox waiting =>
    have own (alive : s.reporter.up = true) : s.asked = some height ∧ queried inbox = [] := by
      have queries := (polled.queries alive).1
      rw [waiting] at queries
      simp only [queried, List.filterMap_cons, List.cons_append] at queries
      cases asks : s.asked with
      | none => simp [asks] at queries
      | some h =>
        rw [asks, Option.toList_some] at queries
        obtain ⟨rfl, rest⟩ := List.cons.inj queries
        exact ⟨rfl, (List.append_eq_nil_iff.mp rest).1⟩
    refine ⟨?_, ?_, ?_, polled.latched⟩
    · rw [waiting] at bounded
      exact bounded
    · intro alive
      obtain ⟨asks, none⟩ := own alive
      have asks' : asked { s with
          getAnswer := some (s.reporter.log.certified.get? height)
          reporter := { s.reporter with inbox } } = some height := asks
      refine ⟨?_, fun _ => by rw [asks']; rfl⟩
      dsimp only
      rw [none, asks']
      rfl
    · intro alive alive' digest h found asks'
      cases (own alive).1.symm.trans asks'
      obtain ⟨c, member, same, -⟩ := deliveries.filed alive' height digest (Option.some.inj found)
      exact ⟨c, member, same⟩

/-- The sequencer takes an answer. -/
theorem Polled.answer (polled : Polled s) {call : Call T D} {drive : Drive} {answer : Option D}
    (here : s.sequencer.phase = .polling call drive) (found : s.getAnswer = some answer)
    (reporter : s'.reporter = s.reporter) (submitter : s'.submitter = s.submitter)
    (gone : s'.getAnswer = none) (asked' : s'.asked = none)
    (latched : s.reporter.up = true → s.submitter.up = true → ∀ drive',
      s'.sequencer.phase.drive? = some drive' → drive'.certified = true →
        HandedOn s drive'.height) : Polled s' where
  bounded := by
    rw [reporter]
    exact polled.bounded
  queries := by
    intro alive
    rw [reporter] at alive
    have queries := (polled.queries alive).1
    have asks : s.asked = some drive.height := asked_eq here
    rw [found, asks, Option.bind_some, Option.toList_some, List.append_left_eq_self] at queries
    refine ⟨?_, by rw [gone]; exact nofun⟩
    rw [reporter, gone, asked', queries]
    rfl
  answered := by
    intro _ _ digest h present
    rw [gone] at present
    cases present
  latched := by
    intro alive alive'
    rw [reporter] at alive
    rw [submitter] at alive'
    have before := latched alive alive'
    intro drive' driving certified
    obtain ⟨c, member, height⟩ := before drive' driving certified
    exact ⟨c, by rw [reporter]; exact member, height⟩

/-- The sequencer asks, with no other query under way. -/
theorem Polled.ask (polled : Polled s) {call : Call T D} {drive : Drive} {wake : Nat}
    (here : s.sequencer.phase = .selecting call drive wake) (fresh : drive.certified = false) :
    Polled { s with
      reporter := { s.reporter with inbox := s.reporter.inbox ++ [.get drive.height] }
      sequencer := { s.sequencer with phase := .polling call drive } } := by
  have asks : s.asked = none := asked_eq here
  refine ⟨?_, ?_, ?_, ?_⟩
  · simpa [pending] using polled.bounded
  · intro alive
    obtain ⟨queries, waits⟩ := polled.queries alive
    rw [asks] at queries waits
    have idle : s.getAnswer = none := by simpa using waits
    have empty : queried s.reporter.inbox = [] := (List.append_eq_nil_iff.mp queries).1
    refine ⟨?_, by rw [idle]; rintro ⟨⟩⟩
    simp only [queried] at empty
    have asks' : asked { s with
        reporter := { s.reporter with inbox := s.reporter.inbox ++ [.get drive.height] }
        sequencer := { s.sequencer with phase := .polling call drive } } = some drive.height := rfl
    rw [asks', idle]
    simp [queried, empty]
  · intro alive _ digest h found
    have idle := (polled.queries alive).2
    rw [found, asks] at idle
    cases idle rfl
  · intro alive alive' drive' driving certified
    cases driving
    rw [fresh] at certified
    cases certified

theorem Polled.sequenced (polled : Polled s) (taken : Sequenced cfg s label s') : Polled s' := by
  have bounded := polled.bounded
  cases taken with
  | polled here fresh _ => exact polled.ask here fresh
  | @latched call drive digest here found =>
    refine polled.answer here found rfl rfl rfl rfl ?_
    rintro alive alive' drive' ⟨⟩ -
    exact polled.answered alive alive' digest _ found (asked_eq here)
  | gaveUp here found _ =>
    exact polled.answer here found rfl rfl rfl rfl (by rintro _ _ _ ⟨⟩)
  | @announced call drive here found _ _ _ | @abandoned call drive here found _ _ =>
    refine polled.answer here found rfl rfl rfl rfl ?_
    rintro alive alive' drive' ⟨⟩ certified
    have before : s.sequencer.phase.drive? = some drive := by rw [here]; rfl
    exact polled.latched alive alive' drive before certified
  | settled here | asked here =>
    refine polled.still (by simpa [pending] using bounded) (by simp [queried]) List.prefix_rfl id id
      rfl (asked_eq here).symm (by rintro _ ⟨⟩)
  | passedOver _ origin =>
    rcases origin with ⟨here, rfl, -⟩ | ⟨call, here, rfl, -⟩ | ⟨call, drive, wake, here, -, rfl, -⟩
    · exact polled.still bounded rfl List.prefix_rfl id id rfl (asked_eq here).symm (by rintro _ ⟨⟩)
    · exact polled.still bounded rfl List.prefix_rfl id id rfl (asked_eq here).symm (by rintro _ ⟨⟩)
    · exact polled.still bounded rfl List.prefix_rfl id id rfl (asked_eq here).symm
        fun drive' driving _ => by rw [here]; exact driving
  | begun here =>
    refine polled.still bounded rfl List.prefix_rfl id id rfl (asked_eq here).symm ?_
    rintro drive' ⟨⟩ ⟨⟩
  | idled here _ =>
    exact polled.still bounded rfl List.prefix_rfl id id rfl (asked_eq here).symm
      fun drive' driving _ => by rw [here]; exact driving
  | @released call height outcome here =>
    refine polled.still bounded rfl List.prefix_rfl id id rfl ?_ ?_
    · rw [asked_eq here]
      rcases outcome with (_ | _ | _) | _ | _ <;> rfl
    · intro drive' driving
      rcases outcome with (_ | _ | _) | _ | _ <;> cases driving
  | started here | drained here | chosen here | dropped here | inserted here | exhausted here
  | taken here | resolved here | closed here =>
    exact polled.still bounded rfl List.prefix_rfl id id rfl (asked_eq here).symm (by rintro _ ⟨⟩)

theorem InLife.polled [DecidableEq D] (life : InLife cfg s) : Polled s := by
  refine Reachable.preserves life ?_ fun s label s' alive polled taken => ?_
  · rintro start rfl
    exact .init
  · rcases step_cases taken with environment | reported | submitted | sequenced
    · refine polled.environment environment ?_
      rintro up rfl
      simp [step, stepWith, unanswered, up] at taken
    · exact polled.reported (InLife.deliveries alive) reported
    · exact polled.submitted submitted
    · exact polled.sequenced sequenced

end Restaking.Router
