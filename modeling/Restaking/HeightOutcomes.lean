import Restaking.Lib.Component
import Restaking.OwnCertificates

/-! What becomes of a height. The sequencer is done with every height that it has
assigned and does not drive any more, and what it has on record for the height is
what the quorum of the nodes decided there: the skip, or the execution of the task
under its own digest, unless the safe tip rose above the height first. -/
namespace Restaking
open Lib

variable {T D P G S : Type*}

namespace Router

variable [LinearOrder P]
variable {cfg : Config D P G S} {s s' : Router T D P S} {label : Label T D P S}

/-- The sequencer is done with what it does not drive, unless it has lost its
submitter. -/
structure Finished (s : Router T D P S) : Prop where
  closed : ∀ call h, s.sequencer.phase = .releasing call h .closed → s.submitter.up = false
  ended : s.submitter.up = true → ∀ entry ∈ s.sequencer.assigned,
    s.sequencer.phase.driven ≠ some entry.1 → s.sequencer.Settled entry.1

theorem Ledger.ended {q : SequencerActor T D S} {table : OrderedMap Nat (Assignment T D)}
    (ledger : Ledger q table) (live : q.phase ≠ .stopped) {entry : Nat × Call T D}
    (assigned : entry ∈ q.assigned) (released : q.phase.driven ≠ some entry.1) :
    q.Settled entry.1 := by
  cases driven : q.phase.driven with
  | none => exact (ledger.between driven).2 live entry assigned
  | some h =>
    obtain ⟨earlier, call, -, last, settled, -⟩ := ledger.driven h driven
    rw [last] at assigned
    rcases List.mem_append.mp assigned with before | now
    · exact settled entry before
    · cases List.mem_singleton.mp now
      exact absurd driven released

variable [DecidableEq D]

/-- A submitter that is gone stays gone. -/
theorem step_up (taken : step cfg s label = some s') (up : s'.submitter.up = true) :
    s.submitter.up = true := by
  rcases step_cases taken with environment | reported | submitted | sequenced
  · cases environment <;> first | exact up | cases up
  · cases reported <;> exact up
  · cases submitted <;> exact up
  · cases sequenced <;> exact up

theorem Finished.step (finished : Finished s) (life : InLife cfg s)
    (taken : step cfg s label = some s') : Finished s' := by
  obtain ⟨inputs, ledger⟩ := InLife.ledger life
  have ledger' := (InLife.ledger (life.next taken)).2
  have gone (down : s.submitter.up = false) : s'.submitter.up = false := by
    by_contra up
    rw [step_up taken (by simpa using up)] at down
    cases down
  refine ⟨?_, fun up entry assigned released => ?_⟩
  · intro call h closed
    rcases step_sequenced taken with kept | sequenced
    · exact gone (finished.closed call h (kept.sequencer ▸ closed))
    · cases sequenced with
      | closed _ _ down => exact down
      | passedOver _ origin =>
        rcases origin with ⟨-, rfl, -⟩ | ⟨_, -, rfl, -⟩ | ⟨_, _, _, -, -, rfl, -⟩ <;> cases closed
      | @released _ _ outcome _ => rcases outcome with (_ | _ | _) | _ | _ <;> cases closed
      | _ => cases closed
  · by_cases live : s'.sequencer.phase = .stopped
    · rcases step_sequenced taken with kept | sequenced
      · rw [kept.sequencer] at assigned released ⊢
        exact finished.ended (step_up taken up) entry assigned released
      · cases sequenced with
        | exhausted here => exact ledger.ended (by simp [here]) assigned (by rw [here]; exact nofun)
        | passedOver _ origin =>
          rcases origin with ⟨-, rfl, -⟩ | ⟨_, -, rfl, -⟩ | ⟨_, _, _, -, -, rfl, -⟩ <;> cases live
        | @released call height outcome here =>
          rcases outcome with (_ | _ | _) | _ | _
          case closed =>
            rw [finished.closed call height here] at up
            cases up
          all_goals cases live
        | _ => cases live
    · exact ledger'.ended live assigned released

theorem InLife.finished (life : InLife cfg s) : Finished s := by
  refine Reachable.preserves life ?_ fun s label s' alive finished taken => finished.step alive taken
  rintro start rfl
  exact ⟨fun _ _ phase => (nomatch phase), fun _ _ member => (nomatch member)⟩

/-- No drive was ended by a foreign resolution. -/
def NeverDisplaced (q : SequencerActor T D S) : Prop :=
  ∀ h ∈ q.resolved, ∃ notice ∈ q.consumed,
    notice.resolution.height = h ∧ notice.resolution.kind ≠ .foreign

theorem NeverDisplaced.step (never : NeverDisplaced s.sequencer) (foreignOver : ForeignOver s)
    (life : InLife cfg s) (taken : step cfg s label = some s') : NeverDisplaced s'.sequencer := by
  rcases step_sequenced taken with kept | sequenced
  · rw [kept.sequencer]
    exact never
  · cases sequenced with
    | @passedOver _ received _ _ _ _ =>
      intro h member
      obtain ⟨notice, consumed, named⟩ := never h member
      exact ⟨notice, List.mem_append_left _ consumed, named⟩
    | @resolved call drive wake received rest here waiting own =>
      intro h member
      rcases List.mem_append.mp member with earlier | last
      · obtain ⟨notice, consumed, named⟩ := never h earlier
        exact ⟨notice, List.mem_append_left _ consumed, named⟩
      · cases List.mem_singleton.mp last
        have sent : received ∈ s.submitter.notified := by
          rw [(InLife.ledger life).1.channel, waiting]
          exact List.mem_append_right _ List.mem_cons_self
        refine ⟨received, List.mem_append_right _ (List.mem_singleton_self _), own, fun foreign => ?_⟩
        exact (foreignOver received sent foreign).2 (by rw [here, own]; rfl)
    | _ => exact never

/-- The height was resolved under the digest: as skipped, or by the execution of its
task, for which the handler was called or every attempt failed. -/
inductive ResolvedUnder (cfg : Config D P G S) (s : Router T D P S) (h : Nat) (call : Call T D) :
    D → Prop where
  | skipped {notice} : notice ∈ s.sequencer.consumed → notice.resolution = ⟨h, .skipped⟩ →
      ResolvedUnder cfg s h call (cfg.skip h)
  | executed {notice success} : notice ∈ s.sequencer.consumed →
      notice.resolution = ⟨h, .executed success⟩ → call.sequenced.digest ≠ cfg.skip h →
      (⟨h, call.sequenced.digest, call.sequenced.task⟩ ∈ s.submitter.executions ∨
        success = false ∧ Spent s notice.cause) →
      ResolvedUnder cfg s h call call.sequenced.digest

/-- The sequencer gave the height up to a higher safe tip. -/
def GivenUp (s : Router T D P S) (h : Nat) : Prop := ∃ tip, (h, tip) ∈ s.sequencer.superseded ∧ h < tip

/-- A resolution that is not foreign settles its height under the digest of its cause. -/
theorem resolvedUnder_of_consumed {h : Nat} {call : Call T D} {notice : Notice D S}
    (life : InLife cfg s) (assigned : (h, call) ∈ s.sequencer.assigned)
    (consumed : notice ∈ s.sequencer.consumed) (named : notice.resolution.height = h)
    (domestic : notice.resolution.kind ≠ .foreign) :
    ResolvedUnder cfg s h call notice.cause.digest ∧ Vouched cfg s notice.cause ∧
      notice.cause.height = h := by
  obtain ⟨inputs, ledger⟩ := InLife.ledger life
  have sent : notice ∈ s.submitter.notified := by
    rw [inputs.channel]
    exact List.mem_append_left _ consumed
  have handed : notice.cause ∈ s.reporter.forwarded := by
    rw [(InLife.deliveries life).conserved]
    exact List.mem_append_left _ (List.mem_map_of_mem sent)
  obtain ⟨height, reason⟩ := (InLife.origins life).notified notice sent
  have shape : notice.resolution = ⟨h, notice.resolution.kind⟩ := by rw [← named]
  refine ⟨?_, (InLife.deliveries life).vouched _ handed, height.symm.trans named⟩
  cases kind : notice.resolution.kind with
  | foreign => exact absurd kind domestic
  | skipped =>
    rw [kind] at reason shape
    rw [reason, ← height, named]
    exact .skipped consumed shape
  | executed success =>
    rw [kind] at reason shape
    obtain ⟨task, picked, ended⟩ := reason
    obtain ⟨-, real, held, assigned', digest, rfl⟩ := (InLife.origins life).picked _ picked
    rw [← height, named] at real assigned' ended
    have one := ledger.assigned_unique assigned assigned' rfl
    obtain rfl : call = held := congrArg Prod.snd one
    dsimp only at digest
    rw [← digest] at real ended ⊢
    exact .executed consumed shape real ended

end Router

namespace Cluster

variable {n : Nat} [DecidableEq T] [DecidableEq D]
variable {cfg : Config n T D G S} {c c' : Cluster n T D S} {label : Label n T D S}
variable {faulty : Finset (Fin n)}

/-- The router in its deployment. -/
def routerPart (cfg : Config n T D G S) :
    Component (step cfg) (Router.step (T := T) cfg.router) where
  view := Cluster.router
  label := Label.routed
  lift := .router
  label_lift := fun _ => rfl
  moves := step_routed
  lifts := by
    intro c label possible
    rw [step, stepWith, Option.isSome_map]
    exact possible

theorem InFirstLife.neverDisplaced (life : InFirstLife cfg faulty c)
    (few : faulty.card ≤ maxFaults n) : Router.NeverDisplaced c.router.sequencer := by
  let inv : Cluster n T D S → Prop := fun c =>
    Homegrown cfg faulty c ∧ Router.NeverDisplaced c.router.sequencer
  suffices held : inv c from held.2
  refine ReachableWhere.preserves life ?_ ?_
  · rintro start rfl
    exact ⟨.init, fun _ member => nomatch member⟩
  · rintro c label c' reached ⟨home, never⟩ ⟨lawful, supplied⟩ taken
    exact ⟨home.step reached few lawful supplied taken,
      never.step home.foreignOver (InLife.router reached) (step_routed taken)⟩

/-- **Every height ends as its quorum decided.** In every run of the first life of a
deployment, with at most the tolerated number of faulty nodes and honest validators
that return no other digest than the task source expects, a height that was assigned
and is not driven any more was given up to a higher safe tip, or a quorum of acks
stands behind the digest that it was resolved under: it was skipped under its skip
digest, or its task was executed under the task's own. -/
theorem released_height_concluded {h : Nat} {call : Call T D} (life : InFirstLife cfg faulty c)
    (few : faulty.card ≤ maxFaults n) (assigned : (h, call) ∈ c.router.sequencer.assigned)
    (released : c.router.sequencer.phase.driven ≠ some h) (up : c.router.submitter.up = true) :
    c.router.GivenUp h ∨
      ∃ digest, c.Acked h digest ∧ Router.ResolvedUnder cfg.router c.router h call digest := by
  have routerLife := InLife.router life.inLife
  rcases (Router.InLife.finished routerLife).ended up _ assigned released with
    ⟨resolved, -⟩ | givenUp
  · obtain ⟨notice, consumed, named, domestic⟩ := InFirstLife.neverDisplaced life few h resolved
    obtain ⟨under, ⟨reported, -⟩, height⟩ :=
      Router.resolvedUnder_of_consumed routerLife assigned consumed named domestic
    refine .inr ⟨_, ?_, under⟩
    rw [← height]
    exact (InFirstLife.home life few).certified.reported _ reported
  · exact .inl givenUp

/-- Three of four nodes sign the digest of the task before the fourth is told to skip,
and the height is executed and released. -/
theorem outvoted_skip_changes_nothing : ∃ (c : Cluster 4 Nat Nat Unit) (call : Call Nat Nat),
    (0, call) ∈ c.router.sequencer.assigned ∧ c.router.sequencer.phase.driven = none ∧
      (c.router.GivenUp 0 ∨ ∃ digest, c.Acked 0 digest ∧
        Router.ResolvedUnder (operators 3).router c.router 0 call digest) := by
  let executes : List (Router.Label Nat Nat (Fin 4) Unit) :=
    [.activity (.certified ⟨0, 1, ⟨[true, true, true, false], ()⟩⟩), .report, .receive, .look,
      .attempt true, .outcome (some (some true)), .resolution, .sequence]
  let labels : List (Label 4 Nat Nat Unit) := operatorsAssign 10 1 ++ signsTask 0 ++ signsTask 1 ++
    signsTask 2 ++ timesOut ++ signsSkip 3 ++ executes.map .router
  let passed (c : Cluster 4 Nat Nat Unit) : Bool := c.router.sequencer.phase.driven = none ∧
    c.router.submitter.up = true ∧ c.router.sequencer.assigned.map Prod.fst = [0]
  obtain ⟨c, run, reached⟩ : ∃ c, RunWhere (step (operators 3))
      (fun c label => Lawful ∅ c label ∧ Tenths label) (init (operators 3)) labels c ∧
      passed c = true := runWhere_of_exec_any (by decide +kernel)
  obtain ⟨driven, up, one⟩ := of_decide_eq_true reached
  obtain ⟨⟨h, call⟩, assigned, rfl⟩ := List.map_eq_singleton_iff.mp one
  have life : InFirstLife (operators 3) ∅ c :=
    ⟨_, labels, rfl, run.weaken fun _ _ allowed => ⟨allowed.1, allowed.2.supplies⟩⟩
  have member : (0, call) ∈ c.router.sequencer.assigned := by
    rw [assigned]
    exact List.mem_singleton_self _
  exact ⟨c, call, member, driven,
    released_height_concluded life (by decide) member (by rw [driven]; exact nofun) up⟩

end Cluster
end Restaking
