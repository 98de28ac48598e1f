import Restaking.CertifiedDigests

/-! Foreign certificates and where they do not come from. The sequencer keeps a task
that a foreign certificate robbed of its height. Among nodes that started with the
router, and with validators that compute the digest the task source expects, it
never has to: a quorum certifies the digest assigned to a height or its skip digest,
and the submitter finds the assignment as long as the height is driven. -/
namespace Restaking
open Lib

variable {T D P G S : Type*}

theorem Phase.held_after {call other : Call T D} {outcome : HeightOutcome}
    (holds : (Phase.after call outcome).held = some other) : other = call := by
  rcases outcome with (_ | _ | _) | _ | _ <;> first | exact (Option.some.inj holds).symm | cases holds

namespace Router

variable [LinearOrder P]
variable {cfg : Config D P G S} {s s' : Router T D P S} {label : Label T D P S}

/-- Every task in the sequencer has a property. -/
structure Tasks (property : SequencedTask T D → Prop) (q : SequencerActor T D S) : Prop where
  held : ∀ call, q.phase.held = some call → property call.sequenced
  assigned : ∀ entry ∈ q.assigned, property entry.2.sequenced

/-- Tasks enter the sequencer from their source alone. -/
theorem Tasks.sequenced {property : SequencedTask T D → Prop} (tasks : Tasks property s.sequencer)
    (supplied : ∀ sequenced, label = .task (some sequenced) → property sequenced)
    (taken : Sequenced cfg s label s') : Tasks property s'.sequencer := by
  have from' {phase : Phase T D} {call : Call T D} (here : s.sequencer.phase = phase)
      (holds : phase.held = some call) : property call.sequenced :=
    tasks.held call (by rw [here, holds])
  have same {phase : Phase T D} {call : Call T D} (here : s.sequencer.phase = phase)
      (holds : phase.held = some call) : ∀ other, some call = some other →
        property other.sequenced := by
    rintro other ⟨⟩
    exact from' here holds
  cases taken with
  | settled _ _ | started _ _ | drained _ _ | dropped _ _ | exhausted _ =>
    exact ⟨fun _ holds => (nomatch holds), tasks.assigned⟩
  | passedOver _ origin =>
    rcases origin with ⟨-, rfl, -⟩ | ⟨call, here, rfl, -⟩ | ⟨call, drive, wake, here, -, rfl, -⟩
    · exact ⟨fun _ holds => (nomatch holds), tasks.assigned⟩
    · exact ⟨same here rfl, tasks.assigned⟩
    · exact ⟨same here rfl, tasks.assigned⟩
  | @inserted call height here _ =>
    refine ⟨same here rfl, ?_⟩
    intro entry member
    rcases List.mem_append.mp member with earlier | last
    · exact tasks.assigned entry earlier
    · cases List.mem_singleton.mp last
      exact from' here rfl
  | @released call height outcome here =>
    refine ⟨?_, tasks.assigned⟩
    intro other holds
    rw [Phase.held_after holds]
    exact from' here rfl
  | @taken sequenced here =>
    refine ⟨?_, tasks.assigned⟩
    rintro other ⟨⟩
    exact supplied sequenced rfl
  | asked here _ | chosen here _ _ | begun here | latched here _ | gaveUp here _ _
  | announced here _ _ _ _ | abandoned here _ _ _ | resolved here _ _ | closed here _ _
  | idled here _ | polled here _ _ =>
    exact ⟨same here rfl, tasks.assigned⟩

/-- A height is driven from the moment it is assigned. -/
theorem driven_of_sequenced {h : Nat} (taken : Sequenced cfg s label s')
    (driven : s'.sequencer.phase.driven = some h) :
    s.sequencer.phase.driven = some h ∨ ∃ call, s.sequencer.phase = .inserting call h := by
  cases taken with
  | settled _ _ | started _ _ | drained _ _ | dropped _ _ | exhausted _ | asked _ _ | chosen _ _ _
  | taken _ => cases driven
  | passedOver _ origin =>
    rcases origin with ⟨-, rfl, -⟩ | ⟨call, here, rfl, -⟩ | ⟨call, drive, wake, here, -, rfl, -⟩
    · cases driven
    · cases driven
    · exact .inl (by rw [here]; exact driven)
  | inserted here _ =>
    cases driven
    exact .inr ⟨_, here⟩
  | released _ =>
    rw [Phase.driven_after] at driven
    cases driven
  | begun here | latched here _ | gaveUp here _ _ | announced here _ _ _ _ | abandoned here _ _ _
  | resolved here _ _ | closed here _ _ | idled here _ | polled here _ _ =>
    exact .inl (by rw [here]; exact driven)

/-- Every valid certificate carries the skip digest or the digest assigned to its
height. -/
def Domestic (cfg : Config D P G S) (s : Router T D P S) : Prop :=
  ∀ c, Vouched cfg s c → c.digest ≠ cfg.skip c.height →
    ∃ call, (c.height, call) ∈ s.sequencer.assigned ∧ call.sequenced.digest = c.digest

/-- Every height resolved as foreign was assigned and is not driven any more. -/
def ForeignOver (s : Router T D P S) : Prop :=
  ∀ notice ∈ s.submitter.notified, notice.resolution.kind = .foreign →
    (∃ call, (notice.resolution.height, call) ∈ s.sequencer.assigned) ∧
      s.sequencer.phase.driven ≠ some notice.resolution.height

private theorem foreignOver_notify {c : Cert D S} {kind : ResolutionKind} (foreignOver : ForeignOver s)
    (done : kind = .foreign → (∃ call, (c.height, call) ∈ s.sequencer.assigned) ∧
      s.sequencer.phase.driven ≠ some c.height) : ForeignOver (s.notify c kind) := by
  intro notice member foreign
  rcases List.mem_append.mp member with earlier | last
  · exact foreignOver notice earlier foreign
  · cases List.mem_singleton.mp last
    exact done foreign

theorem ForeignOver.step [DecidableEq D] (foreignOver : ForeignOver s) (life : InLife cfg s)
    (domestic : Domestic cfg s) (taken : step cfg s label = some s') : ForeignOver s' := by
  obtain ⟨inputs, ledger⟩ := life.ledger
  rcases step_cases taken with environment | reported | submitted | sequenced
  · cases environment <;> exact foreignOver
  · cases reported <;> exact foreignOver
  · cases submitted with
    | skipped _ _ _ => exact foreignOver_notify foreignOver (by rintro ⟨⟩)
    | finished _ => exact foreignOver_notify foreignOver (by rintro ⟨⟩)
    | gaveUp _ _ => exact foreignOver_notify foreignOver (by rintro ⟨⟩)
    | @foreign c looking mismatch =>
      apply foreignOver_notify foreignOver
      rintro -
      obtain ⟨vouched, real⟩ := life.origins.looking c looking
      obtain ⟨call, assigned, digest⟩ := domestic c vouched real
      refine ⟨⟨call, assigned⟩, ?_⟩
      -- A driven height has its assignment in the table, and that one matches.
      intro driven
      obtain ⟨earlier, held, -, last, -, entry⟩ := ledger.driven c.height driven
      have one := ledger.assigned_unique assigned
        (show (c.height, held) ∈ s.sequencer.assigned by rw [last]; simp) rfl
      obtain rfl : call = held := congrArg Prod.snd one
      have present := entry c.height
      rw [if_pos rfl] at present
      exact mismatch inputs.sane _ present digest
    | _ => exact foreignOver
  · have notified : s'.submitter.notified = s.submitter.notified := by
      cases sequenced <;> rfl
    intro notice member foreign
    rw [notified] at member
    obtain ⟨⟨call, assigned⟩, ended⟩ := foreignOver notice member foreign
    refine ⟨⟨call, sequenced.extended.assigned assigned⟩, ?_⟩
    intro driven
    rcases driven_of_sequenced sequenced driven with before | ⟨other, inserting⟩
    · exact ended before
    · exact absurd ((ledger.chosen other _ inserting).2.1 _ assigned) (lt_irrefl _)

/-- No drive has been ended by a foreign resolution. -/
def Undisplaced (s : Router T D P S) : Prop :=
  ∀ call h, s.sequencer.phase ≠ .releasing call h (.resolved .foreign)

theorem Undisplaced.step [DecidableEq D] (undisplaced : Undisplaced s) (foreignOver : ForeignOver s)
    (life : InLife cfg s) (taken : step cfg s label = some s') : Undisplaced s' := by
  intro call h releasing
  rcases step_sequenced taken with kept | sequenced
  · rw [kept.sequencer] at releasing
    exact undisplaced call h releasing
  · cases sequenced with
    | @resolved _ drive wake notice rest here waiting own =>
      simp only [Phase.releasing.injEq, HeightOutcome.resolved.injEq] at releasing
      obtain ⟨-, -, foreign⟩ := releasing
      have sent : notice ∈ s.submitter.notified := by
        rw [life.ledger.1.channel, waiting]
        exact List.mem_append_right _ List.mem_cons_self
      exact (foreignOver notice sent foreign).2 (by rw [here, own]; rfl)
    | passedOver _ origin =>
      rcases origin with ⟨-, rfl, -⟩ | ⟨_, -, rfl, -⟩ | ⟨_, _, _, -, -, rfl, -⟩ <;> cases releasing
    | @released call' height outcome here =>
      rcases outcome with (_ | _ | _) | _ | _ <;> cases releasing
    | _ => cases releasing

end Router

namespace Cluster

variable {n : Nat} [DecidableEq D]
variable {cfg : Config n T D G S} {c c' : Cluster n T D S} {label : Label n T D S}
variable {faulty : Finset (Fin n)}

/-- Where an honest validator returns a digest for the announced view, it is the one
that the task source expects. -/
def Expects (cfg : Config n T D G S) (faulty : Finset (Fin n)) (sequenced : SequencedTask T D) :
    Prop :=
  ∀ i ∉ faulty, ∀ digest, cfg.validates i sequenced.announce digest = true →
    digest = sequenced.digest

/-- The task source supplies such tasks. -/
def Supplies (cfg : Config n T D G S) (faulty : Finset (Fin n)) : Label n T D S → Prop
  | .router (.task (some sequenced)) => Expects cfg faulty sequenced
  | _ => True

variable [DecidableEq T]

/-- A state of the first life of a deployment, in which the engines, the network and
the task source keep their word. -/
abbrev InFirstLife (cfg : Config n T D G S) (faulty : Finset (Fin n)) (c : Cluster n T D S) :
    Prop :=
  ReachableWhere (· = init cfg) (step cfg)
    (fun c label => Lawful faulty c label ∧ Supplies cfg faulty label) c

/-- What the first life keeps. -/
structure Homegrown (cfg : Config n T D G S) (faulty : Finset (Fin n)) (c : Cluster n T D S) :
    Prop where
  truthful : Truthful faulty c
  certified : Certified c
  tasks : Router.Tasks (Expects cfg faulty) c.router.sequencer
  foreignOver : Router.ForeignOver c.router
  undisplaced : Router.Undisplaced c.router

/-- A quorum certifies what an honest member of it signed, and that member signed
what it was told of the height. -/
theorem Homegrown.domestic (home : Homegrown cfg faulty c) (life : InLife cfg c)
    (few : faulty.card ≤ maxFaults n) : Router.Domestic cfg.router c.router := by
  rintro cert ⟨reported, -⟩ real
  have acked := home.certified.reported cert reported
  obtain ⟨i, honest, signed⟩ := acked.honest home.truthful cfg.inhabited few
  rcases (InLife.agreed life i).signed cert.height cert.digest signed with skip | ⟨task, sent, valid⟩
  · exact absurd skip real
  · obtain ⟨call, member, view⟩ := life.assigned sent
    subst view
    exact ⟨call, member, (home.tasks.assigned _ member i honest cert.digest valid).symm⟩

omit [DecidableEq T] in
theorem Homegrown.init : Homegrown cfg faulty (init cfg) where
  truthful := by
    intro i honest height digest acked
    cases acked
  certified := ⟨fun _ member => (nomatch member), fun _ _ member => (nomatch member)⟩
  tasks := ⟨fun _ holds => (nomatch holds), fun _ member => (nomatch member)⟩
  foreignOver := fun _ member => nomatch member
  undisplaced := fun _ _ releasing => nomatch releasing

theorem Homegrown.step (home : Homegrown cfg faulty c) (life : InLife cfg c)
    (few : faulty.card ≤ maxFaults n) (lawful : Lawful faulty c label)
    (supplied : Supplies cfg faulty label) (taken : step cfg c label = some c') :
    Homegrown cfg faulty c' := by
  have truthful := truthful_step home.truthful lawful taken
  have certified := certified_step home.certified lawful taken
  have kept (same : c'.router = c.router) : Homegrown cfg faulty c' :=
    ⟨truthful, certified, same ▸ home.tasks, same ▸ home.foreignOver, same ▸ home.undisplaced⟩
  cases step_stepped taken with
  | @routed label router routed =>
    have routerLife := InLife.router life
    refine ⟨truthful, certified, ?_, home.foreignOver.step routerLife (home.domestic life few) routed,
      home.undisplaced.step home.foreignOver routerLife routed⟩
    show Router.Tasks _ router.sequencer
    rcases Router.step_sequenced routed with same | sequenced
    · rw [same.sequencer]
      exact home.tasks
    · apply home.tasks.sequenced _ sequenced
      rintro task rfl
      exact supplied
  | skipped _ _ => exact kept resolve_router
  | accepted _ _ => exact kept resolve_router
  | exhausted _ _ => exact kept resolve_router
  | _ => exact kept rfl

theorem InFirstLife.inLife (life : InFirstLife cfg faulty c) : InLife cfg c := life.reachable

theorem InFirstLife.home (life : InFirstLife cfg faulty c) (few : faulty.card ≤ maxFaults n) :
    Homegrown cfg faulty c := by
  let inv : Cluster n T D S → Prop := fun c => Homegrown cfg faulty c
  suffices held : inv c from held
  refine ReachableWhere.preserves life ?_ ?_
  · rintro start rfl
    exact .init
  · intro c label c' reached home allowed taken
    exact home.step reached few allowed.1 allowed.2 taken

/-- **No foreign certificate for a driven height.** In every run of the first life of a
deployment, with at most the tolerated number of faulty nodes, whose honest
validators return no other digest than the task source expects: every certificate
that verifies carries its height's skip digest or the digest assigned to the
height, no height is driven that was resolved as foreign, and no drive is ended by a
foreign resolution. -/
theorem driven_height_never_foreign (life : InFirstLife cfg faulty c)
    (few : faulty.card ≤ maxFaults n) :
    (∀ cert ∈ c.router.reporter.reported, cfg.router.verify cert = true →
        cert.digest = cfg.router.skip cert.height ∨
          ∃ call, (cert.height, call) ∈ c.router.sequencer.assigned ∧
            call.sequenced.digest = cert.digest) ∧
      (∀ notice ∈ c.router.submitter.notified, notice.resolution.kind = .foreign →
        c.router.sequencer.phase.driven ≠ some notice.resolution.height) ∧
      ∀ call h, c.router.sequencer.phase ≠ .releasing call h (.resolved .foreign) := by
  have home := InFirstLife.home life few
  refine ⟨?_, fun notice sent foreign => (home.foreignOver notice sent foreign).2, home.undisplaced⟩
  intro cert reported verified
  by_cases skip : cert.digest = cfg.router.skip cert.height
  · exact .inl skip
  · exact .inr (home.domestic life.inLife few cert ⟨reported, verified⟩ skip)

section Examples

/-- The tasks that the validators of `operators` accept. -/
def Tenths : Label (n + 1) Nat Nat Unit → Prop
  | .router (.task (some sequenced)) => sequenced.digest = sequenced.announce / 10
  | _ => True

instance {label : Label (n + 1) Nat Nat Unit} : Decidable (Tenths label) := by
  unfold Tenths
  split <;> infer_instance

theorem Tenths.supplies {label : Label (n + 1) Nat Nat Unit} {faulty : Finset (Fin (n + 1))}
    (tenths : Tenths label) : Supplies (operators n) faulty label := by
  unfold Supplies
  split
  · intro i _ digest valid
    rw [of_decide_eq_true valid]
    exact tenths.symm
  · trivial

end Examples

/-- A height is certified by three nodes while a fourth is told to skip it. -/
theorem late_node_leaves_no_foreign_certificate : ∃ c : Cluster 4 Nat Nat Unit,
    c.router.sequencer.phase.driven = some 0 ∧ c.router.reporter.forwarded.length = 1 ∧
      (∀ notice ∈ c.router.submitter.notified, notice.resolution.kind = .foreign →
        c.router.sequencer.phase.driven ≠ some notice.resolution.height) ∧
      ∀ call h, c.router.sequencer.phase ≠ .releasing call h (.resolved .foreign) := by
  let labels : List (Label 4 Nat Nat Unit) := operatorsAssign 10 1 ++
    signsTask 0 ++ signsTask 1 ++ signsTask 2 ++ timesOut ++ signsSkip 3 ++
    [.router (.activity (.certified ⟨0, 1, ⟨[true, true, true, false], ()⟩⟩)), .router .report]
  let passed (c : Cluster 4 Nat Nat Unit) : Bool :=
    c.router.sequencer.phase.driven = some 0 ∧ c.router.reporter.forwarded.length = 1
  obtain ⟨c, run, reached⟩ : ∃ c, RunWhere (step (operators 3))
      (fun c label => Lawful ∅ c label ∧ Tenths label) (init (operators 3)) labels c ∧
      passed c = true := runWhere_of_exec_any (by decide +kernel)
  obtain ⟨driven, one⟩ := of_decide_eq_true reached
  have life : InFirstLife (operators 3) ∅ c :=
    ⟨_, labels, rfl, run.weaken fun _ _ allowed => ⟨allowed.1, allowed.2.supplies⟩⟩
  exact ⟨c, driven, one, (driven_height_never_foreign life (by decide)).2⟩

end Cluster
end Restaking
