import Restaking.SerialAssignment

/-! Where a submission comes from. Every certificate on its way to the chain was
reported by the engine and passed verification; every submission met its own
assignment; every resolution was given for one certificate and says what became
of it. The invariant follows the certificate through the mailbox, the channel,
the submitter's state and the resolutions it sends. -/
namespace Restaking.Router
open Lib

variable {T D P G S : Type*} [LinearOrder P]
variable {cfg : Config D P G S} {s s' : Router T D P S} {label : Label T D P S}

/-- A certificate the engine reported, which passed verification. -/
def Vouched (cfg : Config D P G S) (s : Router T D P S) (c : Cert D S) : Prop :=
  c ∈ s.reporter.reported ∧ cfg.verify c = true

/-- The task was assigned to the certificate's height with its digest. -/
def Expected (s : Router T D P S) (c : Cert D S) (task : T) : Prop :=
  ∃ call, (c.height, call) ∈ s.sequencer.assigned ∧ call.sequenced.digest = c.digest ∧
    call.sequenced.task = task

/-- A certificate and a task that the submitter brought together. -/
def Submittable (cfg : Config D P G S) (s : Router T D P S) (c : Cert D S) (task : T) : Prop :=
  Vouched cfg s c ∧ c.digest ≠ cfg.skip c.height ∧ Expected s c task

/-- Every attempt at the certificate's submission has failed. -/
def Spent (s : Router T D P S) (c : Cert D S) : Prop :=
  ∀ attempt, 1 ≤ attempt → attempt ≤ maxRetries + 1 → (c, attempt) ∈ s.submitter.failures

/-- What a resolution says about the certificate it was given for. A submission that was
executed called the handler, or ran out of attempts. -/
def Justified (cfg : Config D P G S) (s : Router T D P S) (notice : Notice D S) : Prop :=
  notice.resolution.height = notice.cause.height ∧
    match notice.resolution.kind with
    | .skipped => notice.cause.digest = cfg.skip notice.cause.height
    | .foreign => notice.cause.digest ≠ cfg.skip notice.cause.height
    | .executed success => ∃ task, (notice.cause, task) ∈ s.submitter.picked ∧
        (⟨notice.cause.height, notice.cause.digest, task⟩ ∈ s.submitter.executions ∨
          success = false ∧ Spent s notice.cause)

/-- The origin of everything between the engine and the chain. -/
structure Origins (cfg : Config D P G S) (s : Router T D P S) : Prop where
  inbox : ∀ c, .certified c ∈ s.reporter.inbox → c ∈ s.reporter.reported
  channel : ∀ c ∈ s.certified, Vouched cfg s c
  looking : ∀ c, s.submitter.state = .lookup c → Vouched cfg s c ∧ c.digest ≠ cfg.skip c.height
  submission : ∀ job, s.submitter.state.submission = some job →
    (job.certified, job.task) ∈ s.submitter.picked
  calling : ∀ job, s.submitter.state = .calling job →
    ⟨job.certified.height, job.certified.digest, job.task⟩ ∈ s.submitter.executions
  /-- The attempts before the one under way have failed. -/
  tried : ∀ job, s.submitter.state.submission = some job → ∀ attempt, 1 ≤ attempt →
    attempt < job.attempt → (job.certified, attempt) ∈ s.submitter.failures
  /-- Before a sleep so has the last one. -/
  slept : ∀ job wake, s.submitter.state = .sleeping job wake →
    (job.certified, job.attempt) ∈ s.submitter.failures
  picked : ∀ pick ∈ s.submitter.picked, Submittable cfg s pick.1 pick.2
  executions : ∀ execution ∈ s.submitter.executions, ∃ pick ∈ s.submitter.picked,
    execution = ⟨pick.1.height, pick.1.digest, pick.2⟩
  notified : ∀ notice ∈ s.submitter.notified, Justified cfg s notice

/-- The records a step extends. -/
structure Extended (s s' : Router T D P S) : Prop where
  reported : s.reporter.reported ⊆ s'.reporter.reported
  assigned : s.sequencer.assigned ⊆ s'.sequencer.assigned
  picked : s.submitter.picked ⊆ s'.submitter.picked
  executions : s.submitter.executions ⊆ s'.submitter.executions
  failures : s.submitter.failures ⊆ s'.submitter.failures

/-- A step that leaves the records alone. -/
theorem Extended.same (reported : s'.reporter.reported = s.reporter.reported)
    (assigned : s'.sequencer.assigned = s.sequencer.assigned)
    (submitter : s'.submitter.picked = s.submitter.picked ∧
      s'.submitter.executions = s.submitter.executions ∧
      s'.submitter.failures = s.submitter.failures) : Extended s s' :=
  ⟨reported ▸ List.Subset.refl _, assigned ▸ List.Subset.refl _,
    submitter.1 ▸ List.Subset.refl _, submitter.2.1 ▸ List.Subset.refl _,
    submitter.2.2 ▸ List.Subset.refl _⟩

theorem Extended.refl (s : Router T D P S) : Extended s s := .same rfl rfl ⟨rfl, rfl, rfl⟩

theorem Environment.extended (taken : Environment cfg s label s') : Extended s s' := by
  cases taken with
  | activity activity =>
    refine { Extended.refl s with reported := ?_ }
    cases activity with
    | certified c => exact List.subset_append_left _ _
    | _ => exact List.Subset.refl _
  | _ => exact .same rfl rfl ⟨rfl, rfl, rfl⟩

theorem Reported.extended (taken : Reported cfg s label s') : Extended s s' := by
  cases taken <;> exact .same rfl rfl ⟨rfl, rfl, rfl⟩

theorem Submitted.extended (taken : Submitted cfg s label s') : Extended s s' := by
  cases taken with
  | picked _ _ _ =>
    exact { Extended.refl s with picked := List.subset_append_left _ _ }
  | called _ _ =>
    exact { Extended.refl s with executions := List.subset_append_left _ _ }
  | slept _ _ | gaveUp _ _ =>
    exact { Extended.refl s with failures := List.subset_append_left _ _ }
  | _ => exact .same rfl rfl ⟨rfl, rfl, rfl⟩

theorem Sequenced.extended (taken : Sequenced cfg s label s') : Extended s s' := by
  cases taken with
  | inserted _ _ =>
    exact { Extended.refl s with assigned := List.subset_append_left _ _ }
  | _ => exact .same rfl rfl ⟨rfl, rfl, rfl⟩

theorem step_extended [DecidableEq D] (taken : step cfg s label = some s') : Extended s s' := by
  rcases step_cases taken with environment | reported | submitted | sequenced
  · exact environment.extended
  · exact reported.extended
  · exact submitted.extended
  · exact sequenced.extended

variable {c : Cert D S} {task : T} {notice : Notice D S}

theorem Vouched.extend (vouched : Vouched cfg s c) (extended : Extended s s') : Vouched cfg s' c :=
  ⟨extended.reported vouched.1, vouched.2⟩

theorem Submittable.extend (submittable : Submittable cfg s c task) (extended : Extended s s') :
    Submittable cfg s' c task := by
  obtain ⟨vouched, real, call, assigned, digest, same⟩ := submittable
  exact ⟨vouched.extend extended, real, call, extended.assigned assigned, digest, same⟩

theorem Justified.extend (justified : Justified cfg s notice) (extended : Extended s s') :
    Justified cfg s' notice := by
  obtain ⟨⟨height, kind⟩, cause⟩ := notice
  obtain ⟨named, reason⟩ := justified
  refine ⟨named, ?_⟩
  cases kind with
  | executed success =>
    obtain ⟨task, picked, ended⟩ := reason
    refine ⟨task, extended.picked picked, ended.imp (fun called => extended.executions called) ?_⟩
    rintro ⟨failed, spent⟩
    exact ⟨failed, fun attempt first last => extended.failures (spent attempt first last)⟩
  | skipped => exact reason
  | foreign => exact reason

/-- What the origins say of a state, they say of one that extends its records and
otherwise shows the same certificates. -/
theorem Origins.extend (origins : Origins cfg s) (extended : Extended s s')
    (inbox : ∀ c, .certified c ∈ s'.reporter.inbox → c ∈ s'.reporter.reported)
    (channel : ∀ c ∈ s'.certified, c ∈ s.certified ∨ Vouched cfg s' c)
    (state : s'.submitter.state = s.submitter.state) (picked : s'.submitter.picked = s.submitter.picked)
    (executions : s'.submitter.executions = s.submitter.executions)
    (notified : s'.submitter.notified = s.submitter.notified) : Origins cfg s' where
  inbox := inbox
  channel := by
    intro c member
    rcases channel c member with earlier | new
    · exact (origins.channel c earlier).extend extended
    · exact new
  looking := by
    intro c looking
    obtain ⟨vouched, real⟩ := origins.looking c (state ▸ looking)
    exact ⟨vouched.extend extended, real⟩
  submission := by
    intro job active
    exact picked ▸ origins.submission job (state ▸ active)
  calling := by
    intro job calling
    exact executions ▸ origins.calling job (state ▸ calling)
  tried := by
    intro job active attempt first before
    exact extended.failures (origins.tried job (state ▸ active) attempt first before)
  slept := by
    intro job wake sleeping
    exact extended.failures (origins.slept job wake (state ▸ sleeping))
  picked := by
    intro pick member
    exact (origins.picked pick (picked ▸ member)).extend extended
  executions := by
    intro execution member
    rw [picked]
    exact origins.executions execution (executions ▸ member)
  notified := by
    intro notice member
    exact (origins.notified notice (notified ▸ member)).extend extended

theorem Origins.environment (origins : Origins cfg s) (taken : Environment cfg s label s') :
    Origins cfg s' := by
  have extended := taken.extended
  cases taken with
  | activity activity =>
    refine origins.extend extended ?_ (fun c => .inl) rfl rfl rfl rfl
    intro c waiting
    rcases List.mem_append.mp waiting with earlier | new
    · exact extended.reported (origins.inbox c earlier)
    · cases activity with
      | certified c' =>
        cases List.mem_singleton.mp new
        exact List.mem_append_right _ (List.mem_singleton_self _)
      | tip height => cases List.mem_singleton.mp new
      | ack height => cases new
  | _ => exact origins.extend extended origins.inbox (fun c => .inl) rfl rfl rfl rfl

theorem Origins.reported (origins : Origins cfg s) (taken : Reported cfg s label s') :
    Origins cfg s' := by
  have extended := taken.extended
  have rest {message inbox} (waiting : s.reporter.inbox = message :: inbox) (c : Cert D S)
      (member : .certified c ∈ inbox) : c ∈ s.reporter.reported :=
    origins.inbox c (by rw [waiting]; exact List.mem_cons_of_mem _ member)
  cases taken with
  | @forwarded c inbox waiting _ verified =>
    refine origins.extend extended (rest waiting) ?_ rfl rfl rfl rfl
    intro other member
    rcases List.mem_append.mp member with earlier | new
    · exact .inl earlier
    · cases List.mem_singleton.mp new
      exact .inr ⟨origins.inbox c (by rw [waiting]; exact List.mem_cons_self), verified⟩
  | ignored waiting | retained waiting | tip waiting | answeredTip waiting | answeredGet waiting =>
    exact origins.extend extended (rest waiting) (fun c => .inl) rfl rfl rfl rfl

theorem Origins.sequenced (origins : Origins cfg s) (taken : Sequenced cfg s label s') :
    Origins cfg s' := by
  have extended := taken.extended
  have queried {message : CertReporter.Message D (Bn254Certificate S)}
      (query : ∀ c, message ≠ .certified c) (c : Cert D S)
      (member : .certified c ∈ s.reporter.inbox ++ [message]) : c ∈ s.reporter.reported := by
    rcases List.mem_append.mp member with earlier | new
    · exact origins.inbox c earlier
    · exact absurd (List.mem_singleton.mp new).symm (query c)
  cases taken with
  | settled | asked | polled =>
    exact origins.extend extended (queried fun c => by simp) (fun c => .inl) rfl rfl rfl rfl
  | _ => exact origins.extend extended origins.inbox (fun c => .inl) rfl rfl rfl rfl

/-- The table holds what was assigned. -/
theorem Ledger.expected {h : Nat} {assignment : Assignment T D}
    (ledger : Ledger s.sequencer s.assignments)
    (present : s.assignments.get? h = some assignment) :
    ∃ call, (h, call) ∈ s.sequencer.assigned ∧ s.sequencer.phase.driven = some h ∧
      s.sequencer.phase.held = some call ∧
      assignment = ⟨call.sequenced.digest, call.sequenced.task⟩ := by
  cases driven : s.sequencer.phase.driven with
  | none =>
    rw [(ledger.between driven).1 h] at present
    cases present
  | some k =>
    obtain ⟨earlier, call, holds, last, -, entry⟩ := ledger.driven k driven
    rw [entry h] at present
    split at present
    · rename_i same
      subst same
      cases present
      refine ⟨call, ?_, rfl, holds, rfl⟩
      rw [last]
      exact List.mem_append_right _ (List.mem_singleton_self _)
    · cases present

private theorem origins_notify {kind : ResolutionKind} (origins : Origins cfg s)
    (justified : Justified cfg s ⟨⟨c.height, kind⟩, c⟩) : Origins cfg (s.notify c kind) where
  inbox := origins.inbox
  channel := origins.channel
  looking := by rintro c' ⟨⟩
  submission := by rintro job ⟨⟩
  calling := by rintro job ⟨⟩
  tried := by rintro job ⟨⟩
  slept := by rintro job wake ⟨⟩
  picked := origins.picked
  executions := origins.executions
  notified := by
    intro notice member
    rcases List.mem_append.mp member with earlier | new
    · exact origins.notified notice earlier
    · cases List.mem_singleton.mp new
      exact justified

/-- The submission keeps its certificate and its task through its attempts. -/
private theorem origins_submission {state : Submitter T D (Bn254Certificate S)}
    (origins : Origins cfg s) (looking : ∀ c, state ≠ .lookup c)
    (submission : ∀ job, state.submission = some job →
      (job.certified, job.task) ∈ s.submitter.picked)
    (calling : ∀ job, state ≠ .calling job)
    (tried : ∀ job, state.submission = some job → ∀ attempt, 1 ≤ attempt →
      attempt < job.attempt → (job.certified, attempt) ∈ s.submitter.failures)
    (slept : ∀ job wake, state = .sleeping job wake →
      (job.certified, job.attempt) ∈ s.submitter.failures) :
    Origins cfg { s with submitter := { s.submitter with state } } where
  inbox := origins.inbox
  channel := origins.channel
  looking := by
    intro c here
    exact absurd here (looking c)
  submission := submission
  calling := by
    intro job here
    exact absurd here (calling job)
  tried := tried
  slept := slept
  picked := origins.picked
  executions := origins.executions
  notified := origins.notified

private theorem origins_failure {job : Submission T D (Bn254Certificate S)}
    (origins : Origins cfg s) : Origins cfg (s.recordFailure job) := by
  refine origins.extend ?_ origins.inbox (fun c => .inl) rfl rfl rfl rfl
  exact { Extended.refl s with failures := List.subset_append_left _ _ }

/-- With the last one all attempts so far have failed. -/
private theorem failed_upTo {job : Submission T D (Bn254Certificate S)} (origins : Origins cfg s)
    (active : s.submitter.state.submission = some job) {attempt : Nat} (first : 1 ≤ attempt)
    (before : attempt ≤ job.attempt) :
    (job.certified, attempt) ∈ (s.recordFailure job).submitter.failures := by
  rcases Nat.lt_or_eq_of_le before with earlier | rfl
  · exact List.mem_append_left _ (origins.tried job active attempt first earlier)
  · exact List.mem_append_right _ (List.mem_singleton_self _)

theorem Origins.submitted (origins : Origins cfg s) (ledger : Ledger s.sequencer s.assignments)
    (taken : Submitted cfg s label s') : Origins cfg s' := by
  have extended := taken.extended
  have rest {first certified} (waiting : s.certified = first :: certified) :
      ∀ c ∈ certified, Vouched cfg s c := by
    intro c member
    exact origins.channel c (by rw [waiting]; exact List.mem_cons_of_mem _ member)
  cases taken with
  | @skipped c certified idle waiting skip =>
    have shorter : Origins cfg { s with certified } :=
      { origins with channel := rest waiting }
    exact origins_notify shorter ⟨rfl, skip⟩
  | @looking c certified idle waiting real =>
    refine { origins with channel := rest waiting, looking := ?_, submission := ?_, calling := ?_,
                          tried := ?_, slept := ?_ }
    · rintro c' ⟨⟩
      exact ⟨origins.channel c (by rw [waiting]; exact List.mem_cons_self), real⟩
    · rintro job ⟨⟩
    · rintro job ⟨⟩
    · rintro job ⟨⟩
    · rintro job wake ⟨⟩
  | foreign looking _ =>
    exact origins_notify origins ⟨rfl, (origins.looking _ looking).2⟩
  | @picked c assignment looking present same =>
    obtain ⟨vouched, real⟩ := origins.looking c looking
    obtain ⟨call, assigned, -, -, rfl⟩ := ledger.expected present
    refine { origins with looking := ?_, submission := ?_, calling := ?_, tried := ?_,
                          slept := ?_, picked := ?_, executions := ?_, notified := ?_ }
    · rintro c' ⟨⟩
    · rintro job ⟨⟩
      exact List.mem_append_right _ (List.mem_singleton_self _)
    · rintro job ⟨⟩
    · rintro job ⟨⟩ attempt first before
      exact absurd before (Nat.not_lt.mpr first)
    · rintro job wake ⟨⟩
    · intro pick member
      rcases List.mem_append.mp member with earlier | new
      · exact (origins.picked pick earlier).extend extended
      · cases List.mem_singleton.mp new
        exact ⟨vouched.extend extended, real, call, assigned, same, rfl⟩
    · intro execution member
      obtain ⟨pick, earlier, shape⟩ := origins.executions execution member
      exact ⟨pick, extended.picked earlier, shape⟩
    · intro notice member
      exact (origins.notified notice member).extend extended
  | @called job submitting _ =>
    have active := origins.submission job (by rw [submitting]; rfl)
    refine { origins with looking := ?_, submission := ?_, calling := ?_, tried := ?_,
                          slept := ?_, picked := ?_, executions := ?_, notified := ?_ }
    · rintro c' ⟨⟩
    · rintro job' ⟨⟩
      exact active
    · rintro job' ⟨⟩
      exact List.mem_append_right _ (List.mem_singleton_self _)
    · rintro job' ⟨⟩
      exact origins.tried job (by rw [submitting]; rfl)
    · rintro job' wake ⟨⟩
    · intro pick member
      exact (origins.picked pick member).extend extended
    · intro execution member
      rcases List.mem_append.mp member with earlier | new
      · exact origins.executions execution earlier
      · exact ⟨_, active, List.mem_singleton.mp new⟩
    · intro notice member
      exact (origins.notified notice member).extend extended
  | @finished job status calling =>
    have active := origins.submission job (by rw [calling]; rfl)
    exact origins_notify origins ⟨rfl, job.task, active, .inl (origins.calling job calling)⟩
  | @slept _ job active _ =>
    refine origins_submission (s := s.recordFailure job) (origins_failure origins) (by simp) ?_
      (by simp) ?_ ?_
    · rintro job' ⟨⟩
      exact origins.submission job active
    · rintro job' ⟨⟩ attempt first before
      exact failed_upTo origins active first before.le
    · rintro job' wake ⟨⟩
      exact List.mem_append_right _ (List.mem_singleton_self _)
  | @gaveUp _ job active last =>
    refine origins_notify (origins_failure origins)
      ⟨rfl, job.task, origins.submission job active, .inr ⟨rfl, ?_⟩⟩
    intro attempt first before
    exact failed_upTo origins active first (before.trans last)
  | @woken job wake sleeping _ =>
    have active : s.submitter.state.submission = some job := by rw [sleeping]; rfl
    refine origins_submission origins (by simp) ?_ (by simp) ?_ ?_
    · rintro job' ⟨⟩
      exact origins.submission job active
    · rintro job' ⟨⟩ attempt first before
      rcases Nat.lt_succ_iff_lt_or_eq.mp before with earlier | rfl
      · exact origins.tried job active attempt first earlier
      · exact origins.slept job wake sleeping
    · rintro job' wake' ⟨⟩

/-- The origins are known throughout a router life. -/
theorem InLife.origins [DecidableEq D] (life : InLife cfg s) : Origins cfg s := by
  refine Reachable.preserves life ?_ fun s label s' alive origins taken => ?_
  · rintro start rfl
    constructor <;> simp [init, Submitter.submission]
  · rcases step_cases taken with environment | reported | submitted | sequenced
    · exact origins.environment environment
    · exact origins.reported reported
    · exact origins.submitted (InLife.ledger alive).2 submitted
    · exact origins.sequenced sequenced

end Restaking.Router
