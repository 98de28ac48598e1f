import Restaking.Submissions

/-! The way of a certificate through the router, end to end. Two unbounded channels
and the submitter between them neither lose, repeat nor reorder anything: what the
reporter handed on is what the sequencer has received, then what waits for it, then
the certificate the submitter is at work on, then what waits for the submitter. -/
namespace Restaking
open Lib

/-- The certificate that the submitter has taken and not yet resolved. -/
def Submitter.taken? {T D C : Type*} : Submitter T D C → Option (Certificate D C)
  | .idle => none
  | .lookup certified => some certified
  | .submitting submission => some submission.certified
  | .calling submission => some submission.certified
  | .sleeping submission _ => some submission.certified

theorem Submitter.taken?_of_submission {T D C : Type*} {state : Submitter T D C}
    {job : Submission T D C} (active : state.submission = some job) :
    state.taken? = some job.certified := by
  cases state <;> cases active <;> rfl

namespace Router

variable {T D P G S : Type*} [LinearOrder P]
variable {cfg : Config D P G S} {s s' : Router T D P S} {label : Label T D P S} {c : Cert D S}

/-- The certificates handed on that have not been resolved. -/
def outstanding (s : Router T D P S) : List (Cert D S) :=
  s.submitter.state.taken?.toList ++ s.certified

/-- What the reporter handed on, and what has become of it. -/
structure Deliveries (cfg : Config D P G S) (s : Router T D P S) : Prop where
  conserved : s.reporter.forwarded = s.submitter.notified.map Notice.cause ++ s.outstanding
  vouched : ∀ c ∈ s.reporter.forwarded, Vouched cfg s c
  /-- While the submitter lives, every height on file has been handed on. -/
  filed : s.submitter.up = true → ∀ h digest, s.reporter.log.certified.get? h = some digest →
    ∃ c ∈ s.reporter.forwarded, c.height = h ∧ c.digest = digest

theorem Deliveries.init : Deliveries cfg (init cfg : Router T D P S) where
  conserved := rfl
  vouched := by simp [Router.init]
  filed := by simp [Router.init]

/-- A step that leaves the way of the certificates alone. -/
theorem Deliveries.kept (deliveries : Deliveries cfg s) (extended : Extended s s')
    (forwarded : s'.reporter.forwarded = s.reporter.forwarded)
    (notified : s'.submitter.notified = s.submitter.notified)
    (outstanding : s'.outstanding = s.outstanding)
    (up : s'.submitter.up = true → s.submitter.up = true)
    (log : ∀ h digest, s'.reporter.log.certified.get? h = some digest →
      s.reporter.log.certified.get? h = some digest) : Deliveries cfg s' where
  conserved := by rw [forwarded, notified, outstanding, deliveries.conserved]
  vouched := by
    intro c member
    exact (deliveries.vouched c (forwarded ▸ member)).extend extended
  filed := by
    intro alive h digest found
    rw [forwarded]
    exact deliveries.filed (up alive) h digest (log h digest found)

theorem Deliveries.environment (deliveries : Deliveries cfg s)
    (taken : Environment cfg s label s') : Deliveries cfg s' := by
  have extended := taken.extended
  cases taken with
  | submitterStopped =>
    exact deliveries.kept extended rfl rfl rfl (by rintro ⟨⟩) fun _ _ found => found
  | _ => exact deliveries.kept extended rfl rfl rfl id fun _ _ found => found

theorem Deliveries.sequenced (deliveries : Deliveries cfg s)
    (taken : Sequenced cfg s label s') : Deliveries cfg s' := by
  have extended := taken.extended
  cases taken with
  | _ => exact deliveries.kept extended rfl rfl rfl id fun _ _ found => found

/-- What the log holds after a certificate was recorded, it held before or holds
of that certificate. -/
theorem get?_recorded {h : Nat} {digest : D}
    (found : ({ s.reporter.log with
      certified := s.reporter.log.certified.insert c.height c.digest
      }.advanceTip (c.height + 1)).certified.get? h = some digest) :
    (c.height = h ∧ c.digest = digest) ∨ s.reporter.log.certified.get? h = some digest := by
  have kept := CertReporter.advanceTip_get? found
  simp only [OrderedMap.get?_insert] at kept
  split at kept
  · rename_i here
    cases kept
    exact .inl ⟨here.symm, rfl⟩
  · exact .inr kept

/-- A living submitter is handed what the reporter puts on file. -/
theorem report_forwards (taken : s.report cfg = some s') (alive : s.submitter.up = true)
    {inbox : List (CertReporter.Message D (Bn254Certificate S))}
    (waiting : s.reporter.inbox = .certified c :: inbox)
    (fresh : s.reporter.log.certified.get? c.height = none) (verified : cfg.verify c = true) :
    s'.reporter.forwarded = s.reporter.forwarded ++ [c] := by
  unfold report at taken
  split at taken
  · cases taken
  · simp only [waiting] at taken
    obtain ⟨⟨log, forward⟩, handled, shape⟩ := Option.map_eq_some_iff.mp taken
    rcases CertReporter.handleCertified_cases handled with ⟨rfl, rfl⟩ | ⟨-, -, rfl, -⟩
    · simp [CertReporter.handleCertified, fresh, verified] at handled
    · cases shape
      rfl

theorem Deliveries.reported (deliveries : Deliveries cfg s) (origins : Origins cfg s)
    (reports : s.report cfg = some s') (taken : Reported cfg s label s') : Deliveries cfg s' := by
  have extended := taken.extended
  have pruned {tip h : Nat} {digest : D}
      (found : (s.reporter.log.advanceTip tip).certified.get? h = some digest) :
      s.reporter.log.certified.get? h = some digest := CertReporter.advanceTip_get? found
  cases taken with
  | ignored _ | answeredTip _ | answeredGet _ =>
    exact deliveries.kept extended rfl rfl rfl id fun _ _ found => found
  | tip _ => exact deliveries.kept extended rfl rfl rfl id fun _ _ found => pruned found
  | retained waiting fresh verified =>
    refine { deliveries with
      vouched := fun c member => (deliveries.vouched c member).extend extended
      filed := fun alive => ?_ }
    have longer := report_forwards reports alive waiting fresh verified
    simp at longer
  | @forwarded c inbox waiting _ verified =>
    refine ⟨?_, ?_, ?_⟩
    · show s.reporter.forwarded ++ [c] = _
      rw [deliveries.conserved]
      simp [outstanding]
    · intro other member
      rcases List.mem_append.mp member with earlier | last
      · exact (deliveries.vouched other earlier).extend extended
      · cases List.mem_singleton.mp last
        exact ⟨origins.inbox c (by rw [waiting]; exact List.mem_cons_self), verified⟩
    · intro alive h digest found
      rcases get?_recorded found with ⟨height, same⟩ | earlier
      · exact ⟨c, List.mem_append_right _ (List.mem_singleton_self _), height, same⟩
      · obtain ⟨other, member, matching⟩ := deliveries.filed alive h digest earlier
        exact ⟨other, List.mem_append_left _ member, matching⟩

/-- A resolution moves the certificate that it is given for from one list to the
other. -/
private theorem deliveries_notify {kind : ResolutionKind} {certified : List (Cert D S)}
    (deliveries : Deliveries cfg s) (first : s.outstanding = c :: certified) :
    Deliveries cfg ({ s with certified }.notify c kind) where
  conserved := by
    show s.reporter.forwarded = _
    rw [deliveries.conserved, first]
    simp [notify, outstanding, Submitter.taken?]
  vouched := deliveries.vouched
  filed := deliveries.filed

theorem Deliveries.submitted (deliveries : Deliveries cfg s) (taken : Submitted cfg s label s') :
    Deliveries cfg s' := by
  have extended := taken.extended
  have moved {state state' : Submitter T D (Bn254Certificate S)} (here : s.submitter.state = state)
      (same : state'.taken? = state.taken?) :
      state'.taken?.toList ++ s.certified = s.outstanding := by
    rw [outstanding, here, same]
  cases taken with
  | @skipped c certified idle waiting _ =>
    exact deliveries_notify deliveries (by simp [outstanding, Submitter.taken?, idle, waiting])
  | @looking c certified idle waiting _ =>
    refine deliveries.kept extended rfl rfl ?_ id fun _ _ found => found
    simp [outstanding, Submitter.taken?, idle, waiting]
  | @foreign c looking _ =>
    exact deliveries_notify deliveries (by simp [outstanding, Submitter.taken?, looking])
  | @picked c assignment looking _ _ =>
    exact deliveries.kept extended rfl rfl (moved looking rfl) id fun _ _ found => found
  | @called job submitting _ =>
    exact deliveries.kept extended rfl rfl (moved submitting rfl) id fun _ _ found => found
  | @finished job status calling =>
    exact deliveries_notify deliveries (by simp [outstanding, Submitter.taken?, calling])
  | @slept _ job active _ =>
    exact deliveries.kept extended rfl rfl
      (moved rfl (Submitter.taken?_of_submission active).symm) id fun _ _ found => found
  | @gaveUp _ job active _ =>
    have recorded : Deliveries cfg (s.recordFailure job) := { deliveries with }
    have first : (s.recordFailure job).outstanding = job.certified :: s.certified := by
      simp [outstanding, recordFailure, Submitter.taken?_of_submission active]
    exact deliveries_notify recorded first
  | @woken job wake sleeping _ =>
    exact deliveries.kept extended rfl rfl (moved sleeping rfl) id fun _ _ found => found

theorem InLife.deliveries [DecidableEq D] (life : InLife cfg s) : Deliveries cfg s := by
  refine Reachable.preserves life ?_ fun s label s' alive deliveries taken => ?_
  · rintro start rfl
    exact .init
  · rcases step_cases taken with environment | reported | submitted | sequenced
    · exact deliveries.environment environment
    · have report : label = .report := by cases reported <;> rfl
      subst report
      exact deliveries.reported (InLife.origins alive) taken reported
    · exact deliveries.submitted submitted
    · exact deliveries.sequenced sequenced

/-- **Certificates are resolved once and in order.** In every state of a router life
the certificates handed to the submitter are, in the order in which the reporter
kept them, those whose resolutions the sequencer has received, those whose
resolutions wait for it, the one under way and those that wait for the submitter;
every resolution names the height of its certificate, and every certificate was
reported by the engine and passed verification. -/
theorem certificates_resolved_in_order [DecidableEq D] (life : InLife cfg s) :
    s.reporter.forwarded = s.sequencer.consumed.map Notice.cause ++
        s.resolutions.map Notice.cause ++ s.submitter.state.taken?.toList ++ s.certified ∧
      (∀ notice ∈ s.submitter.notified, notice.resolution.height = notice.cause.height) ∧
      ∀ c ∈ s.reporter.forwarded, c ∈ s.reporter.reported ∧ cfg.verify c = true := by
  have deliveries := life.deliveries
  refine ⟨?_, fun notice member => (life.origins.notified notice member).1, deliveries.vouched⟩
  rw [deliveries.conserved, life.ledger.1.channel, List.map_append, outstanding,
    ← List.append_assoc]

/-- One certificate has resolved its height, one is submitted, one waits. -/
theorem three_certificates_under_way : ∃ s : Router Nat Nat Nat Unit,
    s.reporter.forwarded = [soloCertificate 0 1, soloCertificate 1 2, soloCertificate 5 9] ∧
      s.certified = [soloCertificate 5 9] ∧
      s.reporter.forwarded = s.sequencer.consumed.map Notice.cause ++
        s.resolutions.map Notice.cause ++ s.submitter.state.taken?.toList ++ s.certified := by
  let labels : List SoloLabel := soloStart ++ soloAssign 10 1 ++ soloExecute 0 1 ++ soloRelease ++
    soloAssign 20 2 ++ (soloExecute 1 2).take 5 ++
    [.activity (.certified (soloCertificate 5 9)), .report]
  obtain ⟨s, life, reached⟩ := InLife.of_exec_any solo labels
    (fun s => s.reporter.forwarded =
        [soloCertificate 0 1, soloCertificate 1 2, soloCertificate 5 9] ∧
      s.certified = [soloCertificate 5 9]) (by decide +kernel)
  obtain ⟨forwarded, waiting⟩ := of_decide_eq_true reached
  exact ⟨s, forwarded, waiting, (certificates_resolved_in_order life).1⟩

end Router
end Restaking
