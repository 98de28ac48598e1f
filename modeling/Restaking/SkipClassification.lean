import Restaking.SubmitterOutcomes

/-! How the submitter tells the certificates of counter tasks from those that
abandon a height, when no assignment is for anything but a counter task. -/
namespace Restaking.Submitter
open Lib

variable {T D P G S H A N : Type*} [LinearOrder P]
variable {config : Config D P G S H A} {visit : Visit T D S H A N} {book : Book T D P A N}
variable {made : List (Attempt T D P A N)} {kind : ResolutionKind} {involved : Set (List UInt8)}

theorem Disposed.sentinel (disposed : Disposed config visit made .skipped) :
    visit.certified.digest = config.skip visit.certified.height := by
  cases disposed with
  | skipped sentinel => exact sentinel

theorem Disposed.assigned {success : Bool} (disposed : Disposed config visit made (.executed success)) :
    ∃ assignment, visit.Assigned assignment ∧ assignment.digest = visit.certified.digest := by
  cases disposed with
  | executed task assigned matched => exact ⟨_, assigned, matched⟩
  | exhausted task assigned matched => exact ⟨_, assigned, matched⟩

/-- Every assignment on the map that is read is for a counter task. -/
def CounterTasks (config : Config D P G S H A) (involved : Set (List UInt8))
    (visit : Visit T D S H A N) : Prop :=
  ∀ assignments height assignment, visit.assignments = some assignments →
    assignments.get? height = some assignment →
    ∃ round, round < 2 ^ 64 ∧ abiEncode round ∈ involved ∧
      assignment.digest = expectedDigest config.sha256 round

/-- A skip certificate of another height or application is foreign at best. -/
theorem other_skip_not_submitted (collisionFree : Set.InjOn config.sha256 involved)
    (within : visit.certified.height < 2 ^ 64)
    (hashed : skipPreimage config.namespaceBytes visit.certified.height ∈ involved)
    (counter : CounterTasks config involved visit) {application : List UInt8} {height : Nat}
    (within' : height < 2 ^ 64) (hashed' : skipPreimage application height ∈ involved)
    (certified : visit.certified.digest = skipDigest config.sha256 application height)
    (other : ¬ (application = config.namespaceBytes ∧ height = visit.certified.height))
    (disposed : Disposed config visit made kind) :
    kind ≠ .skipped ∧ ∀ success, kind ≠ .executed success := by
  constructor
  · rintro rfl
    have same := certified.symm.trans disposed.sentinel
    exact other (skipDigest_inj collisionFree hashed' hashed within' within same)
  · rintro success rfl
    obtain ⟨assignment, ⟨assignments, read, found⟩, matched⟩ := disposed.assigned
    obtain ⟨round, small, hashedRound, task⟩ := counter _ _ _ read found
    have same := certified.symm.trans (matched.symm.trans task)
    exact skipDigest_ne_expectedDigest collisionFree hashed' hashedRound small same

variable [DecidableEq D]

/-- The certified height is resolved under this kind. -/
def Classified (config : Config D P G S H A) (book : Book T D P A N) (visit : Visit T D S H A N)
    (kind : ResolutionKind) : Prop :=
  (config.handleCertified book visit).resolutions =
    book.resolutions ++ [⟨visit.certified.height, kind⟩]

theorem Classified.disposed (classified : Classified config book visit kind) :
    ∃ made : List (Attempt T D P A N), Disposed config visit made kind := by
  obtain ⟨cache, made, kind', handled, disposed⟩ := handleCertified_disposed config book visit
  rw [Classified, handled] at classified
  cases List.append_cancel_left classified
  exact ⟨made, disposed⟩

/-- Among the preimages on which the hash is free of collisions, a skip digest
determines namespace and height and is no counter task's digest, so the submitter
confuses neither with the other. -/
theorem skip_classification_exact (config : Config D P G S H A)
    (collisionFree : Set.InjOn config.sha256 involved) :
    (∀ application application' height height', height < 2 ^ 64 → height' < 2 ^ 64 →
      skipPreimage application height ∈ involved → skipPreimage application' height' ∈ involved →
      skipDigest config.sha256 application height = skipDigest config.sha256 application' height' →
      application = application' ∧ height = height') ∧
    (∀ application height round, height < 2 ^ 64 → round < 2 ^ 64 →
      skipPreimage application height ∈ involved → abiEncode round ∈ involved →
      skipDigest config.sha256 application height ≠ expectedDigest config.sha256 round) ∧
    ∀ (book : Book T D P A N) (visit : Visit T D S H A N) (kind : ResolutionKind),
      visit.certified.height < 2 ^ 64 →
      skipPreimage config.namespaceBytes visit.certified.height ∈ involved →
      CounterTasks config involved visit → Classified config book visit kind →
      (∀ round, round < 2 ^ 64 → abiEncode round ∈ involved →
        visit.certified.digest = expectedDigest config.sha256 round → kind ≠ .skipped) ∧
      ∀ application height, height < 2 ^ 64 → skipPreimage application height ∈ involved →
        visit.certified.digest = skipDigest config.sha256 application height →
        ¬ (application = config.namespaceBytes ∧ height = visit.certified.height) →
        kind ≠ .skipped ∧ ∀ success, kind ≠ .executed success := by
  refine ⟨?_, ?_, ?_⟩
  · intro application application' height height' within within' hashed hashed'
    exact skipDigest_inj collisionFree hashed hashed' within within'
  · intro application height round _ small hashed hashedRound
    exact skipDigest_ne_expectedDigest collisionFree hashed hashedRound small
  · intro book visit kind within hashed counter classified
    obtain ⟨made, disposed⟩ := classified.disposed
    constructor
    · rintro round small hashedRound task rfl
      have same := disposed.sentinel.symm.trans task
      exact skipDigest_ne_expectedDigest collisionFree hashed hashedRound small same
    · intro application height within' hashed' certified other
      exact other_skip_not_submitted collisionFree within hashed counter within' hashed' certified
        other disposed

/-- A certificate of height 5, where round 7 is assigned. -/
def fifthVisit (digest : List UInt8) : Visit Unit (List UInt8) Unit (List UInt8) Nat Unit where
  certified := ⟨5, digest, ⟨[true], ()⟩⟩
  assignments := some (.insert .empty 5 ⟨expectedDigest soloConfig.sha256 7, ()⟩)
  answers _ :=
    { blockNumber := .ok 10
      pubkeyHashToOperator := fun _ _ => .ok 7
      nonSignerStakes := .ok ()
      handleVerification := .ok ⟨"0x01", some 10, none, some true, none⟩ }

theorem fifthVisit_counterTasks (digest : List UInt8) :
    CounterTasks soloConfig Set.univ (fifthVisit digest) := by
  rintro assignments height assignment ⟨⟩ found
  rw [OrderedMap.get?_insert] at found
  split at found
  · cases found
    exact ⟨7, by decide, trivial, rfl⟩
  · cases found

/-- The skip digest of a namespace that ends where the sentinel would begin; the digest
of a counter task; and the skip digest of another application, which is foreign. -/
theorem solo_skip_classification_exact :
    (skipDigest soloConfig.sha256 [0x61] 5 ≠ skipDigest soloConfig.sha256 ([0x61] ++ skipDigestSuffix) 5) ∧
      skipDigest soloConfig.sha256 [0x61] 5 ≠ expectedDigest soloConfig.sha256 5 ∧
      (∃ kind, Classified soloConfig {} (fifthVisit (expectedDigest soloConfig.sha256 7)) kind ∧
        kind ≠ .skipped) ∧
      ∃ kind, Classified soloConfig {} (fifthVisit (skipDigest soloConfig.sha256 [0x62] 5)) kind ∧
        kind ≠ .skipped ∧ ∀ success, kind ≠ .executed success := by
  have free : Set.InjOn soloConfig.sha256 Set.univ := Function.injective_id.injOn
  have exact := @skip_classification_exact Unit _ _ _ _ _ Nat Unit _ _ _ soloConfig free
  have classified (digest : List UInt8) : ∃ kind, Classified soloConfig {} (fifthVisit digest) kind := by
    obtain ⟨cache, made, kind, handled, -⟩ := handleCertified_disposed soloConfig {} (fifthVisit digest)
    exact ⟨kind, congrArg Book.resolutions handled⟩
  refine ⟨?_, exact.2.1 [0x61] 5 5 (by decide) (by decide) trivial trivial, ?_, ?_⟩
  · intro same
    have split := exact.1 _ _ 5 5 (by decide) (by decide) trivial trivial same
    exact absurd split.1 (by decide)
  · obtain ⟨kind, here⟩ := classified (expectedDigest soloConfig.sha256 7)
    have sorted := exact.2.2 {} _ kind (by decide) trivial (fifthVisit_counterTasks _) here
    exact ⟨kind, here, sorted.1 7 (by decide) trivial rfl⟩
  · obtain ⟨kind, here⟩ := classified (skipDigest soloConfig.sha256 [0x62] 5)
    have sorted := exact.2.2 {} _ kind (by decide) trivial (fifthVisit_counterTasks _) here
    exact ⟨kind, here, sorted.2 [0x62] 5 (by decide) trivial rfl (by decide)⟩

end Restaking.Submitter
