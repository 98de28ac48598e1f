import Restaking.Submitting

/-! What becomes of the certificates the submitter receives: one resolution each,
in their order, after at most three attempts. -/
namespace Restaking
open Lib

namespace Assignment

variable {T D C : Type*} [DecidableEq D] {found : Option (Assignment T D)} {c : Certificate D C}
variable {job : Submission T D C}

theorem matching_eq_none (unmatched : matching found c = none) :
    ∀ assignment, found = some assignment → assignment.digest ≠ c.digest := by
  rintro assignment rfl same
  simp only [matching, ne_eq, same, not_true_eq_false, if_false] at unmatched
  cases unmatched

theorem matching_eq_some (matched : matching found c = some job) :
    ∃ assignment, found = some assignment ∧ assignment.digest = c.digest ∧
      job = { certified := c, task := assignment.task } := by
  unfold matching at matched
  split at matched
  · cases matched
  · rename_i assignment
    split at matched
    · cases matched
    · exact ⟨assignment, rfl, not_not.mp ‹_›, (Option.some.inj matched).symm⟩

end Assignment

namespace Submitter

variable {T D P G S H A N : Type*} [LinearOrder P]
variable {config : Config D P G S H A} {visit : Visit T D S H A N} {book : Book T D P A N}
variable {made failed : List (Attempt T D P A N)} {kind : ResolutionKind} {left : Nat}

/-- The attempt returned an error. -/
def Attempt.Failed (attempt : Attempt T D P A N) : Prop := ∃ error, attempt.result = .error error

/-- The attempts of a loop that can make so many more, and the resolution. -/
inductive Ended : Nat → List (Attempt T D P A N) → ResolutionKind → Prop where
  | succeeded {left : Nat} {last : Attempt T D P A N} {result : ExecutionResult}
      (ok : last.result = .ok result) :
      Ended (left + 1) [last] (.executed (result.status.getD true))
  | exhausted {last : Attempt T D P A N} (failed : last.Failed) : Ended 1 [last] (.executed false)
  | retried {left : Nat} {first : Attempt T D P A N} {later : List (Attempt T D P A N)}
      {kind : ResolutionKind} (failed : first.Failed) (rest : Ended left later kind) :
      Ended (left + 1) (first :: later) kind

/-- Every attempt but the last has failed, and the last has succeeded or was the
last that was left. -/
theorem Ended.cases (ended : Ended left made kind) :
    (∃ failed last result, made = failed ++ [last] ∧ failed.length < left ∧
      (∀ attempt ∈ failed, attempt.Failed) ∧ last.result = .ok result ∧
      kind = .executed (result.status.getD true)) ∨
    (made.length = left ∧ (∀ attempt ∈ made, attempt.Failed) ∧ kind = .executed false) := by
  induction ended with
  | succeeded ok => exact .inl ⟨[], _, _, rfl, Nat.succ_pos _, nofun, ok, rfl⟩
  | exhausted failed => exact .inr ⟨rfl, List.forall_mem_singleton.mpr failed, rfl⟩
  | retried first _ ih =>
    rcases ih with ⟨failed, last, result, rfl, few, all, ok, rfl⟩ | ⟨every, all, rfl⟩
    · exact .inl ⟨_ :: failed, last, result, rfl, Nat.succ_lt_succ few,
        List.forall_mem_cons.mpr ⟨first, all⟩, ok, rfl⟩
    · exact .inr ⟨congrArg (· + 1) every, List.forall_mem_cons.mpr ⟨first, all⟩, rfl⟩

/-- The attempt was made for the certificate and the task, with the cache of the
moment. -/
def Made (config : Config D P G S H A) (answers : Nat → Answers H A N)
    (c : Certificate D (Bn254Certificate S)) (task : T) (attempt : Attempt T D P A N) : Prop :=
  ∃ cache number, attempt = config.submit cache c task (answers number)

/-- The loop makes as many attempts as it needs, and resolves the height once. -/
theorem submissionLoop_ended (answers : Nat → Answers H A N) (left : Nat)
    (job : Submission T D (Bn254Certificate S)) (book : Book T D P A N)
    (budget : job.attempt + left = maxRetries + 1) :
    ∃ cache made kind, config.submissionLoop answers job book =
        ⟨cache, book.attempts ++ made, book.resolutions ++ [⟨job.certified.height, kind⟩]⟩ ∧
      Ended (left + 1) made kind ∧
      ∀ attempt ∈ made, Made config answers job.certified job.task attempt := by
  fun_induction Config.submissionLoop config answers job book generalizing left with
  | case1 job book attempt result returned =>
    exact ⟨_, [attempt], _, rfl, .succeeded returned, List.forall_mem_singleton.mpr ⟨_, _, rfl⟩⟩
  | case2 job book attempt error returned more ih =>
    obtain ⟨left, rfl⟩ : ∃ fewer, left = fewer + 1 := ⟨left - 1, by omega⟩
    obtain ⟨cache, later, kind, loop, ended, genuine⟩ :=
      ih left (by rw [← budget, Nat.add_right_comm]; rfl)
    refine ⟨cache, attempt :: later, kind, ?_, .retried ⟨error, returned⟩ ended,
      List.forall_mem_cons.mpr ⟨⟨_, _, rfl⟩, genuine⟩⟩
    rw [loop, Book.keep, List.append_assoc]
    rfl
  | case3 job book attempt error returned last =>
    obtain rfl : left = 0 := by omega
    exact ⟨_, [attempt], _, rfl, .exhausted ⟨error, returned⟩,
      List.forall_mem_singleton.mpr ⟨_, _, rfl⟩⟩

namespace Visit

/-- The assignment of the certified height, as it is read. -/
def Assigned (visit : Visit T D S H A N) (assignment : Assignment T D) : Prop :=
  ∃ assignments, visit.assignments = some assignments ∧
    assignments.get? visit.certified.height = some assignment

theorem assigned_iff {assignment : Assignment T D} :
    visit.assignments.bind (·.get? visit.certified.height) = some assignment ↔
      visit.Assigned assignment := Option.bind_eq_some_iff

end Visit

/-- What becomes of a certificate: the attempts it takes and the resolution of its
height. -/
inductive Disposed (config : Config D P G S H A) (visit : Visit T D S H A N) :
    List (Attempt T D P A N) → ResolutionKind → Prop where
  /-- The digest abandons the height. -/
  | skipped (sentinel : visit.certified.digest = config.skip visit.certified.height) :
      Disposed config visit [] .skipped
  /-- The height has no assignment, or one with another digest. -/
  | foreign (task : visit.certified.digest ≠ config.skip visit.certified.height)
      (unmatched : ∀ assignment, visit.Assigned assignment →
        assignment.digest ≠ visit.certified.digest) :
      Disposed config visit [] .foreign
  /-- An attempt succeeded, after at most two that failed. -/
  | executed {assignment : Assignment T D} {failed : List (Attempt T D P A N)}
      {last : Attempt T D P A N} {result : ExecutionResult}
      (task : visit.certified.digest ≠ config.skip visit.certified.height)
      (assigned : visit.Assigned assignment) (matched : assignment.digest = visit.certified.digest)
      (genuine : ∀ attempt ∈ failed ++ [last],
        Made config visit.answers visit.certified assignment.task attempt)
      (few : failed.length < 3) (all : ∀ attempt ∈ failed, attempt.Failed)
      (ok : last.result = .ok result) :
      Disposed config visit (failed ++ [last]) (.executed (result.status.getD true))
  /-- Three attempts failed. -/
  | exhausted {assignment : Assignment T D} {failed : List (Attempt T D P A N)}
      (task : visit.certified.digest ≠ config.skip visit.certified.height)
      (assigned : visit.Assigned assignment) (matched : assignment.digest = visit.certified.digest)
      (genuine : ∀ attempt ∈ failed,
        Made config visit.answers visit.certified assignment.task attempt)
      (three : failed.length = 3) (all : ∀ attempt ∈ failed, attempt.Failed) :
      Disposed config visit failed (.executed false)

/-- The handler is called for matched certificates only, with the task assigned. -/
theorem Disposed.called (disposed : Disposed config visit made kind) {attempt : Attempt T D P A N}
    (member : attempt ∈ made) {call : VerificationCall T D N}
    (called : attempt.verification = some call) :
    visit.certified.digest ≠ config.skip visit.certified.height ∧
      ∃ assignment, visit.Assigned assignment ∧ assignment.digest = visit.certified.digest ∧
        call.height = visit.certified.height ∧ call.msgHash = visit.certified.digest ∧
        call.task = assignment.task := by
  cases disposed with
  | skipped | foreign => cases member
  | executed task assigned matched genuine | exhausted task assigned matched genuine =>
    obtain ⟨cache, number, rfl⟩ := genuine attempt member
    obtain ⟨height, msgHash, about, -⟩ := (Config.submit_calls rfl).1 call called
    exact ⟨task, _, assigned, matched, height, msgHash, about⟩

variable [DecidableEq D]

/-- One certificate, one resolution. -/
theorem handleCertified_disposed (config : Config D P G S H A) (book : Book T D P A N)
    (visit : Visit T D S H A N) :
    ∃ cache made kind, config.handleCertified book visit =
        ⟨cache, book.attempts ++ made, book.resolutions ++ [⟨visit.certified.height, kind⟩]⟩ ∧
      Disposed config visit made kind := by
  unfold Config.handleCertified
  by_cases sentinel : visit.certified.digest = config.skip visit.certified.height
  · rw [if_pos sentinel]
    exact ⟨_, [], _, by rw [List.append_nil]; rfl, .skipped sentinel⟩
  rw [if_neg sentinel]
  cases read : Assignment.matching (visit.assignments.bind (·.get? visit.certified.height))
      visit.certified with
  | none =>
    have unmatched := Assignment.matching_eq_none read
    exact ⟨_, [], _, by rw [List.append_nil]; rfl,
      .foreign sentinel fun assignment assigned => unmatched assignment (Visit.assigned_iff.mpr assigned)⟩
  | some job =>
    obtain ⟨assignment, found, matched, rfl⟩ := Assignment.matching_eq_some read
    have assigned := Visit.assigned_iff.mp found
    obtain ⟨cache, made, kind, loop, ended, genuine⟩ :=
      submissionLoop_ended visit.answers 2
        { certified := visit.certified, task := assignment.task } book rfl
    refine ⟨cache, made, kind, loop, ?_⟩
    rcases ended.cases with ⟨failed, last, result, rfl, few, all, ok, rfl⟩ | ⟨three, all, rfl⟩
    · exact .executed sentinel assigned matched genuine few all ok
    · exact .exhausted sentinel assigned matched genuine three all

theorem foldl_disposed (visits : List (Visit T D S H A N)) (book : Book T D P A N) :
    ∃ outcomes : List (List (Attempt T D P A N) × ResolutionKind),
      List.Forall₂ (fun visit outcome => Disposed config visit outcome.1 outcome.2) visits outcomes ∧
      (visits.foldl config.handleCertified book).attempts =
        book.attempts ++ outcomes.flatMap (·.1) ∧
      (visits.foldl config.handleCertified book).resolutions = book.resolutions ++
        List.zipWith (fun visit outcome => ⟨visit.certified.height, outcome.2⟩) visits outcomes := by
  induction visits generalizing book with
  | nil => exact ⟨[], .nil, (List.append_nil _).symm, (List.append_nil _).symm⟩
  | cons visit visits ih =>
    obtain ⟨cache, made, kind, handled, disposed⟩ := handleCertified_disposed config book visit
    obtain ⟨outcomes, rest, attempts, resolutions⟩ := ih (config.handleCertified book visit)
    refine ⟨(made, kind) :: outcomes, .cons disposed rest, ?_, ?_⟩
    · rw [List.foldl_cons, attempts, handled, List.flatMap_cons, List.append_assoc]
    · rw [List.foldl_cons, resolutions, handled, List.zipWith_cons_cons, List.append_assoc]
      rfl

/-- Every certified height is resolved once, in the order of the certificates, and
as its digest, its assignment and its attempts say. -/
theorem one_resolution_per_certificate (config : Config D P G S H A)
    (visits : List (Visit T D S H A N)) :
    ∃ outcomes : List (List (Attempt T D P A N) × ResolutionKind),
      List.Forall₂ (fun visit outcome => Disposed config visit outcome.1 outcome.2) visits outcomes ∧
      (config.run visits : Book T D P A N).attempts = outcomes.flatMap (·.1) ∧
      (config.run visits : Book T D P A N).resolutions =
        List.zipWith (fun visit outcome => ⟨visit.certified.height, outcome.2⟩) visits outcomes :=
  foldl_disposed visits {}

end Submitter
end Restaking
