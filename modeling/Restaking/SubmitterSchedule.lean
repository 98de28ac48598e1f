import Restaking.Router
import Restaking.SubmitterOutcomes

/-! The submitter that handles one certificate after the other is a schedule of the
router's: whatever its endpoints answer, the router has steps that make the same
calls of the handler and send the same resolution. -/
namespace Restaking.Submitter
open Lib

variable {T D P G S H A N : Type*} [LinearOrder P]
variable {config : Config D P G S H A} {cache : OrderedMap P A} {task : T}
variable {answers : Answers H A N} {attempt : Attempt T D P A N} {s : Router T D P S}
variable {job : Submission T D (Bn254Certificate S)} {cfg : Router.Config D P G S}

/-- The call of the handler, as the router records it. -/
def Attempt.execution (attempt : Attempt T D P A N) : Option (Router.Execution T D) :=
  attempt.verification.map fun call => ⟨call.height, call.msgHash, call.task⟩

/-- The router with the call of an attempt on record. -/
def execute (s : Router T D P S) (attempt : Attempt T D P A N) : Router T D P S :=
  { s with submitter := { s.submitter with
      executions := s.submitter.executions ++ attempt.execution.toList } }

/-- The router once an attempt has returned. -/
def settle (s : Router T D P S) (job : Submission T D (Bn254Certificate S)) :
    Except String ExecutionResult → Router T D P S
  | .ok result => s.notify job.certified (.executed (result.status.getD true))
  | .error _ => s.failed job

theorem execute_of_none (uncalled : attempt.verification = none) : execute s attempt = s := by
  rw [execute, Attempt.execution, uncalled, Option.map_none, Option.toList_none, List.append_nil]

variable [DecidableEq D]

/-- An attempt is one step of the router's submitter, or two where it calls the
handler. -/
theorem attempt_scheduled (keys : cfg.scheme = config.scheme) (up : s.submitter.up = true)
    (waiting : s.submitter.state = .submitting job)
    (made : config.submit cache job.certified job.task answers = attempt) :
    ∃ labels, exec (Router.step cfg) s labels = some (settle (execute s attempt) job attempt.result) := by
  have comes : config.Comes cache job.certified job.task answers attempt := made ▸ Config.submit_comes
  have stopped : exec (Router.step cfg) s [.attempt false] = some (s.failed job) := by
    simp [exec, Router.step, Router.stepWith, Router.attempt, up, waiting]
  cases comes with
  | refused error => exact ⟨[.attempt false], by rw [execute_of_none rfl]; exact stopped⟩
  | stopped error read resolved => exact ⟨[.attempt false], by rw [execute_of_none rfl]; exact stopped⟩
  | retrieved consistent read resolved handled =>
    rcases handled with ⟨rfl, error, rfl⟩ | ⟨data, rfl, rfl⟩
    · exact ⟨[.attempt false], by rw [execute_of_none rfl]; exact stopped⟩
    · have named : ((cfg.scheme.signerG2Keys job.certified.certificate).isEmpty ||
          (cfg.scheme.signerG2Keys job.certified.certificate).length !=
            (cfg.scheme.signerG1Points job.certified.certificate).length || !true) = false := by
        simpa [Config.Inconsistent, keys] using consistent
      have called : Router.step cfg s (.attempt true) = some { s with submitter := { s.submitter with
          state := .calling job
          executions := s.submitter.executions ++
            [⟨job.certified.height, job.certified.digest, job.task⟩] } } := by
        simp only [Router.stepWith, Router.attempt, up, waiting, named, if_true,
          Bool.false_eq_true, if_false]
      refine ⟨[.attempt true, .outcome (answers.handleVerification.toOption.map (·.status))], ?_⟩
      rw [exec, called, Option.bind_some, exec, Router.step, Router.stepWith]
      cases answers.handleVerification with
      | error error =>
        rw [if_pos up]
        rfl
      | ok result =>
        rw [if_pos up]
        rfl

omit [DecidableEq D] in
theorem executions_cons {first : Attempt T D P A N} {later : List (Attempt T D P A N)} :
    (first :: later).filterMap Attempt.execution =
      first.execution.toList ++ later.filterMap Attempt.execution := by
  rw [List.filterMap_cons]
  cases first.execution <;> rfl

/-- The next turn of the loop, once the sleep is over. -/
def resume (s : Router T D P S) (job : Submission T D (Bn254Certificate S)) : Router T D P S :=
  { s with
    now := s.now + job.backoff
    submitter := { (s.recordFailure job).submitter with
      state := .submitting { job with attempt := job.attempt + 1, backoff := 2 * job.backoff } } }

/-- After a failed attempt that is not the last, the router sleeps and tries again. -/
theorem failed_scheduled (up : s.submitter.up = true) (more : job.attempt ≤ maxRetries) :
    exec (Router.step cfg) (s.failed job) [.elapse job.backoff, .retry] = some (resume s job) := by
  simp [exec, Router.step, Router.stepWith, Router.retry, Router.failed, Router.recordFailure, more, up,
    resume]

/-- The loop is a schedule of the router: the calls and the resolution are the same,
and nothing else changes but the time and the record of failures. -/
theorem loop_scheduled (keys : cfg.scheme = config.scheme) (answers : Nat → Answers H A N)
    (job : Submission T D (Bn254Certificate S)) (book : Book T D P A N) (s : Router T D P S)
    (up : s.submitter.up = true) (waiting : s.submitter.state = .submitting job) :
    ∃ labels now failures cache made kind, config.submissionLoop answers job book =
        ⟨cache, book.attempts ++ made, book.resolutions ++ [⟨job.certified.height, kind⟩]⟩ ∧
      exec (Router.step cfg) s labels = some (Router.notify
        { s with now, submitter := { s.submitter with
            failures, executions := s.submitter.executions ++ made.filterMap Attempt.execution } }
        job.certified kind) := by
  fun_induction Config.submissionLoop config answers job book generalizing s with
  | case1 job book attempt result returned =>
    obtain ⟨labels, scheduled⟩ := attempt_scheduled keys up waiting (rfl : _ = attempt)
    refine ⟨labels, s.now, s.submitter.failures, _, [attempt], _, rfl, ?_⟩
    rw [scheduled, returned, executions_cons, List.filterMap_nil, List.append_nil]
    rfl
  | case2 job book attempt error returned more ih =>
    obtain ⟨labels, scheduled⟩ := attempt_scheduled keys up waiting (rfl : _ = attempt)
    rw [returned, settle] at scheduled
    have again : exec (Router.step cfg) ((execute s attempt).failed job) _ = _ :=
      failed_scheduled up more
    obtain ⟨labels', now, failures, cache, made, kind, loop, rest⟩ :=
      ih (resume (execute s attempt) job) up rfl
    refine ⟨labels ++ ([.elapse job.backoff, .retry] ++ labels'), now, failures, cache,
      attempt :: made, kind, ?_, ?_⟩
    · rw [loop, Book.keep, List.append_assoc]
      rfl
    · rw [exec_append, scheduled, Option.bind_some, exec_append, again, Option.bind_some, rest,
        executions_cons, ← List.append_assoc]
      rfl
  | case3 job book attempt error returned last =>
    obtain ⟨labels, scheduled⟩ := attempt_scheduled keys up waiting (rfl : _ = attempt)
    refine ⟨labels, s.now, (s.recordFailure job).submitter.failures, _, [attempt], _, rfl, ?_⟩
    rw [scheduled, returned, executions_cons, List.filterMap_nil, List.append_nil, settle, Router.failed,
      if_neg last]
    rfl

/-- A certificate is handled in a schedule of the router that starts where the
router would take it from the channel and ends with the next `recv`. -/
theorem handleCertified_scheduled (keys : cfg.scheme = config.scheme)
    (sentinel : cfg.skip = config.skip) (book : Book T D P A N) (visit : Visit T D S H A N)
    (s : Router T D P S) (up : s.submitter.up = true) (idle : s.submitter.state = .idle)
    {certified : List (Cert D S)} (received : s.certified = visit.certified :: certified)
    (read : visit.assignments = if s.poisoned then none else some s.assignments) :
    ∃ labels s' cache made kind, config.handleCertified book visit =
        ⟨cache, book.attempts ++ made, book.resolutions ++ [⟨visit.certified.height, kind⟩]⟩ ∧
      exec (Router.step cfg) s labels = some s' ∧ s'.submitter.state = .idle ∧
      s'.certified = certified ∧
      s'.resolutions = s.resolutions ++ [⟨⟨visit.certified.height, kind⟩, visit.certified⟩] ∧
      s'.submitter.executions = s.submitter.executions ++ made.filterMap Attempt.execution := by
  have found : visit.assignments.bind (·.get? visit.certified.height) =
      if s.poisoned then none else s.assignments.get? visit.certified.height := by
    rw [read]
    cases s.poisoned <;> rfl
  have taken : Router.step cfg s .receive = s.receive cfg := if_pos up
  simp only [Router.receive, idle, received, sentinel] at taken
  unfold Config.handleCertified
  by_cases skip : visit.certified.digest = config.skip visit.certified.height
  · rw [if_pos skip] at taken ⊢
    refine ⟨[.receive], Router.notify { s with certified } visit.certified .skipped, book.operatorCache,
      [], _, ?_, ?_,
      rfl, rfl, rfl, (List.append_nil _).symm⟩
    · rw [List.append_nil]
      rfl
    · rw [exec, taken]
      rfl
  · rw [if_neg skip] at taken ⊢
    let looking : Router T D P S :=
      { s with certified, submitter := { s.submitter with state := .lookup visit.certified } }
    have looks : Router.step cfg looking .look = looking.look := if_pos up
    rw [found]
    cases matched : Assignment.matching
        (if s.poisoned then none else s.assignments.get? visit.certified.height) visit.certified with
    | none =>
      refine ⟨[.receive, .look], looking.notify visit.certified .foreign, book.operatorCache, [], _,
        ?_, ?_, rfl, rfl, rfl, (List.append_nil _).symm⟩
      · rw [List.append_nil]
        rfl
      · simp only [Router.look, looking, matched] at looks
        rw [exec, taken, Option.bind_some, exec, looks]
        rfl
    | some job =>
      obtain ⟨assignment, -, -, about⟩ := Assignment.matching_eq_some matched
      let submitting : Router T D P S := { looking with submitter := { looking.submitter with
        state := .submitting job, picked := s.submitter.picked ++ [(visit.certified, job.task)] } }
      have picked : looking.look = some submitting := by
        simp only [Router.look, looking, matched]
        rfl
      obtain ⟨labels, now, failures, cache, made, kind, loop, rest⟩ :=
        loop_scheduled keys visit.answers job book submitting up rfl
      have same : job.certified = visit.certified := about ▸ rfl
      rw [same] at loop rest
      have begun : exec (Router.step cfg) s ([.receive, .look] ++ labels) =
          exec (Router.step cfg) submitting labels := by
        rw [exec_append, exec, taken, Option.bind_some, exec, looks, picked]
        rfl
      exact ⟨_, _, cache, made, kind, loop, begun.trans rest, rfl, rfl, rfl, rfl⟩

/-- The router of the one operator, about to take a certificate of the task it drives. -/
def soloDeployment : Router.Config (List UInt8) Nat Nat Unit where
  sha256 := soloConfig.sha256
  namespaceBytes := soloConfig.namespaceBytes
  scheme := soloConfig.scheme
  roundTimeout := 5
  rebroadcastInterval := 1

def soloVisit : Visit Unit (List UInt8) Unit (List UInt8) Nat Unit where
  certified := ⟨0, [0x01], ⟨[true], ()⟩⟩
  assignments := some (.insert .empty 0 ⟨[0x01], ()⟩)
  answers attempt :=
    { blockNumber := if attempt < 2 then .error "timeout" else .ok 10
      pubkeyHashToOperator := fun _ _ => .ok 7
      nonSignerStakes := .ok ()
      handleVerification := .ok ⟨"0x01", some 10, none, some true, none⟩ }

/-- An attempt that reads no block and the next one, which calls the handler, are a
schedule of the router. -/
theorem solo_visit_scheduled : ∃ labels s',
    exec (Router.step soloDeployment) { Router.init soloDeployment with
      certified := [soloVisit.certified], assignments := .insert .empty 0 ⟨[0x01], ()⟩ } labels =
        some s' ∧
      s'.submitter.executions =
        (soloConfig.handleCertified {} soloVisit).attempts.filterMap Attempt.execution ∧
      s'.certified = [] := by
  have keys : soloDeployment.scheme = soloConfig.scheme := rfl
  have sentinel : soloDeployment.skip = soloConfig.skip := rfl
  obtain ⟨labels, s', cache, made, kind, handled, ran, -, emptied, -, calls⟩ :=
    handleCertified_scheduled keys sentinel {} soloVisit
      { Router.init soloDeployment with
        certified := [soloVisit.certified], assignments := .insert .empty 0 ⟨[0x01], ()⟩ }
      rfl rfl rfl rfl
  refine ⟨labels, s', ran, ?_, emptied⟩
  rw [calls, handled]
  rfl

end Restaking.Submitter
