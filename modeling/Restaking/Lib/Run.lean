import Mathlib.Data.Option.Basic

/-! Runs of a system whose steps are chosen by labels. A step is a partial
function of the state and the label, so a concrete run can be computed; a run
is the relation that a list of labels leads from one state to another, each of
its steps meeting a side condition. The rules below turn what one step
preserves into what every run preserves, and what one step decides into what
decides a whole run. -/
namespace Restaking.Lib

variable {σ α β : Type*}

/-- The state a list of labels leads to, if every one of them is enabled. -/
def exec (step : σ → α → Option σ) : σ → List α → Option σ
  | s, [] => some s
  | s, a :: as => (step s a).bind (exec step · as)

/-- `as` leads from `s` to the last state, and every step meets `guard`, a
condition on the state before the step and on the label. -/
inductive RunWhere (step : σ → α → Option σ) (guard : σ → α → Prop) : σ → List α → σ → Prop where
  | nil {s : σ} : RunWhere step guard s [] s
  | cons {s s' s'' : σ} {a : α} {as : List α} : guard s a → step s a = some s' →
      RunWhere step guard s' as s'' → RunWhere step guard s (a :: as) s''

/-- A run without a side condition. -/
abbrev Run (step : σ → α → Option σ) : σ → List α → σ → Prop := RunWhere step fun _ _ => True

/-- A state that some run from an initial state leads to. -/
def Reachable (initial : σ → Prop) (step : σ → α → Option σ) (s : σ) : Prop :=
  ∃ start as, initial start ∧ Run step start as s

/-- A state that some run from an initial state leads to, all of whose steps
meet the side condition. -/
def ReachableWhere (initial : σ → Prop) (step : σ → α → Option σ) (guard : σ → α → Prop)
    (s : σ) : Prop :=
  ∃ start as, initial start ∧ RunWhere step guard start as s

variable {step : σ → α → Option σ} {guard guard' : σ → α → Prop}
variable {s s' s'' : σ} {a : α} {as bs : List α}

/-- The step that is taken only where the side condition holds. -/
def guarded (step : σ → α → Option σ) (guard : σ → α → Prop) [∀ s a, Decidable (guard s a)]
    (s : σ) (a : α) : Option σ :=
  if guard s a then step s a else none

theorem exec_append : exec step s (as ++ bs) = (exec step s as).bind (exec step · bs) := by
  induction as generalizing s with
  | nil => rfl
  | cons a as ih =>
    rw [List.cons_append, exec, exec, Option.bind_assoc]
    exact congrArg (Option.bind (step s a)) (funext fun _ => ih)

theorem exec_snoc : exec step s (as ++ [a]) = (exec step s as).bind (step · a) := by
  rw [exec_append]
  exact congrArg _ (funext fun s' => Option.bind_fun_some (step s' a))

theorem runWhere_of_exec [∀ s a, Decidable (guard s a)]
    (executed : exec (guarded step guard) s as = some s') : RunWhere step guard s as s' := by
  induction as generalizing s with
  | nil =>
    cases executed
    exact .nil
  | cons a as ih =>
    obtain ⟨next, taken, rest⟩ := Option.bind_eq_some_iff.mp executed
    obtain ⟨allowed, taken⟩ := Option.ite_none_right_eq_some.mp taken
    exact .cons allowed taken (ih rest)

/-- A computed run whose last state passes a test is a run to such a state. -/
theorem runWhere_of_exec_any [∀ s a, Decidable (guard s a)] {p : σ → Bool}
    (passed : (exec (guarded step guard) s as).any p = true) :
    ∃ s', RunWhere step guard s as s' ∧ p s' = true := by
  cases executed : exec (guarded step guard) s as with
  | none => simp [executed] at passed
  | some last => exact ⟨last, runWhere_of_exec executed, by simpa [executed] using passed⟩

namespace RunWhere

theorem append (first : RunWhere step guard s as s') (second : RunWhere step guard s' bs s'') :
    RunWhere step guard s (as ++ bs) s'' := by
  induction first with
  | nil => exact second
  | cons allowed taken _ ih => exact .cons allowed taken (ih second)

/-- A run of a system all of whose allowed steps are steps of another. -/
theorem transfer {step' : σ → α → Option σ} (run : RunWhere step guard s as s')
    (steps : ∀ s a s', guard s a → step s a = some s' → guard' s a ∧ step' s a = some s') :
    RunWhere step' guard' s as s' := by
  induction run with
  | nil => exact .nil
  | cons allowed taken _ ih =>
    obtain ⟨allowed, taken⟩ := steps _ _ _ allowed taken
    exact .cons allowed taken ih

theorem weaken (run : RunWhere step guard s as s') (weaker : ∀ s a, guard s a → guard' s a) :
    RunWhere step guard' s as s' :=
  run.transfer fun s a _ allowed taken => ⟨weaker s a allowed, taken⟩

/-- What every allowed step preserves, every run preserves. -/
theorem preserves {inv : σ → Prop} (run : RunWhere step guard s as s')
    (preserved : ∀ s a s', inv s → guard s a → step s a = some s' → inv s')
    (start : inv s) : inv s' := by
  induction run with
  | nil => exact start
  | cons allowed taken _ ih => exact ih (preserved _ _ _ start allowed taken)

end RunWhere

theorem Reachable.run {initial : σ → Prop} (reached : Reachable initial step s)
    (run : Run step s as s') : Reachable initial step s' := by
  obtain ⟨first, before, begins, earlier⟩ := reached
  exact ⟨first, before ++ as, begins, earlier.append run⟩

theorem Reachable.next {initial : σ → Prop} (reached : Reachable initial step s)
    (taken : step s a = some s') : Reachable initial step s' :=
  reached.run (.cons trivial taken .nil)

theorem Reachable.start {initial : σ → Prop} (begins : initial s) : Reachable initial step s :=
  ⟨s, [], begins, .nil⟩

/-- What every step from a reachable state preserves, every run from one
preserves. -/
theorem Reachable.run_preserves {initial inv : σ → Prop} (reached : Reachable initial step s)
    (run : Run step s as s') (start : inv s)
    (preserved : ∀ s a s', Reachable initial step s → inv s → step s a = some s' → inv s') :
    inv s' := by
  let both : σ → Prop := fun s => Reachable initial step s ∧ inv s
  have last : both s' := by
    apply run.preserves _ ⟨reached, start⟩
    rintro s a s' ⟨reached, held⟩ - taken
    exact ⟨reached.next taken, preserved s a s' reached held taken⟩
  exact last.2

theorem Reachable.preserves {initial inv : σ → Prop} (reached : Reachable initial step s)
    (start : ∀ s, initial s → inv s)
    (preserved : ∀ s a s', Reachable initial step s → inv s → step s a = some s' → inv s') :
    inv s := by
  obtain ⟨first, as, begins, run⟩ := reached
  exact (Reachable.start begins).run_preserves run (start first begins) preserved

theorem ReachableWhere.reachable {initial : σ → Prop}
    (reached : ReachableWhere initial step guard s) : Reachable initial step s := by
  obtain ⟨first, as, begins, run⟩ := reached
  exact ⟨first, as, begins, run.weaken fun _ _ _ => trivial⟩

theorem ReachableWhere.start {initial : σ → Prop} (begins : initial s) :
    ReachableWhere initial step guard s :=
  ⟨s, [], begins, .nil⟩

theorem ReachableWhere.next {initial : σ → Prop} (reached : ReachableWhere initial step guard s)
    (allowed : guard s a) (taken : step s a = some s') : ReachableWhere initial step guard s' := by
  obtain ⟨first, before, begins, earlier⟩ := reached
  exact ⟨first, before ++ [a], begins, earlier.append (.cons allowed taken .nil)⟩

/-- A computed run whose last state passes a test reaches such a state. -/
theorem ReachableWhere.of_exec_any [∀ s a, Decidable (guard s a)] {initial : σ → Prop}
    {p : σ → Bool} (begins : initial s)
    (passed : (exec (guarded step guard) s as).any p = true) :
    ∃ s', ReachableWhere initial step guard s' ∧ p s' = true := by
  obtain ⟨s', run, holds⟩ := runWhere_of_exec_any passed
  exact ⟨s', ⟨s, as, begins, run⟩, holds⟩

theorem Reachable.of_exec_any {initial : σ → Prop} {p : σ → Bool} (begins : initial s)
    (passed : (exec (guarded step fun _ _ => True) s as).any p = true) :
    ∃ s', Reachable initial step s' ∧ p s' = true :=
  ReachableWhere.of_exec_any begins passed

/-- An invariant of the unconditional system may be used while proving one of
the conditional runs. -/
theorem ReachableWhere.preserves {initial inv : σ → Prop}
    (reached : ReachableWhere initial step guard s) (start : ∀ s, initial s → inv s)
    (preserved : ∀ s a s', Reachable initial step s → inv s → guard s a →
      step s a = some s' → inv s') : inv s := by
  obtain ⟨first, as, begins, run⟩ := reached
  let both : σ → Prop := fun s => Reachable initial step s ∧ inv s
  have last : both s := by
    apply run.preserves _ ⟨.start begins, start first begins⟩
    rintro s a s' ⟨reached, held⟩ allowed taken
    exact ⟨reached.next taken, preserved s a s' reached held allowed taken⟩
  exact last.2

/-- Where each step decides whether a property survives it, the property holds
all along a run exactly when every step is decided for it. -/
theorem always_iff_guarded {inv good : σ → Prop}
    (preserved : ∀ s a s', inv s → step s a = some s' → inv s')
    (decides : ∀ s a s', inv s → good s → step s a = some s' → (good s' ↔ guard s a))
    (run : Run step s as s') (start : inv s) (holds : good s) :
    (∀ before after middle, as = before ++ after → Run step s before middle → good middle) ↔
      RunWhere step guard s as s' := by
  induction run with
  | nil =>
    refine ⟨fun _ => .nil, fun _ before after middle split reaches => ?_⟩
    obtain ⟨rfl, -⟩ := List.append_eq_nil_iff.mp split.symm
    cases reaches
    exact holds
  | @cons s next last a as _ taken rest ih =>
    have invNext := preserved _ _ _ start taken
    have verdict := decides _ _ _ start holds taken
    constructor
    · intro always
      have goodNext : good next :=
        always [a] as next rfl (.cons trivial taken .nil)
      refine .cons (verdict.mp goodNext) taken ((ih invNext goodNext).mp ?_)
      intro before after middle split reaches
      exact always (a :: before) after middle (by simp [split]) (.cons trivial taken reaches)
    · intro guarded before after middle split reaches
      cases guarded with
      | cons allowed taken' rest' =>
        rw [taken] at taken'
        cases taken'
        cases reaches with
        | nil => exact holds
        | cons _ taken'' tail =>
          simp only [List.cons_append, List.cons.injEq] at split
          obtain ⟨rfl, split⟩ := split
          rw [taken] at taken''
          cases taken''
          exact (ih invNext (verdict.mpr allowed)).mpr rest' _ _ _ split tail

end Restaking.Lib
