import Restaking.Lib.Run

/-! Refinement between two systems of labelled steps. Each step of the concrete
system is matched by a run of the abstract one, of any length, that ends in a
related state; then every concrete run is matched, and what holds of every
reachable abstract state can be read off every reachable concrete one. -/
namespace Restaking.Lib

variable {σ τ α β : Type*}
variable {initial : σ → Prop} {initial' : τ → Prop}
variable {step : σ → α → Option σ} {spec : τ → β → Option τ} {rel : σ → τ → Prop} {s s' : σ} {t : τ}

/-- A forward simulation of the reachable concrete states. -/
structure Simulation (initial : σ → Prop) (step : σ → α → Option σ) (initial' : τ → Prop)
    (spec : τ → β → Option τ) (rel : σ → τ → Prop) : Prop where
  starts : ∀ s, initial s → ∃ t, initial' t ∧ rel s t
  matched : ∀ s a s' t, Reachable initial step s → rel s t → step s a = some s' →
    ∃ bs t', Run spec t bs t' ∧ rel s' t'

/-- A run of one step. -/
theorem Run.single {a : α} (taken : step s a = some s') : Run step s [a] s' :=
  .cons trivial taken .nil

/-- A reachable state has a related abstract state that is reachable as well. -/
theorem Simulation.reachable (simulation : Simulation initial step initial' spec rel)
    (reached : Reachable initial step s) : ∃ t, Reachable initial' spec t ∧ rel s t := by
  let inv : σ → Prop := fun s => ∃ t, Reachable initial' spec t ∧ rel s t
  suffices held : inv s from held
  refine reached.preserves ?_ ?_
  · intro start begins
    obtain ⟨t, begins', related⟩ := simulation.starts start begins
    exact ⟨t, .start begins', related⟩
  · rintro s a s' alive ⟨t, reached', related⟩ taken
    obtain ⟨bs, t', run, related'⟩ := simulation.matched s a s' t alive related taken
    exact ⟨t', reached'.run run, related'⟩

end Restaking.Lib
