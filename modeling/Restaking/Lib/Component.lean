import Restaking.Lib.Liveness

/-! A component of a system. A step of the system is seen by the component as one of
its own, if only as the one that changes nothing, and the system does not keep the
component from any step; so an infinite run of the system is one of the component, and
the system is fair to the labels that the component sees exactly where that run is
fair. -/
namespace Restaking.Lib

variable {σ α σ' α' : Type*} {step : σ → α → Option σ} {step' : σ' → α' → Option σ'}

/-- How a component is seen in a state and in a label, and how the system takes one of
its steps. -/
structure Component (step : σ → α → Option σ) (step' : σ' → α' → Option σ') where
  view : σ → σ'
  label : α → α'
  lift : α' → α
  label_lift : ∀ a, label (lift a) = a
  moves : ∀ {s a s'}, step s a = some s' → step' (view s) (label a) = some (view s')
  lifts : ∀ {s a}, (step' (view s) a).isSome = true → (step s (lift a)).isSome = true

namespace Component

variable (part : Component step step') {b : Behaviour step} {group : α' → Prop} {s : σ}

/-- The run as the component sees it. -/
def behaviour (b : Behaviour step) : Behaviour step' where
  state := fun n => part.view (b.state n)
  label := fun n => part.label (b.label n)
  next := fun n => part.moves (b.next n)

/-- The labels in which the component sees one of the group. -/
def seen (group : α' → Prop) (a : α) : Prop := group (part.label a)

variable {part}

theorem enabled_iff : Enabled step (part.seen group) s ↔ Enabled step' group (part.view s) := by
  constructor
  · rintro ⟨a, member, possible⟩
    obtain ⟨s', taken⟩ := Option.isSome_iff_exists.mp possible
    exact ⟨part.label a, member, by rw [part.moves taken]; rfl⟩
  · rintro ⟨a, member, possible⟩
    exact ⟨part.lift a, by rwa [seen, part.label_lift], part.lifts possible⟩

theorem weaklyFair_iff : b.WeaklyFair (part.seen group) ↔ (part.behaviour b).WeaklyFair group := by
  simp only [Behaviour.WeaklyFair, enabled_iff, behaviour, seen]

theorem stronglyFair_iff :
    b.StronglyFair (part.seen group) ↔ (part.behaviour b).StronglyFair group := by
  simp only [Behaviour.StronglyFair, enabled_iff, behaviour, seen]

end Component
end Restaking.Lib
