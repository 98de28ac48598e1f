import Mathlib.Algebra.Order.Ring.Nat
import Mathlib.Data.Nat.Init
import Restaking.Lib.Run

/-! What happens sooner or later. A behaviour is an infinite run; fairness says of a
group of labels that the run does not pass over them for ever. The rules derive
that one condition on the times of a behaviour leads to another: from a fair group
whose steps end the first condition, along a list of stages, or down a rank. -/
namespace Restaking.Lib

variable {σ α : Type*} {step : σ → α → Option σ} {group : α → Prop}

/-- An infinite run. -/
structure Behaviour (step : σ → α → Option σ) where
  state : Nat → σ
  label : Nat → α
  next : ∀ n, step (state n) (label n) = some (state (n + 1))

/-- Some label of the group can be taken. -/
def Enabled (step : σ → α → Option σ) (group : α → Prop) (s : σ) : Prop :=
  ∃ a, group a ∧ (step s a).isSome = true

/-- Whenever the first condition holds, the second holds then or later. -/
def LeadsTo (p q : Nat → Prop) : Prop := ∀ n, p n → ∃ m ≥ n, q m

namespace LeadsTo

variable {p q r : Nat → Prop}

theorem of_imp (implies : ∀ n, p n → q n) : LeadsTo p q := fun n holds => ⟨n, le_rfl, implies n holds⟩

theorem trans (first : LeadsTo p q) (second : LeadsTo q r) : LeadsTo p r := by
  intro n holds
  obtain ⟨m, later, reached⟩ := first n holds
  obtain ⟨k, latest, last⟩ := second m reached
  exact ⟨k, later.trans latest, last⟩

/-- A stage that may come to its end early. -/
theorem trans_or (first : LeadsTo p fun n => q n ∨ r n) (second : LeadsTo q r) : LeadsTo p r := by
  intro n holds
  obtain ⟨m, later, reached | last⟩ := first n holds
  · obtain ⟨k, latest, last⟩ := second m reached
    exact ⟨k, later.trans latest, last⟩
  · exact ⟨m, later, last⟩

theorem mono_left {p' : Nat → Prop} (leads : LeadsTo p q) (implies : ∀ n, p' n → p n) :
    LeadsTo p' q :=
  fun n holds => leads n (implies n holds)

theorem mono_right {q' : Nat → Prop} (leads : LeadsTo p q) (implies : ∀ n, q n → q' n) :
    LeadsTo p q' :=
  leads.trans (of_imp implies)

/-- Stages that are numbered downwards. -/
theorem countdown {p : Nat → Nat → Prop} (last : LeadsTo (p 0) q)
    (stage : ∀ k, LeadsTo (p (k + 1)) fun n => p k n ∨ q n) (k : Nat) : LeadsTo (p k) q := by
  induction k with
  | zero => exact last
  | succ k ih => exact (stage k).trans_or ih

/-- A rank that falls as long as the goal is not reached. -/
theorem of_rank (rank : Nat → Nat)
    (falls : ∀ k, LeadsTo (fun n => p n ∧ rank n = k) fun n => (p n ∧ rank n < k) ∨ q n) :
    LeadsTo p q := by
  suffices all : ∀ k n, p n → rank n = k → ∃ m ≥ n, q m from fun n holds => all _ n holds rfl
  intro k
  induction k using Nat.strongRecOn with
  | ind k ih =>
    intro n holds measured
    obtain ⟨m, later, ⟨kept, less⟩ | last⟩ := falls k n ⟨holds, measured⟩
    · obtain ⟨j, latest, last⟩ := ih _ less m kept rfl
      exact ⟨j, later.trans latest, last⟩
    · exact ⟨m, later, last⟩

/-- A condition that lasts until the goal is reached either lasts for ever or leads
to the goal. -/
theorem of_not_forever (stays : ∀ n, p n → p (n + 1) ∨ q (n + 1))
    (ends : ∀ n, (∀ m ≥ n, p m) → ∃ m ≥ n, q m) : LeadsTo p q := by
  intro n holds
  by_contra never
  refine never (ends n fun m later => ?_)
  induction m, later using Nat.le_induction with
  | base => exact holds
  | succ m later ih =>
    exact (stays m ih).resolve_right fun last => never ⟨m + 1, Nat.le_succ_of_le later, last⟩

/-- A count that grows, as long as the goal is not reached and it lags behind another
one, passes every number that the other one has passed. -/
theorem catch_up {count total : Nat → Nat} (grows : Monotone total)
    (stage : ∀ k, LeadsTo (fun n => ¬ q n ∧ count n = k ∧ k < total n) fun n => q n ∨ k < count n)
    (k : Nat) : LeadsTo (fun n => k < total n) fun n => q n ∨ k < count n := by
  have level {k n : Nat} (least : k ≤ count n) (within : k < total n) :
      ∃ m ≥ n, q m ∨ k < count m := by
    by_cases reached : q n ∨ k < count n
    · exact ⟨n, le_rfl, reached⟩
    · obtain ⟨open', lags⟩ := not_or.mp reached
      exact stage k n ⟨open', by omega, within⟩
  induction k with
  | zero => exact fun n within => level (Nat.zero_le _) within
  | succ k ih =>
    intro n within
    obtain ⟨m, later, reached | passed⟩ := ih n (Nat.lt_of_succ_lt within)
    · exact ⟨m, later, .inl reached⟩
    · obtain ⟨j, latest, last⟩ := level passed (within.trans_le (grows later))
      exact ⟨j, latest.trans' later, last⟩

/-- A bounded count settles. -/
theorem settles {count : Nat → Nat} (grows : Monotone count) {bound : Nat}
    (bounded : ∀ n, count n ≤ bound) : ∃ last, ∀ m ≥ last, count m = count last := by
  by_contra never
  have onward : LeadsTo (fun _ => True) fun _ => False := by
    refine of_rank (fun n => bound - count n) fun k n start => ?_
    obtain ⟨m, later, differs⟩ : ∃ m, n ≤ m ∧ count m ≠ count n := by
      by_contra none
      exact never ⟨n, fun m later => not_not.mp fun differs => none ⟨m, later, differs⟩⟩
    have more := grows later
    have within := bounded m
    exact ⟨m, later, .inl ⟨trivial, by omega⟩⟩
  obtain ⟨-, -, impossible⟩ := onward 0 trivial
  exact impossible

end LeadsTo

namespace Behaviour

variable (b : Behaviour step)

/-- A group that stays enabled is taken. -/
def WeaklyFair (group : α → Prop) : Prop :=
  ∀ n, (∀ m ≥ n, Enabled step group (b.state m)) → ∃ m ≥ n, group (b.label m)

/-- A group that is enabled again and again is taken. -/
def StronglyFair (group : α → Prop) : Prop :=
  ∀ n, (∀ m ≥ n, ∃ k ≥ m, Enabled step group (b.state k)) → ∃ m ≥ n, group (b.label m)

variable {b} {p q : Nat → Prop}

theorem reachable {initial : σ → Prop} (begins : Reachable initial step (b.state 0)) (n : Nat) :
    Reachable initial step (b.state n) := by
  induction n with
  | zero => exact begins
  | succ n ih => exact ih.next (b.next n)

theorem reachableWhere {initial : σ → Prop} {guard : σ → α → Prop}
    (begins : ReachableWhere initial step guard (b.state 0))
    (allowed : ∀ n, guard (b.state n) (b.label n)) (n : Nat) :
    ReachableWhere initial step guard (b.state n) := by
  induction n with
  | zero => exact begins
  | succ n ih => exact ih.next (allowed n) (b.next n)

/-- A condition that lasts until a group is taken, where the group stays enabled
from some time on. -/
theorem WeaklyFair.leadsTo (fair : b.WeaklyFair group)
    (stays : ∀ n, p n → p (n + 1) ∨ q (n + 1)) (acts : ∀ n, p n → group (b.label n) → q (n + 1))
    (ready : ∀ n, (∀ m ≥ n, p m) → ∃ m ≥ n, ∀ k ≥ m, Enabled step group (b.state k)) :
    LeadsTo p q := by
  refine .of_not_forever stays fun n always => ?_
  obtain ⟨m, later, enabled⟩ := ready n always
  obtain ⟨k, latest, taken⟩ := fair m enabled
  exact ⟨k + 1, by omega, acts k (always k (later.trans latest)) taken⟩

/-- A condition that lasts until a group is taken, where the group is enabled again
and again. -/
theorem StronglyFair.leadsTo (fair : b.StronglyFair group)
    (stays : ∀ n, p n → p (n + 1) ∨ q (n + 1)) (acts : ∀ n, p n → group (b.label n) → q (n + 1))
    (ready : ∀ n, (∀ m ≥ n, p m) → ∃ m ≥ n, Enabled step group (b.state m)) : LeadsTo p q := by
  refine .of_not_forever stays fun n always => ?_
  obtain ⟨k, later, taken⟩ := fair n fun m later => ready m fun k latest => always k (later.trans latest)
  exact ⟨k + 1, by omega, acts k (always k later) taken⟩

/-- A behaviour is fair to a group that has nothing to do from some time on. -/
theorem weaklyFair_of_idle {last : Nat} (idle : ∀ n ≥ last, ¬ Enabled step group (b.state n)) :
    b.WeaklyFair group :=
  fun n always => absurd (always _ (le_max_left n last)) (idle _ (le_max_right n last))

theorem stronglyFair_of_idle {last : Nat} (idle : ∀ n ≥ last, ¬ Enabled step group (b.state n)) :
    b.StronglyFair group := by
  intro n again
  obtain ⟨m, later, enabled⟩ := again _ (le_max_left n last)
  exact absurd enabled (idle m ((le_max_right n last).trans later))

/-- The states along labels; a label that cannot be taken changes nothing. -/
def along (step : σ → α → Option σ) (start : σ) (label : Nat → α) : Nat → σ
  | 0 => start
  | n + 1 => (step (along step start label n) (label n)).getD (along step start label n)

/-- The run along labels that can be taken one after the other. -/
def ofLabels (start : σ) (label : Nat → α)
    (possible : ∀ n, (step (along step start label n) (label n)).isSome = true) : Behaviour step where
  state := along step start label
  label := label
  next := fun n => by
    obtain ⟨s, taken⟩ := Option.isSome_iff_exists.mp (possible n)
    rw [along, taken]
    rfl

end Behaviour
end Restaking.Lib
