import Mathlib.Algebra.Order.Ring.Nat

/-! A rate limit: a wanted event fires unless another one fired less than an interval
ago. What fires is spaced by the interval, and nothing is wanted in vain: whatever
did not fire has a firing close before it. -/
namespace Restaking.Lib

/-- The firings among events that are given by their times and by whether they are
wanted, after a last firing. -/
def throttle (interval : Nat) : Option Nat → List (Nat × Bool) → List Nat
  | _, [] => []
  | last, (now, wanted) :: events =>
    if wanted && last.all (fun sent => interval ≤ now - sent) then
      now :: throttle interval (some now) events
    else throttle interval last events

variable {interval : Nat} {last : Option Nat} {events : List (Nat × Bool)} {t : Nat}

/-- Only wanted events fire. -/
theorem wanted_of_mem_throttle (fired : t ∈ throttle interval last events) :
    (t, true) ∈ events := by
  induction events generalizing last with
  | nil => cases fired
  | cons event events ih =>
    obtain ⟨now, wanted⟩ := event
    rw [throttle] at fired
    split at fired
    · rename_i fires
      rcases List.mem_cons.mp fired with rfl | later
      · obtain rfl : wanted = true := (Bool.and_eq_true_iff.mp fires).1
        exact List.mem_cons_self
      · exact List.mem_cons_of_mem _ (ih later)
    · exact List.mem_cons_of_mem _ (ih fired)

/-- Firings are an interval apart, from the last one before the events on. -/
theorem throttle_spaced (sorted : (events.map Prod.fst).Pairwise (· ≤ ·))
    (after : ∀ sent ∈ last, ∀ event ∈ events, sent ≤ event.1) :
    (throttle interval last events).Pairwise (fun s t => s + interval ≤ t) ∧
      ∀ sent ∈ last, ∀ t ∈ throttle interval last events, sent + interval ≤ t := by
  induction events generalizing last with
  | nil => exact ⟨.nil, fun _ _ _ fired => nomatch fired⟩
  | cons event events ih =>
    obtain ⟨now, wanted⟩ := event
    obtain ⟨first, sorted⟩ := List.pairwise_cons.mp sorted
    rw [throttle]
    split
    · rename_i fires
      have onward : ∀ sent ∈ some now, ∀ event ∈ events, sent ≤ event.1 := by
        rintro sent ⟨⟩ event member
        exact first event.1 (List.mem_map_of_mem member)
      obtain ⟨spaced, later⟩ := ih sorted onward
      refine ⟨List.pairwise_cons.mpr ⟨later now rfl, spaced⟩, ?_⟩
      intro sent before t fired
      have early := after sent before (now, wanted) List.mem_cons_self
      have due : interval ≤ now - sent := by
        have all := (Bool.and_eq_true_iff.mp fires).2
        rw [Option.mem_def.mp before] at all
        exact of_decide_eq_true all
      rcases List.mem_cons.mp fired with rfl | beyond
      · omega
      · have := later now rfl t beyond
        omega
    · exact ih sorted fun sent before event member =>
        after sent before event (List.mem_cons_of_mem _ member)

/-- A wanted event fires, or a firing lies less than an interval before it. -/
theorem throttle_covers (sorted : (events.map Prod.fst).Pairwise (· ≤ ·))
    (after : ∀ sent ∈ last, ∀ event ∈ events, sent ≤ event.1) (wanted : (t, true) ∈ events) :
    ∃ sent ∈ last.toList ++ throttle interval last events,
      sent ≤ t ∧ (sent = t ∨ t < sent + interval) := by
  induction events generalizing last with
  | nil => cases wanted
  | cons event events ih =>
    obtain ⟨now, wants⟩ := event
    obtain ⟨first, sorted⟩ := List.pairwise_cons.mp sorted
    rw [throttle]
    rcases List.mem_cons.mp wanted with here | later
    · cases here
      split
      · exact ⟨t, List.mem_append_right _ List.mem_cons_self, le_rfl, .inl rfl⟩
      · rename_i early
        obtain ⟨sent, rfl, recent⟩ : ∃ sent, last = some sent ∧ ¬ interval ≤ t - sent := by
          cases last with
          | none => simp at early
          | some sent => exact ⟨sent, rfl, by simpa using early⟩
        have before := after sent rfl (t, true) List.mem_cons_self
        exact ⟨sent, List.mem_cons_self, before, .inr (by omega)⟩
    · split
      · have onward : ∀ sent ∈ some now, ∀ event ∈ events, sent ≤ event.1 := by
          rintro sent ⟨⟩ event member
          exact first event.1 (List.mem_map_of_mem member)
        obtain ⟨sent, member, close⟩ := ih sorted onward later
        exact ⟨sent, List.mem_append_right _ member, close⟩
      · exact ih sorted (fun sent before event member =>
          after sent before event (List.mem_cons_of_mem _ member)) later

end Restaking.Lib
