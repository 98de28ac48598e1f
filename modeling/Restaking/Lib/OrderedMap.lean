import Mathlib.Data.List.Perm.Subperm
import Mathlib.Data.List.Sort
import Mathlib.Order.Defs.LinearOrder

/-! Finite maps kept as lists with strictly increasing keys. The order is a
field of the map, so a lookup, an iteration and a bound on the number of
entries can all rely on it. Every operation is characterized by what a lookup
finds afterwards; nothing below depends on what the keys or values are. -/
namespace Restaking.Lib

/-- A finite map with its entries in increasing key order. -/
structure OrderedMap (K : Type*) (V : Type*) [LinearOrder K] where
  /-- The entries, each key once. -/
  entries : List (K × V)
  /-- Keys increase strictly along the entries. -/
  sorted : entries.Pairwise (fun a b => a.1 < b.1)

namespace OrderedMap

variable {K V : Type*} [LinearOrder K] {m : OrderedMap K V} {k k' floor : K} {v v' : V}

/-- The map without entries. -/
def empty : OrderedMap K V := ⟨[], .nil⟩

/-- The value stored under a key. -/
def get? (m : OrderedMap K V) (k : K) : Option V := (m.entries.find? (·.1 = k)).map (·.2)

/-- The value stored under a key, or a default. -/
def getD (m : OrderedMap K V) (k : K) (default : V) : V := (m.get? k).getD default

/-- The keys in increasing order. -/
def keys (m : OrderedMap K V) : List K := m.entries.map (·.1)

/-- The values in the order of their keys. -/
def values (m : OrderedMap K V) : List V := m.entries.map (·.2)

/-- The entries whose key passes a test. -/
def filterKeys (m : OrderedMap K V) (p : K → Bool) : OrderedMap K V :=
  ⟨m.entries.filter (p ·.1), m.sorted.filter _⟩

/-- Removes a key. -/
def erase (m : OrderedMap K V) (k : K) : OrderedMap K V := m.filterKeys (· ≠ k)

/-- Keeps the entries at or above a floor. -/
def splitOff (m : OrderedMap K V) (floor : K) : OrderedMap K V := m.filterKeys (floor ≤ ·)

/-- Stores a value under a key, replacing an earlier one. -/
def insert (m : OrderedMap K V) (k : K) (v : V) : OrderedMap K V where
  entries := m.entries.filter (·.1 < k) ++ (k, v) :: m.entries.filter (k < ·.1)
  sorted := by
    refine List.pairwise_append.mpr ⟨m.sorted.filter _, ?_, ?_⟩
    · refine List.pairwise_cons.mpr ⟨?_, m.sorted.filter _⟩
      intro entry member
      simpa using (List.mem_filter.mp member).2
    · intro low memberLow high memberHigh
      have below : low.1 < k := by simpa using (List.mem_filter.mp memberLow).2
      rcases List.mem_cons.mp memberHigh with rfl | memberHigh
      · exact below
      · exact below.trans (by simpa using (List.mem_filter.mp memberHigh).2)

private theorem find_eq_of_mem {entries : List (K × V)}
    (sorted : entries.Pairwise (fun a b => a.1 < b.1)) (member : (k, v) ∈ entries) :
    entries.find? (·.1 = k) = some (k, v) := by
  induction entries with
  | nil => cases member
  | cons first rest ih =>
    obtain ⟨before, tail⟩ := List.pairwise_cons.mp sorted
    rcases List.mem_cons.mp member with rfl | later
    · simp
    · have above := before _ later
      rw [List.find?_cons_of_neg (by simpa using above.ne)]
      exact ih tail later

/-- A lookup finds exactly the stored entry. -/
theorem get?_eq_some_iff : m.get? k = some v ↔ (k, v) ∈ m.entries := by
  constructor
  · intro found
    obtain ⟨entry, first, rfl⟩ := Option.map_eq_some_iff.mp found
    have named : entry.1 = k := by simpa using List.find?_some first
    subst named
    exact List.mem_of_find?_eq_some first
  · intro member
    simp [get?, find_eq_of_mem m.sorted member]

@[simp] theorem get?_empty : (empty : OrderedMap K V).get? k = none := rfl

theorem mem_keys_iff : k ∈ m.keys ↔ ∃ v, m.get? k = some v := by
  simp only [keys, List.mem_map, get?_eq_some_iff]
  constructor
  · rintro ⟨entry, member, rfl⟩
    exact ⟨entry.2, member⟩
  · rintro ⟨v, member⟩
    exact ⟨(k, v), member, rfl⟩

theorem get?_filterKeys (p : K → Bool) :
    (m.filterKeys p).get? k = if p k then m.get? k else none := by
  ext v
  rw [get?_eq_some_iff, filterKeys, List.mem_filter]
  by_cases pass : p k <;> simp [pass, get?_eq_some_iff]

@[simp] theorem get?_erase : (m.erase k').get? k = if k = k' then none else m.get? k := by
  by_cases same : k = k' <;> simp [erase, get?_filterKeys, same]

@[simp] theorem get?_splitOff :
    (m.splitOff floor).get? k = if floor ≤ k then m.get? k else none := by
  simp [splitOff, get?_filterKeys]

@[simp] theorem get?_insert :
    (m.insert k' v).get? k = if k = k' then some v else m.get? k := by
  ext w
  rw [get?_eq_some_iff, insert, List.mem_append, List.mem_cons, List.mem_filter, List.mem_filter]
  by_cases same : k = k'
  · subst same
    simp [eq_comm]
  · rcases lt_or_gt_of_ne same with low | high
    · simp [same, low, low.not_gt, get?_eq_some_iff]
    · simp [same, high, high.not_gt, get?_eq_some_iff]

@[simp] theorem getD_empty : (empty : OrderedMap K V).getD k v = v := rfl

@[simp] theorem getD_erase :
    (m.erase k').getD k v = if k = k' then v else m.getD k v := by
  by_cases same : k = k' <;> simp [getD, same]

@[simp] theorem getD_insert :
    (m.insert k' v').getD k v = if k = k' then v' else m.getD k v := by
  by_cases same : k = k' <;> simp [getD, same]

theorem getD_of_not_mem_keys (absent : k ∉ m.keys) : m.getD k v = v := by
  cases found : m.get? k with
  | none => simp [getD, found]
  | some w => exact absurd (mem_keys_iff.mpr ⟨w, found⟩) absent

/-- The keys whose value passes a test, in increasing order. -/
def keysWhere (m : OrderedMap K V) (p : V → Bool) : List K :=
  (m.entries.filter (p ·.2)).map (·.1)

theorem mem_keysWhere_iff {p : V → Bool} :
    k ∈ m.keysWhere p ↔ ∃ v, m.get? k = some v ∧ p v = true := by
  simp only [keysWhere, List.mem_map, List.mem_filter, get?_eq_some_iff]
  constructor
  · rintro ⟨entry, ⟨member, pass⟩, rfl⟩
    exact ⟨entry.2, member, pass⟩
  · rintro ⟨v, member, pass⟩
    exact ⟨(k, v), ⟨member, pass⟩, rfl⟩

theorem nodup_keysWhere (p : V → Bool) : (m.keysWhere p).Nodup :=
  List.pairwise_map.mpr ((m.sorted.filter _).imp fun below => below.ne)

/-- Counting values counts the keys they are stored under. -/
theorem countP_values (p : V → Bool) : m.values.countP p = (m.keysWhere p).length := by
  simp [values, keysWhere, List.countP_eq_length_filter, List.filter_map, Function.comp_def]

/-- A map in which every passing key still passes counts no fewer values. -/
theorem countP_values_le {m' : OrderedMap K V} {p : V → Bool}
    (kept : ∀ k v, m.get? k = some v → p v = true → ∃ v', m'.get? k = some v' ∧ p v' = true) :
    m.values.countP p ≤ m'.values.countP p := by
  rw [countP_values, countP_values]
  refine ((nodup_keysWhere p).subperm fun k member => ?_).length_le
  obtain ⟨v, found, pass⟩ := mem_keysWhere_iff.mp member
  exact mem_keysWhere_iff.mpr (kept k v found pass)

end OrderedMap
end Restaking.Lib
