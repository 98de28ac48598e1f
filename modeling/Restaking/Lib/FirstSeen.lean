import Mathlib.Data.List.Induction
import Restaking.Lib.OrderedMap

/-! The first element of each key in a stream, and a table that remembers which
keys have been seen without keeping all of them. Elements whose key lies below
the table's floor must not come any more; then the table forgets what it is
allowed to and still lets through exactly the first element of each key. -/
namespace Restaking.Lib

variable {α K V : Type*}

section FirstPer

variable [DecidableEq K]

/-- The elements whose key no earlier element has, in their order. -/
def firstPer (key : α → K) (xs : List α) : List α :=
  xs.foldl (fun kept x => if key x ∈ kept.map key then kept else kept ++ [x]) []

variable {key : α → K} {xs ys : List α} {x : α} {k : K}

theorem firstPer_append : firstPer key (xs ++ [x]) =
    if key x ∈ (firstPer key xs).map key then firstPer key xs else firstPer key xs ++ [x] := by
  simp [firstPer, List.foldl_append]

/-- No key is lost. -/
theorem mem_map_firstPer : k ∈ (firstPer key xs).map key ↔ k ∈ xs.map key := by
  induction xs using List.reverseRecOn with
  | nil => rfl
  | append_singleton xs x ih =>
    rw [firstPer_append, List.map_append, List.mem_append, ← ih]
    split
    · rename_i seen
      refine ⟨.inl, fun member => ?_⟩
      rcases member with earlier | last
      · exact earlier
      · rwa [List.mem_singleton.mp last]
    · rw [List.map_append, List.mem_append]

/-- No key is kept twice. -/
theorem nodup_map_firstPer : ((firstPer key xs).map key).Nodup := by
  induction xs using List.reverseRecOn with
  | nil => exact .nil
  | append_singleton xs x ih =>
    rw [firstPer_append]
    split
    · exact ih
    · rename_i fresh
      rw [List.map_append]
      exact List.nodup_append.mpr ⟨ih, List.nodup_singleton _, by
        rintro k earlier k' last rfl
        exact fresh (List.mem_singleton.mp last ▸ earlier)⟩

end FirstPer

section Tracks

variable [LinearOrder K]

/-- The table holds the value of each kept element whose key is not below the
floor, and nothing else. -/
def Tracks (key : α → K) (value : α → V) (table : OrderedMap K V) (kept : List α) (floor : K) :
    Prop :=
  ∀ k v, table.get? k = some v ↔ floor ≤ k ∧ ∃ x ∈ kept, key x = k ∧ value x = v

variable {key : α → K} {value : α → V} {table : OrderedMap K V} {kept : List α} {floor floor' : K}
variable {x : α} {k : K}

theorem Tracks.empty : Tracks key value (.empty : OrderedMap K V) [] floor := by
  intro k v
  simp [OrderedMap.get?_empty]

/-- Above the floor the table knows every key that was kept. -/
theorem Tracks.isSome_iff (tracks : Tracks key value table kept floor) (above : floor ≤ k) :
    (table.get? k).isSome ↔ k ∈ kept.map key := by
  rw [Option.isSome_iff_exists, List.mem_map]
  constructor
  · rintro ⟨v, found⟩
    obtain ⟨-, x, member, named, -⟩ := (tracks k v).mp found
    exact ⟨x, member, named⟩
  · rintro ⟨x, member, named⟩
    exact ⟨value x, (tracks k _).mpr ⟨above, x, member, named, rfl⟩⟩

/-- A new element above the floor. -/
theorem Tracks.insert (tracks : Tracks key value table kept floor) (above : floor ≤ key x)
    (fresh : key x ∉ kept.map key) :
    Tracks key value (table.insert (key x) (value x)) (kept ++ [x]) floor := by
  intro k v
  rw [OrderedMap.get?_insert]
  split
  · rename_i here
    subst here
    constructor
    · intro same
      exact ⟨above, x, by simp, rfl, Option.some.inj same⟩
    · rintro ⟨-, y, member, named, rfl⟩
      rcases List.mem_append.mp member with earlier | last
      · exact absurd (List.mem_map.mpr ⟨y, earlier, named⟩) fresh
      · rw [List.mem_singleton.mp last]
  · rename_i apart
    rw [tracks k v]
    refine and_congr_right fun _ => ⟨?_, ?_⟩
    · rintro ⟨y, member, named, same⟩
      exact ⟨y, List.mem_append_left _ member, named, same⟩
    · rintro ⟨y, member, named, same⟩
      rcases List.mem_append.mp member with earlier | last
      · exact ⟨y, earlier, named, same⟩
      · exact absurd (named.symm.trans (congrArg key (List.mem_singleton.mp last))) apart

/-- A floor that moves up forgets what lies below it. -/
theorem Tracks.splitOff (tracks : Tracks key value table kept floor) (raised : floor ≤ floor') :
    Tracks key value (table.splitOff floor') kept floor' := by
  intro k v
  rw [OrderedMap.get?_splitOff, Option.ite_none_right_eq_some, tracks k v]
  constructor
  · rintro ⟨above, -, stored⟩
    exact ⟨above, stored⟩
  · rintro ⟨above, stored⟩
    exact ⟨above, raised.trans above, stored⟩

end Tracks
end Restaking.Lib
