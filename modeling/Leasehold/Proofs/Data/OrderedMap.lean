import Leasehold.Data.OrderedMap

/-!
# Laws of ordered maps

Lookup through every operation that changes a map, and the invariant that the keys
stay strictly increasing.

* `get?_insert_self`, `get?_insert_of_ne`, `get?_erase_self`, `get?_erase_of_ne`: lookup
  after an insertion and after a removal, on every list of entries.
* `mem_merge`, `get?_merge_of_contains_eq_false`: what is in a map after another was written
  over it.
* `merge_merge_self`: writing the same over again changes nothing.
* `sorted_insert`, `sorted_modify`, `sorted_mapWhere`, `sorted_erase`: the operations keep a
  map sorted.
* `get?_eq_some_iff_mem`: in a sorted map lookup and membership agree.
* `get?_merge`: what was written over a key wins.
* `values_filter_eq_toList`: in a sorted map a test that accepts one key only finds what
  the lookup of this key finds.
-/

namespace Leasehold
namespace OrderedMap

variable {κ : Type} {ν : Type}

/-! ## Removal and change -/

section Lookup

variable [DecidableEq κ]

@[simp]
theorem get?_empty (key : κ) : (∅ : OrderedMap κ ν).get? key = none := rfl

theorem contains_eq_false_iff (map : OrderedMap κ ν) (key : κ) :
    map.contains key = false ↔ map.get? key = none := by
  unfold contains
  exact Option.isSome_eq_false_iff.trans Option.isNone_iff_eq_none

theorem lookup_filter_self (key : κ) (entries : List (κ × ν)) :
    lookup key (entries.filter fun entry => !decide (entry.1 = key)) = none := by
  induction entries with
  | nil => rfl
  | cons entry rest ih =>
      by_cases h : entry.1 = key
      · rw [List.filter_cons_of_neg (by simp [h])]
        exact ih
      · rw [List.filter_cons_of_pos (by simp [h])]
        simpa [lookup, h] using ih

theorem lookup_filter_of_ne {key other : κ} (h : other ≠ key) (entries : List (κ × ν)) :
    lookup other (entries.filter fun entry => !decide (entry.1 = key))
      = lookup other entries := by
  induction entries with
  | nil => rfl
  | cons entry rest ih =>
      obtain ⟨k, value⟩ := entry
      by_cases hKey : k = key
      · have hOther : k ≠ other := by
          rintro rfl
          exact h hKey
        rw [List.filter_cons_of_neg (by simp [hKey])]
        simpa [lookup, hOther] using ih
      · rw [List.filter_cons_of_pos (by simp [hKey])]
        simp only [lookup, ih]

@[simp]
theorem get?_erase_self (map : OrderedMap κ ν) (key : κ) : (map.erase key).get? key = none :=
  lookup_filter_self key map.entries

theorem get?_erase_of_ne (map : OrderedMap κ ν) {key other : κ} (h : other ≠ key) :
    (map.erase key).get? other = map.get? other :=
  lookup_filter_of_ne h map.entries

theorem mem_of_lookup {key : κ} {value : ν} {entries : List (κ × ν)}
    (h : lookup key entries = some value) : (key, value) ∈ entries := by
  induction entries with
  | nil => simp [lookup] at h
  | cons entry rest ih =>
      obtain ⟨k, v⟩ := entry
      by_cases hKey : k = key
      · simp only [lookup, hKey, if_true, Option.some.injEq] at h
        rw [hKey, h]
        exact List.mem_cons_self
      · simp only [lookup, hKey, if_false] at h
        exact List.mem_cons_of_mem _ (ih h)

/-- What a lookup finds is an entry. -/
theorem mem_of_get? {map : OrderedMap κ ν} {key : κ} {value : ν}
    (h : map.get? key = some value) : (key, value) ∈ map.entries :=
  mem_of_lookup h

/-- A test that accepts the values under one key and no others changes what a change under
this key changes. -/
theorem mapWhere_eq_modify {map : OrderedMap κ ν} {key : κ} {test : ν → Bool}
    (hTest : ∀ entry ∈ map.entries, test entry.2 = decide (entry.1 = key)) (change : ν → ν) :
    map.mapWhere test change = map.modify key change := by
  unfold mapWhere modify
  congr 1
  refine List.map_congr_left fun entry hEntry => ?_
  simp [hTest entry hEntry]

end Lookup

/-! ## Tests that accept nothing -/

theorem mapWhere_of_forall_eq_false {map : OrderedMap κ ν} {test : ν → Bool}
    (hTest : ∀ entry ∈ map.entries, test entry.2 = false) (change : ν → ν) :
    map.mapWhere test change = map := by
  unfold mapWhere
  congr 1
  refine (List.map_congr_left fun entry hEntry => ?_).trans (List.map_id _)
  simp [hTest entry hEntry]

theorem values_filter_of_forall_eq_false {map : OrderedMap κ ν} {test : ν → Bool}
    (hTest : ∀ entry ∈ map.entries, test entry.2 = false) : map.values.filter test = [] := by
  rw [List.filter_eq_nil_iff]
  intro value hValue
  obtain ⟨entry, hEntry, rfl⟩ := List.mem_map.mp hValue
  simp [hTest entry hEntry]

/-! ## Insertion -/

section Insertion

variable [Ord κ]

theorem mem_insertEntry {key : κ} {value : ν} {entry : κ × ν} {entries : List (κ × ν)}
    (h : entry ∈ insertEntry key value entries) : entry = (key, value) ∨ entry ∈ entries := by
  induction entries with
  | nil => exact Or.inl (by simpa [insertEntry] using h)
  | cons head rest ih =>
      obtain ⟨k, v⟩ := head
      simp only [insertEntry] at h
      split at h
      · exact (List.mem_cons.mp h).imp_right id
      · exact (List.mem_cons.mp h).imp_right (List.mem_cons_of_mem _)
      · rcases List.mem_cons.mp h with rfl | hRest
        · exact Or.inr List.mem_cons_self
        · exact (ih hRest).imp_right (List.mem_cons_of_mem _)

/-- An insertion adds no entry but its own. -/
theorem mem_insert {map : OrderedMap κ ν} {key : κ} {value : ν} {entry : κ × ν}
    (h : entry ∈ (map.insert key value).entries) :
    entry = (key, value) ∨ entry ∈ map.entries :=
  mem_insertEntry h

variable [DecidableEq κ] [Std.LawfulEqOrd κ]

theorem insertEntry_perm {key : κ} (value : ν) {entries : List (κ × ν)}
    (h : lookup key entries = none) :
    (insertEntry key value entries).Perm ((key, value) :: entries) := by
  induction entries with
  | nil => exact List.Perm.refl _
  | cons entry rest ih =>
      obtain ⟨k, v⟩ := entry
      have hKey : k ≠ key := by
        rintro rfl
        simp [lookup] at h
      simp only [insertEntry]
      split
      · exact List.Perm.refl _
      · next hEq => exact absurd (Std.LawfulEqOrd.eq_of_compare hEq).symm hKey
      · have hRest : lookup key rest = none := by simpa [lookup, hKey] using h
        exact ((ih hRest).cons _).trans (List.Perm.swap _ _ _)

/-- An insertion under a new key adds its entry. -/
theorem insert_perm {map : OrderedMap κ ν} {key : κ} (value : ν)
    (h : map.contains key = false) :
    (map.insert key value).entries.Perm ((key, value) :: map.entries) :=
  insertEntry_perm value ((contains_eq_false_iff map key).mp h)

theorem lookup_insertEntry_self (key : κ) (value : ν) (entries : List (κ × ν)) :
    lookup key (insertEntry key value entries) = some value := by
  induction entries with
  | nil => simp [insertEntry, lookup]
  | cons entry rest ih =>
      obtain ⟨k, v⟩ := entry
      simp only [insertEntry]
      split
      · simp [lookup]
      · simp [lookup]
      · next hGt =>
        have hKey : k ≠ key := by
          rintro rfl
          rw [Std.ReflOrd.compare_self] at hGt
          cases hGt
        simpa [lookup, hKey] using ih

theorem lookup_insertEntry_of_ne {key other : κ} (value : ν) (h : other ≠ key)
    (entries : List (κ × ν)) :
    lookup other (insertEntry key value entries) = lookup other entries := by
  induction entries with
  | nil => simp [insertEntry, lookup, h.symm]
  | cons entry rest ih =>
      obtain ⟨k, v⟩ := entry
      simp only [insertEntry]
      split
      · simp [lookup, h.symm]
      · next hEq =>
        have hKey : key = k := Std.LawfulEqOrd.eq_of_compare hEq
        subst hKey
        simp [lookup, h.symm]
      · simp only [lookup, ih]

@[simp]
theorem get?_insert_self (map : OrderedMap κ ν) (key : κ) (value : ν) :
    (map.insert key value).get? key = some value :=
  lookup_insertEntry_self key value map.entries

theorem get?_insert_of_ne (map : OrderedMap κ ν) {key other : κ} (value : ν)
    (h : other ≠ key) : (map.insert key value).get? other = map.get? other :=
  lookup_insertEntry_of_ne value h map.entries

end Insertion

/-! ## Merging -/

section Merging

variable [Ord κ]

theorem merge_cons (map : OrderedMap κ ν) (key : κ) (value : ν) (rest : List (κ × ν)) :
    map.merge ⟨(key, value) :: rest⟩ = (map.insert key value).merge ⟨rest⟩ := rfl

/-- A merge leaves no entry but those of the two maps. -/
theorem mem_merge {map fields : OrderedMap κ ν} {entry : κ × ν}
    (h : entry ∈ (map.merge fields).entries) : entry ∈ fields.entries ∨ entry ∈ map.entries := by
  obtain ⟨written⟩ := fields
  induction written generalizing map with
  | nil => exact Or.inr h
  | cons head rest ih =>
      obtain ⟨k, v⟩ := head
      rw [merge_cons] at h
      rcases ih h with hRest | hInserted
      · exact Or.inl (List.mem_cons_of_mem _ hRest)
      · rcases mem_insert hInserted with rfl | hOld
        · exact Or.inl List.mem_cons_self
        · exact Or.inr hOld

/-- A key that is not written over keeps its value. -/
theorem get?_merge_of_contains_eq_false [DecidableEq κ] [Std.LawfulEqOrd κ]
    {fields : OrderedMap κ ν} {key : κ} (map : OrderedMap κ ν)
    (h : fields.contains key = false) : (map.merge fields).get? key = map.get? key := by
  rw [contains_eq_false_iff] at h
  obtain ⟨written⟩ := fields
  induction written generalizing map with
  | nil => rfl
  | cons head rest ih =>
      obtain ⟨k, v⟩ := head
      by_cases hKey : k = key
      · simp [get?, lookup, hKey] at h
      · have hRest : (⟨rest⟩ : OrderedMap κ ν).get? key = none := by
          simpa [get?, lookup, hKey] using h
        rw [merge_cons, ih _ hRest, get?_insert_of_ne _ _ (Ne.symm hKey)]

end Merging

/-! ## Writing over again -/

section Overwriting

variable [Ord κ]

theorem insertEntry_insertEntry_self [Std.ReflOrd κ] (key : κ) (value other : ν)
    (entries : List (κ × ν)) :
    insertEntry key value (insertEntry key other entries) = insertEntry key value entries := by
  induction entries with
  | nil => simp [insertEntry, Std.ReflOrd.compare_self]
  | cons head rest ih =>
      obtain ⟨k, v⟩ := head
      cases h : compare key k with
      | gt => simp [insertEntry, h, ih]
      | _ => simp [insertEntry, h, Std.ReflOrd.compare_self]

/-- Of two insertions under one key the later stays. -/
theorem insert_insert_self [Std.ReflOrd κ] (map : OrderedMap κ ν) (key : κ) (value other : ν) :
    (map.insert key other).insert key value = map.insert key value :=
  congrArg mk (insertEntry_insertEntry_self key value other map.entries)

variable [Std.TransOrd κ] [Std.LawfulEqOrd κ]

theorem insertEntry_comm_of_lt {a b : κ} (v w : ν) (h : compare a b = .lt)
    (entries : List (κ × ν)) :
    insertEntry a v (insertEntry b w entries) = insertEntry b w (insertEntry a v entries) := by
  have hGt : compare b a = .gt := Std.OrientedCmp.gt_of_lt h
  induction entries with
  | nil => simp [insertEntry, h, hGt]
  | cons head rest ih =>
      obtain ⟨k, u⟩ := head
      cases hb : compare b k with
      | lt =>
          have ha : compare a k = .lt := Std.TransCmp.lt_trans h hb
          simp [insertEntry, h, hGt, ha, hb]
      | eq =>
          obtain rfl : b = k := Std.LawfulEqOrd.eq_of_compare hb
          simp [insertEntry, h, hGt]
      | gt =>
          cases ha : compare a k with
          | gt => simp [insertEntry, ha, hb, ih]
          | _ => simp [insertEntry, hGt, ha, hb]

/-- Insertions under different keys can be exchanged. -/
theorem insert_comm (map : OrderedMap κ ν) {a b : κ} (v w : ν) (h : a ≠ b) :
    (map.insert b w).insert a v = (map.insert a v).insert b w := by
  refine congrArg mk ?_
  cases hCompare : compare a b with
  | lt => exact insertEntry_comm_of_lt v w hCompare map.entries
  | eq => exact absurd (Std.LawfulEqOrd.eq_of_compare hCompare) h
  | gt => exact (insertEntry_comm_of_lt w v (Std.OrientedCmp.lt_of_gt hCompare) map.entries).symm

/-- What is inserted under a key that is written over leaves no trace. -/
theorem merge_insert_of_mem (map : OrderedMap κ ν) {key : κ} (value : ν) {fields : OrderedMap κ ν}
    (h : key ∈ fields.keys) : (map.insert key value).merge fields = map.merge fields := by
  obtain ⟨written⟩ := fields
  induction written generalizing map with
  | nil => cases h
  | cons head rest ih =>
      obtain ⟨k, v⟩ := head
      by_cases hKey : key = k
      · rw [merge_cons, hKey, insert_insert_self, ← merge_cons]
      · have hRest : key ∈ (⟨rest⟩ : OrderedMap κ ν).keys :=
          (List.mem_cons.mp h).resolve_left hKey
        rw [merge_cons, insert_comm map v value (Ne.symm hKey), ih _ hRest, ← merge_cons]

/-- What is inserted under any other key can as well be inserted afterwards. -/
theorem merge_insert_of_not_mem (map : OrderedMap κ ν) {key : κ} (value : ν)
    {fields : OrderedMap κ ν} (h : key ∉ fields.keys) :
    (map.insert key value).merge fields = (map.merge fields).insert key value := by
  obtain ⟨written⟩ := fields
  induction written generalizing map with
  | nil => rfl
  | cons head rest ih =>
      obtain ⟨k, v⟩ := head
      obtain ⟨hKey, hRest⟩ := not_or.mp (mt List.mem_cons.mpr h)
      rw [merge_cons, insert_comm map v value (Ne.symm hKey), ih _ hRest, ← merge_cons]

/-- **Writing the same over again changes nothing.** -/
theorem merge_merge_self (map fields : OrderedMap κ ν) :
    (map.merge fields).merge fields = map.merge fields := by
  obtain ⟨written⟩ := fields
  induction written generalizing map with
  | nil => rfl
  | cons head rest ih =>
      obtain ⟨k, v⟩ := head
      rw [merge_cons, merge_cons]
      by_cases hMem : k ∈ (⟨rest⟩ : OrderedMap κ ν).keys
      · rw [merge_insert_of_mem _ v hMem, merge_insert_of_mem _ v hMem, ih]
      · rw [merge_insert_of_not_mem _ v hMem, merge_insert_of_not_mem _ v hMem,
          merge_insert_of_not_mem _ v hMem, ih, insert_insert_self]

end Overwriting

/-! ## Sorted maps -/

section Sorted

variable [Ord κ]

theorem sorted_iff_pairwise (map : OrderedMap κ ν) :
    map.Sorted ↔ map.entries.Pairwise fun a b => compare a.1 b.1 = .lt :=
  List.pairwise_map

theorem pairwise_insertEntry [Std.TransOrd κ] [Std.LawfulEqOrd κ] (key : κ) (value : ν)
    {entries : List (κ × ν)}
    (h : entries.Pairwise fun a b => compare a.1 b.1 = .lt) :
    (insertEntry key value entries).Pairwise fun a b => compare a.1 b.1 = .lt := by
  induction entries with
  | nil => simp [insertEntry]
  | cons head rest ih =>
      obtain ⟨k, v⟩ := head
      obtain ⟨hHead, hRest⟩ := List.pairwise_cons.mp h
      simp only [insertEntry]
      split
      · next hLt =>
        refine List.pairwise_cons.mpr ⟨?_, h⟩
        intro entry hEntry
        rcases List.mem_cons.mp hEntry with rfl | hLater
        · exact hLt
        · exact Std.TransCmp.lt_trans hLt (hHead entry hLater)
      · next hEq =>
        have hKey : key = k := Std.LawfulEqOrd.eq_of_compare hEq
        subst hKey
        exact List.pairwise_cons.mpr ⟨hHead, hRest⟩
      · next hGt =>
        refine List.pairwise_cons.mpr ⟨?_, ih hRest⟩
        intro entry hEntry
        rcases mem_insertEntry hEntry with rfl | hLater
        · exact Std.OrientedCmp.lt_of_gt hGt
        · exact hHead entry hLater

theorem sorted_insert [Std.TransOrd κ] [Std.LawfulEqOrd κ] {map : OrderedMap κ ν}
    (h : map.Sorted) (key : κ) (value : ν) : (map.insert key value).Sorted :=
  (sorted_iff_pairwise _).mpr (pairwise_insertEntry key value ((sorted_iff_pairwise _).mp h))

theorem sorted_merge [Std.TransOrd κ] [Std.LawfulEqOrd κ] {map : OrderedMap κ ν}
    (h : map.Sorted) (fields : OrderedMap κ ν) : (map.merge fields).Sorted := by
  obtain ⟨written⟩ := fields
  induction written generalizing map with
  | nil => exact h
  | cons head rest ih => exact ih (sorted_insert h head.1 head.2)

theorem sorted_ofList [Std.TransOrd κ] [Std.LawfulEqOrd κ] (entries : List (κ × ν)) :
    (ofList entries).Sorted :=
  sorted_merge sorted_empty ⟨entries⟩

theorem sorted_modify [DecidableEq κ] {map : OrderedMap κ ν} (h : map.Sorted) (key : κ)
    (change : ν → ν) : (map.modify key change).Sorted := by
  unfold Sorted at h ⊢
  rwa [keys_modify]

theorem sorted_mapWhere {map : OrderedMap κ ν} (h : map.Sorted) (test : ν → Bool)
    (change : ν → ν) : (map.mapWhere test change).Sorted := by
  unfold Sorted at h ⊢
  rwa [keys_mapWhere]

theorem sorted_erase [DecidableEq κ] {map : OrderedMap κ ν} (h : map.Sorted) (key : κ) :
    (map.erase key).Sorted :=
  (sorted_iff_pairwise _).mpr (((sorted_iff_pairwise _).mp h).filter _)

/-- Keys are not repeated. -/
theorem nodup_keys [Std.ReflOrd κ] {map : OrderedMap κ ν} (h : map.Sorted) : map.keys.Nodup := by
  refine h.imp ?_
  rintro a b hLess rfl
  rw [Std.ReflOrd.compare_self] at hLess
  cases hLess

theorem nodup_entries [Std.ReflOrd κ] {map : OrderedMap κ ν} (h : map.Sorted) :
    map.entries.Nodup := by
  refine (List.pairwise_map.mp (nodup_keys h)).imp ?_
  rintro a b hKeys rfl
  exact hKeys rfl

variable [DecidableEq κ] [Std.LawfulEqOrd κ]

theorem lookup_eq_none_of_lt {key : κ} {entries : List (κ × ν)}
    (h : ∀ entry ∈ entries, compare key entry.1 = .lt) : lookup key entries = none := by
  induction entries with
  | nil => rfl
  | cons head rest ih =>
      have hKey : head.1 ≠ key := by
        intro hEq
        have hLt := h head List.mem_cons_self
        rw [hEq, Std.ReflOrd.compare_self] at hLt
        cases hLt
      simp only [lookup, hKey, if_false]
      exact ih fun entry hEntry => h entry (List.mem_cons_of_mem _ hEntry)

theorem filter_key_eq_toList {key : κ} {entries : List (κ × ν)}
    (h : entries.Pairwise fun a b => compare a.1 b.1 = .lt) :
    (entries.filter fun entry => decide (entry.1 = key)).map Prod.snd
      = (lookup key entries).toList := by
  induction entries with
  | nil => rfl
  | cons head rest ih =>
      obtain ⟨k, v⟩ := head
      obtain ⟨hHead, hRest⟩ := List.pairwise_cons.mp h
      by_cases hKey : k = key
      · subst hKey
        -- The keys behind are all larger, so nothing else is found.
        have hNone : lookup k rest = none := lookup_eq_none_of_lt hHead
        simp [lookup, ih hRest, hNone]
      · simp [lookup, hKey, ih hRest]

/-- **One key, one value.**  In a sorted map a test that accepts the values under one key
and no others finds what the lookup of this key finds. -/
theorem values_filter_eq_toList {map : OrderedMap κ ν} (h : map.Sorted) (key : κ)
    (test : ν → Bool) (hTest : ∀ entry ∈ map.entries, test entry.2 = decide (entry.1 = key)) :
    map.values.filter test = (map.get? key).toList := by
  have hFilter : map.entries.filter (test ∘ Prod.snd)
      = map.entries.filter fun entry => decide (entry.1 = key) :=
    List.filter_congr hTest
  rw [values, List.filter_map, hFilter]
  exact filter_key_eq_toList ((sorted_iff_pairwise map).mp h)

/-- In a sorted map the entries are what lookups find. -/
theorem get?_eq_some_iff_mem {map : OrderedMap κ ν} (h : map.Sorted) (key : κ) (value : ν) :
    map.get? key = some value ↔ (key, value) ∈ map.entries := by
  refine ⟨mem_of_get?, fun hMem => ?_⟩
  have hFound : value ∈ (map.get? key).toList := by
    rw [get?, ← filter_key_eq_toList ((sorted_iff_pairwise map).mp h)]
    exact List.mem_map.mpr ⟨(key, value), List.mem_filter.mpr ⟨hMem, by simp⟩, rfl⟩
  simpa using hFound

/-- A sorted map is determined by what its lookups find. -/
theorem ext_of_get? [Std.TransOrd κ] {map other : OrderedMap κ ν} (h : map.Sorted)
    (hOther : other.Sorted) (hGet : ∀ key, map.get? key = other.get? key) : map = other := by
  have hPerm : map.entries.Perm other.entries := by
    refine (List.perm_ext_iff_of_nodup (nodup_entries h) (nodup_entries hOther)).mpr ?_
    rintro ⟨key, value⟩
    rw [← get?_eq_some_iff_mem h, ← get?_eq_some_iff_mem hOther, hGet]
  have hEntries : map.entries = other.entries := by
    refine hPerm.eq_of_pairwise ?_ ((sorted_iff_pairwise _).mp h)
      ((sorted_iff_pairwise _).mp hOther)
    intro a b _ _ hLess hMore
    rw [Std.OrientedCmp.gt_of_lt hLess] at hMore
    cases hMore
  cases map
  cases other
  exact congrArg OrderedMap.mk hEntries

/-- **What a merge leaves under a key**: what was written there, if anything was. -/
theorem get?_merge [Std.TransOrd κ] {fields : OrderedMap κ ν} (hSorted : fields.Sorted)
    (map : OrderedMap κ ν) (key : κ) :
    (map.merge fields).get? key = (fields.get? key).or (map.get? key) := by
  cases hField : fields.get? key with
  | none =>
      rw [get?_merge_of_contains_eq_false map ((contains_eq_false_iff _ _).mpr hField),
        Option.none_or]
  | some value =>
      obtain ⟨written⟩ := fields
      induction written generalizing map with
      | nil => cases hField
      | cons head rest ih =>
          obtain ⟨k, v⟩ := head
          obtain ⟨hHead, hRest⟩ := List.pairwise_cons.mp ((sorted_iff_pairwise _).mp hSorted)
          rw [merge_cons]
          by_cases hKey : k = key
          · subst hKey
            have hLast : (⟨rest⟩ : OrderedMap κ ν).get? k = none := lookup_eq_none_of_lt hHead
            rw [get?_merge_of_contains_eq_false _ ((contains_eq_false_iff _ _).mpr hLast),
              get?_insert_self]
            simpa [get?, lookup] using hField
          · refine ih _ ((sorted_iff_pairwise _).mpr hRest) ?_
            simpa [get?, lookup, hKey] using hField

end Sorted

end OrderedMap
end Leasehold
