/-!
# Maps kept in key order

Records and tables are walked in the order of their keys, so both are association
lists sorted by key.  The operations are total on every list of entries; that they
keep a list sorted is a theorem about them and not a field of the type, so that a
map is determined by its entries alone.

* `OrderedMap`: the entries.
* `get?`, `contains`, `insert`, `erase`, `ofList`: the operations on a key.
* `merge`: one map written over another.
* `mapWhere`: a change of the values that satisfy a test.
-/

namespace Leasehold

/-- A map as its entries, in key order. -/
structure OrderedMap (κ : Type) (ν : Type) where
  entries : List (κ × ν)
  deriving Repr, DecidableEq

namespace OrderedMap

variable {κ : Type} {ν : Type}

/-- The map without entries. -/
def empty : OrderedMap κ ν := ⟨[]⟩

instance : EmptyCollection (OrderedMap κ ν) := ⟨empty⟩

instance : Inhabited (OrderedMap κ ν) := ⟨empty⟩

/-- The keys in order. -/
def keys (map : OrderedMap κ ν) : List κ := map.entries.map Prod.fst

/-- The values in the order of their keys. -/
def values (map : OrderedMap κ ν) : List ν := map.entries.map Prod.snd

/-- Number of entries. -/
def size (map : OrderedMap κ ν) : Nat := map.entries.length

/-- Whether a map has no entry. -/
def isEmpty (map : OrderedMap κ ν) : Bool := map.entries.isEmpty

/-- The entries whose values satisfy a test and the change made to those values. -/
def mapWhere (test : ν → Bool) (change : ν → ν) (map : OrderedMap κ ν) : OrderedMap κ ν :=
  ⟨map.entries.map fun (key, value) => (key, if test value then change value else value)⟩

@[simp]
theorem keys_mapWhere (test : ν → Bool) (change : ν → ν) (map : OrderedMap κ ν) :
    (map.mapWhere test change).keys = map.keys := by
  simp [keys, mapWhere]

section Lookup

variable [DecidableEq κ]

/-- The value of the first entry with a key. -/
def lookup (key : κ) : List (κ × ν) → Option ν
  | [] => none
  | (k, value) :: rest => if k = key then some value else lookup key rest

/-- The value under a key. -/
def get? (map : OrderedMap κ ν) (key : κ) : Option ν := lookup key map.entries

/-- Whether a key has an entry. -/
def contains (map : OrderedMap κ ν) (key : κ) : Bool := (map.get? key).isSome

/-- The map without the entry of a key. -/
def erase (map : OrderedMap κ ν) (key : κ) : OrderedMap κ ν :=
  ⟨map.entries.filter fun entry => !decide (entry.1 = key)⟩

/-- The value under a key changed, if there is one. -/
def modify (map : OrderedMap κ ν) (key : κ) (change : ν → ν) : OrderedMap κ ν :=
  ⟨map.entries.map fun (k, value) => (k, if k = key then change value else value)⟩

@[simp]
theorem keys_modify (map : OrderedMap κ ν) (key : κ) (change : ν → ν) :
    (map.modify key change).keys = map.keys := by
  simp [keys, modify]

theorem lookup_map (key target : κ) (change : ν → ν) (entries : List (κ × ν)) :
    lookup key (entries.map fun (k, value) => (k, if k = target then change value else value))
      = (lookup key entries).map fun value => if key = target then change value else value := by
  induction entries with
  | nil => rfl
  | cons entry rest ih =>
    obtain ⟨k, value⟩ := entry
    by_cases h : k = key
    · subst h
      simp [lookup]
    · simp only [List.map_cons, lookup, h, if_false]
      exact ih

theorem get?_modify_self (map : OrderedMap κ ν) (key : κ) (change : ν → ν) :
    (map.modify key change).get? key = (map.get? key).map change := by
  simp [get?, modify, lookup_map]

theorem get?_modify_of_ne (map : OrderedMap κ ν) {key target : κ} (change : ν → ν)
    (h : key ≠ target) : (map.modify target change).get? key = map.get? key := by
  simp [get?, modify, lookup_map, h]

end Lookup

section Insertion

variable [Ord κ]

/-- Puts an entry in front of the first entry with a larger key, in place of an
entry with the same key. -/
def insertEntry (key : κ) (value : ν) : List (κ × ν) → List (κ × ν)
  | [] => [(key, value)]
  | (k, v) :: rest =>
    match compare key k with
    | .lt => (key, value) :: (k, v) :: rest
    | .eq => (key, value) :: rest
    | .gt => (k, v) :: insertEntry key value rest

/-- The map with a value under a key; an older one is replaced. -/
def insert (map : OrderedMap κ ν) (key : κ) (value : ν) : OrderedMap κ ν :=
  ⟨insertEntry key value map.entries⟩

/-- The map of a list of entries; of two entries with one key the later stays. -/
def ofList (entries : List (κ × ν)) : OrderedMap κ ν :=
  entries.foldl (fun map (key, value) => map.insert key value) empty

/-- One map written over another: the entries of `fields` win. -/
def merge (map fields : OrderedMap κ ν) : OrderedMap κ ν :=
  fields.entries.foldl (fun map (key, value) => map.insert key value) map

@[simp]
theorem merge_empty (map : OrderedMap κ ν) : map.merge empty = map := rfl

/-- Strictly increasing keys. -/
def Sorted (map : OrderedMap κ ν) : Prop :=
  map.keys.Pairwise fun a b => compare a b = .lt

theorem sorted_empty : (empty : OrderedMap κ ν).Sorted := List.Pairwise.nil

end Insertion

end OrderedMap

end Leasehold
