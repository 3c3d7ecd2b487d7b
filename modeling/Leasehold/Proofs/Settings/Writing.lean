import Leasehold.Settings.Path

/-!
# What is written at a path

A value that is written at the end of a path is found there, and what is found at the end of names
that lead elsewhere stays.  So of many values that are written one after another, the last one at
some names is found at their end, provided that every other path parts from them at a name.

* `Setting.Path.parts`: whether a path leads away from some names.
* `Setting.follow?_assignAt_of_parts`, `Setting.follow?_assignAt_self`: one value written.
* `Setting.writeAll`: values written one after another.
* `Setting.lastAt?`: the last value at some names.
* `Setting.follow?_writeAll`: what is found after all values are written.
-/

namespace Leasehold
namespace Setting

/-- Whether a path leads away from some names: it has another name where it leaves them. -/
def Path.parts : Path → List String → Bool
  | .name first :: path, name :: names => decide (first ≠ name) || Path.parts path names
  | _, _ => false

/-- A value that is no table takes the place of what was there before. -/
def isLeaf : Setting → Bool
  | table _ => false
  | _ => true

/-! ## Children -/

variable {value target : Setting} {name other : String}

@[simp]
theorem child?_withChild_self (target value : Setting) (name : String) :
    (target.withChild name value).child? name = some value :=
  lookup_put_self name value target.entries

theorem child?_withChild_of_ne (value target : Setting) (h : other ≠ name) :
    (target.withChild name value).child? other = target.child? other :=
  lookup_put_of_ne value target.entries h

/-- A value that is written under a name, be it a table or not, is a child under this name. -/
theorem exists_assign_eq (name : String) (value target : Setting) :
    ∃ child, assign name value target = target.withChild name child := by
  cases value with
  | scalar scalar source? => exact ⟨_, by rw [assign]⟩
  | list items source? => exact ⟨_, by rw [assign]⟩
  | table incoming => exact ⟨_, by rw [assign]⟩

theorem assign_of_isLeaf (name : String) (target : Setting) (h : value.isLeaf = true) :
    assign name value target = target.withChild name value := by
  cases value with
  | scalar scalar source? => rw [assign]
  | list items source? => rw [assign]
  | table incoming => cases h

/-! ## One value -/

theorem follow?_name (setting : Setting) (name : String) (path : Path) :
    setting.follow? (.name name :: path)
      = (setting.child? name).bind fun child => child.follow? path := rfl

theorem follow?_noEntries {names : List String} (h : names ≠ []) :
    noEntries.follow? (.ofNames names) = none := by
  cases names with
  | nil => exact absurd rfl h
  | cons name names => rfl

/-- Nothing parts from no names. -/
theorem ne_nil_of_parts {path : Path} {names : List String} (h : path.parts names = true) :
    path ≠ [] ∧ names ≠ [] := by
  cases path with
  | nil => cases h
  | cons step path =>
      cases names with
      | nil => cases step <;> cases h
      | cons name names => exact ⟨List.cons_ne_nil _ _, List.cons_ne_nil _ _⟩

/-- No path parts from its own names. -/
theorem parts_ofNames_self (names : List String) : Path.parts (.ofNames names) names = false := by
  induction names with
  | nil => rfl
  | cons name names ih =>
      rw [Path.ofNames, List.map_cons, Path.parts, decide_eq_false fun hNe => hNe rfl, Bool.false_or]
      exact ih

/-- A path of at least two steps leads through a child. -/
theorem assignAt_name_cons (name : String) {path : Path} (h : path ≠ []) :
    assignAt value target (.name name :: path)
      = target.withChild name (assignAt value ((target.child? name).getD noEntries) path) := by
  cases path with
  | nil => exact absurd rfl h
  | cons step path => rfl

/-- What is found elsewhere stays. -/
theorem follow?_assignAt_of_parts {path : Path} {names : List String}
    (h : path.parts names = true) :
    (assignAt value target path).follow? (.ofNames names) = target.follow? (.ofNames names) := by
  induction names generalizing path target with
  | nil => exact absurd rfl (ne_nil_of_parts h).2
  | cons name names ih =>
      match path, h with
      | .name first :: path, h =>
          rw [Path.parts, Bool.or_eq_true, decide_eq_true_eq] at h
          by_cases hSame : first = name
          · -- The path goes on through the same child, and parts from the other names there.
            subst hSame
            have hRest : Path.parts path names = true := h.resolve_left fun hNe => hNe rfl
            obtain ⟨hPath, hNames⟩ := ne_nil_of_parts hRest
            rw [assignAt_name_cons first hPath, Path.ofNames, List.map_cons, follow?_name,
              follow?_name, child?_withChild_self, Option.bind_some]
            refine (ih hRest).trans ?_
            cases target.child? first with
            | none => exact follow?_noEntries hNames
            | some child => rfl
          · have hChild : ∃ child, assignAt value target (.name first :: path)
                = target.withChild first child := by
              cases path with
              | nil => exact exists_assign_eq first value target
              | cons step path => exact ⟨_, rfl⟩
            obtain ⟨child, hChild⟩ := hChild
            rw [hChild, Path.ofNames, List.map_cons, follow?_name, follow?_name,
              child?_withChild_of_ne child target (Ne.symm hSame)]

/-- What was written is found. -/
theorem follow?_assignAt_self {names : List String} (hLeaf : value.isLeaf = true)
    (h : names ≠ []) :
    (assignAt value target (.ofNames names)).follow? (.ofNames names) = some value := by
  induction names generalizing target with
  | nil => exact absurd rfl h
  | cons name names ih =>
      cases names with
      | nil =>
          rw [Path.ofNames, List.map_cons, List.map_nil, assignAt, assign_of_isLeaf name target hLeaf,
            follow?_name, child?_withChild_self]
          rfl
      | cons next names =>
          rw [Path.ofNames, List.map_cons, assignAt_name_cons name (by simp), follow?_name,
            child?_withChild_self, Option.bind_some]
          exact ih (List.cons_ne_nil next names)

/-! ## Many values -/

/-- Values written at paths, one after another. -/
def writeAll (writes : List (Path × Setting)) (target : Setting) : Setting :=
  writes.foldl (fun target (path, value) => assignAt value target path) target

/-- The last value that is written at some names. -/
def lastAt? (names : List String) : List (Path × Setting) → Option Setting
  | [] => none
  | (path, value) :: rest =>
    (lastAt? names rest).or (if path = .ofNames names then some value else none)

theorem lastAt?_eq_none {names : List String} {writes : List (Path × Setting)}
    (h : ∀ write ∈ writes, write.1 ≠ .ofNames names) : lastAt? names writes = none := by
  induction writes with
  | nil => rfl
  | cons write rest ih =>
      obtain ⟨hFirst, hRest⟩ := List.forall_mem_cons.mp h
      rw [lastAt?, ih hRest, if_neg hFirst]
      rfl

/-- Where only one value is written at some names, it is the last one. -/
theorem lastAt?_eq_some {names : List String} {writes : List (Path × Setting)}
    (hMem : (.ofNames names, value) ∈ writes)
    (hOnly : ∀ write ∈ writes, write.1 = .ofNames names → write.2 = value) :
    lastAt? names writes = some value := by
  induction writes with
  | nil => cases hMem
  | cons write rest ih =>
      obtain ⟨hFirst, hRest⟩ := List.forall_mem_cons.mp hOnly
      by_cases hLater : (Path.ofNames names, value) ∈ rest
      · rw [lastAt?, ih hLater hRest]
        rfl
      · have hNone : lastAt? names rest = none := by
          refine lastAt?_eq_none fun later hMemLater hPath => hLater ?_
          rw [← hPath, ← hRest later hMemLater hPath]
          exact hMemLater
        obtain rfl := (List.mem_cons.mp hMem).resolve_right hLater
        rw [lastAt?, hNone, if_pos rfl]
        rfl

/-- Where at most one value is written at some names, it is the last one. -/
theorem lastAt?_eq_of_mem_iff {names : List String} {writes : List (Path × Setting)}
    {found? : Option Setting}
    (h : ∀ value, (.ofNames names, value) ∈ writes ↔ found? = some value) :
    lastAt? names writes = found? := by
  cases found? with
  | none =>
      refine lastAt?_eq_none ?_
      rintro ⟨path, value⟩ hMem rfl
      cases (h value).mp hMem
  | some value =>
      refine lastAt?_eq_some ((h value).mpr rfl) ?_
      rintro ⟨path, other⟩ hMem rfl
      exact (Option.some.inj ((h other).mp hMem)).symm

/-- Every value is written at some names, in the place of what was there, or elsewhere. -/
def ClearOf (names : List String) (writes : List (Path × Setting)) : Prop :=
  ∀ write ∈ writes,
    write.1 = .ofNames names ∧ write.2.isLeaf = true ∨ write.1.parts names = true

/-- **What is found after all is written**: the last value at these names, or what was there. -/
theorem follow?_writeAll {names : List String} {writes : List (Path × Setting)}
    (hClear : ClearOf names writes) (hNames : names ≠ []) (target : Setting) :
    (writeAll writes target).follow? (.ofNames names)
      = (lastAt? names writes).or (target.follow? (.ofNames names)) := by
  induction writes generalizing target with
  | nil => rfl
  | cons write rest ih =>
      obtain ⟨path, value⟩ := write
      obtain ⟨hFirst, hRest⟩ := List.forall_mem_cons.mp hClear
      rw [writeAll, List.foldl_cons]
      refine (ih hRest _).trans ?_
      rw [lastAt?, Option.or_assoc]
      congr 1
      rcases hFirst with ⟨hPath, hLeaf⟩ | hParts
      · obtain rfl : path = .ofNames names := hPath
        rw [if_pos rfl, Option.some_or]
        exact follow?_assignAt_self hLeaf hNames
      · have hOther : path ≠ .ofNames names := by
          rintro rfl
          rw [parts_ofNames_self] at hParts
          cases hParts
        rw [if_neg hOther, Option.none_or]
        exact follow?_assignAt_of_parts hParts

theorem writeAll_append (first second : List (Path × Setting)) (target : Setting) :
    writeAll (first ++ second) target = writeAll second (writeAll first target) :=
  List.foldl_append ..

end Setting
end Leasehold
