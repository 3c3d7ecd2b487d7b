import Leasehold.Settings.Environment
import Leasehold.Settings.Key
import Mathlib.Data.List.TakeWhile
import Mathlib.Data.String.Basic

/-!
# How variables are named

A variable that is spelled like a key, in upper case, sets a path.  This is not the path of the
key: its first name only marks the variable.  So a key that begins with that name is set by a
variable that begins with it twice.

* `splitOn_char`: a text is split as the list of its characters is.
* `Settings.Key.IsPlain`: keys whose spelling can be read back.
* `Setting.Path.ofText_intercalate`: the path that is written as names with dots between them.
* `Settings.Key.spelled`: the variable that is spelled like a key.
* `Settings.Key.settingPath?_spelled`: the path that it sets.
-/

namespace Leasehold

/-! ## Texts in pieces -/

open String in
/-- The rest of a text is split as its characters are, where the piece `m` is still open. -/
theorem splitOnAux_char (c : Char) (l m r : List Char) (acc : List String) :
    splitOnAux (ofList (l ++ m ++ r)) (ofList [c]) ⟨utf8Len l⟩ ⟨utf8Len l + utf8Len m⟩ 0 acc
      = acc.reverse ++ (List.splitOnPPrepend (· == c) r m.reverse).map ofList := by
  induction r generalizing l m acc with
  | nil =>
      rw [splitOnAux.eq_1]
      have hEnd := atEnd_of_valid (l ++ m) []
      rw [utf8Len_append] at hEnd
      rw [if_pos (hEnd.mpr rfl), extract_of_valid l m []]
      simp
  | cons d r ih =>
      rw [splitOnAux.eq_1]
      have hEnd := atEnd_of_valid (l ++ m) (d :: r)
      have hGet := get_of_valid (l ++ m) (d :: r)
      have hNext := next_of_valid (l ++ m) d r
      have hSepGet : Pos.Raw.get (ofList [c]) 0 = c := get_of_valid [] [c]
      have hSepNext : Pos.Raw.next (ofList [c]) 0 = ⟨c.utf8Size⟩ := by
        simpa using next_of_valid [] c []
      have hSepEnd : Pos.Raw.atEnd (ofList [c]) ⟨c.utf8Size⟩ = true := by
        simpa using (atEnd_of_valid [c] []).mpr rfl
      rw [utf8Len_append] at hEnd hGet hNext
      rw [if_neg (by simpa using hEnd), hGet, hSepGet, hNext, hSepNext, List.headD_cons]
      simp only [hSepEnd, if_true]
      rw [List.splitOnPPrepend_cons_eq_if]
      split
      · -- The piece is closed, and the next one begins behind the separator.
        next h =>
        obtain rfl : d = c := beq_iff_eq.mp h
        have hPiece : Pos.Raw.extract (ofList (l ++ m ++ d :: r)) ⟨utf8Len l⟩
            (Pos.Raw.unoffsetBy ⟨utf8Len l + utf8Len m + d.utf8Size⟩ ⟨d.utf8Size⟩) = ofList m := by
          have hExtract := extract_of_valid l m (d :: r)
          rwa [← Nat.add_sub_cancel (n := utf8Len l + utf8Len m) (m := d.utf8Size)] at hExtract
        have hRest := ih (l ++ m ++ [d]) [] (ofList m :: acc)
        have hText : l ++ m ++ [d] ++ [] ++ r = l ++ m ++ d :: r := by simp
        have hPlace : utf8Len (l ++ m ++ [d]) = utf8Len l + utf8Len m + d.utf8Size := by
          simp [Nat.add_assoc]
        rw [hText, hPlace, utf8Len_nil, Nat.add_zero, List.reverse_nil,
          ← List.splitOnP_eq_splitOnPPrepend] at hRest
        rw [hPiece, hRest]
        simp
      · have hRest := ih l (m ++ [d]) acc
        have hText : l ++ (m ++ [d]) ++ r = l ++ m ++ d :: r := by simp
        have hPlace : utf8Len l + utf8Len (m ++ [d]) = utf8Len l + utf8Len m + d.utf8Size := by
          simp [Nat.add_assoc]
        rw [hText, hPlace, List.reverse_append] at hRest
        rw [show Pos.Raw.unoffsetBy ⟨utf8Len l + utf8Len m⟩ 0 = ⟨utf8Len l + utf8Len m⟩ from rfl,
          hNext]
        exact hRest

/-- A text is split at a character as the list of its characters is. -/
theorem splitOn_char (c : Char) (text : String) :
    text.splitOn (String.ofList [c]) = (text.toList.splitOn c).map String.ofList := by
  have hSplit := splitOnAux_char c [] [] text.toList []
  have hSep : (String.ofList [c] == "") = false := by simp
  rw [String.splitOn, hSep, if_neg Bool.false_ne_true, List.splitOn_eq_splitOnP,
    List.splitOnP_eq_splitOnPPrepend]
  simpa using hSplit

/-- A text is lowered character by character. -/
theorem toLower_eq {text lowered : String}
    (h : text.toList.map Char.toLower = lowered.toList) : text.toLower = lowered := by
  change text.map Char.toLower = lowered
  exact String.toList_inj.mp (String.toList_map.trans h)

/-! ## Plain names -/

/-- A name that can stand in a path, and that can be read back from upper case. -/
def IsPlainName (name : String) : Prop :=
  name.toList ≠ [] ∧
    ∀ c ∈ name.toList, Setting.Path.isNameChar c = true ∧ c.toUpper.toLower = c

-- Only the characters of the name are tried, and not all there are.
instance (name : String) : Decidable (IsPlainName name) :=
  @instDecidableAnd _ _ inferInstance (List.decidableBAll _ _)

namespace Setting.Path

/-- A plain name is a part without places. -/
theorem partOfText?_of_isPlainName {name : String} (h : IsPlainName name) :
    partOfText? name = some [.name name] := by
  have hAll : name.toList.takeWhile isNameChar = name.toList :=
    List.takeWhile_eq_self_iff.mpr fun c hc => (h.2 c hc).1
  have hSome : name.toList.isEmpty = false := by simpa using h.1
  simp only [partOfText?, hAll, hSome, Bool.false_eq_true, if_false, List.drop_length]
  cases name.toList.length <;> simp [placesOfChars?]

/-- Plain names with dots between them are read back. -/
theorem ofText_intercalate {names : List String} (hNames : names ≠ [])
    (hPlain : ∀ name ∈ names, IsPlainName name) :
    ofText (".".intercalate names) = .ofNames names := by
  have hPieces : (".".intercalate names).splitOn "." = names := by
    have hDots : ∀ piece ∈ names.map String.toList, '.' ∉ piece := by
      intro piece hPiece hDot
      obtain ⟨name, hName, rfl⟩ := List.mem_map.mp hPiece
      exact absurd ((hPlain name hName).2 '.' hDot).1 (by decide)
    rw [show "." = String.ofList ['.'] from rfl, splitOn_char, String.toList_intercalate]
    rw [show (String.ofList ['.']).toList = ['.'] from rfl,
      List.splitOn_intercalate '.' hDots (by simpa using hNames)]
    simp
  have hParts : names.mapM partOfText? = some (names.map fun name => [.name name]) := by
    clear hPieces hNames
    induction names with
    | nil => rfl
    | cons name names ih =>
        obtain ⟨hFirst, hRest⟩ := List.forall_mem_cons.mp hPlain
        simp [partOfText?_of_isPlainName hFirst, ih hRest]
  have hFlat : (names.map fun name => [Setting.Step.name name]).flatten = ofNames names := by
    rw [← List.flatMap_def]
    exact (List.map_eq_flatMap ..).symm
  rw [ofText, ofText?, hPieces, hParts, Option.map_some, hFlat, Option.getD_some]

end Setting.Path

/-! ## Variables -/

namespace Settings.Key

/-- A key whose names are plain. -/
def IsPlain (key : Key) : Prop := ∀ name ∈ key.names, IsPlainName name

instance (key : Key) : Decidable key.IsPlain := inferInstanceAs (Decidable (∀ _ ∈ _, _))

/-- The variable that is spelled like a key, in upper case. -/
def spelled (key : Key) : String := key.text.toUpper

/-- A plain key is read back from the variable. -/
theorem toLower_spelled {key : Key} (h : key.IsPlain) : key.spelled.toLower = key.text := by
  have hChars : ∀ names : List String, (∀ name ∈ names, IsPlainName name) →
      ∀ c ∈ ['.'].intercalate (names.map String.toList), c.toUpper.toLower = c := by
    intro names hPlain
    induction names with
    | nil => simp
    | cons name names ih =>
        obtain ⟨hFirst, hRest⟩ := List.forall_mem_cons.mp hPlain
        cases names with
        | nil => simpa using fun c hc => (hFirst.2 c hc).2
        | cons next names =>
            rw [List.map_cons, List.map_cons, List.intercalate_cons_cons]
            intro c hc
            rcases List.mem_append.mp hc with hBefore | hLater
            · rcases List.mem_append.mp hBefore with hName | hDot
              · exact (hFirst.2 c hName).2
              · rw [List.mem_singleton.mp hDot]
                decide
            · exact ih hRest c hLater
  refine toLower_eq ?_
  rw [spelled, String.toUpper, String.toList_map, List.map_map, text, String.toList_intercalate]
  exact (List.map_congr_left (hChars key.names h)).trans (List.map_id _)

/-- The key with the mark of variables before it. -/
def marked (key : Key) : Key := ⟨"clusterlock" :: key.names⟩

/-- **What a variable sets**: the names behind the mark, and not the mark. -/
theorem settingPath?_spelled {key : Key} (hNames : key.names ≠ []) (h : key.IsPlain) :
    Variables.settingPath? key.marked.spelled = some (.ofNames key.names) := by
  have hMarked : key.marked.IsPlain := List.forall_mem_cons.mpr ⟨by decide, h⟩
  have hText : key.marked.text = Variables.mark ++ key.text := by
    rw [text, marked, String.intercalate_cons_of_ne_nil hNames]
    rfl
  have hStarts : key.marked.text.startsWith Variables.mark = true := by
    rw [String.startsWith_string_iff, hText, String.toList_append]
    exact List.prefix_append ..
  have hRest : (key.marked.text.drop Variables.mark.length).toString = key.text := by
    refine String.toList_inj.mp (String.toList_copy_drop.trans ?_)
    rw [hText, String.toList_append, ← String.length_toList, List.drop_left]
  simp only [Variables.settingPath?, toLower_spelled hMarked, hStarts, if_true, hRest]
  rw [text, Setting.Path.ofText_intercalate hNames h]

end Settings.Key
end Leasehold
