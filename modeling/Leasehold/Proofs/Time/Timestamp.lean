import Leasehold.Proofs.Time.Calendar
import Leasehold.Time.Timestamp
import Mathlib.Algebra.Group.Nat.Defs

/-!
# Timestamps are read back

The text of a clock reading leads back to this reading, so no two readings have one text.  Each
part of a timestamp is read as far as the mark that ends it, and what follows is left to the
next reader.

* `Spells`: digits and the number they stand for.
* `Instant.readDigits_append`: digits are read up to their end.
* `Instant.readYear_yearText`, `Instant.readPair_zeroPadded`,
  `Instant.readFraction_fractionGroups`: one lemma for each part.
* `Instant.ofLocal?_parts`: the date and the time of day of a reading lead back to it.
* `Instant.ofText?_toText`: the text does.
* `Instant.toText_inj`: readings with one text are equal.
-/

namespace Leasehold

/-! ## Digits -/

/-- Digits, any zeros in front included, and the number that they stand for. -/
structure Spells (digits : List Char) (n : Nat) : Prop where
  digit : ∀ c ∈ digits, c.isDigit = true
  ne_nil : digits ≠ []
  value : Word.ofDigits digits = n

theorem Spells.exists_cons {digits : List Char} {n : Nat} (h : Spells digits n) :
    ∃ c rest, digits = c :: rest ∧ c.isDigit = true := by
  obtain ⟨c, rest, hDigits⟩ := List.exists_cons_of_ne_nil h.ne_nil
  exact ⟨c, rest, hDigits, h.digit c (hDigits ▸ List.mem_cons_self)⟩

theorem toList_zeroPadded (width n : Nat) :
    (zeroPadded width n).toList
      = List.replicate (width - (Nat.toDigits 10 n).length) '0' ++ Nat.toDigits 10 n := by
  rw [zeroPadded, String.toList_ofList]

theorem ofDigits_zeros (zeros : Nat) (digits : List Char) :
    Word.ofDigits (List.replicate zeros '0' ++ digits) = Word.ofDigits digits := by
  induction zeros with
  | zero => rfl
  | succ zeros ih =>
      rw [List.replicate_succ, List.cons_append]
      exact ih

theorem spells_zeroPadded (width n : Nat) : Spells (zeroPadded width n).toList n := by
  rw [toList_zeroPadded]
  refine ⟨?_, ?_, ?_⟩
  · intro c hc
    rcases List.mem_append.mp hc with hZero | hDigit
    · rw [List.eq_of_mem_replicate hZero]
      rfl
    · exact Nat.isDigit_of_mem_toDigits (by decide) (by decide) hDigit
  · intro hNil
    exact Nat.toDigits_ne_nil (List.append_eq_nil_iff.mp hNil).2
  · rw [ofDigits_zeros]
    exact Nat.ofDigitChars_toDigits (by decide) (by decide)

theorem length_zeroPadded {width n : Nat} (hWidth : 0 < width) (h : n < 10 ^ width) :
    (zeroPadded width n).toList.length = width := by
  have hLength := (Nat.length_toDigits_le_iff (by decide) hWidth).mpr h
  rw [toList_zeroPadded, List.length_append, List.length_replicate]
  omega

namespace Instant

/-! ## Readers -/

theorem takeWhile_digits {digits rest : List Char} (h : ∀ c ∈ digits, c.isDigit = true)
    (hRest : ∀ c ∈ rest.head?, c.isDigit = false) :
    (digits ++ rest).takeWhile Char.isDigit = digits := by
  rw [List.takeWhile_append_of_pos h]
  cases rest with
  | nil => rw [List.takeWhile_nil, List.append_nil]
  | cons c rest =>
      rw [List.takeWhile_cons_of_neg, List.append_nil]
      exact Bool.eq_false_iff.mp (hRest c rfl)

/-- Digits are read up to their end: where no more are allowed, or where no other digit follows. -/
theorem readDigits_append {most n : Nat} {digits rest : List Char} (h : Spells digits n)
    (hMost : digits.length ≤ most)
    (hRest : digits.length = most ∨ ∀ c ∈ rest.head?, c.isDigit = false) :
    readDigits most (digits ++ rest) = some (n, rest) := by
  have hDigits : ((digits ++ rest).take most).takeWhile Char.isDigit = digits := by
    rw [List.take_append, List.take_of_length_le hMost]
    apply takeWhile_digits h.digit
    intro c hc
    rcases hRest with hEnd | hRest
    · rw [hEnd, Nat.sub_self, List.take_zero] at hc
      cases hc
    · cases hRoom : most - digits.length with
      | zero =>
          rw [hRoom] at hc
          cases hc
      | succ room =>
          rw [hRoom] at hc
          cases rest with
          | nil => cases hc
          | cons first rest => exact hRest c hc
  simp only [readDigits, hDigits, List.drop_left, h.value]
  rw [if_neg (by simpa using h.ne_nil)]

/-- A digit is no blank. -/
theorem isBlank_of_isDigit {c : Char} (h : c.isDigit = true) : isBlank c = false := by
  have hBounds : 48 ≤ c.toNat ∧ c.toNat ≤ 57 := by
    simpa [Char.isDigit, UInt32.le_iff_toNat_le] using h
  simp only [isBlank, Bool.or_eq_false_iff, Bool.and_eq_false_imp, decide_eq_false_iff_not,
    decide_eq_true_eq]
  omega

/-- No blanks stand before digits. -/
theorem dropWhile_digits {digits rest : List Char} {n : Nat} (h : Spells digits n) :
    (digits ++ rest).dropWhile isBlank = digits ++ rest := by
  obtain ⟨c, others, rfl, hDigit⟩ := h.exists_cons
  rw [List.cons_append, List.dropWhile_cons_of_neg]
  exact Bool.eq_false_iff.mp (isBlank_of_isDigit hDigit)

theorem readPair_zeroPadded {n : Nat} (h : n < 100) (rest : List Char) :
    readPair ((zeroPadded 2 n).toList ++ rest) = some (n, rest) := by
  have hLength : (zeroPadded 2 n).toList.length = 2 := length_zeroPadded (by decide) h
  rw [readPair, dropWhile_digits (spells_zeroPadded 2 n)]
  exact readDigits_append (spells_zeroPadded 2 n) (Nat.le_of_eq hLength) (.inl hLength)

theorem readMark_cons {mark : Char} (h : isBlank mark = false) (rest : List Char) :
    readMark mark (mark :: rest) = some ((), rest) := by
  rw [readMark, List.dropWhile_cons_of_neg (Bool.eq_false_iff.mp h)]
  exact if_pos rfl

/-- A year without a sign has four digits. -/
theorem readYear_digits {n : Nat} {digits rest : List Char} (h : Spells digits n)
    (hLength : digits.length = 4) : readYear (digits ++ rest) = some ((n : Int), rest) := by
  have hRead : readDigits 4 (digits ++ rest) = some (n, rest) :=
    readDigits_append h (Nat.le_of_eq hLength) (.inl hLength)
  obtain ⟨c, others, hDigits, hDigit⟩ := h.exists_cons
  rw [readYear, dropWhile_digits h]
  split
  · next hMinus =>
    rw [hDigits, List.cons_append] at hMinus
    rw [(List.cons.inj hMinus).1] at hDigit
    cases hDigit
  · next hPlus =>
    rw [hDigits, List.cons_append] at hPlus
    rw [(List.cons.inj hPlus).1] at hDigit
    cases hDigit
  · rw [hRead]
    rfl

/-- A year with a sign has any number of them. -/
theorem readYear_signed {n : Nat} {digits rest : List Char} (h : Spells digits n)
    (hRest : ∀ c ∈ rest.head?, c.isDigit = false) :
    readYear ('-' :: (digits ++ rest)) = some (-(n : Int), rest) ∧
      readYear ('+' :: (digits ++ rest)) = some ((n : Int), rest) := by
  have hRead : readDigits (digits ++ rest).length (digits ++ rest) = some (n, rest) :=
    readDigits_append h (by rw [List.length_append]; exact Nat.le_add_right _ _) (.inr hRest)
  have hMinus : ('-' :: (digits ++ rest)).dropWhile isBlank = '-' :: (digits ++ rest) := rfl
  have hPlus : ('+' :: (digits ++ rest)).dropWhile isBlank = '+' :: (digits ++ rest) := rfl
  constructor
  · simp only [readYear, hMinus, hRead, Option.map_some]
  · simp only [readYear, hPlus, hRead, Option.map_some]

/-- A year is read as far as the mark that follows it. -/
theorem readYear_yearText (year : Int) (rest : List Char) :
    readYear ((Date.yearText year).toList ++ '-' :: rest) = some (year, '-' :: rest) := by
  unfold Date.yearText
  split
  · next hYear =>
    simp only [Bool.and_eq_true, decide_eq_true_eq] at hYear
    rw [readYear_digits (spells_zeroPadded 4 year.toNat)
      (length_zeroPadded (by decide) (by omega)), Int.toNat_of_nonneg hYear.1]
  · have hMark : ∀ c ∈ ('-' :: rest).head?, c.isDigit = false := by
      intro c hc
      obtain rfl := Option.some.inj hc
      rfl
    obtain ⟨hMinus, hPlus⟩ := readYear_signed (spells_zeroPadded 4 year.natAbs) hMark
    rw [String.toList_append, List.append_assoc]
    split
    · next hNegative =>
      have hYear : -(year.natAbs : Int) = year := by omega
      have hSign : "-".toList = ['-'] := rfl
      rw [hYear] at hMinus
      rw [hSign, List.singleton_append, hMinus]
    · next hPositive =>
      have hYear : (year.natAbs : Int) = year := by omega
      have hSign : "+".toList = ['+'] := rfl
      rw [hYear] at hPlus
      rw [hSign, List.singleton_append, hPlus]

/-- Three groups of digits at most: the digits that are left out of a fraction are zeros. -/
theorem readFraction_group {width shift n nanos : Nat} (hWidth : width + shift = 9)
    (hPositive : 0 < width) (hLess : n < 10 ^ width) (hNanos : n * 10 ^ shift = nanos)
    {rest : List Char} (hRest : ∀ c ∈ rest.head?, c.isDigit = false) :
    readFraction (("." ++ zeroPadded width n).toList ++ rest) = some (nanos, rest) := by
  have hSpells := spells_zeroPadded width n
  have hLength := length_zeroPadded hPositive hLess
  have hDigits : ((zeroPadded width n).toList ++ rest).takeWhile Char.isDigit
      = (zeroPadded width n).toList := takeWhile_digits hSpells.digit hRest
  have hKept : (zeroPadded width n).toList.take 9 = (zeroPadded width n).toList :=
    List.take_of_length_le (by omega)
  have hShift : 9 - (zeroPadded width n).toList.length = shift := by omega
  have hPoint : ".".toList = ['.'] := rfl
  rw [String.toList_append, List.append_assoc, hPoint, List.singleton_append]
  simp only [readFraction, hDigits, hKept, List.drop_left, hSpells.value, hShift]
  rw [if_neg (by simpa using hSpells.ne_nil)]
  exact congrArg (fun value => some (value, rest)) hNanos

/-- Without a point there is no fraction. -/
theorem readFraction_of_head {cs : List Char} (h : ∀ c ∈ cs.head?, c ≠ '.') :
    readFraction cs = some (0, cs) := by
  unfold readFraction
  split
  · exact absurd rfl (h '.' rfl)
  · rfl

/-- A fraction is read up to the offset. -/
theorem readFraction_fractionGroups {nanos : Nat} (h : nanos < 1000000000) {rest : List Char}
    (hRest : ∀ c ∈ rest.head?, c.isDigit = false ∧ c ≠ '.') :
    readFraction ((fractionGroups nanos).toList ++ rest) = some (nanos, rest) := by
  have hDigit : ∀ c ∈ rest.head?, c.isDigit = false := fun c hc => (hRest c hc).1
  unfold fractionGroups
  split
  · next hNone =>
    subst hNone
    exact readFraction_of_head fun c hc => (hRest c hc).2
  · split
    · exact readFraction_group (rfl : 3 + 6 = 9) (by decide) (by omega) (by omega) hDigit
    · split
      · exact readFraction_group (rfl : 6 + 3 = 9) (by decide) (by omega) (by omega) hDigit
      · exact readFraction_group (rfl : 9 + 0 = 9) (by decide) h (by omega) hDigit

/-- What follows the fraction is not part of it. -/
theorem head_text (offset : Offset) :
    ∀ c ∈ offset.text.toList.head?, c.isDigit = false ∧ c ≠ '.' := by
  intro c hc
  cases offset with
  | numeric =>
      obtain rfl : '+' = c := Option.some.inj hc
      exact ⟨rfl, by decide⟩
  | letter =>
      obtain rfl : 'Z' = c := Option.some.inj hc
      exact ⟨rfl, by decide⟩

theorem readOffset_text (offset : Offset) :
    readOffset (offset.text.toList.dropWhile isBlank) = some (0, []) := by
  cases offset with
  | numeric => rfl
  | letter => rfl

/-! ## Parts of a reading -/

/-- The fraction of a second, in a leap second as in any other. -/
theorem fraction_lt {instant : Instant} (h : instant.nanos < 2 * Span.nanosPerSecond) :
    (if instant.inLeapSecond then instant.nanos - Span.nanosPerSecond else instant.nanos)
      < 1000000000 := by
  have hWhole : Span.nanosPerSecond = 1000000000 := rfl
  split
  · omega
  · next hIn =>
    have hLess := of_decide_eq_false (Bool.eq_false_iff.mpr hIn)
    omega

/-- The date and the time of day of a reading, where a leap second is second 60, lead back to it. -/
theorem ofLocal?_parts {instant : Instant} (h : instant.isValid = true) :
    ofLocal? (Date.ofDay instant.day) (instant.secondOfDay.toNat / 3600)
        (instant.secondOfDay.toNat / 60 % 60)
        (instant.secondOfDay.toNat % 60 + if instant.inLeapSecond then 1 else 0)
        (if instant.inLeapSecond then instant.nanos - Span.nanosPerSecond else instant.nanos) 0
      = some instant := by
  simp only [isValid, Bool.and_eq_true, decide_eq_true_eq, Bool.or_eq_true, Bool.not_eq_true'] at h
  obtain ⟨⟨⟨hFirst, hLast⟩, -⟩, hLeap⟩ := h
  have hDate := Date.isValid_ofDay hFirst hLast
  have hDay : instant.day * secondsPerDay + instant.secondOfDay = instant.seconds :=
    Int.mul_comm _ _ ▸ Int.mul_ediv_add_emod _ _
  have hOfDay : 0 ≤ instant.secondOfDay ∧ instant.secondOfDay < 86400 :=
    ⟨Int.emod_nonneg _ (by decide), Int.emod_lt_of_pos _ (by decide)⟩
  have hMinute : instant.seconds % 60 = instant.secondOfDay % 60 := by
    rw [← hDay, secondsPerDay]
    omega
  obtain ⟨time, hTime⟩ := Int.eq_ofNat_of_zero_le hOfDay.1
  rw [hTime] at hDay hOfDay hMinute ⊢
  rw [hMinute] at hLeap
  rw [Int.toNat_natCast]
  have hHours : time / 3600 ≤ 23 := by omega
  have hMinutes : time / 60 % 60 ≤ 59 := by omega
  have hOffset : -secondsPerDay < 0 ∧ (0 : Int) < secondsPerDay := by decide
  have hWhole : time / 3600 * 3600 + time / 60 % 60 * 60 + time % 60 = time := by omega
  cases hIn : instant.inLeapSecond with
  | false =>
      have hSeconds : time % 60 < 60 := by omega
      simp only [ofLocal?, hDate, hHours, hMinutes, hOffset, Bool.false_eq_true, if_false,
        Nat.add_zero, Nat.ne_of_lt hSeconds, Nat.le_of_lt hSeconds, decide_true,
        Bool.and_self, if_true, hWhole, Date.toDay_ofDay, hDay, Int.sub_zero, hFirst, hLast]
  | true =>
      -- Second 60 is read as the last of its minute with a billion nanoseconds more.
      have hSecond : time % 60 = 59 := by
        rcases hLeap with hOut | hSecond
        · rw [hIn] at hOut
          cases hOut
        · omega
      have hNanos : instant.nanos - Span.nanosPerSecond + Span.nanosPerSecond = instant.nanos :=
        Nat.sub_add_cancel (of_decide_eq_true hIn)
      rw [hSecond] at hWhole
      simp only [ofLocal?, hDate, hHours, hMinutes, hOffset, if_true, hSecond, Nat.reduceAdd,
        decide_true, Nat.le_refl, Bool.and_self, hWhole, Date.toDay_ofDay, hDay, Int.sub_zero,
        hFirst, hLast, hNanos]

/-- The characters of a timestamp, part by part. -/
theorem toList_toText (instant : Instant) (offset : Offset) :
    (instant.toText offset).toList
      = (Date.yearText (Date.ofDay instant.day).year).toList
        ++ '-' :: ((zeroPadded 2 (Date.ofDay instant.day).month).toList
        ++ '-' :: ((zeroPadded 2 (Date.ofDay instant.day).day).toList
        ++ 'T' :: ((zeroPadded 2 (instant.secondOfDay.toNat / 3600)).toList
        ++ ':' :: ((zeroPadded 2 (instant.secondOfDay.toNat / 60 % 60)).toList
        ++ ':' :: ((zeroPadded 2
            (instant.secondOfDay.toNat % 60 + if instant.inLeapSecond then 1 else 0)).toList
        ++ ((fractionGroups (if instant.inLeapSecond then instant.nanos - Span.nanosPerSecond
            else instant.nanos)).toList
        ++ offset.text.toList)))))) := by
  have hHyphen : "-".toList = ['-'] := rfl
  have hTime : "T".toList = ['T'] := rfl
  have hColon : ":".toList = [':'] := rfl
  simp only [toText, String.toList_append, hHyphen, hTime, hColon, List.append_assoc,
    List.cons_append, List.nil_append]

/-- **What is written is read back**: the text of a clock reading leads to this reading, however its
offset is written. -/
theorem ofText?_toText {instant : Instant} (h : instant.isValid = true) (offset : Offset) :
    ofText? (instant.toText offset) = some instant := by
  have hLocal := ofLocal?_parts h
  simp only [isValid, Bool.and_eq_true, decide_eq_true_eq, Bool.or_eq_true, Bool.not_eq_true'] at h
  obtain ⟨⟨⟨hFirst, hLast⟩, hNanos⟩, -⟩ := h
  have hDate := Date.isValid_ofDay hFirst hLast
  obtain ⟨hMonth, hDay⟩ := Date.month_day_lt_of_isValid hDate
  have hOfDay : instant.secondOfDay < 86400 := Int.emod_lt_of_pos _ (by decide)
  have hHour : instant.secondOfDay.toNat / 3600 < 100 := by omega
  have hMinute : instant.secondOfDay.toNat / 60 % 60 < 100 := by omega
  have hSecond :
      (instant.secondOfDay.toNat % 60 + if instant.inLeapSecond then 1 else 0) < 100 := by
    split <;> omega
  have hFraction : (if instant.inLeapSecond then instant.nanos - Span.nanosPerSecond
      else instant.nanos) < 1000000000 := fraction_lt hNanos
  have hHyphen : isBlank '-' = false := rfl
  have hColon : isBlank ':' = false := rfl
  have hTimeMark : ∀ rest, readTimeMark ('T' :: rest) = some ((), rest) := fun _ => rfl
  -- Each reader takes its part and leaves the rest to the next.
  rw [ofText?, toList_toText, readYear_yearText]
  simp only [Option.bind_eq_bind, Option.bind_some, readMark_cons hHyphen, readMark_cons hColon,
    readPair_zeroPadded hMonth, readPair_zeroPadded hDay, hTimeMark, readPair_zeroPadded hHour,
    readPair_zeroPadded hMinute, readPair_zeroPadded hSecond,
    readFraction_fractionGroups hFraction (head_text offset), readOffset_text offset,
    List.dropWhile_nil, List.isEmpty_nil, if_true]
  exact hLocal

/-- **No two readings have one text.** -/
theorem toText_inj {a b : Instant} (ha : a.isValid = true) (hb : b.isValid = true)
    (offset : Offset) : a.toText offset = b.toText offset ↔ a = b := by
  constructor
  · intro hText
    have hRead := ofText?_toText ha offset
    rw [hText, ofText?_toText hb offset] at hRead
    exact (Option.some.inj hRead).symm
  · rintro rfl
    rfl

end Instant

end Leasehold
