import Leasehold.Time.Calendar

/-!
# Dates and days

Every day has a date of the calendar, and the day of this date is the day itself.  Days are
counted in eras of four hundred years, and years in an era from March, so that a leap day is the
last day of its year.

* `Date.yearOfEra`, `Date.daysBefore`: the year of an era that a day lies in, and the days before
  this year.
* `Date.IsDayOf`: a day of a year.
* `Date.ofParts`: the date of a day of a year of an era; `ofDay_eq` says that every day has one.
* `Date.toDay_ofDay`: the day of the date of a day.
* `Date.isValid_ofDay`: the date of a supported day exists.
-/

namespace Leasehold.Date

/-- The days of an era before one of its years. -/
def daysBefore (year : Nat) : Nat := 365 * year + year / 4 - year / 100

/-- The year of an era that a day of the era lies in. -/
def yearOfEra (day : Nat) : Nat := (day - day / 1460 + day / 36524 - day / 146096) / 365

/-- **A day of a year of an era**, counted from its first of March: only a year that ends with a
leap day has a 366th day. -/
structure IsDayOf (year rest : Nat) : Prop where
  inEra : year < 400
  inYear : rest ≤ 365
  leap : rest = 365 → (year + 1) % 4 = 0 ∧ ((year + 1) % 100 ≠ 0 ∨ year = 399)

/-- Within a century only every fourth year has a leap day. -/
theorem yearOfEra_century {century rest : Nat} (hCentury : century < 4) (hRest : rest < 36524) :
    yearOfEra (36524 * century + rest)
      = 100 * century + (rest - (24 * century + rest) / 1460) / 365 := by
  have hFours : (36524 * century + rest) / 1460
      = 25 * century + (24 * century + rest) / 1460 := by omega
  have hCenturies : (36524 * century + rest) / 36524 = century := by omega
  have hEras : (36524 * century + rest) / 146096 = 0 := by omega
  have hFew : (24 * century + rest) / 1460 ≤ rest := by omega
  rw [yearOfEra, hFours, hCenturies, hEras]
  omega

theorem exists_day_of_century (century rest : Nat) (hCentury : century < 4)
    (hRest : rest < 36524) : ∃ day, IsDayOf (yearOfEra (36524 * century + rest)) day ∧
      36524 * century + rest = daysBefore (yearOfEra (36524 * century + rest)) + day := by
  rw [yearOfEra_century hCentury hRest]
  -- The quotient is the number of leap days in the century before this year, or one more.
  generalize hFours : (24 * century + rest) / 1460 = fours
  generalize hYear : (rest - fours) / 365 = year
  have hLess : year / 4 ≤ fours := by omega
  have hMore : fours ≤ year / 4 + 1 := by omega
  have hLast : year < 100 := by omega
  have hBefore : daysBefore (100 * century + year) = 36524 * century + 365 * year + year / 4 := by
    unfold daysBefore
    omega
  refine ⟨rest - 365 * year - year / 4, ⟨by omega, by omega, ?_⟩, by omega⟩
  intro hEnd
  have hWhole : rest = 365 * year + year / 4 + 365 := by omega
  -- Any other year would end a day earlier, and this day be the first of the next one.
  have hFourth : year % 4 = 3 := by
    refine Decidable.byContradiction fun hOther => ?_
    have hSame : fours = year / 4 := by omega
    omega
  clear hFours hYear hLess hMore hBefore hEnd
  have hEarly : year < 99 := by omega
  exact ⟨by omega, .inl (by omega)⟩

/-- **Every day of an era is a day of its year.** -/
theorem exists_day {day : Nat} (h : day < 146097) :
    ∃ rest, IsDayOf (yearOfEra day) rest ∧ day = daysBefore (yearOfEra day) + rest := by
  by_cases hLast : day = 146096
  · subst hLast
    exact ⟨365, ⟨by decide, by decide, by decide⟩, by decide⟩
  · have hCentury := exists_day_of_century (day / 36524) (day % 36524) (by omega) (by omega)
    rwa [Nat.div_add_mod] at hCentury

/-- The date of a day of a year of an era. -/
def ofParts (era : Int) (year rest : Nat) : Date :=
  let monthFromMarch := (5 * rest + 2) / 153
  let month := if monthFromMarch < 10 then monthFromMarch + 3 else monthFromMarch - 9
  { year := year + era * 400 + (if month ≤ 2 then 1 else 0)
    month := month
    day := rest - (153 * monthFromMarch + 2) / 5 + 1 }

/-- The parts of a date that is found for a day. -/
theorem ofDay_eq (day : Int) : ∃ (era : Int) (year rest : Nat), IsDayOf year rest ∧
    day + epochOffset = era * daysPerEra + daysBefore year + rest ∧
    ofDay day = ofParts era year rest := by
  have hDay : ((day + epochOffset) % daysPerEra).toNat < 146097 := by
    simp only [daysPerEra]
    omega
  obtain ⟨rest, hRest, hSplit⟩ := exists_day hDay
  refine ⟨(day + epochOffset) / daysPerEra, _, rest, hRest, ?_, ?_⟩
  · simp only [daysPerEra] at hSplit ⊢
    omega
  · have hFloor : (day + epochOffset).fdiv daysPerEra = (day + epochOffset) / daysPerEra :=
      Int.fdiv_eq_ediv_of_nonneg _ (by decide)
    have hEra : (day + epochOffset - (day + epochOffset).fdiv daysPerEra * daysPerEra).toNat
        = ((day + epochOffset) % daysPerEra).toNat := by
      rw [hFloor]
      simp only [daysPerEra]
      omega
    have hOfYear : ((day + epochOffset) % daysPerEra).toNat
        - daysBefore (yearOfEra ((day + epochOffset) % daysPerEra).toNat) = rest := by omega
    rw [ofDay, hEra, hFloor]
    simp only [yearOfEra, daysBefore] at hOfYear ⊢
    rw [hOfYear]
    rfl

/-- The months from March to December belong to the year that began in March, and January and
February to the next one. -/
theorem ofParts_cases (era : Int) {year rest : Nat} (h : IsDayOf year rest) :
    ∃ month, month = (5 * rest + 2) / 153 ∧ (153 * month + 2) / 5 ≤ rest ∧
      (month < 10 ∧ ofParts era year rest
          = ⟨year + era * 400, month + 3, rest - (153 * month + 2) / 5 + 1⟩ ∨
        10 ≤ month ∧ month < 12 ∧ ofParts era year rest
          = ⟨year + era * 400 + 1, month - 9, rest - (153 * month + 2) / 5 + 1⟩) := by
  have hRest := h.inYear
  refine ⟨_, rfl, by omega, ?_⟩
  by_cases hLate : (5 * rest + 2) / 153 < 10
  · refine .inl ⟨hLate, ?_⟩
    simp only [ofParts, hLate, if_true]
    rw [if_neg (by omega), Int.add_zero]
  · refine .inr ⟨by omega, by omega, ?_⟩
    simp only [ofParts, hLate, if_false]
    rw [if_pos (by omega)]

/-- The way back from a date to its day. -/
theorem toDay_ofParts (era : Int) {year rest : Nat} (h : IsDayOf year rest) :
    (ofParts era year rest).toDay = era * daysPerEra + daysBefore year + rest - epochOffset := by
  obtain ⟨month, -, hStart, hDate⟩ := ofParts_cases era h
  have hYear := h.inEra
  have hFloor : ∀ n : Int, n.fdiv 400 = n / 400 :=
    fun n => Int.fdiv_eq_ediv_of_nonneg n (by decide)
  have hEra : ((year : Int) + era * 400) / 400 = era := by omega
  have hOfEra : ((year : Int) + era * 400 - era * 400).toNat = year := by omega
  rcases hDate with ⟨hSpring, hDate⟩ | ⟨hWinter, hLast, hDate⟩
  · have hAfter : 2 < month + 3 := by omega
    rw [hDate]
    simp only [toDay, if_neg (Nat.not_le.mpr hAfter), if_pos hAfter, hFloor, hEra, hOfEra,
      Nat.add_sub_cancel, daysBefore]
    omega
  · have hBefore : month - 9 ≤ 2 := by omega
    have hBack : month - 9 + 9 = month := by omega
    rw [hDate]
    simp only [toDay, if_pos hBefore, if_neg (Nat.not_lt.mpr hBefore), Int.add_sub_cancel, hFloor,
      hEra, hBack, daysBefore]
    omega

/-- **Every day has a date**, and no other day has this date. -/
theorem toDay_ofDay (day : Int) : (ofDay day).toDay = day := by
  obtain ⟨era, year, rest, hDay, hSplit, hDate⟩ := ofDay_eq day
  rw [hDate, toDay_ofParts era hDay]
  omega

/-- A date that is found so is one of its month. -/
theorem day_le_daysInMonth (era : Int) {year rest : Nat} (h : IsDayOf year rest) :
    (ofParts era year rest).day
      ≤ daysInMonth (ofParts era year rest).year (ofParts era year rest).month := by
  obtain ⟨month, hMonth, hStart, hDate⟩ := ofParts_cases era h
  have hRest := h.inYear
  rcases hDate with ⟨hSpring, hDate⟩ | ⟨hWinter, hLast, hDate⟩
  · rw [hDate]
    simp only [daysInMonth, Bool.or_eq_true, decide_eq_true_eq]
    rw [if_neg (by omega)]
    split
    · omega
    · omega
  · rw [hDate]
    by_cases hJanuary : month = 10
    · subst hJanuary
      show rest - 306 + 1 ≤ 31
      omega
    · have hFebruary : month = 11 := by omega
      subst hFebruary
      show rest - 337 + 1 ≤ if isLeapYear (year + era * 400 + 1) then 29 else 28
      split
      · omega
      · next hCommon =>
        have hShort : rest ≠ 365 := by
          intro hLong
          obtain ⟨hFourth, hCentury⟩ := h.leap hLong
          apply hCommon
          simp only [isLeapYear, Bool.and_eq_true, Bool.or_eq_true, decide_eq_true_eq, bne_iff_ne]
          omega
        omega

/-- **The date of a supported day exists.** -/
theorem isValid_ofDay {day : Int} (hFirst : firstDay ≤ day) (hLast : day ≤ lastDay) :
    (ofDay day).isValid = true := by
  obtain ⟨era, year, rest, hDay, hSplit, hDate⟩ := ofDay_eq day
  have hMonthDays := day_le_daysInMonth era hDay
  rw [hDate]
  obtain ⟨month, hMonth, hStart, hParts⟩ := ofParts_cases era hDay
  have hSupported : -96465292 ≤ day ∧ day ≤ 95026236 := ⟨hFirst, hLast⟩
  have hYear := hDay.inEra
  have hRest := hDay.inYear
  simp only [epochOffset, daysPerEra, daysBefore] at hSplit
  rcases hParts with ⟨hSpring, hParts⟩ | ⟨hWinter, hEnd, hParts⟩
  · rw [hParts] at hMonthDays ⊢
    have hYears : firstYear ≤ year + era * 400 ∧ year + era * 400 ≤ lastYear := by
      show -262143 ≤ year + era * 400 ∧ year + era * 400 ≤ 262142
      omega
    have hMonths : 1 ≤ month + 3 ∧ month + 3 ≤ 12 := by omega
    simp [isValid, hYears, hMonths, hMonthDays]
  · rw [hParts] at hMonthDays ⊢
    -- The last year of the calendar is the 142nd of its era.
    have hEra : era ≤ 655 := by omega
    have hLate : 142 ≤ year → 51864 ≤ 365 * year + year / 4 - year / 100 := by omega
    have hYears : firstYear ≤ year + era * 400 + 1 ∧ year + era * 400 + 1 ≤ lastYear := by
      show -262143 ≤ year + era * 400 + 1 ∧ year + era * 400 + 1 ≤ 262142
      omega
    have hMonths : 1 ≤ month - 9 ∧ month - 9 ≤ 12 := by omega
    simp [isValid, hYears, hMonths, hMonthDays]

/-- Months and days of the month have at most two digits. -/
theorem month_day_lt_of_isValid {date : Date} (h : date.isValid = true) :
    date.month < 100 ∧ date.day < 100 := by
  simp only [isValid, Bool.and_eq_true, decide_eq_true_eq] at h
  have hDays : daysInMonth date.year date.month ≤ 31 := by
    unfold daysInMonth
    repeat' split
    all_goals decide
  omega

end Leasehold.Date
