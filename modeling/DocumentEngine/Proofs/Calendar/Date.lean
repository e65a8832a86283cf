import DocumentEngine.Calendar.Date
import Mathlib.Tactic.IntervalCases

/-!
Dates and their day numbers. Every day number is that of one date of the calendar: the era, the
century, the cycle of four years, the year and the month in which a day lies are found one after
another.
-/

namespace DocumentEngine.Date

/-- The year of an era of four hundred years, counted from March, in which a day of the era lies. -/
def yearOfEra (day : Int) : Int := (day - day / 1460 + day / 36524 - day / 146096) / 365

/-- The days of that year that are gone. -/
def dayOfYear (day : Int) : Int :=
  day - (365 * yearOfEra day + yearOfEra day / 4 - yearOfEra day / 100)

/-- A day of an era lies behind whole centuries, cycles of four years, years and days. A leap day
ends a cycle, but the last cycle of a century only where that ends the era. -/
structure Place (day century cycle year rest : Int) : Prop where
  day_eq : day = 36524 * century + 1461 * cycle + 365 * year + rest
  century_mem : 0 ≤ century ∧ century ≤ 3
  cycle_mem : 0 ≤ cycle ∧ cycle ≤ 24
  year_mem : 0 ≤ year ∧ year ≤ 3
  rest_nonneg : 0 ≤ rest
  rest_le : rest ≤ 364 ∨ rest = 365 ∧ year = 3 ∧ (cycle = 24 → century = 3)

theorem exists_place {day : Int} (hlow : 0 ≤ day) (hhigh : day < 146097) :
    ∃ century cycle year rest : Int, Place day century cycle year rest := by
  have hcentury : ∃ c r : Int, 0 ≤ c ∧ c ≤ 3 ∧ 0 ≤ r ∧ day = 36524 * c + r ∧
      (r ≤ 36523 ∨ r = 36524 ∧ c = 3) := by
    by_cases hlast : day = 146096
    · exact ⟨3, 36524, by omega⟩
    · exact ⟨day / 36524, day % 36524, by omega⟩
  obtain ⟨c, r, hc, hc', hr, hday, hr'⟩ := hcentury
  by_cases hleap : r % 1461 = 1460
  · exact ⟨c, r / 1461, 3, 365, by omega, by omega, by omega, by omega, by omega, by omega⟩
  · exact ⟨c, r / 1461, r % 1461 / 365, r % 1461 % 365, by omega, by omega, by omega, by omega,
      by omega, by omega⟩

namespace Place

variable {day century cycle year rest : Int}

theorem yearOfEra_eq (h : Place day century cycle year rest) :
    yearOfEra day = 100 * century + 4 * cycle + year := by
  obtain ⟨hday, hcentury, hcycle, hyear, hrest, hrest'⟩ := h
  have hcenturies : day / 36524 - day / 146096 = century := by
    have hend : day ≤ 146096 := by omega
    by_cases hlast : day = 146096
    · omega
    · have hfirst : day / 146096 = 0 := by omega
      omega
  have hcycles : ∃ k : Int, day / 1460 = 25 * century + cycle + k ∧ 0 ≤ k ∧ k ≤ 1 ∧
      (k = 1 → 1 ≤ rest) ∧ (rest = 365 → k = 1) :=
    ⟨(24 * century + cycle + 365 * year + rest) / 1460, by omega⟩
  obtain ⟨k, hk, h0, h1, hlow, hhigh⟩ := hcycles
  unfold yearOfEra
  rw [Int.add_sub_assoc, hcenturies, hk]
  omega

theorem dayOfYear_eq (h : Place day century cycle year rest) : dayOfYear day = rest := by
  rw [dayOfYear, h.yearOfEra_eq]
  obtain ⟨hday, hcentury, hcycle, hyear, hrest, hrest'⟩ := h
  omega

end Place

/-- The years of an era and the days of a year; the last day of a year of 366 days ends February. -/
theorem yearOfEra_spec {day : Int} (hlow : 0 ≤ day) (hhigh : day < 146097) :
    (0 ≤ yearOfEra day ∧ yearOfEra day ≤ 399) ∧
      (0 ≤ dayOfYear day ∧ dayOfYear day ≤ 365) ∧
      ∀ era : Int, dayOfYear day = 365 → isLeapYear (yearOfEra day + era * 400 + 1) = true := by
  obtain ⟨century, cycle, year, rest, h⟩ := exists_place hlow hhigh
  rw [h.yearOfEra_eq, h.dayOfYear_eq]
  obtain ⟨-, hcentury, hcycle, hyear, hrest, hrest'⟩ := h
  refine ⟨by omega, by omega, fun era hleap => ?_⟩
  simp only [isLeapYear, Bool.and_eq_true, Bool.or_eq_true, beq_iff_eq, bne_iff_ne, ne_eq]
  omega

/-- The days of a year before a month, both counted from March. -/
def monthStart (month : Nat) : Int := (153 * month + 2) / 5

/-- The number of a month that is counted from March, zero for March. -/
def monthOf (month : Nat) : Nat := if month < 10 then month + 3 else month - 9

/-- All months but February are as long as the start of the next one says. -/
theorem daysInMonth_monthOf {month : Nat} (h : month ≤ 10) (year : Int) :
    (daysInMonth year (monthOf month) : Int) = monthStart (month + 1) - monthStart month := by
  interval_cases month <;> rfl

/-- The month, counted from March, in which a day of a year lies. -/
theorem monthStart_le {day : Int} {month : Nat} (h : (5 * day + 2) / 153 = month) :
    monthStart month ≤ day ∧ day < monthStart (month + 1) := by
  unfold monthStart
  push_cast
  omega

/-- A day of the calendar. -/
structure Valid (d : Date) : Prop where
  month_pos : 1 ≤ d.month
  month_le : d.month ≤ 12
  day_pos : 1 ≤ d.day
  day_le : d.day ≤ daysInMonth d.year d.month

/-- The date of a day of a year, both counted from March. -/
def ofYearDay (year day : Int) : Date :=
  let month := ((5 * day + 2) / 153).toNat
  ⟨if monthOf month ≤ 2 then year + 1 else year, monthOf month, (day - monthStart month + 1).toNat⟩

theorem ofDayNumber_eq (n : Int) : ofDayNumber n =
    ofYearDay (yearOfEra ((n + 719468) % 146097) + (n + 719468) / 146097 * 400)
      (dayOfYear ((n + 719468) % 146097)) := rfl

section

variable {year day : Int} (hlow : 0 ≤ day) (hhigh : day ≤ 365)

include hlow hhigh

theorem exists_month :
    ∃ month : Nat, month ≤ 11 ∧ ((5 * day + 2) / 153).toNat = month ∧
      monthStart month ≤ day ∧ day < monthStart (month + 1) := by
  refine ⟨((5 * day + 2) / 153).toNat, by omega, rfl, monthStart_le ?_⟩
  rw [Int.toNat_of_nonneg (by omega)]

theorem valid_ofYearDay (hleap : day = 365 → isLeapYear (year + 1) = true) :
    (ofYearDay year day).Valid := by
  obtain ⟨month, hlast, hmonth, hstart, hend⟩ := exists_month hlow hhigh
  unfold ofYearDay
  dsimp only
  rw [hmonth]
  refine ⟨?_, ?_, by dsimp only; omega, ?_⟩
  · dsimp only [monthOf]
    split <;> omega
  · dsimp only [monthOf]
    split <;> omega
  by_cases hfebruary : month = 11
  · subst hfebruary
    change (day - 337 + 1).toNat ≤ if isLeapYear (year + 1) then 29 else 28
    split
    · omega
    · rename_i hnot
      have hshort : day ≠ 365 := fun h => hnot (hleap h)
      omega
  · have hlength := daysInMonth_monthOf (show month ≤ 10 by omega)
      (if monthOf month ≤ 2 then year + 1 else year)
    dsimp only
    omega

/-- The day number of a day of a year. -/
theorem dayNumber_ofYearDay : (ofYearDay year day).dayNumber =
    year / 400 * 146097 + (year % 400 * 365 + year % 400 / 4 - year % 400 / 100 + day) - 719468 := by
  obtain ⟨month, hlast, hmonth, hstart, hend⟩ := exists_month hlow hhigh
  have hback : (monthOf month + 9) % 12 = month := by
    unfold monthOf
    split <;> omega
  have hyear : (if monthOf month ≤ 2 then (if monthOf month ≤ 2 then year + 1 else year) - 1
      else if monthOf month ≤ 2 then year + 1 else year) = year := by
    split <;> omega
  unfold ofYearDay dayNumber
  dsimp only
  rw [hmonth, hback, hyear]
  change _ + (_ + (monthStart month + ((day - monthStart month + 1).toNat : Int) - 1)) - _ = _
  omega

end

/-- A date is found by its day number. -/
theorem dayNumber_ofDayNumber (n : Int) : (ofDayNumber n).dayNumber = n := by
  obtain ⟨⟨hyear, hyear'⟩, ⟨hday, hday'⟩, -⟩ :=
    yearOfEra_spec (Int.emod_nonneg (n + 719468) (by decide : (146097 : Int) ≠ 0))
      (Int.emod_lt_of_pos (n + 719468) (by decide))
  rw [ofDayNumber_eq, dayNumber_ofYearDay hday hday']
  have hlength : dayOfYear ((n + 719468) % 146097) = (n + 719468) % 146097 -
    (365 * yearOfEra ((n + 719468) % 146097) + yearOfEra ((n + 719468) % 146097) / 4 -
      yearOfEra ((n + 719468) % 146097) / 100) := rfl
  rw [hlength]
  generalize yearOfEra ((n + 719468) % 146097) = year at *
  have hera : (year + (n + 719468) / 146097 * 400) / 400 = (n + 719468) / 146097 := by omega
  have hrest : (year + (n + 719468) / 146097 * 400) % 400 = year := by omega
  rw [hera, hrest]
  omega

/-- Every day number is that of a day of the calendar. -/
theorem valid_ofDayNumber (n : Int) : (ofDayNumber n).Valid := by
  obtain ⟨-, ⟨hday, hday'⟩, hleap⟩ :=
    yearOfEra_spec (Int.emod_nonneg (n + 719468) (by decide : (146097 : Int) ≠ 0))
      (Int.emod_lt_of_pos (n + 719468) (by decide))
  rw [ofDayNumber_eq]
  exact valid_ofYearDay hday hday' (hleap _)

end DocumentEngine.Date
