import Gazette.Time.Calendar

/-!
# Days are numbered without gaps

Every day has a date, which is a day of the calendar (`isValid_ofDays`), and it is the only day of
that date: counting the days up to it comes back to the day (`toDays_ofDays`). An era of 400 years has
four centuries of 36524 days and one day more, at its end. In a century the years begin 365 days
apart, and one day more where a leap day is between them; in a year the months begin where
`daysBefore` says.
-/

namespace Gazette.Time.Date

/-! ### Years of an era -/

/-- The year in which a day of an era is. -/
def yearOf (day : Nat) : Nat := (day - day / 1460 + day / 36524 - day / 146096) / 365

/-- Days of an era before one of its years. -/
def yearStart (year : Nat) : Nat := 365 * year + year / 4 - year / 100

/-- Whether a day of a year is one that the year has: the last one only if the year ends in a leap
day, which it does if the next one is a leap year. -/
structure IsDayOf (year day : Nat) : Prop where
  year_lt : year < 400
  day_le : day ≤ 365
  isLeap : day = 365 → (year + 1) % 4 = 0 ∧ ((year + 1) % 100 = 0 → (year + 1) % 400 = 0)

theorem yearOf_century {century day : Nat} (hcentury : century < 4) (hday : day < 36524) :
    yearOf (36524 * century + day) = 100 * century + (day - (24 * century + day) / 1460) / 365 := by
  unfold yearOf
  omega

/-- A leap day comes up once in 1461 days, and 24 times in a century. -/
theorem bounds_of_century {century day year : Nat} (hcentury : century < 4) (hday : day < 36524)
    (hyear : year = (day - (24 * century + day) / 1460) / 365) :
    year < 100 ∧ 365 * year + year / 4 ≤ day ∧ day ≤ 365 * year + year / 4 + 365 ∧
      (day = 365 * year + year / 4 + 365 → year % 4 = 3 ∧ year ≠ 99) := by
  omega

/-- Years begin in a row, with the centuries 36524 days apart. -/
theorem yearStart_century {year : Nat} (h : year < 100) (century : Nat) :
    yearStart (100 * century + year) = 36524 * century + (365 * year + year / 4) := by
  have hfours : (100 * century + year) / 4 = 25 * century + year / 4 := by omega
  have hhundreds : (100 * century + year) / 100 = century := by omega
  unfold yearStart
  omega

theorem isDayOf_yearOf {day : Nat} (h : day < 146097) :
    yearStart (yearOf day) ≤ day ∧ IsDayOf (yearOf day) (day - yearStart (yearOf day)) := by
  by_cases hlast : day = 146096
  · subst hlast
    exact ⟨by decide, by decide, by decide, by decide⟩
  · have hcentury : day / 36524 < 4 := by omega
    have hrest : day % 36524 < 36524 := Nat.mod_lt day (by decide)
    have hyear := yearOf_century hcentury hrest
    obtain ⟨hlt, hle, hbound, hleap⟩ := bounds_of_century hcentury hrest rfl
    generalize (day % 36524 - (24 * (day / 36524) + day % 36524) / 1460) / 365 = year at *
    rw [Nat.div_add_mod] at hyear
    rw [hyear, yearStart_century hlt]
    exact ⟨by omega, by omega, by omega, by omega⟩

/-! ### Months of a year -/

/-- The month, counted from March, in which a day of a year is. -/
def monthOf (day : Nat) : Nat := (5 * day + 2) / 153

theorem monthOf_lt {day : Nat} (h : day ≤ 365) : monthOf day < 12 := by
  unfold monthOf
  omega

theorem daysBefore_monthOf_le (day : Nat) : daysBefore (monthOf day) ≤ day := by
  unfold daysBefore monthOf
  omega

theorem monthIndex_eq {index : Nat} (h : index < 12) : monthIndex ((index + 2) % 12 + 1) = index := by
  unfold monthIndex
  omega

/-! ### Days -/

/-- The date of a day of a year in an era. -/
def dateOf (era : Int) (year day : Nat) : Date :=
  let month := (monthOf day + 2) % 12 + 1
  ⟨year + era * 400 + if month ≤ 2 then 1 else 0, month, day - daysBefore (monthOf day) + 1⟩

theorem ofDays_eq_dateOf (days : Int) :
    ofDays days =
      dateOf ((days + 719468) / 146097) (yearOf ((days + 719468) % 146097).toNat)
        (((days + 719468) % 146097).toNat - yearStart (yearOf ((days + 719468) % 146097).toNat)) :=
  rfl

variable {year day : Nat}

theorem toDays_dateOf (h : IsDayOf year day) (era : Int) :
    (dateOf era year day).toDays = era * 146097 + (yearStart year + day : Nat) - 719468 := by
  have hmonth := monthIndex_eq (monthOf_lt h.day_le)
  have hbefore := daysBefore_monthOf_le day
  have hyear := h.year_lt
  -- January and February are counted to the year before, which is the one the day is in.
  have hstarted : (if (dateOf era year day).month ≤ 2 then (dateOf era year day).year - 1
      else (dateOf era year day).year) = year + era * 400 := by
    unfold dateOf
    dsimp only
    split <;> omega
  unfold toDays
  rw [hstarted]
  unfold dateOf yearStart
  dsimp only
  rw [hmonth]
  omega

/-- Counting the days up to the date of a day comes to the day. -/
theorem toDays_ofDays (days : Int) : (ofDays days).toDays = days := by
  have hlt : ((days + 719468) % 146097).toNat < 146097 := by omega
  obtain ⟨hle, hday⟩ := isDayOf_yearOf hlt
  rw [ofDays_eq_dateOf, toDays_dateOf hday, Nat.add_sub_cancel' hle]
  omega

/-- A month that does not end the year lasts until the next one begins. -/
theorem daysInMonth_eq (year : Int) : {index : Nat} → index < 11 →
    daysInMonth year ((index + 2) % 12 + 1) = daysBefore (index + 1) - daysBefore index
  | 0, _ | 1, _ | 2, _ | 3, _ | 4, _ | 5, _ | 6, _ | 7, _ | 8, _ | 9, _ | 10, _ => rfl

theorem isLeapYear_of_isDayOf (h : IsDayOf year 365) (era : Int) :
    isLeapYear (year + era * 400 + 1) = true := by
  obtain ⟨hfour, hhundred⟩ := h.isLeap rfl
  simp only [isLeapYear, Bool.and_eq_true, Bool.or_eq_true, beq_iff_eq, bne_iff_ne]
  omega

theorem isValid_dateOf (h : IsDayOf year day) (era : Int) : (dateOf era year day).IsValid := by
  have hindex := monthOf_lt h.day_le
  have hday := h.day_le
  refine ⟨Nat.le_add_left 1 _, ?_⟩
  unfold dateOf
  dsimp only
  by_cases hlast : monthOf day = 11
  · rw [hlast]
    change day - 337 + 1 ≤ if isLeapYear (year + era * 400 + 1) then 29 else 28
    split
    · omega
    · next hleap =>
      have hend : day ≠ 365 := by
        rintro rfl
        exact hleap (isLeapYear_of_isDayOf h era)
      omega
  · rw [daysInMonth_eq _ (by omega)]
    unfold daysBefore
    unfold monthOf at hindex hlast ⊢
    omega

/-- Every day has a date that is one of the calendar. -/
theorem isValid_ofDays (days : Int) : (ofDays days).IsValid := by
  have hlt : ((days + 719468) % 146097).toNat < 146097 := by omega
  rw [ofDays_eq_dateOf]
  exact isValid_dateOf (isDayOf_yearOf hlt).2 _

/-- A valid date has one of twelve months, and none of them has more than 31 days. -/
theorem IsValid.bounds {date : Date} (h : date.IsValid) :
    1 ≤ date.month ∧ date.month ≤ 12 ∧ 1 ≤ date.day ∧ date.day ≤ 31 := by
  obtain ⟨hpos, hle⟩ := h
  unfold daysInMonth at hle
  split at hle
  · next hmonth =>
    rw [hmonth]
    split at hle <;> omega
  all_goals omega

/-! ### Bounds of years -/

/-- Days before a year that begins in March, counted from such a year. -/
def daysBeforeYear (year : Int) : Int := 365 * year + year / 4 - year / 100 + year / 400

theorem toDays_eq (date : Date) :
    date.toDays = daysBeforeYear (if date.month ≤ 2 then date.year - 1 else date.year) +
      (daysBefore (monthIndex date.month) + date.day - 1) - 719468 := by
  unfold toDays
  dsimp only
  generalize (if date.month ≤ 2 then date.year - 1 else date.year) = year
  unfold daysBeforeYear
  omega

theorem daysBeforeYear_mono {a b : Int} (h : a ≤ b) : daysBeforeYear a ≤ daysBeforeYear b := by
  obtain rfl | hlt := Int.le_iff_eq_or_lt.mp h
  · exact Int.le_refl _
  · unfold daysBeforeYear
    omega

/-- January and February come last in a year that begins in March. -/
theorem daysBefore_monthIndex_bounds {date : Date} (h : date.IsValid) :
    1 ≤ daysBefore (monthIndex date.month) + date.day ∧
      daysBefore (monthIndex date.month) + date.day ≤ 368 ∧
      (date.month ≤ 2 ↔ 306 < daysBefore (monthIndex date.month) + date.day) := by
  obtain ⟨hmonth, hmonths, hday, hdays⟩ := h.bounds
  unfold daysBefore monthIndex
  omega

theorem year_le_of_toDays_le {date : Date} (h : date.IsValid)
    (hupper : date.toDays ≤ (Date.mk 262142 12 31).toDays) : date.year ≤ 262142 := by
  obtain ⟨hpos, -, hmonth⟩ := daysBefore_monthIndex_bounds h
  have hlast : (Date.mk 262142 12 31).toDays = daysBeforeYear 262142 + 305 - 719468 := by decide
  rw [hlast, toDays_eq] at hupper
  refine Int.not_lt.mp fun hlt => ?_
  split at hupper
  · next hearly =>
    have hlate := hmonth.mp hearly
    have hyear := daysBeforeYear_mono (by omega : 262142 ≤ date.year - 1)
    omega
  · have hyear := daysBeforeYear_mono (by omega : 262143 ≤ date.year)
    have hnext : daysBeforeYear 262143 = daysBeforeYear 262142 + 365 := by decide
    omega

theorem le_year_of_le_toDays {date : Date} (h : date.IsValid)
    (hlower : (Date.mk (-262143) 1 1).toDays ≤ date.toDays) : -262143 ≤ date.year := by
  obtain ⟨-, hbound, hmonth⟩ := daysBefore_monthIndex_bounds h
  have hfirst : (Date.mk (-262143) 1 1).toDays = daysBeforeYear (-262144) + 306 - 719468 := by decide
  rw [hfirst, toDays_eq] at hlower
  refine Int.not_lt.mp fun hlt => ?_
  split at hlower
  · have hyear := daysBeforeYear_mono (by omega : date.year - 1 ≤ -262145)
    have hnext : daysBeforeYear (-262144) = daysBeforeYear (-262145) + 366 := by decide
    omega
  · next hlate =>
    have hearly := mt hmonth.mpr hlate
    have hyear := daysBeforeYear_mono (by omega : date.year ≤ -262144)
    omega

end Gazette.Time.Date
