/-!
# The calendar

Dates of the Gregorian calendar, carried on in both directions, and their numbering by days since
the first of January 1970. Years are counted in eras of 400, each of 146097 days, and begin in
March, so that the leap day ends a year.
-/

namespace Gazette.Time

/-- A day of the Gregorian calendar; the year before 1 is 0. -/
structure Date where
  year : Int
  month : Nat
  day : Nat
  deriving Repr, DecidableEq

inductive Weekday where
  | monday
  | tuesday
  | wednesday
  | thursday
  | friday
  | saturday
  | sunday
  deriving Repr, DecidableEq

def isLeapYear (year : Int) : Bool := year % 4 == 0 && (year % 100 != 0 || year % 400 == 0)

/-- How many days a month has; none if there is no such month. -/
def daysInMonth (year : Int) (month : Nat) : Nat :=
  match month with
  | 2 => if isLeapYear year then 29 else 28
  | 4 | 6 | 9 | 11 => 30
  | 1 | 3 | 5 | 7 | 8 | 10 | 12 => 31
  | _ => 0

namespace Date

def IsValid (date : Date) : Prop := 1 ≤ date.day ∧ date.day ≤ daysInMonth date.year date.month

instance (date : Date) : Decidable date.IsValid := inferInstanceAs (Decidable (_ ∧ _))

/-! ### Numbering -/

/-- Months since March. -/
def monthIndex (month : Nat) : Nat := (month + 9) % 12

/-- Days since March began a year in which this is month `index` of twelve. -/
def daysBefore (index : Nat) : Nat := (153 * index + 2) / 5

/-- Days since the first of January 1970. -/
def toDays (date : Date) : Int :=
  let year := if date.month ≤ 2 then date.year - 1 else date.year
  let era := year / 400
  let yearOfEra := year % 400
  let dayOfYear : Int := daysBefore (monthIndex date.month) + date.day - 1
  era * 146097 + (yearOfEra * 365 + yearOfEra / 4 - yearOfEra / 100 + dayOfYear) - 719468

/-- The date of a day since the first of January 1970. -/
def ofDays (days : Int) : Date :=
  let shifted := days + 719468
  let era := shifted / 146097
  let dayOfEra := (shifted % 146097).toNat
  let yearOfEra := (dayOfEra - dayOfEra / 1460 + dayOfEra / 36524 - dayOfEra / 146096) / 365
  let dayOfYear := dayOfEra - (365 * yearOfEra + yearOfEra / 4 - yearOfEra / 100)
  let index := (5 * dayOfYear + 2) / 153
  let month := (index + 2) % 12 + 1
  let year := yearOfEra + era * 400 + if month ≤ 2 then 1 else 0
  ⟨year, month, dayOfYear - daysBefore index + 1⟩

end Date

/-- The day of the week of a day since the first of January 1970, which was a Thursday. -/
def Weekday.ofDays (days : Int) : Weekday :=
  match ((days + 3) % 7).toNat with
  | 0 => .monday
  | 1 => .tuesday
  | 2 => .wednesday
  | 3 => .thursday
  | 4 => .friday
  | 5 => .saturday
  | _ => .sunday

def lastSunday (year : Int) (month : Nat) : Date :=
  let last : Date := ⟨year, month, daysInMonth year month⟩
  Date.ofDays (last.toDays - (last.toDays + 4) % 7)

/-- The day on which the Sunday number `n` (from 1) of a month falls. -/
def nthSunday (n : Nat) (year : Int) (month : Nat) : Date :=
  let first := (Date.mk year month 1).toDays
  Date.ofDays (first + (3 - first) % 7 + 7 * (n - 1))

end Gazette.Time
