import Gazette.Text.Digits
import Gazette.Time.Instant

/-!
# Patterns for dates and times

A pattern is a list of fields, each of which shows one part of an instant in English. The patterns
that the site uses stand at the end.
-/

namespace Gazette.Time

open Gazette.Text

/-! ### Names -/

def monthNames : List String :=
  ["January", "February", "March", "April", "May", "June", "July", "August", "September",
   "October", "November", "December"]

def monthName (month : Nat) : List Char := (monthNames.getD (month - 1) "").toList

def Weekday.short : Weekday → List Char
  | .monday => "Mon".toList
  | .tuesday => "Tue".toList
  | .wednesday => "Wed".toList
  | .thursday => "Thu".toList
  | .friday => "Fri".toList
  | .saturday => "Sat".toList
  | .sunday => "Sun".toList

/-! ### Fields -/

inductive Field where
  | literal (text : String)
  /-- The hour on a clock of twelve. -/
  | hour12
  /-- The hour in two digits. -/
  | hour24
  | minute
  | second
  /-- `AM` or `PM`. -/
  | half
  | weekday
  | monthName
  | monthShort
  | month
  /-- The month in two digits. -/
  | monthPadded
  | day
  /-- The day in two digits. -/
  | dayPadded
  | year
  /-- The last two digits of the year. -/
  | yearOfCentury
  deriving Repr, DecidableEq

/-- A year in four digits, with a sign when four do not suffice or it is negative. -/
def yearDigits (year : Int) : List Char :=
  if 0 ≤ year ∧ year ≤ 9999 then padded 4 year.toNat
  else (if year < 0 then '-' else '+') :: padded 4 year.natAbs

def Field.format (at' : Instant) : Field → List Char
  | .literal text => text.toList
  | .hour12 => natDigits ((at'.clock.hour + 11) % 12 + 1)
  | .hour24 => padded 2 at'.clock.hour
  | .minute => padded 2 at'.clock.minute
  | .second => padded 2 at'.clock.second
  | .half => if at'.clock.hour < 12 then "AM".toList else "PM".toList
  | .weekday => (Weekday.ofDays at'.days).short
  | .monthName => Time.monthName at'.date.month
  | .monthShort => (Time.monthName at'.date.month).take 3
  | .month => natDigits at'.date.month
  | .monthPadded => padded 2 at'.date.month
  | .day => natDigits at'.date.day
  | .dayPadded => padded 2 at'.date.day
  | .year => yearDigits at'.date.year
  | .yearOfCentury => padded 2 (at'.date.year % 100).toNat

/-! ### Patterns -/

abbrev Pattern := List Field

namespace Pattern

def format (pattern : Pattern) (at' : Instant) : List Char := pattern.flatMap (Field.format at')

/-- Hour and minute: `4:20 PM`. -/
def shortTime : Pattern := [.hour12, .literal ":", .minute, .literal " ", .half]

/-- Hour, minute and second: `4:20:30 PM`. -/
def mediumTime : Pattern :=
  [.hour12, .literal ":", .minute, .literal ":", .second, .literal " ", .half]

/-- A date in numbers: `4/20/21`. -/
def shortDate : Pattern := [.month, .literal "/", .day, .literal "/", .yearOfCentury]

/-- A date with the month's short name: `Apr 20, 2021`. -/
def mediumDate : Pattern := [.monthShort, .literal " ", .day, .literal ", ", .year]

/-- A date with the month's name: `April 20, 2021`. -/
def longDate : Pattern := [.monthName, .literal " ", .day, .literal ", ", .year]

/-- Date and time: `Apr 20, 2021, 4:20 PM`. -/
def mediumDateTime : Pattern := mediumDate ++ [.literal ", "] ++ shortTime

/-- Date and time in full: `April 20, 2021 at 4:20:30 PM`. -/
def longDateTime : Pattern := longDate ++ [.literal " at "] ++ mediumTime

/-- A date in numbers from the year down: `2021-04-20`. -/
def isoDate : Pattern := [.year, .literal "-", .monthPadded, .literal "-", .dayPadded]

/-- A clock of 24 hours: `16:20:30`. -/
def isoTime : Pattern := [.hour24, .literal ":", .minute, .literal ":", .second]

/-- Date and time in universal time: `2021-04-20T16:20:30Z`. -/
def isoDateTime : Pattern := isoDate ++ [.literal "T"] ++ isoTime ++ [.literal "Z"]

/-- Date and time as mail and feeds write it: `Tue, 20 Apr 2021 16:20:30 GMT`. -/
def mailDateTime : Pattern :=
  [.weekday, .literal ", ", .dayPadded, .literal " ", .monthShort, .literal " ", .year,
   .literal " "] ++ isoTime ++ [.literal " GMT"]

end Pattern

/-! ### Presentation codes -/

def Pattern.ofCode? (code : String) : Option Pattern :=
  match code with
  | "t" => some .shortTime
  | "T" => some .mediumTime
  | "d" => some .shortDate
  | "D" => some .mediumDate
  | "f" | "R" => some .mediumDateTime
  | "F" => some .longDateTime
  | _ => none

/-- The text of a second under a presentation code. Where the code or the second is unknown, both
are shown as they are. -/
def presentation (seconds : Int) (code : String) : List Char :=
  match Pattern.ofCode? code, Instant.ofSeconds? seconds with
  | some pattern, some at' => pattern.format at'
  | _, _ => intDigits seconds ++ " (".toList ++ code.toList ++ [')']

/-- The universal date and time of a second, if it can be represented. -/
def isoText? (seconds : Int) : Option (List Char) :=
  (Instant.ofSeconds? seconds).map Pattern.isoDateTime.format

end Gazette.Time
