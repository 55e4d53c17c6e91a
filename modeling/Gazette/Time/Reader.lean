import Gazette.Text.Blank
import Gazette.Text.Part
import Gazette.Time.Instant

/-!
# Reading instants

Instants are written as a date, a letter `T` or a space, a time of day and an offset from universal
time. The reader is lenient about blanks between the parts and about leading zeros, and strict about
the order of the parts, the calendar and the clock.
-/

namespace Gazette.Time.Reader

open Gazette.Text

/-! ### Numbers -/

def digitsValue (digits : List Char) : Nat :=
  digits.foldl (fun value c => value * 10 + (c.toNat - '0'.toNat)) 0

def natural? (s : List Char) : Option (Nat × List Char) :=
  let digits := s.takeWhile Char.isDigit
  if digits.isEmpty then none else some (digitsValue digits, s.drop digits.length)

def short? (width : Nat) (s : List Char) : Option (Nat × List Char) :=
  let digits := (s.take width).takeWhile Char.isDigit
  if digits.isEmpty then none else some (digitsValue digits, s.drop digits.length)

/-- A year: four digits at most, or a sign and as many as there are. -/
def year? (s : List Char) : Option (Int × List Char) :=
  match trimStart s with
  | '-' :: rest => (natural? rest).map fun (n, rest) => (-(n : Int), rest)
  | '+' :: rest => (natural? rest).map fun (n, rest) => ((n : Int), rest)
  | s => (short? 4 s).map fun (n, rest) => ((n : Int), rest)

def part? (s : List Char) : Option (Nat × List Char) := short? 2 (trimStart s)

def mark? (c : Char) (s : List Char) : Option (List Char) := after? [c] (trimStart s)

/-! ### Date and time -/

def date? (s : List Char) : Option (Date × List Char) := do
  let (year, s) ← year? s
  let s ← mark? '-' s
  let (month, s) ← part? s
  let s ← mark? '-' s
  let (day, s) ← part? s
  let date : Date := ⟨year, month, day⟩
  guard (date.IsValid ∧ -262143 ≤ year ∧ year ≤ 262142)
  return (date, s)

def divider? : List Char → Option (List Char)
  | 'T' :: rest | 't' :: rest | ' ' :: rest => some rest
  | _ => none

/-- Nanoseconds from the digits behind a point; those beyond nine are cut off. -/
def fraction? : List Char → Option (Nat × List Char)
  | '.' :: s => do
    let digits := (s.take 9).takeWhile Char.isDigit
    guard (digits ≠ [])
    return (digitsValue digits * Nat.pow 10 (9 - digits.length), s.dropWhile Char.isDigit)
  | s => some (0, s)

/-- Seconds since midnight, nanoseconds, and what follows them. Second 60 is a leap second, at any
minute. -/
def time? (s : List Char) : Option (Nat × Nat × List Char) := do
  let (hour, s) ← part? s
  let s ← mark? ':' s
  let (minute, s) ← part? s
  let s ← mark? ':' s
  let (second, s) ← part? s
  let (nanos, s) ← fraction? s
  guard (hour ≤ 23 ∧ minute ≤ 59 ∧ second ≤ 60)
  return (hour * 3600 + minute * 60 + min second 59,
    nanos + second / 60 * Instant.nanosPerSecond, s)

/-! ### Offsets -/

def pair? : List Char → Option (Nat × List Char)
  | a :: b :: rest =>
    if a.isDigit && b.isDigit then some (digitsValue [a, b], rest) else none
  | _ => none

def sign? : List Char → Option (Int × List Char)
  | '+' :: rest => some (1, rest)
  | '-' :: rest | '−' :: rest => some (-1, rest)
  | _ => none

def numericOffset? (s : List Char) : Option (Int × List Char) := do
  let (sign, s) ← sign? s
  let (hours, s) ← pair? s
  let (minutes, s) ← pair? (s.dropWhile fun c => c == ':' || isBlank c)
  guard (minutes ≤ 59 ∧ hours < 24)
  return (sign * (hours * 3600 + minutes * 60), s)

/-- A letter `Z`, the letters `UTC` in either case, or a number. -/
def offset? (s : List Char) : Option (Int × List Char) :=
  match trimStart s with
  | 'Z' :: rest | 'z' :: rest => some (0, rest)
  | a :: b :: c :: rest =>
    if [a, b, c].map Char.toUpper = ['U', 'T', 'C'] then some (0, rest)
    else numericOffset? (a :: b :: c :: rest)
  | s => numericOffset? s

end Gazette.Time.Reader

namespace Gazette.Time

open Gazette.Text

def Instant.read? (s : List Char) : Option Instant := do
  let (date, s) ← Reader.date? s
  let s ← Reader.divider? s
  let (second, nanos, s) ← Reader.time? s
  let (offset, s) ← Reader.offset? s
  guard ((trimStart s).isEmpty)
  let seconds := date.toDays * secondsPerDay + second - offset
  guard (InRange seconds)
  return ⟨seconds, nanos⟩

end Gazette.Time
