import Gazette.Text.Blank

/-!
# Numbers in decimal digits

Reading a number within bounds. Digits are taken from left to right, and the first character that
is no digit, or the first digit that takes the value out of bounds, decides which fault is named.
-/

namespace Gazette.Text

inductive NumberFault where
  | noDigits
  | notADigit
  | tooLarge
  deriving Repr, DecidableEq

namespace NumberFault

def message : NumberFault → String
  | .noDigits => "cannot parse integer from empty string"
  | .notADigit => "invalid digit found in string"
  | .tooLarge => "number too large to fit in target type"

end NumberFault

/-- Goes on reading digits behind `value`, at most up to `bound`. -/
def readDigits (bound : Nat) : (value : Nat) → List Char → Except NumberFault Nat
  | value, [] => .ok value
  | value, c :: rest =>
    if c.isDigit then
      let next := value * 10 + (c.toNat - '0'.toNat)
      if next ≤ bound then readDigits bound next rest else .error .tooLarge
    else .error .notADigit

/-- One digit or more, at most `bound`. -/
def readNonempty (bound : Nat) (s : List Char) : Except NumberFault Nat :=
  if s.isEmpty then .error .notADigit else readDigits bound 0 s

/-- A natural number of at most `bound`, with an optional plus sign. -/
def readNat (bound : Nat) : List Char → Except NumberFault Nat
  | [] => .error .noDigits
  | '+' :: rest => readNonempty bound rest
  | s => readDigits bound 0 s

/-- A number between `-2 ^ bits` and `2 ^ bits - 1`, with an optional sign. -/
def readInt? (bits : Nat) : List Char → Option Int
  | [] => none
  | '+' :: rest => (readNonempty (Nat.pow 2 bits - 1) rest).toOption.map Int.ofNat
  | '-' :: rest => (readNonempty (Nat.pow 2 bits) rest).toOption.map fun n => -(n : Int)
  | s => (readDigits (Nat.pow 2 bits - 1) 0 s).toOption.map Int.ofNat

def readInt64? (s : List Char) : Option Int := readInt? 63 s

def readNat64 (s : List Char) : Except NumberFault Nat := readNat (Nat.pow 2 64 - 1) s

end Gazette.Text
