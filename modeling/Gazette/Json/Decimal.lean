import Gazette.Json.Basic
import Gazette.Text.Digits

/-!
# Decimals in binary

A decimal is held in binary with 53 bits: its digits are rounded, and then multiplied or divided by
a power of ten, which is rounded too. It is shown in the fewest digits that round back to the same
binary number. Numbers of middling size have one digit at least behind the point; the others have
one digit in front of it and an exponent with its sign.
-/

namespace Gazette

/-- The number `mantissa * 2 ^ exponent`; the mantissa has 53 bits, or fewer at the lowest exponent
and for zero. -/
structure Binary where
  mantissa : Nat
  exponent : Int
  deriving Repr, DecidableEq

namespace Binary

def lowest : Int := -1074

def highest : Int := 971

/-- A ratio to the nearest natural number; a half goes to the even neighbour. -/
def nearest (num den : Nat) : Nat :=
  let quotient := num / den
  let double := 2 * (num % den)
  if double < den ∨ (double = den ∧ quotient % 2 = 0) then quotient else quotient + 1

/-- A ratio as the numerator and denominator of its multiple by a power of two. -/
def scaled (num den : Nat) (exponent : Int) : Nat × Nat :=
  if 0 ≤ exponent then (num * Nat.pow 2 exponent.toNat, den)
  else (num, den * Nat.pow 2 exponent.natAbs)

/-- The binary number nearest to a ratio, unless it is too large. -/
def ofRatio? (num den : Nat) : Option Binary :=
  if num = 0 then some ⟨0, lowest⟩
  else
    let guess := (num.log2 : Int) - den.log2 - 53
    let fits := fun exponent => let (n, d) := scaled num den (-exponent); n < d * Nat.pow 2 53
    let exponent := max lowest (if fits guess then guess else guess + 1)
    let (n, d) := scaled num den (-exponent)
    let mantissa := nearest n d
    let number : Binary :=
      if mantissa = Nat.pow 2 53 then ⟨Nat.pow 2 52, exponent + 1⟩ else ⟨mantissa, exponent⟩
    if highest < number.exponent then none else some number

def toRatio (number : Binary) : Nat × Nat := scaled number.mantissa 1 number.exponent

def timesTen? (number : Binary) (power : Nat) : Option Binary := do
  let (n, d) := number.toRatio
  let (tenN, tenD) := (← ofRatio? (Nat.pow 10 power) 1).toRatio
  ofRatio? (n * tenN) (d * tenD)

def overTen? (number : Binary) (power : Nat) : Option Binary := do
  let (n, d) := number.toRatio
  let (tenN, tenD) := (← ofRatio? (Nat.pow 10 power) 1).toRatio
  ofRatio? (n * tenD) (d * tenN)

end Binary

namespace Decimal

def step : Nat := 308

/-- A number times a power of ten, in steps; none if it is too large. -/
def scale? (number : Binary) (exponent : Int) : Option Binary :=
  if 0 ≤ exponent then
    if exponent ≤ step then number.timesTen? exponent.toNat
    else if number.mantissa = 0 then some number else none
  else if exponent.natAbs ≤ step then number.overTen? exponent.natAbs
  else if number.mantissa = 0 then some number
  else do scale? (← number.overTen? step) (exponent + step)
termination_by exponent.natAbs
decreasing_by simp only [step] at *; omega

/-- The size of a decimal in binary, unless it is too large. -/
def toBinary? (decimal : Decimal) : Option Binary := do
  scale? (← Binary.ofRatio? decimal.digits 1) decimal.exponent

def InRange (decimal : Decimal) : Prop := decimal.toBinary?.isSome

instance (decimal : Decimal) : Decidable decimal.InRange := inferInstanceAs (Decidable (_ = true))

/-! ### Shortest digits -/

/-- The decimal `digits * 10 ^ place` as a binary number. -/
def gridPoint? (digits : Nat) (place : Int) : Option Binary :=
  if 0 ≤ place then Binary.ofRatio? (digits * Nat.pow 10 place.toNat) 1
  else Binary.ofRatio? digits (Nat.pow 10 place.natAbs)

/-- The neighbours of a ratio among the multiples of `10 ^ place`, the nearer one first. -/
def neighbours (num den : Nat) (place : Int) : List Nat :=
  let (n, d) :=
    if 0 ≤ place then (num, den * Nat.pow 10 place.toNat) else (num * Nat.pow 10 place.natAbs, den)
  let below := n / d
  let double := 2 * (n % d)
  if double < d ∨ (double = d ∧ below % 2 = 0) then [below, below + 1] else [below + 1, below]

/-- Goes through the places from `place` down, at most `left` of them, until a multiple of the
place's power of ten is the number. -/
def shortestFrom (number : Binary) : (left : Nat) → (place : Int) → Nat × Int
  | 0, place => (0, place)
  | left + 1, place =>
    let (num, den) := number.toRatio
    match (neighbours num den place).find? fun digits => gridPoint? digits place == some number with
    | some digits => (digits, place)
    | none => shortestFrom number left (place - 1)

/-- The fewest digits that give the number, and the place of the last one. -/
def shortest (number : Binary) : Nat × Int := shortestFrom number 700 308

/-- Digits with a point `places` digits from the right. -/
def pointed (digits : List Char) (places : Nat) : List Char :=
  let filled := List.replicate (places + 1 - digits.length) '0' ++ digits
  filled.take (filled.length - places) ++ '.' :: filled.drop (filled.length - places)

def positional (digits : Nat) (place : Int) : List Char :=
  if 0 ≤ place then Text.natDigits (digits * Nat.pow 10 place.toNat) ++ ['.', '0']
  else pointed (Text.natDigits digits) place.natAbs

def exponentText (power : Int) : List Char :=
  'e' :: (if power < 0 then '-' else '+') :: Text.natDigits power.natAbs

/-- Digits of which the first stands for some power of ten. A single digit has no point. -/
def scientific (digits : List Char) (power : Int) : List Char :=
  match digits with
  | first :: second :: rest => first :: '.' :: second :: rest ++ exponentText power
  | digits => digits ++ exponentText power

/-- Whether a number whose first digit stands for this power of ten is shown without an exponent:
down to the fifth digit behind the point, and up to sixteen digits in front of it. -/
def IsMiddling (power : Int) : Prop := -5 ≤ power ∧ power ≤ 15

instance (power : Int) : Decidable (IsMiddling power) := inferInstanceAs (Decidable (_ ∧ _))

/-- The number `digits * 10 ^ place` as messages show it. -/
def shown (digits : Nat) (place : Int) : List Char :=
  let all := Text.natDigits digits
  let power := place + all.length - 1
  if IsMiddling power then positional digits place else scientific all power

def text (decimal : Decimal) : List Char :=
  let size := match decimal.toBinary? with
    | some number =>
      if number.mantissa = 0 then "0.0".toList
      else let (digits, place) := shortest number; shown digits place
    | none => "inf".toList
  if decimal.negative then '-' :: size else size

end Decimal

end Gazette
