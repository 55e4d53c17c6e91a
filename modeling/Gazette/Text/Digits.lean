/-!
# Digits

The value of a hexadecimal digit and the digit of a value, and numbers written in digits.
-/

namespace Gazette.Text

def hexValue? (c : Char) : Option Nat :=
  if '0' ≤ c ∧ c ≤ '9' then some (c.toNat - '0'.toNat)
  else if 'a' ≤ c ∧ c ≤ 'f' then some (c.toNat - 'a'.toNat + 10)
  else if 'A' ≤ c ∧ c ≤ 'F' then some (c.toNat - 'A'.toNat + 10)
  else none

def hexDigit (n : Nat) : Char := Nat.digitChar n

def upperHexDigit (n : Nat) : Char := (Nat.digitChar n).toUpper

def hexDigits (n : Nat) : List Char := Nat.toDigits 16 n

/-- A number in exactly `width` lowercase hexadecimal digits, higher ones cut off. -/
def hexPadded (width n : Nat) : List Char :=
  (List.range width).reverse.map fun place => hexDigit (n / Nat.pow 16 place % 16)

def natDigits (n : Nat) : List Char := Nat.toDigits 10 n

/-- A number in decimal digits, with a minus sign if it is negative. -/
def intDigits (n : Int) : List Char :=
  if n < 0 then '-' :: natDigits n.natAbs else natDigits n.natAbs

def decimal (n : Int) : String := String.ofList (intDigits n)

/-- A natural number in decimal digits, zeros in front up to `width`. -/
def padded (width n : Nat) : List Char :=
  let digits := natDigits n
  List.replicate (width - digits.length) '0' ++ digits

end Gazette.Text
