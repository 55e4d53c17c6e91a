import Gazette.Json.Fault
import Gazette.Text.Utf8

/-!
# Reading JSON texts

A reader takes bytes off the front of a text, or stops with the first fault from left to right.
Values are read for their content, or passed over; a value that is passed over is checked for its
brackets, strings and numbers only, and may be nested to any depth.
-/

namespace Gazette.Json

abbrev Reader (α : Type) := StateT (List UInt8) (Except Fault) α

namespace Reader

/-! ### Faults and single bytes -/

def fault {α : Type} (reason : Reason) : Reader α := fun bytes => .error ⟨reason, bytes.length⟩

def faultAhead {α : Type} (reason : Reason) : Reader α :=
  fun bytes => .error ⟨reason, bytes.length - 1⟩

/-- The next byte, which is not taken. -/
def peek : Reader (Option UInt8) := fun bytes => .ok (bytes.head?, bytes)

def next : Reader (Option UInt8) := fun bytes => .ok (bytes.head?, bytes.tail)

def skip : Reader Unit := fun bytes => .ok ((), bytes.tail)

def isSpace (byte : UInt8) : Bool := byte == 0x20 || byte == 0x09 || byte == 0x0A || byte == 0x0D

/-- The next byte that is not space. -/
def peekDark : Reader (Option UInt8) := fun bytes =>
  let rest := bytes.dropWhile isSpace
  .ok (rest.head?, rest)

/-- Runs a reader for every bound, with more steps than there are bytes left. -/
def bounded {α : Type} (reader : Nat → Reader α) : Reader α :=
  fun bytes => reader (2 * bytes.length + 2) bytes

def digits : Reader (List Nat) := fun bytes =>
  let isDigit := fun (byte : UInt8) => 0x30 ≤ byte && byte ≤ 0x39
  .ok ((bytes.takeWhile isDigit).map fun byte => byte.toNat - 0x30, bytes.dropWhile isDigit)

def digitValue? (byte : UInt8) : Option Nat :=
  if 0x30 ≤ byte ∧ byte ≤ 0x39 then some (byte.toNat - 0x30) else none

def wordRest : List Char → Reader Unit
  | [] => pure ()
  | c :: rest => do
    match ← next with
    | none => fault (.eof .value)
    | some byte => if byte.toNat = c.toNat then wordRest rest else fault .expectedIdent

def word (rest : String) : Reader Unit := do
  skip
  wordRest rest.toList

/-! ### Numbers -/

/-- The largest value of 64 bits, above which digits are cut off. -/
def largest : Nat := Nat.pow 2 64 - 1

/-- Appends digits to a number as long as it has 64 bits, and counts those that are left. -/
def gather : (value : Nat) → List Nat → Nat × Nat
  | value, [] => (value, 0)
  | value, digit :: rest =>
    if value * 10 + digit ≤ largest then gather (value * 10 + digit) rest
    else (value, rest.length + 1)

def decimal (negative : Bool) (value : Nat) (exponent : Int) : Reader Json := do
  let decimal : Decimal := ⟨negative, value, exponent⟩
  if decimal.InRange then pure (.decimal decimal) else fault .numberOutOfRange

def largestExponent : Nat := Nat.pow 2 31 - 1

/-- Appends digits to an exponent; none if it grows too large. -/
def exponentValue? : List Nat → Option Nat :=
  List.foldl
    (fun value digit => do
      let next := (← value) * 10 + digit
      if next ≤ largestExponent then some next else none)
    (some 0)

/-- The digits of an exponent up to the one at which it grows too large. -/
def exponentHead : (value : Nat) → List UInt8 → List UInt8
  | _, [] => []
  | value, byte :: rest =>
    match digitValue? byte with
    | none => byte :: rest
    | some digit =>
      if value * 10 + digit ≤ largestExponent then exponentHead (value * 10 + digit) rest else rest

def exponent (negative : Bool) (value : Nat) (shift : Int) : Reader Json := do
  skip
  let sign ← peek
  if sign = some 0x2B ∨ sign = some 0x2D then skip
  let down := sign = some 0x2D
  let bytes ← get
  match bytes.head?.map digitValue? with
  | none => fault (.eof .value)
  | some none => do skip; fault .invalidNumber
  | some (some _) =>
    match exponentValue? (← digits) with
    | some power => decimal negative value (if down then shift - power else shift + power)
    | none =>
      if value ≠ 0 ∧ ¬down then do set (exponentHead 0 bytes); fault .numberOutOfRange
      else pure (.decimal ⟨negative, 0, 0⟩)

/-- The end of a number with a point: its exponent, if it has one. -/
def afterFraction (negative : Bool) (value : Nat) (shift : Int) : Reader Json := do
  match ← peek with
  | some 0x65 | some 0x45 => exponent negative value shift
  | _ => decimal negative value shift

def fraction (negative : Bool) (value : Nat) (shift : Int) : Reader Json := do
  skip
  let behind ← digits
  if behind.isEmpty then
    if (← peek).isNone then faultAhead (.eof .value) else faultAhead .invalidNumber
  let (all, cut) := gather value behind
  afterFraction negative all (shift - (behind.length - cut : Nat))

/-- An integer, or a decimal if it is a negative zero or has more than 64 bits. -/
def whole (negative : Bool) (value : Nat) : Json :=
  if negative then
    if 0 < value ∧ value ≤ Nat.pow 2 63 then .integer (-(value : Int)) else .decimal ⟨true, value, 0⟩
  else .integer value

def number (negative : Bool) : Reader Json := do
  match ← peek with
  | none => fault (.eof .value)
  | some first =>
    match digitValue? first with
    | none => do skip; fault .invalidNumber
    | some leading =>
      let bytes ← get
      let all ← digits
      if leading = 0 ∧ 1 < all.length then
        set (bytes.drop 1)
        faultAhead .invalidNumber
      let (value, cut) := gather 0 all
      match ← peek with
      | some 0x2E => fraction negative value cut
      | some 0x65 | some 0x45 => exponent negative value cut
      | _ => if cut = 0 then pure (whole negative value) else decimal negative value cut

/-! ### Strings -/

def hexEscape : Reader Nat := fun bytes =>
  match bytes with
  | a :: b :: c :: d :: rest =>
    match [a, b, c, d].mapM fun byte => Text.hexValue? (Char.ofNat byte.toNat) with
    | some values => .ok (values.foldl (fun value digit => value * 16 + digit) 0, rest)
    | none => .error ⟨.invalidEscape, rest.length⟩
  | _ => .error ⟨.eof .string, 0⟩

def simpleEscape? (byte : UInt8) : Option UInt8 :=
  match byte with
  | 0x22 => some 0x22
  | 0x5C => some 0x5C
  | 0x2F => some 0x2F
  | 0x62 => some 0x08
  | 0x66 => some 0x0C
  | 0x6E => some 0x0A
  | 0x72 => some 0x0D
  | 0x74 => some 0x09
  | _ => none

def pairByte (expected : UInt8) : Reader Unit := do
  match ← next with
  | none => fault (.eof .string)
  | some byte => if byte = expected then pure () else fault .endOfHexEscape

/-- The bytes of a character given by its number, behind `\u`. -/
def unicodeEscape : Reader (List UInt8) := do
  let high ← hexEscape
  if 0xDC00 ≤ high ∧ high ≤ 0xDFFF then fault .loneSurrogate
  else if high < 0xD800 ∨ 0xDBFF < high then pure (String.utf8EncodeChar (Char.ofNat high))
  else
    pairByte 0x5C
    pairByte 0x75
    let low ← hexEscape
    if 0xDC00 ≤ low ∧ low ≤ 0xDFFF then
      pure (String.utf8EncodeChar
        (Char.ofNat ((high - 0xD800) * 0x400 + (low - 0xDC00) + 0x10000)))
    else fault .loneSurrogate

/-- The bytes of a string up to its closing quote, behind those that are `done`, last first. -/
def stringBytes (done : List UInt8) : (bound : Nat) → Reader (List UInt8)
  | 0 => fault (.eof .string)
  | bound + 1 => do
    match ← next with
    | none => fault (.eof .string)
    | some 0x22 => pure done.reverse
    | some 0x5C =>
      match ← next with
      | none => fault (.eof .string)
      | some 0x75 => do
        let bytes ← unicodeEscape
        stringBytes (bytes.reverse ++ done) bound
      | some escape =>
        match simpleEscape? escape with
        | some byte => stringBytes (byte :: done) bound
        | none => fault .invalidEscape
    | some byte =>
      if byte < 0x20 then fault .controlCharacter else stringBytes (byte :: done) bound

def string : Reader String := do
  skip
  let bytes ← bounded (stringBytes [])
  match Text.Utf8.decode? bytes with
  | some text => pure (String.ofList text)
  | none => fault .invalidCodePoint

/-! ### Sequences of items -/

/-- Whether a list goes on with one more item; `first` tells whether it is to be the first. -/
def hasItem (first : Bool) : Reader Bool := do
  match ← peekDark with
  | none => faultAhead (.eof .list)
  | some 0x5D => pure false
  | some byte =>
    if first then pure true
    else if byte ≠ 0x2C then faultAhead .expectedCommaOrBracket
    else
      skip
      match ← peekDark with
      | none => faultAhead (.eof .value)
      | some 0x5D => faultAhead .trailingComma
      | some _ => pure true

/-- Whether an object goes on with one more key; `first` tells whether it is to be the first. -/
def hasKey (first : Bool) : Reader Bool := do
  match ← peekDark with
  | none => faultAhead (.eof .object)
  | some 0x7D => pure false
  | some byte =>
    if first then
      if byte = 0x22 then pure true else faultAhead .keyNotString
    else if byte ≠ 0x2C then faultAhead .expectedCommaOrBrace
    else
      skip
      match ← peekDark with
      | none => faultAhead (.eof .value)
      | some 0x22 => pure true
      | some 0x7D => faultAhead .trailingComma
      | some _ => faultAhead .keyNotString

def colon : Reader Unit := do
  match ← peekDark with
  | none => faultAhead (.eof .object)
  | some 0x3A => skip
  | some _ => faultAhead .expectedColon

def endOfList : Reader Unit := do
  match ← peekDark with
  | none => faultAhead (.eof .list)
  | some 0x5D => skip
  | some 0x2C =>
    skip
    if (← peekDark) = some 0x5D then faultAhead .trailingComma else faultAhead .trailingCharacters
  | some _ => faultAhead .trailingCharacters

def endOfObject : Reader Unit := do
  match ← peekDark with
  | none => faultAhead (.eof .object)
  | some 0x7D => skip
  | some 0x2C => faultAhead .trailingComma
  | some _ => faultAhead .trailingCharacters

/-- The items of a list, whose bracket has been taken, up to its end, behind those that are `done`,
last first. -/
def items {α : Type} (item : Reader α) : (first : Bool) → (done : List α) → (bound : Nat) →
    Reader (List α)
  | _, _, 0 => fault (.eof .list)
  | first, done, bound + 1 => do
    if ← hasItem first then items item false ((← item) :: done) bound else pure done.reverse

/-- What the entries of an object, whose brace has been taken, make of a start value. -/
def entries {α : Type} (entry : α → String → Reader α) :
    (first : Bool) → (value : α) → (bound : Nat) → Reader α
  | _, _, 0 => fault (.eof .object)
  | first, value, bound + 1 => do
    if ← hasKey first then
      let key ← string
      entries entry false (← entry value key) bound
    else pure value

/-- Goes behind a bracket, which comes next, unless nothing can be read there. -/
def nested {α β : Type} (deeper : Option α) (inside : α → Reader β) : Reader β :=
  match deeper with
  | none => faultAhead .recursionLimit
  | some deeper => do
    skip
    inside deeper

/-! ### Values -/

/-- A value; what stands in its brackets is read by `deeper`, if they may be nested deeper. -/
def valueOver (deeper : Option (Reader Json)) : Reader Json := do
  match ← peekDark with
  | none => faultAhead (.eof .value)
  | some 0x6E => do word "ull"; pure .null
  | some 0x74 => do word "rue"; pure (.bool true)
  | some 0x66 => do word "alse"; pure (.bool false)
  | some 0x22 => return .string (← string)
  | some 0x2D => do skip; number true
  | some 0x5B => nested deeper fun item => do
    let all ← bounded (items item true [])
    endOfList
    pure (.array all)
  | some 0x7B => nested deeper fun item => do
    let all ← bounded (entries (fun done key => do colon; return (key, ← item) :: done) true [])
    endOfObject
    pure (.object all.reverse)
  | some byte => if (digitValue? byte).isSome then number false else faultAhead .expectedValue

/-- A value nested in at most `levels` brackets. -/
def value : (levels : Nat) → Reader Json
  | 0 => valueOver none
  | levels + 1 => valueOver (some (value levels))

/-! ### Values that are passed over -/

def passString : (bound : Nat) → Reader Unit
  | 0 => fault (.eof .string)
  | bound + 1 => do
    match ← peek with
    | none => fault (.eof .string)
    | some 0x22 => skip
    | some 0x5C =>
      skip
      match ← next with
      | none => fault (.eof .string)
      | some 0x75 => do let _ ← hexEscape; passString bound
      | some escape =>
        if (simpleEscape? escape).isSome then passString bound else fault .invalidEscape
    | some byte => if byte < 0x20 then fault .controlCharacter else do skip; passString bound

def passExponent : Reader Unit := do
  skip
  let sign ← peek
  if sign = some 0x2B ∨ sign = some 0x2D then skip
  match (← next).map digitValue? with
  | some (some _) => do let _ ← digits
  | _ => fault .invalidNumber

def passNumber : Reader Unit := do
  match (← next).map digitValue? with
  | some (some leading) =>
    if leading = 0 then
      if ((← peek).bind digitValue?).isSome then faultAhead .invalidNumber
    else
      let _ ← digits
    match ← peek with
    | some 0x2E =>
      skip
      if (← digits).isEmpty then faultAhead .invalidNumber
      match ← peek with
      | some 0x65 | some 0x45 => passExponent
      | _ => pure ()
    | some 0x65 | some 0x45 => passExponent
    | _ => pure ()
  | _ => fault .invalidNumber

inductive Opened where
  | list
  | object
  deriving Repr, DecidableEq

def passKey : Reader Unit := do
  match ← peekDark with
  | none => faultAhead (.eof .object)
  | some 0x22 =>
    skip
    bounded passString
    colon
  | some _ => faultAhead .keyNotString

/-- The scalar value that comes next, passed over; the bracket that it opens if it is none. -/
def passScalar : Reader (Option Opened) := do
  match ← peekDark with
  | none => faultAhead (.eof .value)
  | some 0x6E => do word "ull"; pure none
  | some 0x74 => do word "rue"; pure none
  | some 0x66 => do word "alse"; pure none
  | some 0x2D => do skip; passNumber; pure none
  | some 0x22 => do skip; bounded passString; pure none
  | some 0x5B => do skip; pure (some .list)
  | some 0x7B => do skip; pure (some .object)
  | some byte =>
    if (digitValue? byte).isSome then
      passNumber
      pure none
    else faultAhead .expectedValue

/-- Closes brackets, the innermost first, until one goes on with another value; the brackets that
are left open, or none if all are closed. With `comma` a comma has to come before the value. -/
def passEnds : (comma : Bool) → List Opened → Reader (Option (List Opened))
  | _, [] => pure none
  | comma, .list :: outer => do
    match ← peekDark with
    | none => faultAhead (.eof .list)
    | some 0x5D => do skip; passEnds true outer
    | some byte =>
      if !comma then pure (some (.list :: outer))
      else if byte = 0x2C then do skip; pure (some (.list :: outer))
      else faultAhead .expectedCommaOrBracket
  | comma, .object :: outer => do
    match ← peekDark with
    | none => faultAhead (.eof .object)
    | some 0x7D => do skip; passEnds true outer
    | some byte =>
      if !comma then pure (some (.object :: outer))
      else if byte = 0x2C then do skip; pure (some (.object :: outer))
      else faultAhead .expectedCommaOrBrace

/-- Passes over a value inside some brackets, and over all that follows up to their ends. -/
def passIn : (bound : Nat) → List Opened → Reader Unit
  | 0, _ => fault (.eof .value)
  | bound + 1, outer => do
    let opened ← passScalar
    match ← passEnds opened.isNone (opened.toList ++ outer) with
    | none => pure ()
    | some inner =>
      if inner.head? = some .object then passKey
      passIn bound inner

def pass : Reader Unit := bounded (passIn · [])

/-! ### Whole texts -/

def levels : Nat := 127

def run {α : Type} (reader : Reader α) (bytes : List UInt8) : Except Fault α := do
  let (value, rest) ← reader bytes
  let rest := rest.dropWhile isSpace
  if rest.isEmpty then .ok value else .error ⟨.trailingCharacters, rest.length - 1⟩

end Reader

/-- The value that a text holds, nested in at most `levels` brackets. -/
def read? (levels : Nat) (text : String) : Option Json :=
  (Reader.run (Reader.value levels) (Text.Utf8.encode text.toList)).toOption

end Gazette.Json
