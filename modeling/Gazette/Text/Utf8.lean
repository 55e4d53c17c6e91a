/-!
# Bytes as text

Bytes are read as UTF-8 with one state: the character being read, how many bytes it still needs,
and between which bounds the next one must lie. Where the bytes fit no character, the reader
reports one fault for the longest part that could have begun one, and goes on behind it.
-/

namespace Gazette.Text.Utf8

def encode (s : List Char) : List UInt8 := s.flatMap String.utf8EncodeChar

/-- A character being read: the bytes still needed, the bounds of the next and the bits so far. -/
structure Partial where
  needed : Nat
  low : UInt8
  high : UInt8
  bits : Nat
  deriving Repr, DecidableEq

/-- What the bytes say in order: a character, or a fault. -/
abbrev Items := List (Option Char)

/-- The first byte of a character: either it is complete or reading goes on. -/
def start (byte : UInt8) : Items × Option Partial :=
  let n := byte.toNat
  if n < 0x80 then ([some (Char.ofNat n)], none)
  else if n < 0xC2 then ([none], none)
  else if n < 0xE0 then ([], some ⟨1, 0x80, 0xBF, n % 0x20⟩)
  else if n < 0xF0 then
    ([], some ⟨2, if n = 0xE0 then 0xA0 else 0x80, if n = 0xED then 0x9F else 0xBF, n % 0x10⟩)
  else if n < 0xF5 then
    ([], some ⟨3, if n = 0xF0 then 0x90 else 0x80, if n = 0xF4 then 0x8F else 0xBF, n % 0x08⟩)
  else ([none], none)

def step : Option Partial → UInt8 → Items × Option Partial
  | none, byte => start byte
  | some reading, byte =>
    if reading.low ≤ byte ∧ byte ≤ reading.high then
      let bits := reading.bits * 0x40 + byte.toNat % 0x40
      if reading.needed ≤ 1 then ([some (Char.ofNat bits)], none)
      else ([], some ⟨reading.needed - 1, 0x80, 0xBF, bits⟩)
    else
      let (items, next) := start byte
      (none :: items, next)

/-- The characters and faults of the bytes that follow a part of a character. -/
def itemsFrom : Option Partial → List UInt8 → Items
  | none, [] => []
  | some _, [] => [none]
  | reading, byte :: rest =>
    let (items, next) := step reading byte
    items ++ itemsFrom next rest

def items (bytes : List UInt8) : Items := itemsFrom none bytes

def decode? (bytes : List UInt8) : Option (List Char) := (items bytes).mapM id

/-- The text of some bytes, with a replacement character for each fault. -/
def decodeLossy (bytes : List UInt8) : List Char := (items bytes).map (·.getD '\uFFFD')

end Gazette.Text.Utf8
