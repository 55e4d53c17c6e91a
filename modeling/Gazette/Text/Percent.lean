import Gazette.Text.Digits
import Gazette.Text.Utf8

/-!
# Percent encoding and query strings

A byte is written as a percent sign and two hexadecimal digits, and read back from them; a percent
sign without two digits stands for itself. A query string is a list of fields between ampersands,
each cut at its first equals sign, with a plus sign for a space.
-/

namespace Gazette.Text

/-! ### Percent encoding -/

namespace Percent

def isUnreserved (c : Char) : Bool :=
  c.isAlphanum || c == '-' || c == '_' || c == '.' || c == '~'

def encodeByte (byte : UInt8) : List Char :=
  ['%', upperHexDigit (byte.toNat / 16), upperHexDigit (byte.toNat % 16)]

def encodeChar (c : Char) : List Char :=
  if isUnreserved c then [c] else (String.utf8EncodeChar c).flatMap encodeByte

def encode (s : List Char) : List Char := s.flatMap encodeChar

def pair? (high low : UInt8) : Option UInt8 := do
  let h ← hexValue? (Char.ofNat high.toNat)
  let l ← hexValue? (Char.ofNat low.toNat)
  return UInt8.ofNat (h * 16 + l)

def decodeBytes : List UInt8 → List UInt8
  | 0x25 :: high :: low :: rest =>
    match pair? high low with
    | some byte => byte :: decodeBytes rest
    | none => 0x25 :: decodeBytes (high :: low :: rest)
  | byte :: rest => byte :: decodeBytes rest
  | [] => []

def decode? (s : List Char) : Option (List Char) := Utf8.decode? (decodeBytes (Utf8.encode s))

end Percent

/-! ### Query strings -/

namespace Query

def decodeField (bytes : List UInt8) : List Char :=
  Utf8.decodeLossy (Percent.decodeBytes (bytes.map fun byte => if byte = 0x2B then 0x20 else byte))

def fieldBytes : List UInt8 → List (List UInt8)
  | [] => [[]]
  | byte :: rest =>
    if byte = 0x26 then [] :: fieldBytes rest
    else match fieldBytes rest with
      | [] => [[byte]]
      | field :: more => (byte :: field) :: more

def nameAndValue (field : List UInt8) : String × String :=
  let name := field.takeWhile (· != 0x3D)
  let value := (field.dropWhile (· != 0x3D)).drop 1
  (String.ofList (decodeField name), String.ofList (decodeField value))

def parse (query : List Char) : List (String × String) :=
  ((fieldBytes (Utf8.encode query)).filter (!·.isEmpty)).map nameAndValue

end Query

end Gazette.Text
