import Gazette.Json.Basic
import Gazette.Text.Digits

/-!
# Writing JSON texts

A value in one line without spaces. Strings are written between quotes; only quotes, backslashes and
control characters are escaped.
-/

namespace Gazette.Json

open Gazette.Text

def writeChar (c : Char) : List Char :=
  match c with
  | '"' => ['\\', '"']
  | '\\' => ['\\', '\\']
  | '\n' => ['\\', 'n']
  | '\r' => ['\\', 'r']
  | '\t' => ['\\', 't']
  | '\x08' => ['\\', 'b']
  | '\x0c' => ['\\', 'f']
  | c => if c.toNat < 0x20 then '\\' :: 'u' :: hexPadded 4 c.toNat else [c]

def writeString (s : String) : List Char := '"' :: s.toList.flatMap writeChar ++ ['"']

def writeDecimal (decimal : Decimal) : List Char :=
  (if decimal.negative then ['-'] else []) ++ natDigits decimal.digits ++
    'e' :: intDigits decimal.exponent

mutual

def write : Json → List Char
  | null => "null".toList
  | bool value => if value then "true".toList else "false".toList
  | integer value => intDigits value
  | decimal value => writeDecimal value
  | string value => writeString value
  | array items => '[' :: writeItems items ++ [']']
  | object entries => '\x7b' :: writeEntries entries ++ ['\x7d']

def writeItems : List Json → List Char
  | [] => []
  | [item] => item.write
  | item :: rest => item.write ++ ',' :: writeItems rest

def writeEntries : List (String × Json) → List Char
  | [] => []
  | [(name, value)] => writeString name ++ ':' :: value.write
  | (name, value) :: rest => writeString name ++ ':' :: value.write ++ ',' :: writeEntries rest

end

def text (json : Json) : String := String.ofList json.write

end Gazette.Json
