import Gazette.Json.Decimal
import Gazette.Text.Quoted

/-!
# Faults in JSON texts

Why a text cannot be read: it ends early, it is not JSON, or it is JSON of another shape than was
asked for. A fault knows how many bytes were left unread where it was found, and thus its line and
column.
-/

namespace Gazette.Json

open Gazette.Text (ticked)

inductive Category where
  | eof
  | syntactic
  | data
  deriving Repr, DecidableEq

inductive Unfinished where
  | list
  | object
  | string
  | value
  deriving Repr, DecidableEq

inductive Found where
  | null
  | bool (value : Bool)
  | integer (value : Int)
  | decimal (value : Decimal)
  | string (value : String)
  | array
  | object
  deriving Repr, DecidableEq

inductive Reason where
  | eof (inside : Unfinished)
  | expectedValue
  | expectedIdent
  | expectedColon
  | expectedCommaOrBracket
  | expectedCommaOrBrace
  | keyNotString
  | trailingComma
  | trailingCharacters
  | invalidNumber
  | numberOutOfRange
  | controlCharacter
  | invalidEscape
  | loneSurrogate
  | endOfHexEscape
  | invalidCodePoint
  | recursionLimit
  | wrongType (found : Found) (expected : String)
  | wrongLength (length : Nat) (expected : String)
  | missingField (name : String)
  | duplicateField (name : String)
  | unknownVariant (name : String) (expected : List String)
  | otherShape
  deriving Repr, DecidableEq

namespace Unfinished

def text : Unfinished → String
  | list => "a list"
  | object => "an object"
  | string => "a string"
  | value => "a value"

end Unfinished

namespace Found

def text : Found → String
  | null => "null"
  | bool value => "boolean " ++ ticked (if value then "true" else "false")
  | integer value => "integer " ++ ticked (Text.decimal value)
  | decimal value => "floating point " ++ ticked (String.ofList value.text)
  | string value => "string " ++ Text.quoted value
  | array => "sequence"
  | object => "map"

end Found

namespace Reason

def alternatives : List String → String
  | [] => "there are no variants"
  | [one] => "expected " ++ ticked one
  | [one, two] => "expected " ++ ticked one ++ " or " ++ ticked two
  | names => "expected one of " ++ String.intercalate ", " (names.map ticked)

def text : Reason → String
  | eof inside => "EOF while parsing " ++ inside.text
  | expectedValue => "expected value"
  | expectedIdent => "expected ident"
  | expectedColon => "expected " ++ ticked ":"
  | expectedCommaOrBracket => "expected " ++ ticked "," ++ " or " ++ ticked "]"
  | expectedCommaOrBrace => "expected " ++ ticked "," ++ " or " ++ ticked "\x7d"
  | keyNotString => "key must be a string"
  | trailingComma => "trailing comma"
  | trailingCharacters => "trailing characters"
  | invalidNumber => "invalid number"
  | numberOutOfRange => "number out of range"
  | controlCharacter => "control character (\\u0000-\\u001F) found while parsing a string"
  | invalidEscape => "invalid escape"
  | loneSurrogate => "lone leading surrogate in hex escape"
  | endOfHexEscape => "unexpected end of hex escape"
  | invalidCodePoint => "invalid unicode code point"
  | recursionLimit => "recursion limit exceeded"
  | wrongType found expected => "invalid type: " ++ found.text ++ ", expected " ++ expected
  | wrongLength length expected =>
    "invalid length " ++ Text.decimal length ++ ", expected " ++ expected
  | missingField name => "missing field " ++ ticked name
  | duplicateField name => "duplicate field " ++ ticked name
  | unknownVariant name expected =>
    "unknown variant " ++ ticked name ++ ", " ++ alternatives expected
  | otherShape => "data did not match any variant"

def category : Reason → Category
  | eof _ => .eof
  | wrongType .. | wrongLength .. | missingField _ | duplicateField _ | unknownVariant .. |
    otherShape => .data
  | _ => .syntactic

end Reason

structure Fault where
  reason : Reason
  left : Nat
  deriving Repr, DecidableEq

namespace Fault

/-- The line and column at the end of some bytes, both counted from one; a newline belongs to the
line that it begins, as column zero. -/
def place (bytes : List UInt8) : Nat × Nat :=
  (bytes.count 0x0A + 1, (bytes.reverse.takeWhile (· != 0x0A)).length)

def message (fault : Fault) (bytes : List UInt8) : String :=
  let (line, column) := place (bytes.take (bytes.length - fault.left))
  fault.reason.text ++ " at line " ++ Text.decimal line ++ " column " ++
    Text.decimal column

end Fault

end Gazette.Json
