import Gazette.Text.Digits
import Gazette.Text.Quoted.Table

/-!
# Quoted text

Text as messages show it: between double quotes, with a backslash before a quote or a backslash,
short escapes for the usual controls, and `\u` with the number in braces for every character that
has no shape of its own.
-/

namespace Gazette.Text

namespace Quoted

def isHidden (c : Char) : Bool := hiddenRanges.contains c.toNat

def byNumber (c : Char) : List Char := "\\u\x7b".toList ++ hexDigits c.toNat ++ ['\x7d']

def encodeChar (c : Char) : List Char :=
  match c with
  | '\x00' => ['\\', '0']
  | '\t' => ['\\', 't']
  | '\r' => ['\\', 'r']
  | '\n' => ['\\', 'n']
  | '\\' => ['\\', '\\']
  | '"' => ['\\', '"']
  | c => if isHidden c then byNumber c else [c]

end Quoted

def quote (s : List Char) : List Char := '"' :: s.flatMap Quoted.encodeChar ++ ['"']

def quoted (s : String) : String := String.ofList (quote s.toList)

def ticked (s : String) : String := "\x60" ++ s ++ "\x60"

end Gazette.Text
