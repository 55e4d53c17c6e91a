import Gazette.Text.Casing.Table

/-!
# Lowercase text

The full lowercase form of a text. Two characters do not map one to one: a dotted capital I becomes
an i and a combining dot, and a capital sigma is written `ς` where a word ends and `σ` elsewhere. A
word ends at a sigma that has a letter before it and none after it, ignorable marks skipped.
-/

namespace Gazette.Text

namespace Casing

def isCased (c : Char) : Bool := casedRanges.contains c.toNat

def isIgnorable (c : Char) : Bool := ignorableRanges.contains c.toNat

def Run.moves (run : Run) (code : Nat) : Bool :=
  run.first ≤ code && code ≤ run.last && (code - run.first) % run.step == 0

/-- The lowercase form of one character, whatever stands beside it. -/
def lowerChar (c : Char) : List Char :=
  if c.toNat < 0x80 then [c.toLower]
  else if c = 'İ' then ['i', '\u0307']
  else match lowerRuns.find? (·.moves c.toNat) with
    | some run => [Char.ofNat (Int.toNat (c.toNat + run.shift))]
    | none => [c]

/-- Whether the first character that is not ignorable is a letter with case. -/
def startsCased : List Char → Bool
  | [] => false
  | c :: rest => if isIgnorable c then startsCased rest else isCased c

def wordAfter (word : Bool) (c : Char) : Bool := if isIgnorable c then word else isCased c

end Casing

open Casing

/-- The lowercase form of a text that follows a letter (`word`) or does not. -/
def lowercaseFrom : (word : Bool) → List Char → List Char
  | _, [] => []
  | word, c :: rest =>
    (if c = 'Σ' then (if word && !startsCased rest then ['ς'] else ['σ']) else lowerChar c) ++
      lowercaseFrom (wordAfter word c) rest

def lowercase (s : List Char) : List Char := lowercaseFrom false s

theorem lowercaseFrom_cons_of_ne {c : Char} (h : c ≠ 'Σ') (word : Bool) (rest : List Char) :
    lowercaseFrom word (c :: rest) = lowerChar c ++ lowercaseFrom (wordAfter word c) rest := by
  simp [lowercaseFrom, h]

end Gazette.Text
