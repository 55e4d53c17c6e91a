import Gazette.Body.Lines

/-!
# Headings

A line that begins with one or two hash signs and a blank is a heading, and a line that begins with
a dash and a blank is the line above a heading, if the next line is one. Separators and blanks
before the sign do not count, and neither do those at the end of the line. A line that holds a line
break inside of an element is never promoted.
-/

namespace Gazette.Body

open Gazette.Text

/-- Whether the character neither shows nor stands for itself at the ends of a line. -/
def isFiller (c : Char) : Bool := c == Markup.separatorChar || isBlank c

inductive Level where
  | first
  | second
  deriving Repr, DecidableEq

namespace Level

def tag : Level → String
  | first => "h1"
  | second => "h2"

end Level

inductive Line where
  | heading (level : Level) (body : List Char)
  /-- The line above a heading. -/
  | sub (body : List Char)
  | plain (text : List Char)
  deriving Repr, DecidableEq

def behindSign? (sign line : List Char) : Option (List Char) :=
  match after? sign line with
  | some (c :: rest) =>
    let body := dropTail isFiller rest
    if isBlank c ∧ ¬(body.dropWhile isFiller).isEmpty ∧ ¬isPart Markup.lineBreakText body then
      some body
    else none
  | _ => none

def heading? (line : List Char) : Option (Level × List Char) :=
  let line := line.dropWhile isFiller
  match behindSign? ['#', '#'] line with
  | some body => some (.second, body)
  | none => (behindSign? ['#'] line).map fun body => (.first, body)

def classify (line : List Char) (next? : Option (List Char)) : Line :=
  match heading? line with
  | some (level, body) => .heading level body
  | none =>
    match behindSign? ['-'] (line.dropWhile isFiller) with
    | some body => if (next?.bind heading?).isSome then .sub body else .plain line
    | none => .plain line

def classifyAll : List (List Char) → List Line
  | [] => []
  | line :: rest => classify line rest.head? :: classifyAll rest

namespace Line

def print : Line → List Char
  | heading level body =>
    Markup.openingTag level.tag [] ++ body ++ Markup.closingTag level.tag
  | sub body =>
    Markup.openingTag "span" [.value "class" "sub"] ++ body ++ Markup.closingTag "span"
  | plain text => text

def isPlain : Line → Bool
  | plain _ => true
  | heading .. | sub _ => false

/-- Lines in a row, with line breaks behind those that were not promoted. -/
def printAll : List Line → List Char
  | [] => []
  | [line] => line.print
  | line :: rest =>
    line.print ++ (if line.isPlain then Markup.lineBreakText else []) ++ printAll rest

end Line

def stripSeparators (s : List Char) : List Char := s.filter (· != Markup.separatorChar)

/-- A printed message with its headings, and without separators. -/
def promote (s : List Char) : List Char := stripSeparators (Line.printAll (classifyAll (lines s)))

/-! ### Titles -/

def titleOf? (line : List Char) : Option (List Char) :=
  match after? ['#', ' '] (trimStart line) with
  | some rest => if (trim rest).isEmpty then none else some (trim rest)
  | none => none

def title? (s : List Char) : Option (List Char) := (s.splitOn '\n').findSome? titleOf?

end Gazette.Body
