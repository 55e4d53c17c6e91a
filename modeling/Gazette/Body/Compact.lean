import Gazette.Text.Blank
import Gazette.Text.Part

/-!
# Compact markup

Runs of blanks become one space, except between `<pre` and the `</pre>` that closes it; at both ends
they are cut off.
-/

namespace Gazette.Body

open Gazette.Text

/-- How many preformatted elements are open behind a character, when some were before it. -/
def preDepth (depth : Nat) (s : List Char) : Nat :=
  if (after? "<pre".toList s).isSome then depth + 1
  else if (after? "</pre>".toList s).isSome then depth - 1
  else depth

/-- What follows, with runs of blanks as one space; `inRun` tells that a space has been written for
the run that goes on here. -/
def compactFrom (depth : Nat) (inRun : Bool) : List Char → List Char
  | [] => []
  | c :: rest =>
    let depth := preDepth depth (c :: rest)
    if depth = 0 ∧ isBlank c then
      if inRun then compactFrom depth true rest else ' ' :: compactFrom depth true rest
    else c :: compactFrom depth false rest

def compact (s : List Char) : List Char := trim (compactFrom 0 false s)

end Gazette.Body
