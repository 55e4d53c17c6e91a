import Gazette.Markup.Basic
import Gazette.Text.Blank
import Gazette.Text.Part

/-!
# Lines of a printed message

A printed message is cut into lines at the line breaks that stand outside of all elements. Texts and
attributes are escaped, so every `<` begins a tag, and counting tags tells how deep a place is. Put
together with line breaks the lines are the message again.
-/

namespace Gazette.Body

open Gazette.Text

def voidNames : List (List Char) := ["br".toList, "img".toList]

/-- A tag up to its `>`, and what follows it. -/
def cutTag : List Char → List Char × List Char
  | [] => ([], [])
  | c :: rest =>
    if c = '>' then ([c], rest)
    else
      let (tag, rest) := cutTag rest
      (c :: tag, rest)

theorem cutTag_append (s : List Char) : (cutTag s).1 ++ (cutTag s).2 = s := by
  induction s with
  | nil => rfl
  | cons c rest ih => by_cases h : c = '>' <;> simp [cutTag, h, ih]

theorem cutTag_length_lt (c : Char) (rest : List Char) :
    (cutTag (c :: rest)).2.length < (c :: rest).length := by
  have h := congrArg List.length (cutTag_append (c :: rest))
  have hpos : 0 < (cutTag (c :: rest)).1.length := by
    by_cases hc : c = '>' <;> simp [cutTag, hc]
  simp only [List.length_append] at h
  omega

def tagName (tag : List Char) : List Char :=
  (tag.dropWhile (· == '<')).takeWhile fun c => !(isBlank c || c == '>' || c == '/')

def isVoid (tag : List Char) : Bool :=
  (after? ['>', '/'] tag.reverse).isSome || voidNames.contains (tagName tag)

def depthBehind (tag : List Char) (depth : Nat) : Nat :=
  if (after? ['<', '/'] tag).isSome then depth - 1
  else if isVoid tag then depth
  else depth + 1

def prepend (s : List Char) : List (List Char) → List (List Char)
  | [] => [s]
  | line :: rest => (s ++ line) :: rest

def linesFrom (depth : Nat) : List Char → List (List Char)
  | [] => [[]]
  | c :: rest =>
    if c = '<' then
      match _h : (if depth = 0 then after? Markup.lineBreakText (c :: rest) else none) with
      | some behind => [] :: linesFrom 0 behind
      | none =>
        prepend (cutTag (c :: rest)).1
          (linesFrom (depthBehind (cutTag (c :: rest)).1 depth) (cutTag (c :: rest)).2)
    else prepend [c] (linesFrom depth rest)
termination_by s => s.length
decreasing_by
  · split at _h
    · have := congrArg List.length (after?_eq_some_iff.mp _h)
      simp only [List.length_append, Markup.lineBreakText] at this
      simp only [List.length_cons] at this ⊢
      have hpos : 0 < "<br />".toList.length := by decide
      omega
    · cases _h
  · exact cutTag_length_lt c rest
  · simp

def lines (s : List Char) : List (List Char) := linesFrom 0 s

end Gazette.Body
