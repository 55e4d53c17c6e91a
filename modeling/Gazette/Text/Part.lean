/-!
# Parts of a text

Whether a text begins with another or holds it somewhere, what follows it there, and what the text is
with something else in its place.
-/

namespace Gazette.Text

/-- What follows `start`, if the text begins with it. -/
def after? : (start s : List Char) → Option (List Char)
  | [], s => some s
  | _ :: _, [] => none
  | a :: start, c :: s => if a = c then after? start s else none

theorem after?_eq_some_iff {start s rest : List Char} :
    after? start s = some rest ↔ s = start ++ rest := by
  induction start generalizing s with
  | nil => simp [after?, eq_comm]
  | cons a start ih =>
    cases s with
    | nil => simp [after?]
    | cons c s =>
      by_cases h : a = c
      · simp [after?, h, ih]
      · simp [after?, h, Ne.symm h]

def isPart (part : List Char) : List Char → Bool
  | [] => part.isEmpty
  | c :: rest => (after? part (c :: rest)).isSome || isPart part rest

def behind? (part : List Char) : List Char → Option (List Char)
  | [] => if part.isEmpty then some [] else none
  | c :: rest =>
    match after? part (c :: rest) with
    | some behind => some behind
    | none => behind? part rest

/-- The text with `new` in the place where `part` first stands in it. -/
def replaceFirst (part new : List Char) : List Char → List Char
  | [] => if part.isEmpty then new else []
  | c :: rest =>
    match after? part (c :: rest) with
    | some behind => new ++ behind
    | none => c :: replaceFirst part new rest

def startsWith (start text : String) : Bool := (after? start.toList text.toList).isSome

end Gazette.Text
