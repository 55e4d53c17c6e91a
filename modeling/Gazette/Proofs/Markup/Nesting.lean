/-!
# Nesting

A row of tags is well nested if every closing tag closes the innermost element that is open and no
element is left open at the end. Line breaks may not stand inside of headlines. What matters of a
tag for this is its mark; characters and images have none.
-/

namespace Gazette

inductive Mark where
  | opens (name : String) (isHeadline : Bool)
  | breaks
  | closes (name : String)
  deriving Repr, DecidableEq

/-- The elements that are open, the innermost first, and whether they are headlines. -/
abbrev OpenElements := List (String × Bool)

/-- The open elements behind a mark; none if the mark is out of place, which is a closing tag of
another element than the innermost one, or a line break inside of a headline. -/
def Mark.step? (stack : OpenElements) : Mark → Option OpenElements
  | opens name isHeadline => some ((name, isHeadline) :: stack)
  | breaks => if stack.any Prod.snd then none else some stack
  | closes name =>
    match stack with
    | [] => none
    | (top, _) :: rest => if top = name then some rest else none

/-- The open elements behind a row of marks. -/
def nest? (stack : OpenElements) : List Mark → Option OpenElements
  | [] => some stack
  | mark :: rest => (mark.step? stack).bind (nest? · rest)

example : nest? [] [.opens "b" false, .opens "i" false, .closes "b", .closes "i"] = none := rfl

example : nest? [] [.opens "h1" true, .breaks, .closes "h1"] = none := rfl

theorem nest?_append (stack : OpenElements) (a b : List Mark) :
    nest? stack (a ++ b) = (nest? stack a).bind (nest? · b) := by
  induction a generalizing stack with
  | nil => rfl
  | cons mark a ih =>
    rw [List.cons_append, nest?, nest?]
    cases hmark : mark.step? stack with
    | none => rfl
    | some next => exact ih next

/-- Elements that are open further out change nothing, unless a line break stands in them and one
of them is a headline. -/
theorem Mark.step?_append {mark : Mark} {stack next : OpenElements}
    (h : mark.step? stack = some next) (outer : OpenElements)
    (houter : outer.any Prod.snd = false ∨ mark ≠ breaks) :
    mark.step? (stack ++ outer) = some (next ++ outer) := by
  cases mark with
  | opens name isHeadline =>
    cases h
    rfl
  | breaks =>
    have hfalse : outer.any Prod.snd = false := houter.resolve_right (fun hne => hne rfl)
    by_cases hany : stack.any Prod.snd = true
    · simp [step?, hany] at h
    · simp only [step?, hany] at h
      cases h
      simp [step?, hfalse, hany]
  | closes name =>
    cases stack with
    | nil => simp [step?] at h
    | cons top rest =>
      by_cases htop : top.1 = name
      · simp only [step?, htop, if_true] at h
        cases h
        simp [step?, htop]
      · simp [step?, htop] at h

theorem nest?_append_outer {stack next : OpenElements} {marks : List Mark}
    (h : nest? stack marks = some next) (outer : OpenElements)
    (houter : outer.any Prod.snd = false ∨ Mark.breaks ∉ marks) :
    nest? (stack ++ outer) marks = some (next ++ outer) := by
  induction marks generalizing stack with
  | nil =>
    cases h
    rfl
  | cons mark marks ih =>
    rw [nest?] at h ⊢
    obtain ⟨middle, hmark, hrest⟩ := Option.bind_eq_some_iff.mp h
    have hhead : outer.any Prod.snd = false ∨ mark ≠ .breaks :=
      houter.imp_right fun hne heq => hne (heq ▸ List.mem_cons_self)
    have htail : outer.any Prod.snd = false ∨ Mark.breaks ∉ marks :=
      houter.imp_right fun hne hmem => hne (List.mem_cons_of_mem mark hmem)
    rw [Mark.step?_append hmark outer hhead]
    exact ih hrest htail

/-- An element around well nested marks is well nested. -/
theorem nest?_element {marks : List Mark} (h : nest? [] marks = some []) (name : String)
    {isHeadline : Bool} (hbreaks : isHeadline = false ∨ Mark.breaks ∉ marks) :
    nest? [] (.opens name isHeadline :: (marks ++ [.closes name])) = some [] := by
  have houter : [(name, isHeadline)].any Prod.snd = false ∨ Mark.breaks ∉ marks := by
    simpa using hbreaks
  have hinner : nest? [(name, isHeadline)] marks = some [(name, isHeadline)] :=
    nest?_append_outer h [(name, isHeadline)] houter
  change nest? [(name, isHeadline)] (marks ++ [.closes name]) = some []
  rw [nest?_append, hinner]
  simp [nest?, Mark.step?]

end Gazette
