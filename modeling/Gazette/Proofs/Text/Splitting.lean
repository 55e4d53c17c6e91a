import Mathlib.Data.List.Forall2

/-!
# Cutting at a character

Texts that were put together with a separator between them are cut at it into the parts of each of
them. A relation that can be cut at the separator relates a text put together from some others to one
that can be cut in the same way (`exists_forall₂`).
-/

namespace Gazette.Text

variable {separator : Char}

theorem eq_of_splitOn_eq_singleton {s piece : List Char} (h : s.splitOn separator = [piece]) :
    s = piece := by
  have hjoin : [separator].intercalate (s.splitOn separator) = s :=
    List.intercalate_splitOn separator
  rw [h, List.intercalate_singleton] at hjoin
  exact hjoin.symm

theorem splitOn_intercalate_eq_flatMap {texts : List (List Char)} (h : texts ≠ []) :
    ([separator].intercalate texts).splitOn separator =
      texts.flatMap (List.splitOn separator) := by
  induction texts with
  | nil => exact absurd rfl h
  | cons s rest ih =>
    cases rest with
    | nil => rw [List.intercalate_singleton, List.flatMap_singleton]
    | cons t rest =>
      rw [List.intercalate_cons_cons, List.append_assoc, List.singleton_append,
        List.splitOn_append_cons_self, ih (List.cons_ne_nil t rest), ← List.flatMap_cons]

/-- A relation that can be cut at the separator can be cut at all those between some texts. -/
theorem exists_forall₂ {r : List Char → List Char → Prop}
    (h : ∀ {s t u}, r (s ++ separator :: t) u → ∃ a b, u = a ++ separator :: b ∧ r s a ∧ r t b)
    {texts : List (List Char)} (hne : texts ≠ []) {u : List Char}
    (hu : r ([separator].intercalate texts) u) :
    ∃ parts, u = [separator].intercalate parts ∧ List.Forall₂ r texts parts := by
  induction texts generalizing u with
  | nil => exact absurd rfl hne
  | cons s rest ih =>
    cases rest with
    | nil =>
      rw [List.intercalate_singleton] at hu
      exact ⟨[u], List.intercalate_singleton.symm, .cons hu .nil⟩
    | cons t rest =>
      rw [List.intercalate_cons_cons, List.append_assoc] at hu
      obtain ⟨a, b, rfl, ha, hb⟩ := h hu
      obtain ⟨parts, rfl, hparts⟩ := ih (List.cons_ne_nil t rest) hb
      cases hparts with
      | @cons _ part _ parts hpart hrest =>
        refine ⟨a :: part :: parts, ?_, .cons ha (.cons hpart hrest)⟩
        rw [List.intercalate_cons_cons, List.append_assoc, List.singleton_append]

end Gazette.Text
