import Gazette.Text.Part
import Mathlib.Data.List.Infix

/-!
# Where parts may stand

A part of a text that is put together of two is a part of one of them if it holds nothing of the
other (`infix_of_infix_append`), or does not hold the character between them
(`infix_append_cons_iff`). Otherwise it is cut where they meet.
-/

namespace Gazette.Text

variable {part s t : List Char}

theorem isPart_iff : isPart part s = true ↔ part <:+: s := by
  induction s with
  | nil => rw [isPart, List.isEmpty_iff, List.infix_nil]
  | cons c s ih =>
    have hafter : (after? part (c :: s)).isSome = true ↔ part <+: c :: s := by
      rw [Option.isSome_iff_exists]
      exact exists_congr fun rest => after?_eq_some_iff.trans eq_comm
    rw [isPart, Bool.or_eq_true, hafter, ih, List.infix_cons_iff]

/-- A part is behind what does not hold its first character. -/
theorem cons_infix_of_infix_append {c : Char} (hc : c ∉ s) (h : c :: part <:+: s ++ t) :
    c :: part <:+: t := by
  obtain hs | ht | ⟨front, behind, heq, hfront, hbehind⟩ := List.infix_append_iff.mp h
  · exact absurd (hs.mem List.mem_cons_self) hc
  · exact ht
  · cases front with
    | nil => exact heq ▸ hbehind.isInfix
    | cons d front =>
      obtain ⟨rfl, -⟩ := List.cons.inj heq
      exact absurd (hfront.mem List.mem_cons_self) hc

/-- A part that holds none of the characters in front is behind them. -/
theorem infix_of_infix_append (hpart : part ≠ []) (hs : ∀ c ∈ s, c ∉ part)
    (h : part <:+: s ++ t) : part <:+: t := by
  obtain ⟨c, part, rfl⟩ := List.exists_cons_of_ne_nil hpart
  exact cons_infix_of_infix_append (fun hmem => hs c hmem List.mem_cons_self) h

/-- A part is in front of what does not hold its last character. -/
theorem concat_infix_of_infix_append {c : Char} (hc : c ∉ t) (h : part ++ [c] <:+: s ++ t) :
    part ++ [c] <:+: s := by
  rw [← List.reverse_infix, List.reverse_append] at h ⊢
  rw [List.reverse_append] at h
  exact cons_infix_of_infix_append (fun hmem => hc (List.mem_reverse.mp hmem)) h

/-- A part of two texts in a row is cut where they meet. -/
theorem exists_eq_append_of_infix_append (h : part <:+: s ++ t) :
    ∃ front behind, part = front ++ behind ∧ front <:+: s ∧ behind <:+: t := by
  obtain hs | ht | ⟨front, behind, heq, hfront, hbehind⟩ := List.infix_append_iff.mp h
  · exact ⟨part, [], (List.append_nil part).symm, hs, List.nil_infix⟩
  · exact ⟨[], part, rfl, List.nil_infix, ht⟩
  · exact ⟨front, behind, heq, hfront.isInfix, hbehind.isInfix⟩

theorem prefix_of_prefix_append_cons {c : Char} (hc : c ∉ part) (h : part <+: s ++ c :: t) :
    part <+: s := by
  induction part generalizing s with
  | nil => exact List.nil_prefix
  | cons d part ih =>
    obtain ⟨hd, hpart⟩ := not_or.mp (fun hmem => hc (List.mem_cons.mpr hmem))
    cases s with
    | nil => exact absurd (List.cons_prefix_cons.mp h).1.symm hd
    | cons e s =>
      obtain ⟨rfl, hrest⟩ := List.cons_prefix_cons.mp h
      exact List.cons_prefix_cons.mpr ⟨rfl, ih hpart hrest⟩

/-- A part without the character between two texts is a part of one of them. -/
theorem infix_append_cons_iff {c : Char} (hc : c ∉ part) :
    part <:+: s ++ c :: t ↔ part <:+: s ∨ part <:+: t := by
  constructor
  · intro h
    obtain hs | ht | ⟨front, behind, rfl, hfront, hbehind⟩ := List.infix_append_iff.mp h
    · exact .inl hs
    · obtain hstart | hrest := List.infix_cons_iff.mp ht
      · have hnil : part <+: [] := prefix_of_prefix_append_cons hc hstart
        exact .inl (List.prefix_nil.mp hnil ▸ List.nil_infix)
      · exact .inr hrest
    · have hnil : behind <+: [] :=
        prefix_of_prefix_append_cons (fun hmem => hc (List.mem_append_right front hmem)) hbehind
      rw [List.prefix_nil.mp hnil, List.append_nil]
      exact .inl hfront.isInfix
  · rintro (h | h)
    · exact h.trans (List.prefix_append s (c :: t)).isInfix
    · exact h.trans ((List.suffix_cons c t).trans (List.suffix_append s (c :: t))).isInfix

end Gazette.Text
