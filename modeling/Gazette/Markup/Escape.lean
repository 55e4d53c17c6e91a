/-!
# Escaping

The characters that have a meaning in markup are written as entities. Apostrophes have one only
between apostrophes, which pages never write around a value; message texts escape them all the same.
-/

namespace Gazette.Markup

/-- How a character of a page's own text or of an attribute is written. -/
def escapeChar (c : Char) : List Char :=
  match c with
  | '&' => "&amp;".toList
  | '<' => "&lt;".toList
  | '>' => "&gt;".toList
  | '"' => "&quot;".toList
  | c => [c]

def escape (s : List Char) : List Char := s.flatMap escapeChar

def escapeCharStrictly (c : Char) : List Char :=
  if c = '\'' then "&#039;".toList else escapeChar c

def escapeStrictly (s : List Char) : List Char := s.flatMap escapeCharStrictly

@[simp] theorem escape_append (s t : List Char) : escape (s ++ t) = escape s ++ escape t := by
  simp [escape]

@[simp] theorem escapeStrictly_append (s t : List Char) :
    escapeStrictly (s ++ t) = escapeStrictly s ++ escapeStrictly t := by
  simp [escapeStrictly]

theorem notMem_escapeChar (c : Char) :
    '<' ∉ escapeChar c ∧ '>' ∉ escapeChar c ∧ '"' ∉ escapeChar c := by
  unfold escapeChar
  split
  · exact (by decide : '<' ∉ "&amp;".toList ∧ '>' ∉ "&amp;".toList ∧ '"' ∉ "&amp;".toList)
  · exact (by decide : '<' ∉ "&lt;".toList ∧ '>' ∉ "&lt;".toList ∧ '"' ∉ "&lt;".toList)
  · exact (by decide : '<' ∉ "&gt;".toList ∧ '>' ∉ "&gt;".toList ∧ '"' ∉ "&gt;".toList)
  · exact (by decide : '<' ∉ "&quot;".toList ∧ '>' ∉ "&quot;".toList ∧ '"' ∉ "&quot;".toList)
  · next hless hgreater hquote =>
    exact ⟨fun h => hless (List.mem_singleton.mp h).symm,
      fun h => hgreater (List.mem_singleton.mp h).symm,
      fun h => hquote (List.mem_singleton.mp h).symm⟩

theorem mem_escapeChar {c x : Char} (h : x ∈ escapeChar c) : x ≠ '<' ∧ x ≠ '>' ∧ x ≠ '"' := by
  obtain ⟨hless, hgreater, hquote⟩ := notMem_escapeChar c
  exact ⟨fun heq => hless (heq ▸ h), fun heq => hgreater (heq ▸ h), fun heq => hquote (heq ▸ h)⟩

end Gazette.Markup
