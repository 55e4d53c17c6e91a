import Gazette.Markup.Escape

/-!
# Unescaping

Entities are read once, from left to right, and what is no entity stands for itself. A text may be
escaped in more than one way, since an apostrophe can be left as it is; whichever way was taken,
unescaping gives the text back (`unescape_eq`).
-/

namespace Gazette.Markup

/-- The entities, each with the character it stands for. -/
def entities : List (List Char × Char) :=
  [("&amp;".toList, '&'), ("&lt;".toList, '<'), ("&gt;".toList, '>'), ("&quot;".toList, '"'),
    ("&#039;".toList, '\'')]

def unescape : List Char → List Char
  | '&' :: 'a' :: 'm' :: 'p' :: ';' :: rest => '&' :: unescape rest
  | '&' :: 'l' :: 't' :: ';' :: rest => '<' :: unescape rest
  | '&' :: 'g' :: 't' :: ';' :: rest => '>' :: unescape rest
  | '&' :: 'q' :: 'u' :: 'o' :: 't' :: ';' :: rest => '"' :: unescape rest
  | '&' :: '#' :: '0' :: '3' :: '9' :: ';' :: rest => '\'' :: unescape rest
  | c :: rest => c :: unescape rest
  | [] => []

theorem unescape_cons {c : Char} (h : c ≠ '&') (s : List Char) :
    unescape (c :: s) = c :: unescape s := by
  rw [unescape] <;> simp [h]

theorem unescape_entity {entity : List Char} {c : Char} (h : (entity, c) ∈ entities)
    (s : List Char) : unescape (entity ++ s) = c :: unescape s := by
  simp only [entities, List.mem_cons, List.not_mem_nil, or_false, Prod.mk.injEq] at h
  rcases h with ⟨rfl, rfl⟩ | ⟨rfl, rfl⟩ | ⟨rfl, rfl⟩ | ⟨rfl, rfl⟩ | ⟨rfl, rfl⟩ <;> rfl

/-- Whether the first text is a way to escape the second one. -/
inductive Escapes : List Char → List Char → Prop where
  | nil : Escapes [] []
  | char {c : Char} {s t : List Char} (hc : c ≠ '&') (h : Escapes s t) : Escapes (c :: s) (c :: t)
  | entity {entity s t : List Char} {c : Char} (hc : (entity, c) ∈ entities) (h : Escapes s t) :
    Escapes (entity ++ s) (c :: t)

theorem unescape_eq {s t : List Char} (h : Escapes s t) : unescape s = t := by
  induction h with
  | nil => rfl
  | char hc _ ih => rw [unescape_cons hc, ih]
  | entity hc _ ih => rw [unescape_entity hc, ih]

namespace Escapes

theorem append {s s' t t' : List Char} (h : Escapes s t) (h' : Escapes s' t') :
    Escapes (s ++ s') (t ++ t') := by
  induction h with
  | nil => exact h'
  | char hc _ ih => exact ih.char hc
  | entity hc _ ih =>
    rw [List.append_assoc]
    exact ih.entity hc

/-- A text without entities is escaped as it is. -/
theorem self {s : List Char} (h : '&' ∉ s) : Escapes s s := by
  induction s with
  | nil => exact .nil
  | cons c s ih =>
    have hc : c ≠ '&' := fun heq => h (heq ▸ List.mem_cons_self)
    exact (ih fun hmem => h (List.mem_cons_of_mem c hmem)).char hc

/-- A way to escape a text is cut where a character stands that no entity holds. -/
theorem exists_append_cons {s t u : List Char} {c : Char} (hc : ∀ pair ∈ entities, c ∉ pair.1)
    (h : Escapes (s ++ c :: t) u) : ∃ a b, u = a ++ c :: b ∧ Escapes s a ∧ Escapes t b := by
  generalize hw : s ++ c :: t = w at h
  induction h generalizing s with
  | nil => exact absurd hw (List.append_ne_nil_of_right_ne_nil s (List.cons_ne_nil c t))
  | @char d w v hd h ih =>
    cases s with
    | nil =>
      obtain ⟨rfl, rfl⟩ := List.cons.inj hw
      exact ⟨[], v, rfl, .nil, h⟩
    | cons e s =>
      obtain ⟨rfl, htail⟩ := List.cons.inj hw
      obtain ⟨a, b, rfl, ha, hb⟩ := ih htail
      exact ⟨e :: a, b, rfl, ha.char hd, hb⟩
  | @entity entity w v d hmem h ih =>
    obtain ⟨s', rfl, htail⟩ : ∃ s', s = entity ++ s' ∧ s' ++ c :: t = w := by
      rcases List.append_eq_append_iff.mp hw with ⟨s', hentity, hrest⟩ | ⟨s', hs, hrest⟩
      · cases s' with
        | nil => exact ⟨[], by simpa using hentity.symm, hrest⟩
        | cons e s' =>
          obtain rfl : c = e := (List.cons.inj hrest).1
          refine absurd ?_ (hc _ hmem)
          rw [hentity]
          exact List.mem_append_right s List.mem_cons_self
      · exact ⟨s', hs, hrest.symm⟩
    obtain ⟨a, b, rfl, ha, hb⟩ := ih htail
    exact ⟨d :: a, b, rfl, ha.entity hmem, hb⟩

end Escapes

theorem escapes_flatMap {f : Char → List Char} (h : ∀ c, Escapes (f c) [c]) (s : List Char) :
    Escapes (s.flatMap f) s := by
  induction s with
  | nil => exact .nil
  | cons c s ih => exact (h c).append ih

theorem escapes_entity {entity : List Char} {c : Char} (h : (entity, c) ∈ entities) :
    Escapes entity [c] := by
  have hentity := Escapes.nil.entity h
  rwa [List.append_nil] at hentity

theorem escapes_escapeChar (c : Char) : Escapes (escapeChar c) [c] := by
  unfold escapeChar
  split
  · exact escapes_entity (by decide)
  · exact escapes_entity (by decide)
  · exact escapes_entity (by decide)
  · exact escapes_entity (by decide)
  · next hamp _ _ _ => exact Escapes.nil.char fun heq => hamp heq

theorem escapes_escapeCharStrictly (c : Char) : Escapes (escapeCharStrictly c) [c] := by
  unfold escapeCharStrictly
  split
  · next heq =>
    subst heq
    exact escapes_entity (by decide)
  · exact escapes_escapeChar c

theorem escapes_escape (s : List Char) : Escapes (escape s) s :=
  escapes_flatMap escapes_escapeChar s

theorem escapes_escapeStrictly (s : List Char) : Escapes (escapeStrictly s) s :=
  escapes_flatMap escapes_escapeCharStrictly s

example : unescape "&amp;lt; & &#039;".toList = "&lt; & '".toList := by decide

end Gazette.Markup
