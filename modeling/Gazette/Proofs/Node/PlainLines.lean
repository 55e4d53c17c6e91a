import Gazette.Proofs.Body.Marked
import Gazette.Proofs.Node.Agreement
import Gazette.Proofs.Text.Splitting

/-!
# Lines of the plain text

The plain text of a message has newlines where its markup has line breaks, be they between lines or
inside of elements, and where a text of the message holds one. Cut where the markup has its top-level
line breaks, it is a row of texts with newlines between them, one for each top-level line, and each is
what is seen of that line (`plainLines_spec`).
-/

namespace Gazette.Node

open Body (cut cut_ne_nil depthAfter prependToken rawTokens seenAll signOf topLines untag untag_printAll
  newlineSign)
open Markup (Escapes entities unescape unescape_eq)

/-- What is seen of a line: its text with newlines for line breaks and without other tags, with its
entities read. -/
def seenText (row : List Token) : List Char := unescape (untag newlineSign (Token.printAll row))

/-- Cuts a text into parts that are as long as the given ones, with one character between them. -/
def cutAlong : List (List Char) → List Char → List (List Char)
  | [], _ => []
  | part :: rest, s => s.take part.length :: cutAlong rest (s.drop (part.length + 1))

/-- The plain text of a message, cut where its markup has top-level line breaks. -/
def plainLines (resolver : Resolver) (nodes : List Node) : List (List Char) :=
  cutAlong ((topLines resolver nodes).map seenText) (plainOfAll resolver nodes)

/-! ### Cutting what is seen -/

theorem intercalate_append_cons (c : Char) (s t : List Char) (rest : List (List Char)) :
    [c].intercalate ((s ++ t) :: rest) = s ++ [c].intercalate (t :: rest) := by
  cases rest <;> simp [List.intercalate]

theorem intercalate_cut (depth : Nat) (tokens : List Token) :
    ['\n'].intercalate ((cut depth tokens).map (List.flatMap (signOf newlineSign))) =
      tokens.flatMap (signOf newlineSign) := by
  induction tokens generalizing depth with
  | nil => rfl
  | cons token rest ih =>
    rw [cut]
    split
    · next hbreak =>
      have hsign : signOf newlineSign token = ['\n'] := by
        rw [hbreak.2]
        decide
      have htail := ih 0
      cases hcut : cut 0 rest with
      | nil => exact absurd hcut (cut_ne_nil _ _)
      | cons line lines =>
        rw [hcut] at htail
        rw [List.map_cons, List.map_cons, List.intercalate_cons_cons, ← List.map_cons, htail,
          List.flatMap_cons, hsign]
        rfl
    · have htail := ih (depthAfter token depth)
      cases hcut : cut (depthAfter token depth) rest with
      | nil => exact absurd hcut (cut_ne_nil _ _)
      | cons line lines =>
        rw [hcut] at htail
        rw [prependToken, List.map_cons, List.flatMap_cons, intercalate_append_cons,
          ← List.map_cons (f := List.flatMap (signOf newlineSign)), htail, List.flatMap_cons]

theorem Agrees.exists_append_cons {s t u : List Char} (h : Agrees (s ++ '\n' :: t) u) :
    ∃ a b, u = a ++ '\n' :: b ∧ Agrees s a ∧ Agrees t b := by
  rw [Agrees, blankSeparators_append] at h
  obtain ⟨a, rest, rfl, ha, hrest⟩ := List.map_eq_append_iff.mp h.symm
  obtain ⟨c, b, rfl, hc, hb⟩ := List.map_eq_cons_iff.mp hrest
  have hnewline : c = '\n' := by
    split at hc
    · cases hc
    · exact hc
  exact ⟨a, b, by rw [hnewline], ha.symm, hb.symm⟩

theorem Agrees.length_eq {s t : List Char} (h : Agrees s t) : s.length = t.length := by
  have hlength := congrArg List.length h
  rwa [blankSeparators, blankSeparators, List.length_map, List.length_map] at hlength

theorem cutAlong_intercalate {parts texts : List (List Char)} (h : List.Forall₂ Agrees parts texts)
    (c : Char) : cutAlong parts ([c].intercalate texts) = texts := by
  induction h with
  | nil => rfl
  | @cons part text parts texts hpart hrest ih =>
    rw [cutAlong, hpart.length_eq]
    cases hrest with
    | nil => simp [cutAlong]
    | cons hnext hrest =>
      rw [List.intercalate_cons_cons, List.append_assoc, List.take_left' rfl, List.singleton_append,
        ← List.drop_drop, List.drop_left' rfl, List.drop_succ_cons, List.drop_zero, ih]

variable {resolver : Resolver} {nodes : List Node}

theorem topLines_ne_nil (resolver : Resolver) (nodes : List Node) : topLines resolver nodes ≠ [] :=
  cut_ne_nil 0 (rawTokens resolver nodes)

theorem eq_map_seenText {rows : List (List Token)} {texts : List (List Char)}
    (h : List.Forall₂ (fun row text => Escapes (untag newlineSign (Token.printAll row)) text) rows
      texts) :
    texts = rows.map seenText ∧
      ∀ row ∈ rows, Escapes (untag newlineSign (Token.printAll row)) (seenText row) := by
  induction h with
  | nil => exact ⟨rfl, fun _ hmem => absurd hmem List.not_mem_nil⟩
  | @cons row text rows texts hrow _ ih =>
    obtain ⟨rfl, hrows⟩ := ih
    have hseen : seenText row = text := unescape_eq hrow
    exact ⟨by rw [List.map_cons, hseen], List.forall_mem_cons.mpr ⟨hseen ▸ hrow, hrows⟩⟩

/-- What is seen of a message is what is seen of its lines, and each of them is escaped on its own. -/
theorem seenAll_eq_intercalate (resolver : Resolver) (nodes : List Node) :
    seenAll ['\n'] (htmlOfAll resolver nodes) =
        ['\n'].intercalate ((topLines resolver nodes).map seenText) ∧
      ∀ row ∈ topLines resolver nodes,
        Escapes (untag newlineSign (Token.printAll row)) (seenText row) := by
  have hraw : Body.IsFragment (rawTokens resolver nodes) := Body.isFragment_htmlOfAll resolver nodes
  have hescapes := Body.escapes_untag_raw Body.isSign_newlineSign (by decide) resolver nodes
  have hmap : (topLines resolver nodes).map (List.flatMap (signOf newlineSign)) =
      (topLines resolver nodes).map fun row => untag newlineSign (Token.printAll row) :=
    List.map_congr_left fun row hrow => (untag_printAll fun token htoken =>
      ((Body.isFragment_of_mem_topLines hrow).written token htoken).isLexical).symm
  rw [← Body.printAll_rawTokens, untag_printAll fun token htoken =>
    (hraw.written token htoken).isLexical, ← intercalate_cut 0, ← topLines, hmap] at hescapes
  -- No entity holds a newline, so that those between the lines are not part of any.
  have hnewline : ∀ pair ∈ entities, '\n' ∉ pair.1 := by decide
  obtain ⟨texts, htexts, hrows⟩ := Text.exists_forall₂ (Escapes.exists_append_cons hnewline)
    (mt List.map_eq_nil_iff.mp (topLines_ne_nil resolver nodes)) hescapes
  obtain ⟨rfl, hlines⟩ := eq_map_seenText (List.forall₂_map_left_iff.mp hrows)
  exact ⟨htexts, hlines⟩

/-- The plain text is its lines with newlines between them, and each of them is what is seen of a
top-level line, but for spaces in the place of separators. -/
theorem plainLines_spec (h : Resolves resolver (mentionsOfAll nodes)) :
    plainOfAll resolver nodes = ['\n'].intercalate (plainLines resolver nodes) ∧
      List.Forall₂ (fun row text => Agrees (seenText row) text) (topLines resolver nodes)
        (plainLines resolver nodes) := by
  have hagrees := agrees_htmlOfAll nodes h
  rw [(seenAll_eq_intercalate resolver nodes).1] at hagrees
  obtain ⟨texts, htexts, hrows⟩ := Text.exists_forall₂ Agrees.exists_append_cons
    (mt List.map_eq_nil_iff.mp (topLines_ne_nil resolver nodes)) hagrees
  have hlines : plainLines resolver nodes = texts := by
    rw [plainLines, htexts, cutAlong_intercalate hrows]
  rw [hlines]
  exact ⟨htexts, List.forall₂_map_left_iff.mp hrows⟩

end Gazette.Node
