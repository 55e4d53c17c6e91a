import Gazette.Proofs.Body.Pieces
import Gazette.Proofs.Text.Slices

/-!
# Lines by their places

The lines of a text can be found without taking the text apart: one cursor holds the place where the
line begins, another the place from which the next tag is looked for, and a line is the slice
between two places. Whatever the text is, no slice is asked for that is not there, and each turn but
the last goes over a `<`, so the turns come to an end. The lines found are those of `lines`, and put
together with line breaks they are the text again (`run_first_and_intercalate_lines`).
-/

namespace Gazette.Body

open Text (after? byteLength byteLength_append find? find?_append find?_eq_none slice?
  slice?_eq_some_iff)

structure Cursors where
  /-- The lines that are complete. -/
  lines : List (List Char)
  depth : Nat
  /-- The place where the line begins. -/
  start : Nat
  /-- The place from which the next tag is looked for. -/
  cursor : Nat
  deriving Repr, DecidableEq

inductive Turn where
  | next (cursors : Cursors)
  | ended (lines : List (List Char))
  deriving Repr, DecidableEq

/-- Where a tag ends that begins at the place, with `rest` behind the place. A tag that is not
closed ends with the text. -/
def tagEnd (s : List Char) (place : Nat) (rest : List Char) : Nat :=
  match find? '>' rest with
  | none => byteLength s
  | some offset => place + offset + 1

namespace Cursors

def first : Cursors := ⟨[], 0, 0, 0⟩

/-- Goes on behind the next tag. There is no turn if a slice is asked for that is not there. -/
def turn? (cursors : Cursors) (s : List Char) : Option Turn := do
  let ahead ← slice? s cursors.cursor (byteLength s)
  match find? '<' ahead with
  | none =>
    let line ← slice? s cursors.start (byteLength s)
    return .ended (cursors.lines ++ [line])
  | some offset =>
    let place := cursors.cursor + offset
    let rest ← slice? s place (byteLength s)
    if cursors.depth = 0 ∧ (after? Markup.lineBreakText rest).isSome then
      let line ← slice? s cursors.start place
      let start := place + byteLength Markup.lineBreakText
      return .next ⟨cursors.lines ++ [line], cursors.depth, start, start⟩
    else
      let tag ← slice? s place (tagEnd s place rest)
      return .next { cursors with
        depth := depthBehind tag cursors.depth, cursor := tagEnd s place rest }

/-- So many turns, or fewer if the text ends before. -/
def run (cursors : Cursors) (s : List Char) : (turns : Nat) → Option Turn
  | 0 => some (.next cursors)
  | turns + 1 =>
    match cursors.turn? s with
    | some (.next next) => next.run s turns
    | result => result

/-- The text is what is in front of the line, what has been read of the line, and the rest. The
lines that the rest still makes, behind those that are complete, are the lines of the text. -/
structure StandsAt (cursors : Cursors) (s front line rest : List Char) : Prop where
  text : s = front ++ line ++ rest
  start : cursors.start = byteLength front
  cursor : cursors.cursor = byteLength (front ++ line)
  lines : cursors.lines ++ prepend line (linesFrom cursors.depth rest) = Body.lines s

variable {s front line before tail rest : List Char} {cursors : Cursors}

theorem standsAt_first (s : List Char) : first.StandsAt s [] [] s :=
  ⟨rfl, rfl, rfl, prepend_nil (linesFrom_ne_nil 0 s)⟩

namespace StandsAt

/-! ### Slices -/

theorem slice?_rest (h : cursors.StandsAt s front line rest) :
    slice? s cursors.cursor (byteLength s) = some rest :=
  slice?_eq_some_iff.mpr ⟨front ++ line, [], by rw [List.append_nil, h.text], h.cursor.symm,
    by rw [h.text]⟩

theorem slice?_line (h : cursors.StandsAt s front line rest) :
    slice? s cursors.start cursors.cursor = some line :=
  slice?_eq_some_iff.mpr ⟨front, rest, h.text, h.start.symm, h.cursor.symm⟩

theorem slice?_last (h : cursors.StandsAt s front line rest) :
    slice? s cursors.start (byteLength s) = some (line ++ rest) :=
  slice?_eq_some_iff.mpr ⟨front, [], by rw [List.append_nil, ← List.append_assoc, h.text],
    h.start.symm, by rw [← List.append_assoc, h.text]⟩

theorem slice?_next (h : cursors.StandsAt s front line (before ++ tail)) :
    slice? s cursors.cursor (cursors.cursor + byteLength before) = some before :=
  slice?_eq_some_iff.mpr ⟨front ++ line, tail, by rw [h.text, List.append_assoc _ before],
    h.cursor.symm, by rw [byteLength_append, h.cursor]⟩

theorem tagEnd_eq (h : cursors.StandsAt s front line rest) :
    tagEnd s cursors.cursor rest = cursors.cursor + byteLength (cutTag rest).1 := by
  by_cases hclosed : '>' ∈ rest
  · obtain ⟨before, tail, rfl, hbefore⟩ := List.eq_append_cons_of_mem hclosed
    rw [tagEnd, find?_append hbefore, cutTag_append_of_notMem hbefore, byteLength_append]
    rfl
  · rw [tagEnd, find?_eq_none hclosed, cutTag_of_notMem hclosed, h.cursor, ← byteLength_append,
      ← h.text]

/-! ### Steps -/

/-- Goes over what is in front of the next tag. -/
theorem skip (h : cursors.StandsAt s front line (before ++ rest)) (hbefore : '<' ∉ before) :
    StandsAt { cursors with cursor := cursors.cursor + byteLength before } s front
      (line ++ before) rest where
  text := by rw [h.text]; simp only [List.append_assoc]
  start := h.start
  cursor := by rw [h.cursor, ← byteLength_append, List.append_assoc]
  lines := by rw [← h.lines, linesFrom_append_of_notMem hbefore, prepend_prepend]

/-- Goes over a line break that ends the line. -/
theorem lineBreak (h : cursors.StandsAt s front line (Markup.lineBreakText ++ rest))
    (hdepth : cursors.depth = 0) :
    StandsAt ⟨cursors.lines ++ [line], cursors.depth,
      cursors.cursor + byteLength Markup.lineBreakText,
      cursors.cursor + byteLength Markup.lineBreakText⟩ s
      (front ++ line ++ Markup.lineBreakText) [] rest where
  text := by rw [h.text]; simp only [List.append_assoc, List.append_nil]
  start := by rw [h.cursor, ← byteLength_append]
  cursor := by rw [h.cursor, ← byteLength_append, List.append_nil]
  lines := by
    rw [← h.lines, hdepth, linesFrom_lineBreak, prepend_nil (linesFrom_ne_nil 0 rest), prepend,
      List.append_nil, List.append_assoc]
    rfl

/-- Goes over any other tag, which is a part of the line. -/
theorem tag (h : cursors.StandsAt s front line ('<' :: rest))
    (htag : cursors.depth ≠ 0 ∨ after? Markup.lineBreakText ('<' :: rest) = none) :
    StandsAt { cursors with
      depth := depthBehind (cutTag ('<' :: rest)).1 cursors.depth
      cursor := cursors.cursor + byteLength (cutTag ('<' :: rest)).1 } s front
      (line ++ (cutTag ('<' :: rest)).1) (cutTag ('<' :: rest)).2 where
  text := by
    rw [List.append_assoc, List.append_assoc, cutTag_append, ← List.append_assoc]
    exact h.text
  start := h.start
  cursor := by rw [h.cursor, ← byteLength_append, List.append_assoc]
  lines := by rw [← h.lines, linesFrom_tag htag, prepend_prepend]

/-! ### Turns -/

theorem turn?_ended (h : cursors.StandsAt s front line rest) (hrest : '<' ∉ rest) :
    cursors.turn? s = some (.ended (Body.lines s)) := by
  have hlines : linesFrom cursors.depth rest = [rest] := by
    have happend := linesFrom_append_of_notMem hrest cursors.depth []
    rw [List.append_nil, linesFrom] at happend
    rw [happend, prepend, List.append_nil]
  simp only [turn?, h.slice?_rest, h.slice?_last, find?_eq_none hrest, Option.bind_eq_bind,
    Option.bind_some, Option.pure_def]
  rw [← h.lines, hlines]
  rfl

theorem turn?_lineBreak
    (h : cursors.StandsAt s front line (before ++ (Markup.lineBreakText ++ rest)))
    (hbefore : '<' ∉ before) (hdepth : cursors.depth = 0) :
    ∃ next, cursors.turn? s = some (.next next) ∧
      next.StandsAt s (front ++ (line ++ before) ++ Markup.lineBreakText) [] rest := by
  have hskip := h.skip hbefore
  have hfind : find? '<' (before ++ (Markup.lineBreakText ++ rest)) = some (byteLength before) :=
    find?_append hbefore _
  have hrest : slice? s (cursors.cursor + byteLength before) (byteLength s) =
      some (Markup.lineBreakText ++ rest) := hskip.slice?_rest
  have hline : slice? s cursors.start (cursors.cursor + byteLength before) =
      some (line ++ before) := hskip.slice?_line
  have hafter : (after? Markup.lineBreakText (Markup.lineBreakText ++ rest)).isSome :=
    Option.isSome_iff_exists.mpr ⟨rest, Text.after?_eq_some_iff.mpr rfl⟩
  refine ⟨_, ?_, hskip.lineBreak hdepth⟩
  simp only [turn?, h.slice?_rest, hfind, hrest, hline, Option.bind_eq_bind, Option.bind_some,
    if_pos (And.intro hdepth hafter), Option.pure_def]

theorem turn?_tag (h : cursors.StandsAt s front line (before ++ '<' :: tail))
    (hbefore : '<' ∉ before)
    (htag : cursors.depth ≠ 0 ∨ after? Markup.lineBreakText ('<' :: tail) = none) :
    ∃ next, cursors.turn? s = some (.next next) ∧
      next.StandsAt s front (line ++ before ++ (cutTag ('<' :: tail)).1)
        (cutTag ('<' :: tail)).2 := by
  have hskip := h.skip hbefore
  have hrest : slice? s (cursors.cursor + byteLength before) (byteLength s) = some ('<' :: tail) :=
    hskip.slice?_rest
  have hend : tagEnd s (cursors.cursor + byteLength before) ('<' :: tail) =
      cursors.cursor + byteLength before + byteLength (cutTag ('<' :: tail)).1 := hskip.tagEnd_eq
  have hslice : slice? s (cursors.cursor + byteLength before)
      (cursors.cursor + byteLength before + byteLength (cutTag ('<' :: tail)).1) =
        some (cutTag ('<' :: tail)).1 := by
    rw [← cutTag_append ('<' :: tail)] at hskip
    exact hskip.slice?_next
  have hbreak : ¬(cursors.depth = 0 ∧ (after? Markup.lineBreakText ('<' :: tail)).isSome) := by
    rintro ⟨hdepth, hsome⟩
    rcases htag with hdeep | hnone
    · exact hdeep hdepth
    · rw [hnone] at hsome
      cases hsome
  refine ⟨_, ?_, hskip.tag htag⟩
  simp only [turn?, h.slice?_rest, find?_append hbefore, hrest, hend, hslice, Option.bind_eq_bind,
    Option.bind_some, if_neg hbreak, Option.pure_def]

theorem turn?_next (h : cursors.StandsAt s front line rest) (hrest : '<' ∈ rest) :
    ∃ next front' line' rest', cursors.turn? s = some (.next next) ∧
      next.StandsAt s front' line' rest' ∧ rest'.count '<' < rest.count '<' := by
  -- A turn goes over at least one `<`, the first of the rest.
  obtain ⟨before, tail, rfl, hbefore⟩ := List.eq_append_cons_of_mem hrest
  rw [List.count_append, List.count_eq_zero_of_not_mem hbefore, Nat.zero_add]
  by_cases hbreak : cursors.depth = 0 ∧
      ∃ behind, after? Markup.lineBreakText ('<' :: tail) = some behind
  · obtain ⟨hdepth, behind, hafter⟩ := hbreak
    have htail : '<' :: tail = Markup.lineBreakText ++ behind := Text.after?_eq_some_iff.mp hafter
    have hcount : Markup.lineBreakText.count '<' = 1 := by decide
    rw [htail] at h ⊢
    obtain ⟨next, hturn, hnext⟩ := h.turn?_lineBreak hbefore hdepth
    refine ⟨next, _, _, behind, hturn, hnext, ?_⟩
    rw [List.count_append]
    omega
  · have htag : cursors.depth ≠ 0 ∨ after? Markup.lineBreakText ('<' :: tail) = none := by
      rw [not_and_or, ← Option.isSome_iff_exists, Option.not_isSome_iff_eq_none] at hbreak
      exact hbreak
    obtain ⟨next, hturn, hnext⟩ := h.turn?_tag hbefore htag
    refine ⟨next, _, _, _, hturn, hnext, ?_⟩
    have hbehind : (cutTag ('<' :: tail)).2 = (cutTag tail).2 := rfl
    have hsuffix : (cutTag tail).2 <:+ tail := ⟨_, cutTag_append tail⟩
    have hle := hsuffix.sublist.count_le '<'
    rw [hbehind, List.count_cons_self]
    omega

/-! ### The whole run -/

/-- Not more turns are needed than there are `<` in the rest, and one that ends the run. -/
theorem run_ended {turns : Nat} (h : cursors.StandsAt s front line rest)
    (hturns : rest.count '<' < turns) : cursors.run s turns = some (.ended (Body.lines s)) := by
  induction turns generalizing cursors front line rest with
  | zero => cases hturns
  | succ turns ih =>
    by_cases hrest : '<' ∈ rest
    · obtain ⟨next, front', line', rest', hturn, hnext, hcount⟩ := h.turn?_next hrest
      simp only [run, hturn]
      exact ih hnext (by omega)
    · simp only [run, h.turn?_ended hrest]

end StandsAt

/-- No turn over a text asks for a slice that is not there, and the turns come to an end with its
lines, which are the text again with line breaks between them. -/
theorem run_first_and_intercalate_lines (s : List Char) :
    first.run s (s.count '<' + 1) = some (.ended (Body.lines s)) ∧
      Markup.lineBreakText.intercalate (Body.lines s) = s :=
  ⟨(standsAt_first s).run_ended (Nat.lt_succ_self _), intercalate_linesFrom 0 s⟩

/-- A closing tag that closes nothing, a tag that is not closed, and characters of two and three
bytes. -/
example : first.run "ä</b><br />€<i".toList 4 =
    some (.ended ["ä</b>".toList, "€<i".toList]) := by decide

end Cursors

end Gazette.Body
