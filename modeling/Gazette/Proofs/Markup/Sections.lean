import Gazette.Proofs.Markup.Xml
import Gazette.Proofs.Text.Places

/-!
# Sections of character data

Character data is a row of sections with nothing between them. A reader that ends each section at
the first `]]>` in it, and puts their contents together again, gets the fragment that was written
(`sections?_cdata`). It takes a text apart by its delimiters, where `Xml.read?` goes through a document
and does not tell where in its characters a section ends.
-/

namespace Gazette.Markup

open Text (IsCutAt after? after?_eq_some_iff behind? behind?_eq_some_iff isPart upTo)

/-- A section with some content, as it stands in a document. -/
def sectionOf (content : List Char) : List Char := cdataStart ++ content ++ cdataEnd

/-- The content of the section that a text begins with, up to the first `]]>`, and what follows. -/
def firstSection? (s : List Char) : Option (List Char × List Char) := do
  let inside ← after? cdataStart s
  let rest ← behind? cdataEnd inside
  return (upTo cdataEnd inside, rest)

theorem length_lt_of_firstSection? {s content rest : List Char}
    (h : firstSection? s = some (content, rest)) : rest.length < s.length := by
  obtain ⟨inside, hinside, h⟩ := Option.bind_eq_some_iff.mp h
  obtain ⟨behind, hbehind, h⟩ := Option.bind_eq_some_iff.mp h
  obtain ⟨-, rfl⟩ := Prod.mk.inj (Option.some.inj h)
  obtain ⟨before, hcut⟩ := behind?_eq_some_iff.mp hbehind
  have hend : 0 < cdataEnd.length := by decide
  rw [after?_eq_some_iff.mp hinside, hcut.eq]
  simp only [List.length_append]
  omega

/-- The contents of a row of sections; none if anything else stands in front of, between or behind
them. -/
def sections? (s : List Char) : Option (List (List Char)) :=
  if s = [] then some []
  else
    match _hfirst : firstSection? s with
    | none => none
    | some (content, rest) => (sections? rest).map (content :: ·)
termination_by s.length
decreasing_by exact length_lt_of_firstSection? _hfirst

/-! ### Reading a row of sections -/

/-- No end of a section begins in a content without one, not even with brackets at its end. -/
theorem isCutAt_cdataEnd {content : List Char} (h : isPart cdataEnd content = false)
    (rest : List Char) : IsCutAt cdataEnd (content ++ (cdataEnd ++ rest)) content rest := by
  induction content with
  | nil => exact Text.isCutAt_start cdataEnd rest
  | cons c content ih =>
    rw [isPart, Bool.or_eq_false_iff, Option.isSome_eq_false_iff, Option.isNone_iff_eq_none] at h
    refine (ih h.2).cons (Option.eq_none_iff_forall_not_mem.mpr fun behind hbehind => ?_)
    have heq : c :: (content ++ (']' :: ']' :: '>' :: rest)) = ']' :: ']' :: '>' :: behind :=
      after?_eq_some_iff.mp hbehind
    obtain _ | ⟨d, _ | ⟨e, content⟩⟩ := content
    · simp at heq
    · simp at heq
    · simp only [List.cons_append, List.cons.injEq] at heq
      obtain ⟨rfl, rfl, rfl, -⟩ := heq
      cases h.1

theorem firstSection?_append {content : List Char} (h : isPart cdataEnd content = false)
    (rest : List Char) : firstSection? (sectionOf content ++ rest) = some (content, rest) := by
  have hcut := isCutAt_cdataEnd h rest
  have hstart : after? cdataStart (sectionOf content ++ rest) =
      some (content ++ (cdataEnd ++ rest)) := by
    rw [after?_eq_some_iff, sectionOf]
    simp only [List.append_assoc]
  rw [firstSection?, hstart, Option.bind_eq_bind, Option.bind_some, hcut.behind?_eq, hcut.upTo_eq]
  rfl

theorem sections?_flatMap {contents : List (List Char)}
    (h : ∀ content ∈ contents, isPart cdataEnd content = false) :
    sections? (contents.flatMap sectionOf) = some contents := by
  induction contents with
  | nil => rw [List.flatMap_nil, sections?, if_pos rfl]
  | cons content contents ih =>
    obtain ⟨hcontent, hcontents⟩ := List.forall_mem_cons.mp h
    have hfirst := firstSection?_append hcontent (contents.flatMap sectionOf)
    have hne : sectionOf content ++ contents.flatMap sectionOf ≠ [] := List.cons_ne_nil _ _
    rw [List.flatMap_cons, sections?, if_neg hne]
    split
    · next hnone =>
      rw [hfirst] at hnone
      cases hnone
    · next found rest hsome =>
      rw [hfirst] at hsome
      obtain ⟨rfl, rfl⟩ := Prod.mk.inj (Option.some.inj hsome)
      rw [ih hcontents, Option.map_some]

/-! ### Writing a row of sections -/

/-- What is cut is a row of contents, none of which holds the end of a section. The induction
follows the cuts: each ends a content with its brackets, and the next content begins with the `>`. -/
theorem exists_contents (s : List Char) :
    ∃ first more, cutEnds s ++ cdataEnd = first ++ (cdataEnd ++ more.flatMap sectionOf) ∧
      first ++ more.flatten = s ∧
      ∀ content ∈ first :: more, isPart cdataEnd content = false := by
  fun_induction cutEnds s with
  | case1 rest ih =>
    obtain ⟨first, more, hprint, hflatten, hcontents⟩ := ih
    obtain ⟨hfirst, hmore⟩ := List.forall_mem_cons.mp hcontents
    have hbehind : isPart cdataEnd ('>' :: first) = false := by
      rw [isPart, hfirst]
      rfl
    refine ⟨[']', ']'], ('>' :: first) :: more, ?_, ?_, ?_⟩
    · simp only [List.flatMap_cons, sectionOf, List.append_assoc, List.cons_append, hprint]
      rfl
    · simp only [List.flatten_cons, List.cons_append, hflatten, List.nil_append]
    · exact List.forall_mem_cons.mpr ⟨by decide, List.forall_mem_cons.mpr ⟨hbehind, hmore⟩⟩
  | case2 c rest hcut ih =>
    obtain ⟨first, more, hprint, hflatten, hcontents⟩ := ih
    obtain ⟨hfirst, hmore⟩ := List.forall_mem_cons.mp hcontents
    refine ⟨c :: first, more, by rw [List.cons_append, hprint, List.cons_append],
      by rw [List.cons_append, hflatten], List.forall_mem_cons.mpr ⟨?_, hmore⟩⟩
    rw [isPart, hfirst, Bool.or_false, Option.isSome_eq_false_iff, Option.isNone_iff_eq_none]
    refine Option.eq_none_iff_forall_not_mem.mpr fun behind hbehind => ?_
    obtain ⟨rfl, hrest⟩ := List.cons.inj (after?_eq_some_iff.mp hbehind)
    rw [hrest] at hflatten
    exact hcut _ rfl hflatten.symm
  | case3 => exact ⟨[], [], rfl, rfl, by decide⟩

/-- Whatever a fragment holds, its character data is a row of sections, of which there is at least
one, and a reader gets their contents and from them the fragment. -/
theorem sections?_cdata (fragment : List Char) :
    ∃ contents, contents ≠ [] ∧ cdata fragment = contents.flatMap sectionOf ∧
      sections? (cdata fragment) = some contents ∧ contents.flatten = fragment := by
  obtain ⟨first, more, hprint, hflatten, hcontents⟩ := exists_contents fragment
  have hcdata : cdata fragment = (first :: more).flatMap sectionOf := by
    rw [cdata, List.append_assoc, hprint, List.flatMap_cons, sectionOf, List.append_assoc,
      List.append_assoc]
  exact ⟨first :: more, List.cons_ne_nil _ _, hcdata, hcdata ▸ sections?_flatMap hcontents,
    hflatten⟩

end Gazette.Markup
