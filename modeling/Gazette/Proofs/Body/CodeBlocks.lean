import Gazette.Proofs.Body.Compacting
import Gazette.Proofs.Body.Kept

/-!
# Code blocks in the body

A code block stands in one line of the printed message, and no part of it is taken off with the sign
and the fillers at the ends of the line (`codeText_infix_promote`). Behind its `<pre` at least one
preformatted element is open until its `</pre>`, at whatever depth the block begins, so compacting
keeps all of its blanks (`compactFrom_codeText`). Only separators are lost.
-/

namespace Gazette

open Markup (escape escapeStrictly separatorChar tokensOfAll)

namespace Body

open Text (isBlank trimStart)

/-- A language as it is given in the tag that begins a code block: ` data-lang="..."`. -/
def languageText (language : List Char) : List Char :=
  ' ' :: "data-lang=".toList ++ ['"'] ++ escape language ++ ['"']

/-- A code block as it is written: `<pre><code>...</code></pre>`, with its language in the first tag
if it has one. -/
def codeText (language? : Option (List Char)) (content : List Char) : List Char :=
  '<' :: "pre".toList ++ language?.elim [] languageText ++ "><code>".toList ++
    escapeStrictly content ++ "</code></pre>".toList

example : codeText (some "c".toList) "a\n\tb".toList =
    "<pre data-lang=\"c\"><code>a\n\tb</code></pre>".toList := by decide

/-! ### Code blocks in lines -/

theorem printAll_html_codeBlock (resolver : Resolver) (language : Option String)
    (content : String) :
    Markup.printAll (Node.html resolver (.codeBlock language (.text content))) =
      codeText (language.map String.toList) content.toList := by
  have hopening : Markup.openingTag "pre" (language.toList.map (Attribute.value "data-lang")) =
      "<pre".toList ++ (language.map String.toList).elim [] languageText ++ ['>'] := by
    cases language with
    | none => rfl
    | some language =>
      rw [Option.toList_some, List.map_singleton, Markup.openingTag, List.flatMap_singleton]
      rfl
  have hcode : Markup.printAll [.plain "code" [.message content]] =
      "<code>".toList ++ (escapeStrictly content.toList ++ "</code>".toList) := by
    simp only [Markup.plain, Markup.printAll, Markup.print, List.append_nil, List.append_assoc]
    rfl
  rw [Node.html, Node.htmlOfContent, Markup.printAll, Markup.print, hopening, hcode]
  simp only [Markup.printAll, codeText, List.append_assoc, List.append_nil]
  rfl

theorem lineBreak_notMem_codeBlock (resolver : Resolver) (language : Option String)
    (content : String) :
    Token.opening .lineBreak ∉
      tokensOfAll (Node.html resolver (.codeBlock language (.text content))) := by
  simp only [Node.html, Node.htmlOfContent, Markup.plain, tokensOfAll, Markup.tokens,
    List.append_nil, List.mem_cons, List.mem_append, List.mem_map, List.not_mem_nil, reduceCtorEq,
    and_false, exists_false, or_false]
  rintro (hpre | hcode)
  · exact tag_ne_lineBreak _ _ hpre.symm
  · exact tag_ne_lineBreak _ _ hcode.symm

/-- A code block, cut where its tags begin. -/
theorem codeText_append (language? : Option (List Char)) (content rest : List Char) :
    codeText language? content ++ rest =
      '<' :: (['p', 'r', 'e'] ++ language?.elim [] languageText ++ ['>'] ++
        '<' :: (['c', 'o', 'd', 'e', '>'] ++ escapeStrictly content ++
          '<' :: (['/', 'c', 'o', 'd', 'e', '>'] ++ '<' :: (['/', 'p', 'r', 'e', '>'] ++ rest)))) := by
  simp only [codeText, List.append_assoc]
  rfl

/-- A code block begins and ends with characters that are no part of signs, fillers or blanks. -/
theorem exists_codeText_eq (language? : Option (List Char)) (content : List Char) :
    ∃ inner, codeText language? content = '<' :: (inner ++ ['>']) := by
  refine ⟨"pre".toList ++ language?.elim [] languageText ++ "><code>".toList ++
    escapeStrictly content ++ "</code></pre".toList, ?_⟩
  simp only [codeText, List.append_assoc]
  rfl

theorem codeText_infix_of_infix_between {language? : Option (List Char)}
    {content gone rest tail : List Char} (hgone : '<' ∉ gone) (htail : '>' ∉ tail)
    (h : codeText language? content <:+: gone ++ (rest ++ tail)) :
    codeText language? content <:+: rest := by
  obtain ⟨inner, heq⟩ := exists_codeText_eq language? content
  rw [heq] at h ⊢
  have hrest := Text.cons_infix_of_infix_append hgone h
  rw [← List.cons_append] at hrest ⊢
  exact Text.concat_infix_of_infix_append htail hrest

/-- A code block in a line is not cut when the line is promoted. -/
theorem codeText_infix_print {language? : Option (List Char)} {content line : List Char}
    (h : codeText language? content <:+: line) (next? : Option (List Char)) :
    codeText language? content <:+: (classify line next?).print := by
  obtain ⟨gone, rest, tail, front, behind, rfl, hgone, htail, hprint⟩ :=
    exists_print_classify line next?
  have hrest := codeText_infix_of_infix_between
    (fun hmem => absurd (hgone '<' hmem) (by decide))
    (fun hmem => absurd (htail '>' hmem) (by decide)) h
  rw [hprint]
  exact hrest.trans (List.infix_append front rest behind)

/-! ### Separators in code blocks -/

theorem stripSeparators_flatMap {write : Char → List Char}
    (h : ∀ c, stripSeparators (write c) = if c = separatorChar then [] else write c)
    (s : List Char) : stripSeparators (s.flatMap write) = (stripSeparators s).flatMap write := by
  induction s with
  | nil => rfl
  | cons c s ih =>
    rw [List.flatMap_cons, stripSeparators_append, h, ih]
    by_cases hc : c = separatorChar
    · subst hc
      rfl
    · rw [if_neg hc, stripSeparators_cons_of_ne hc, List.flatMap_cons]

theorem stripSeparators_escapeChar (c : Char) :
    stripSeparators (Markup.escapeChar c) =
      if c = separatorChar then [] else Markup.escapeChar c := by
  unfold Markup.escapeChar
  split
  · decide
  · decide
  · decide
  · decide
  · by_cases hc : c = separatorChar
    · subst hc
      rfl
    · rw [if_neg hc]
      exact stripSeparators_cons_of_ne hc []

theorem stripSeparators_escape (s : List Char) :
    stripSeparators (escape s) = escape (stripSeparators s) :=
  stripSeparators_flatMap stripSeparators_escapeChar s

theorem stripSeparators_escapeStrictly (s : List Char) :
    stripSeparators (escapeStrictly s) = escapeStrictly (stripSeparators s) := by
  refine stripSeparators_flatMap (fun c => ?_) s
  unfold Markup.escapeCharStrictly
  split
  · next hc =>
    subst hc
    decide
  · exact stripSeparators_escapeChar c

theorem stripSeparators_languageText (language : List Char) :
    stripSeparators (languageText language) = languageText (stripSeparators language) := by
  simp only [languageText, stripSeparators_append, stripSeparators_escape]
  rfl

/-- A code block without separators is the code block of what it shows, without them. -/
theorem stripSeparators_codeText (language? : Option (List Char)) (content : List Char) :
    stripSeparators (codeText language? content) =
      codeText (language?.map stripSeparators) (stripSeparators content) := by
  have hlanguage : stripSeparators (language?.elim [] languageText) =
      (language?.map stripSeparators).elim [] languageText := by
    cases language? with
    | none => exact List.filter_nil
    | some language => exact stripSeparators_languageText language
  simp only [codeText, stripSeparators_append, hlanguage, stripSeparators_escapeStrictly]
  rfl

/-- Each code block of a tree stands in the promoted message, without separators. -/
theorem codeText_infix_promote (resolver : Resolver) {nodes : List Node}
    {language : Option String} {content : String}
    (h : ∃ place ∈ placesOfAll [] nodes, place.1 = .codeBlock language (.text content)) :
    codeText (language.map fun s => stripSeparators s.toList) (stripSeparators content.toList) <:+:
      promote (raw resolver nodes) := by
  obtain ⟨place, hplace, hblock⟩ := h
  have htokens : tokensOfAll (Node.html resolver (.codeBlock language (.text content))) <:+:
      tokensOfAll (Node.htmlOfAll resolver nodes) :=
    hblock ▸ tokensOfAll_infix_htmlOfAll nodes hplace
  obtain ⟨line, hline, hpart⟩ :=
    exists_infix_line resolver (lineBreak_notMem_codeBlock resolver language content) htokens
  rw [Markup.printAll_tokensOfAll, printAll_html_codeBlock] at hpart
  obtain ⟨next?, hmem⟩ := exists_classify_mem hline
  have hall := (codeText_infix_print hpart next?).trans (print_infix_printAll hmem)
  have hstripped := hall.filter (· != separatorChar)
  rw [← stripSeparators, stripSeparators_codeText, Option.map_map] at hstripped
  exact hstripped

/-! ### Blanks in code blocks -/

/-- What is kept wherever it stands is kept. -/
theorem infix_compactFrom {part : List Char}
    (hpart : ∀ depth inRun rest, part <+: compactFrom depth inRun (part ++ rest))
    {s : List Char} (h : part <:+: s) (depth : Nat) (inRun : Bool) :
    part <:+: compactFrom depth inRun s := by
  induction s generalizing depth inRun with
  | nil =>
    obtain rfl := List.infix_nil.mp h
    exact List.nil_infix
  | cons c s ih =>
    obtain ⟨rest, heq⟩ | hbehind := List.infix_cons_iff.mp h
    · rw [← heq]
      exact (hpart depth inRun rest).isInfix
    · rw [compactFrom]
      split
      · split
        · exact ih hbehind _ true
        · exact (ih hbehind _ true).trans (List.suffix_cons _ _).isInfix
      · exact (ih hbehind _ false).trans (List.suffix_cons _ _).isInfix

/-- Inside a preformatted element everything is kept up to the next tag. -/
theorem compactFrom_append_of_notMem {s : List Char} (hs : '<' ∉ s) (depth : Nat)
    (rest : List Char) :
    compactFrom (depth + 1) false (s ++ rest) = s ++ compactFrom (depth + 1) false rest := by
  induction s with
  | nil => rfl
  | cons c s ih =>
    obtain ⟨hc, hs⟩ := not_or.mp (fun hmem => hs (List.mem_cons.mpr hmem))
    rw [List.cons_append, compactFrom_cons (Ne.symm hc), if_neg (fun h => by omega), ih hs]
    rfl

theorem compactFrom_of_preDepth_eq_succ {s rest : List Char} (hs : '<' ∉ s) {depth behind : Nat}
    (hdepth : preDepth depth ('<' :: (s ++ rest)) = behind + 1) (inRun : Bool) :
    compactFrom depth inRun ('<' :: (s ++ rest)) =
      '<' :: (s ++ compactFrom (behind + 1) false rest) := by
  rw [compactFrom_cons_of_not_blank (by decide), hdepth, compactFrom_append_of_notMem hs]

/-- A code block is kept wherever it stands, and as many elements are open behind it as before. -/
theorem compactFrom_codeText (language? : Option (List Char)) (content : List Char) (depth : Nat)
    (inRun : Bool) (rest : List Char) :
    compactFrom depth inRun (codeText language? content ++ rest) =
      codeText language? content ++ compactFrom depth false rest := by
  have hlanguage : '<' ∉ language?.elim [] languageText := by
    cases language? with
    | none => exact List.not_mem_nil
    | some language =>
      have hescape : '<' ∉ escape language := fun hmem => (mem_escape hmem).2.1 rfl
      simpa [languageText] using hescape
  have hpre : '<' ∉ ['p', 'r', 'e'] ++ language?.elim [] languageText ++ ['>'] := by
    simpa using hlanguage
  have hcode : '<' ∉ ['c', 'o', 'd', 'e', '>'] ++ escapeStrictly content := by
    have hescape : '<' ∉ escapeStrictly content := fun hmem => (mem_escapeStrictly hmem).1 rfl
    simpa using hescape
  have hclose : '<' ∉ ['/', 'c', 'o', 'd', 'e', '>'] := by decide
  have hend : compactFrom (depth + 1) false ('<' :: (['/', 'p', 'r', 'e', '>'] ++ rest)) =
      '<' :: (['/', 'p', 'r', 'e', '>'] ++ compactFrom depth false rest) := by
    rw [compactFrom_cons_of_not_blank (by decide)]
    exact congrArg ('<' :: ·) (compactFrom_append_of_isSteady (by decide) depth rest)
  rw [codeText_append, codeText_append, compactFrom_of_preDepth_eq_succ hpre rfl,
    compactFrom_of_preDepth_eq_succ hcode rfl, compactFrom_of_preDepth_eq_succ hclose rfl, hend]

theorem codeText_infix_compact {language? : Option (List Char)} {content s : List Char}
    (h : codeText language? content <:+: s) : codeText language? content <:+: compact s := by
  have hblank : ∀ {part : List Char}, (∀ c ∈ part, isBlank c = true) → '<' ∉ part ∧ '>' ∉ part :=
    fun hpart => ⟨fun hmem => absurd (hpart '<' hmem) (by decide),
      fun hmem => absurd (hpart '>' hmem) (by decide)⟩
  have hkept : codeText language? content <:+: compactFrom 0 false s := by
    refine infix_compactFrom (fun depth inRun rest => ?_) h 0 false
    rw [compactFrom_codeText]
    exact List.prefix_append _ _
  obtain ⟨tail, htrim, htail⟩ := Text.dropTail_append_eq isBlank (trimStart (compactFrom 0 false s))
  have hsplit := (List.takeWhile_append_dropWhile (p := isBlank) (l := compactFrom 0 false s)).symm
  rw [← trimStart, htrim] at hsplit
  rw [hsplit] at hkept
  exact codeText_infix_of_infix_between (hblank (List.all_eq_true.mp List.all_takeWhile)).1
    (hblank htail).2 hkept

/-- The body shows each code block of the tree with all its blanks, and its language; only
separators are taken out. -/
theorem codeText_infix_render (resolver : Resolver) {nodes : List Node} {language : Option String}
    {content : String}
    (h : ∃ place ∈ placesOfAll [] nodes, place.1 = .codeBlock language (.text content)) :
    codeText (language.map fun s => stripSeparators s.toList) (stripSeparators content.toList) <:+:
      render resolver nodes :=
  codeText_infix_compact (codeText_infix_promote resolver h)

/-- A code block in a heading, inside a quote. -/
def quotedCode : List Node :=
  [.text "# ", .blockQuote (.nodes [.styled .strong
    (.nodes [.codeBlock (some "r\uE000s") (.text "a <  b\n\t\uE000c ")])])]

theorem codeText_infix_render_quotedCode :
    (∃ place ∈ placesOfAll [] quotedCode,
      place.1 = .codeBlock (some "r\uE000s") (.text "a <  b\n\t\uE000c ")) ∧
    "<pre data-lang=\"rs\"><code>a &lt;  b\n\tc </code></pre>".toList <:+:
      render Entities.empty.resolver quotedCode := by
  have hplace : ∃ place ∈ placesOfAll [] quotedCode,
      place.1 = .codeBlock (some "r\uE000s") (.text "a <  b\n\t\uE000c ") :=
    ⟨_, List.mem_of_getElem? (i := 3) rfl, rfl⟩
  refine ⟨hplace, ?_⟩
  have hkept := codeText_infix_render Entities.empty.resolver hplace
  have htext : codeText ((some "r\uE000s").map fun s => stripSeparators s.toList)
      (stripSeparators "a <  b\n\t\uE000c ".toList) =
      "<pre data-lang=\"rs\"><code>a &lt;  b\n\tc </code></pre>".toList := by
    decide
  exact htext ▸ hkept

end Body

end Gazette
