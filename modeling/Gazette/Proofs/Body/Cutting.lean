import Gazette.Proofs.Body.Nodes

/-!
# Cutting tokens into lines

Counting tags in the text of a fragment gives the number of its open elements, so the lines of the
text are its tokens, cut at the line breaks outside of all elements (`lines_printAll`). The lines of
a fragment are fragments again (`isFragment_of_mem_cut`).
-/

namespace Gazette.Body

open Text (after? isBlank)

/-- How deep it is behind a token. -/
def depthAfter (token : Token) (depth : Nat) : Nat :=
  match mark? token with
  | some (.opens _ _) => depth + 1
  | some (.closes _) => depth - 1
  | some .breaks | none => depth

/-- Puts a token before the first of some lines. -/
def prependToken (token : Token) : List (List Token) → List (List Token)
  | [] => [[token]]
  | line :: rest => (token :: line) :: rest

/-- Tokens at some depth, cut at each line break at depth zero. -/
def cut (depth : Nat) : List Token → List (List Token)
  | [] => [[]]
  | token :: rest =>
    if depth = 0 ∧ token = .opening .lineBreak then [] :: cut 0 rest
    else prependToken token (cut (depthAfter token depth) rest)

theorem cut_ne_nil (depth : Nat) (tokens : List Token) : cut depth tokens ≠ [] := by
  cases tokens with
  | nil => exact List.cons_ne_nil _ _
  | cons token rest =>
    rw [cut]
    split
    · exact List.cons_ne_nil _ _
    · cases cut (depthAfter token depth) rest with
      | nil => exact List.cons_ne_nil _ _
      | cons line lines => exact List.cons_ne_nil _ _

theorem map_printAll_prependToken (token : Token) {lines : List (List Token)} (h : lines ≠ []) :
    (prependToken token lines).map Token.printAll =
      prepend token.print (lines.map Token.printAll) := by
  cases lines with
  | nil => exact absurd rfl h
  | cons line rest => rfl

/-! ### Tags in the text -/

theorem cutTag_of_notMem {s : List Char} (h : '>' ∉ s) : cutTag s = (s, []) := by
  induction s with
  | nil => rfl
  | cons c s ih =>
    rw [cutTag, if_neg (List.ne_of_not_mem_cons h).symm, ih (List.not_mem_of_not_mem_cons h)]

theorem cutTag_append_of_notMem {s : List Char} (h : '>' ∉ s) (rest : List Char) :
    cutTag (s ++ '>' :: rest) = (s ++ ['>'], rest) := by
  induction s with
  | nil => rfl
  | cons c s ih =>
    have hc : c ≠ '>' := fun heq => h (heq ▸ List.mem_cons_self)
    have hs : '>' ∉ s := fun hmem => h (List.mem_cons_of_mem c hmem)
    rw [List.cons_append, cutTag, if_neg hc, ih hs]
    rfl

theorem notMem_of_isName {name : String} (h : isName name) {c : Char} (hc : isNameChar c = false) :
    c ∉ name.toList := by
  obtain ⟨d, rest, hcons, hd, hrest⟩ := isName_cons h
  rw [hcons]
  intro hmem
  rcases List.mem_cons.mp hmem with rfl | hmem
  · exact isNameChar_ne hd hc rfl
  · exact isNameChar_ne (hrest c hmem) hc rfl

theorem notMem_printAttribute {name : String} {value? : Option (List Char)} (hname : isName name)
    (hvalue : ∀ value ∈ value?, IsClean value) {c : Char} (hc : c = '<' ∨ c = '>') :
    c ∉ Tag.printAttribute (name, value?) := by
  have hnotName : c ∉ name.toList := by
    rcases hc with rfl | rfl
    · exact notMem_of_isName hname rfl
    · exact notMem_of_isName hname rfl
  have hne : c ≠ ' ' ∧ c ≠ '=' ∧ c ≠ '"' := by rcases hc with rfl | rfl <;> decide
  cases value? with
  | none => simp [Tag.printAttribute, hne, hnotName]
  | some value =>
    have hnotValue : c ∉ value := by
      intro hmem
      obtain ⟨-, hopen, hclose⟩ := hvalue value rfl c hmem
      exact hc.elim hopen hclose
    simp [Tag.printAttribute, hne, hnotName, hnotValue]

/-- The text of a tag holds no `<` but the one at its start, and no `>` but the one at its end. -/
theorem print_tag_eq {token : Token} (h : token.IsLexical) (hchar : ∀ c, token ≠ .char c) :
    ∃ s, token.print = '<' :: s ++ ['>'] ∧ ∀ c, c = '<' ∨ c = '>' → c ∉ s := by
  have hisName : ∀ c, c = '<' ∨ c = '>' → isNameChar c = false := by
    rintro c (rfl | rfl) <;> rfl
  cases token with
  | char c => exact absurd rfl (hchar c)
  | closing name =>
    refine ⟨'/' :: name.toList, rfl, fun c hc hmem => ?_⟩
    rcases List.mem_cons.mp hmem with rfl | hmem
    · exact hc.elim (by decide) (by decide)
    · exact notMem_of_isName h (hisName c hc) hmem
  | opening tag =>
    refine ⟨tag.name.toList ++ (tag.attributes.flatMap Tag.printAttribute ++
      (if tag.slash then [' ', '/'] else [])), ?_, fun c hc => ?_⟩
    · cases hslash : tag.slash <;> simp [Token.print, Tag.inside, Tag.ending, hslash]
    · have hattributes : c ∉ tag.attributes.flatMap Tag.printAttribute := by
        intro hmem
        obtain ⟨a, ha, hmem⟩ := List.mem_flatMap.mp hmem
        exact notMem_printAttribute (h.2 a ha).1 (h.2 a ha).2 hc hmem
      have hending : c ∉ (if tag.slash then [' ', '/'] else []) := by
        cases tag.slash <;> rcases hc with rfl | rfl <;> decide
      simp only [List.mem_append, not_or]
      exact ⟨notMem_of_isName h.1 (hisName c hc), hattributes, hending⟩

theorem cutTag_print {token : Token} (h : token.IsLexical) (hchar : ∀ c, token ≠ .char c)
    (rest : List Char) : cutTag (token.print ++ rest) = (token.print, rest) := by
  obtain ⟨s, hprint, hs⟩ := print_tag_eq h hchar
  have hmem : '>' ∉ '<' :: s := by simpa using hs '>' (.inr rfl)
  rw [hprint, List.append_assoc]
  exact cutTag_append_of_notMem hmem rest

/-- The names of tags hold none of the characters that end a name. -/
theorem tagName_print {tag : Tag} (h : tag.name ∈ tagNames) :
    tagName (Token.print (.opening tag)) = tag.name.toList := by
  have hall : ∀ name ∈ tagNames,
      name.toList.head? ≠ some '<' ∧
        name.toList.all (fun c => !(isBlank c || c == '>' || c == '/')) = true := by decide
  obtain ⟨hhead, hname⟩ := hall tag.name h
  obtain ⟨d, rest, hcons, hd⟩ : ∃ d rest,
      tag.attributes.flatMap Tag.printAttribute ++ Tag.ending tag.slash = d :: rest ∧
        (!(isBlank d || d == '>' || d == '/')) = false := by
    cases tag.attributes with
    | nil => cases tag.slash <;> exact ⟨_, _, rfl, rfl⟩
    | cons a attributes =>
      obtain ⟨name, value?⟩ := a
      cases value? <;> exact ⟨' ', _, rfl, rfl⟩
  have hdrop : (Token.print (.opening tag)).dropWhile (· == '<') =
      tag.name.toList ++ d :: rest := by
    rw [Token.print, Tag.inside, hcons, List.dropWhile_cons_of_pos (by decide)]
    cases hchars : tag.name.toList with
    | nil =>
      have hne : d ≠ '<' := by
        rintro rfl
        cases hd
      simp [hne]
    | cons c chars =>
      have hne : c ≠ '<' := by
        rintro rfl
        simp [hchars] at hhead
      simp [hne]
  rw [tagName, hdrop, List.takeWhile_append_of_pos (List.all_eq_true.mp hname), List.takeWhile_cons_of_neg (by simp [hd]),
    List.append_nil]

theorem isVoid_print_of_value {name : String} (hname : name ∈ tagNames)
    (attributes : List (String × Option (List Char))) (key : String) (value : List Char) :
    isVoid (Token.print (.opening ⟨name, attributes ++ [(key, some value)], false⟩)) =
      voidNames.contains name.toList := by
  have hend : (after? ['>', '/'] (Token.print
      (.opening ⟨name, attributes ++ [(key, some value)], false⟩)).reverse) = none := by
    simp [Token.print, Tag.inside, Tag.printAttribute, Tag.ending, after?]
  rw [isVoid, hend, tagName_print hname]
  rfl

theorem isVoid_print {tag : Tag} (h : IsTag tag) :
    isVoid (Token.print (.opening tag)) = (tag.name == "br" || tag.name == "img") := by
  cases h with
  | plain h =>
    have hall : ∀ name ∈ plainNames, isVoid (Token.print (.opening ⟨name, [], false⟩)) =
        (name == "br" || name == "img") := by decide
    exact hall _ h
  | lineBreak => decide
  | spoiler => decide
  | sub => decide
  | link => exact isVoid_print_of_value (by decide) [] _ _
  | external => exact isVoid_print_of_value (by decide) [_, _] _ _
  | code => exact isVoid_print_of_value (by decide) [] _ _
  | time => exact isVoid_print_of_value (by decide) [_] _ _
  | image => exact isVoid_print_of_value (by decide) [_, _] _ _

/-- Counting tags follows the marks. -/
theorem depthBehind_print {token : Token} (h : IsWritten token) (hchar : ∀ c, token ≠ .char c)
    (depth : Nat) : depthBehind token.print depth = depthAfter token depth := by
  cases token with
  | char c => exact absurd rfl (hchar c)
  | closing name => rfl
  | opening tag =>
    have hslash : (after? ['<', '/'] (Token.print (.opening tag))).isSome = false := by
      obtain ⟨c, rest, hcons, hc, -⟩ := isName_cons (IsTag.isLexical h).1
      have hne := isNameChar_ne hc (d := '/') rfl
      simp [Token.print, Tag.inside, hcons, after?, Ne.symm hne]
    rw [depthBehind, if_neg (by simp [hslash]), isVoid_print h, depthAfter, mark?]
    by_cases hbr : tag.name = "br"
    · simp [hbr]
    · by_cases himg : tag.name = "img" <;> simp [hbr, himg]

theorem after?_lineBreakText_cons {c : Char} (h : c ≠ 'b') (rest : List Char) :
    after? Markup.lineBreakText ('<' :: c :: rest) = none := by
  have htext : Markup.lineBreakText = '<' :: 'b' :: "r />".toList := by decide
  rw [htext, after?, if_pos rfl, after?, if_neg (Ne.symm h)]

theorem after?_lineBreakText_opening {name : String} (h : name ∈ ["a", "pre", "span", "time", "img"])
    (attributes : List (String × Option (List Char))) (slash : Bool) (rest : List Char) :
    after? Markup.lineBreakText (Token.print (.opening ⟨name, attributes, slash⟩) ++ rest) = none := by
  have hall : ∀ name ∈ ["a", "pre", "span", "time", "img"],
      name.toList ≠ [] ∧ name.toList.head? ≠ some 'b' := by decide
  obtain ⟨hne, hhead⟩ := hall name h
  cases hname : name.toList with
  | nil => exact absurd hname hne
  | cons c chars =>
    have hc : c ≠ 'b' := by
      rintro rfl
      exact hhead (by rw [hname, List.head?_cons])
    rw [Token.print, Tag.inside, hname]
    exact after?_lineBreakText_cons hc _

/-- Only a line break looks like one. -/
theorem after?_lineBreakText_print {token : Token} (h : IsWritten token)
    (hchar : ∀ c, token ≠ .char c) (hne : token ≠ .opening .lineBreak) (rest : List Char) :
    after? Markup.lineBreakText (token.print ++ rest) = none := by
  cases token with
  | char c => exact absurd rfl (hchar c)
  | closing name => exact after?_lineBreakText_cons (c := '/') (by decide) _
  | opening tag =>
    cases (show IsTag tag from h) with
    | plain hname =>
      simp only [plainNames, List.mem_cons, List.not_mem_nil, or_false] at hname
      rcases hname with rfl | rfl | rfl | rfl | rfl | rfl | rfl | rfl | rfl <;> rfl
    | lineBreak => exact absurd rfl hne
    | link | external | code | spoiler | sub | time | image =>
      exact after?_lineBreakText_opening (by decide) _ _ rest

/-! ### Lines of the text -/

theorem linesFrom_cons_of_ne {c : Char} (h : c ≠ '<') (depth : Nat) (rest : List Char) :
    linesFrom depth (c :: rest) = prepend [c] (linesFrom depth rest) := by
  rw [linesFrom, if_neg h]

theorem linesFrom_lineBreak (rest : List Char) :
    linesFrom 0 (Markup.lineBreakText ++ rest) = [] :: linesFrom 0 rest := by
  have hafter : after? Markup.lineBreakText ('<' :: ("br />".toList ++ rest)) = some rest :=
    Text.after?_eq_some_iff.mpr rfl
  change linesFrom 0 ('<' :: ("br />".toList ++ rest)) = _
  rw [linesFrom, if_pos rfl]
  split
  · next behind h =>
    rw [if_pos rfl, hafter] at h
    cases h
    rfl
  · next h =>
    rw [if_pos rfl, hafter] at h
    cases h

theorem linesFrom_tag {s : List Char} {depth : Nat}
    (h : depth ≠ 0 ∨ after? Markup.lineBreakText ('<' :: s) = none) :
    linesFrom depth ('<' :: s) = prepend (cutTag ('<' :: s)).1
      (linesFrom (depthBehind (cutTag ('<' :: s)).1 depth) (cutTag ('<' :: s)).2) := by
  have hnone : (if depth = 0 then after? Markup.lineBreakText ('<' :: s) else none) = none := by
    rcases h with hdepth | hafter
    · exact if_neg hdepth
    · rw [hafter, ite_self]
  rw [linesFrom, if_pos rfl]
  split
  · next behind hsome =>
    rw [hnone] at hsome
    cases hsome
  · rfl

theorem linesFrom_print_tag {token : Token} (h : IsWritten token) (hchar : ∀ c, token ≠ .char c)
    {depth : Nat} (hbreak : ¬(depth = 0 ∧ token = .opening .lineBreak)) (rest : List Char) :
    linesFrom depth (token.print ++ rest) =
      prepend token.print (linesFrom (depthAfter token depth) rest) := by
  have hcut := cutTag_print h.isLexical hchar rest
  have hdepth := depthBehind_print h hchar depth
  have hafter : depth ≠ 0 ∨ after? Markup.lineBreakText (token.print ++ rest) = none := by
    by_cases hzero : depth = 0
    · exact .inr (after?_lineBreakText_print h hchar (fun heq => hbreak ⟨hzero, heq⟩) rest)
    · exact .inl hzero
  obtain ⟨s, hprint, -⟩ := print_tag_eq h.isLexical hchar
  have hcons : token.print ++ rest = '<' :: (s ++ ['>'] ++ rest) := by
    rw [hprint]
    rfl
  rw [hcons] at hafter hcut ⊢
  rw [linesFrom_tag hafter, hcut, hdepth]

theorem linesFrom_printAll {tokens : List Token} (h : ∀ token ∈ tokens, IsWritten token)
    (depth : Nat) :
    linesFrom depth (Token.printAll tokens) = (cut depth tokens).map Token.printAll := by
  induction tokens generalizing depth with
  | nil =>
    rw [Token.printAll_nil, linesFrom]
    rfl
  | cons token rest ih =>
    have htoken := h token List.mem_cons_self
    have hrest := ih fun t ht => h t (List.mem_cons_of_mem token ht)
    rw [Token.printAll_cons, cut]
    by_cases hbreak : depth = 0 ∧ token = .opening .lineBreak
    · obtain ⟨rfl, rfl⟩ := hbreak
      rw [if_pos ⟨rfl, rfl⟩, Token.print_lineBreak, linesFrom_lineBreak, hrest]
      rfl
    · rw [if_neg hbreak, map_printAll_prependToken _ (cut_ne_nil _ _), ← hrest]
      cases token with
      | char c => exact linesFrom_cons_of_ne htoken.1 depth _
      | opening tag => exact linesFrom_print_tag htoken (fun _ => Token.noConfusion) hbreak _
      | closing name => exact linesFrom_print_tag htoken (fun _ => Token.noConfusion) hbreak _

theorem lines_printAll {tokens : List Token} (h : ∀ token ∈ tokens, IsWritten token) :
    lines (Token.printAll tokens) = (cut 0 tokens).map Token.printAll :=
  linesFrom_printAll h 0

/-! ### Lines of a fragment -/

theorem mem_of_mem_cut {depth : Nat} {tokens line : List Token} {token : Token}
    (hline : line ∈ cut depth tokens) (h : token ∈ line) : token ∈ tokens := by
  induction tokens generalizing depth line with
  | nil =>
    rw [List.mem_singleton.mp hline] at h
    cases h
  | cons first rest ih =>
    rw [cut] at hline
    split at hline
    · rcases List.mem_cons.mp hline with rfl | hline
      · cases h
      · exact List.mem_cons_of_mem first (ih hline h)
    · cases hcut : cut (depthAfter first depth) rest with
      | nil => exact absurd hcut (cut_ne_nil _ _)
      | cons head lines =>
        rw [hcut] at hline
        rcases List.mem_cons.mp hline with rfl | hline
        · rcases List.mem_cons.mp h with rfl | h
          · exact List.mem_cons_self
          · exact List.mem_cons_of_mem first (ih (hcut ▸ List.mem_cons_self) h)
        · exact List.mem_cons_of_mem first (ih (hcut ▸ List.mem_cons_of_mem head hline) h)

theorem depthAfter_eq_length {token : Token} {mark : Mark} {stack next : OpenElements}
    (hmark : mark? token = some mark) (hstep : mark.step? stack = some next) :
    depthAfter token stack.length = next.length := by
  rw [depthAfter, hmark]
  cases mark with
  | opens name isHeadline =>
    cases hstep
    rfl
  | breaks =>
    simp only [Mark.step?] at hstep
    split at hstep
    · cases hstep
    · cases hstep
      rfl
  | closes name =>
    cases stack with
    | nil => cases hstep
    | cons top rest =>
      simp only [Mark.step?] at hstep
      split at hstep
      · cases hstep
        rfl
      · cases hstep

/-- The first line closes what is open, and all others are well nested. The induction is on the
tokens, with as many elements open as the depth says. -/
theorem nested_cut {stack : OpenElements} {tokens : List Token}
    (h : nest? stack (marks tokens) = some []) :
    ∃ first rest, cut stack.length tokens = first :: rest ∧
      nest? stack (marks first) = some [] ∧ ∀ line ∈ rest, nest? [] (marks line) = some [] := by
  induction tokens generalizing stack with
  | nil => exact ⟨[], [], rfl, h, fun _ hmem => absurd hmem List.not_mem_nil⟩
  | cons token rest ih =>
    by_cases hbreak : stack.length = 0 ∧ token = .opening .lineBreak
    · obtain ⟨hlength, rfl⟩ := hbreak
      obtain rfl := List.length_eq_zero_iff.mp hlength
      obtain ⟨first, lines, hcut, hfirst, hlines⟩ := @ih [] h
      refine ⟨[], first :: lines, ?_, rfl, List.forall_mem_cons.mpr ⟨hfirst, hlines⟩⟩
      rw [cut, if_pos ⟨rfl, rfl⟩]
      exact congrArg _ hcut
    · rw [cut, if_neg hbreak]
      cases hmark : mark? token with
      | none =>
        have hmarks : ∀ tail, marks (token :: tail) = marks tail :=
          fun tail => List.filterMap_cons_none hmark
        have hdepth : depthAfter token stack.length = stack.length := by rw [depthAfter, hmark]
        rw [hmarks] at h
        obtain ⟨first, lines, hcut, hfirst, hlines⟩ := ih h
        refine ⟨token :: first, lines, ?_, (hmarks first).symm ▸ hfirst, hlines⟩
        rw [hdepth, hcut]
        rfl
      | some mark =>
        have hmarks : ∀ tail, marks (token :: tail) = mark :: marks tail :=
          fun tail => List.filterMap_cons_some hmark
        rw [hmarks, nest?] at h
        obtain ⟨next, hstep, hnext⟩ := Option.bind_eq_some_iff.mp h
        obtain ⟨first, lines, hcut, hfirst, hlines⟩ := ih hnext
        refine ⟨token :: first, lines, ?_, ?_, hlines⟩
        · rw [depthAfter_eq_length hmark hstep, hcut]
          rfl
        · rw [hmarks, nest?, hstep]
          exact hfirst

theorem isFragment_of_mem_cut {tokens line : List Token} (h : IsFragment tokens)
    (hline : line ∈ cut 0 tokens) : IsFragment line := by
  refine ⟨fun token htoken => h.written token (mem_of_mem_cut hline htoken), ?_⟩
  obtain ⟨first, rest, hcut, hfirst, hrest⟩ := nested_cut h.nested
  have hmem : line ∈ first :: rest := hcut ▸ hline
  rcases List.mem_cons.mp hmem with rfl | hmem
  · exact hfirst
  · exact hrest line hmem

end Gazette.Body
