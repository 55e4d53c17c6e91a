import Gazette.Proofs.Body.Marked
import Gazette.Proofs.Text.Places

/-!
# The first heading of a body

The first `<h1>` of a body stands where the first line that is marked for one was, and what is in it
is the text of that line behind its sign, with some fillers less (`rel_headingText?_render`). It is
looked for in the text of the body, from the first opening tag to the first closing tag behind it.
-/

namespace Gazette.Body

open Markup (unescape lineBreakText)
open Text (after? behind? dropTail isBlank isPart upTo IsCutAt)

/-- What is between the first `<h1>` of a body and the closing tag behind it. -/
def headingText? (body : List Char) : Option (List Char) :=
  (behind? "<h1>".toList body).map (upTo "</h1>".toList)

/-- What is seen of the first `<h1>` of a body: its text without tags, with its entities read. -/
def firstHeading? (body : List Char) : Option (List Char) :=
  (headingText? body).map fun s => unescape (untag noSign s)

theorem isSome_firstHeading? (body : List Char) :
    (firstHeading? body).isSome = isPart "<h1>".toList body := by
  rw [firstHeading?, headingText?, Option.isSome_map, Option.isSome_map, Text.isSome_behind?]

example : firstHeading? "<b>a</b><h1><i>b</i> &lt; c</h1><h1>d</h1>".toList =
    some "b < c".toList := by decide

/-! ### Tokens of a heading -/

def headingTag : Tag := ⟨"h1", [], false⟩

theorem isTag_headingTag : IsTag headingTag := .plain (by decide)

theorem isLexical_heading :
    (Token.opening headingTag).IsLexical ∧ (Token.closing "h1").IsLexical := by
  have hclosing : IsWritten (.closing "h1") := by
    change "h1" ∈ closedNames
    decide
  exact ⟨isTag_headingTag.isLexical, hclosing.isLexical⟩

/-- The tokens between the first tag that opens a heading and the closing tag behind it. -/
def headingTokens? : List Token → Option (List Token)
  | [] => none
  | token :: rest =>
    if token = .opening headingTag then some (rest.takeWhile (· ≠ .closing "h1"))
    else headingTokens? rest

theorem headingTokens?_append {before : List Token} (h : .opening headingTag ∉ before)
    (rest : List Token) :
    headingTokens? (before ++ .opening headingTag :: rest) =
      some (rest.takeWhile (· ≠ .closing "h1")) := by
  induction before with
  | nil => rfl
  | cons token before ih =>
    obtain ⟨hne, hbefore⟩ := not_or.mp (fun hmem => h (List.mem_cons.mpr hmem))
    exact (if_neg (Ne.symm hne)).trans (ih hbefore)

theorem headingTokens?_eq_none {tokens : List Token} (h : .opening headingTag ∉ tokens) :
    headingTokens? tokens = none := by
  induction tokens with
  | nil => rfl
  | cons token tokens ih =>
    obtain ⟨hne, htokens⟩ := not_or.mp (fun hmem => h (List.mem_cons.mpr hmem))
    exact (if_neg (Ne.symm hne)).trans (ih htokens)

theorem mem_of_headingTokens? {tokens inner : List Token} (h : headingTokens? tokens = some inner) :
    ∀ token ∈ inner, token ∈ tokens := by
  induction tokens with
  | nil => cases h
  | cons first rest ih =>
    rw [headingTokens?] at h
    split at h
    · cases h
      exact fun token htoken => List.mem_cons_of_mem first ((List.takeWhile_sublist _).mem htoken)
    · exact fun token htoken => List.mem_cons_of_mem first (ih h token htoken)

/-- The first place of a tag in a text is found by going over tokens that are other tags, or none. -/
theorem isCutAt_printAll_append {token : Token} (htoken : token.IsLexical)
    (hchar : ∀ c, token ≠ .char c) {tokens : List Token} (h : ∀ other ∈ tokens, other.IsLexical)
    (hnone : token ∉ tokens) {s before rest : List Char} (hs : IsCutAt token.print s before rest) :
    IsCutAt token.print (Token.printAll tokens ++ s) (Token.printAll tokens ++ before) rest := by
  obtain ⟨part, hpart, -⟩ := print_tag_eq htoken hchar
  rw [List.cons_append] at hpart
  induction tokens with
  | nil => exact hs
  | cons other tokens ih =>
    obtain ⟨hother, htokens⟩ := List.forall_mem_cons.mp h
    obtain ⟨hne, hnone⟩ := not_or.mp (fun hmem => hnone (List.mem_cons.mpr hmem))
    have htail := ih htokens hnone
    rw [Token.printAll_cons, List.append_assoc, List.append_assoc]
    obtain hopen | ⟨s, hprint, hopen, hafter⟩ := print_of_ne htoken hchar hother (Ne.symm hne)
    · rw [hpart] at htail ⊢
      exact htail.append hopen
    · rw [hpart] at htail hafter ⊢
      rw [hprint]
      exact (htail.append hopen).cons (hafter _)

theorem print_headingTag : Token.print (.opening headingTag) = "<h1>".toList := by decide

theorem print_closing_heading : Token.print (.closing "h1") = "</h1>".toList := by decide

theorem headingText?_printAll_append {tokens : List Token}
    (h : ∀ token ∈ tokens, token.IsLexical) (hnone : .opening headingTag ∉ tokens)
    (rest : List Char) : headingText? (Token.printAll tokens ++ rest) = headingText? rest := by
  rw [headingText?, headingText?, ← print_headingTag]
  -- The tokens are gone over to the first place behind them, and hold none if there is none behind.
  cases hbehind : behind? (Token.print (.opening headingTag)) rest with
  | some behind =>
    obtain ⟨before, hcut⟩ := Text.behind?_eq_some_iff.mp hbehind
    rw [(isCutAt_printAll_append isLexical_heading.1 (fun _ => Token.noConfusion) h hnone
      hcut).behind?_eq]
  | none =>
    have hpart := isPart_printAll_append isLexical_heading.1 (fun _ => Token.noConfusion) h hnone
      rest
    rw [← Text.isSome_behind?, ← Text.isSome_behind?, hbehind, Option.isSome_none,
      Option.isSome_eq_false_iff, Option.isNone_iff_eq_none] at hpart
    rw [hpart]

theorem headingText?_opening {inner : List Token} (h : ∀ token ∈ inner, token.IsLexical)
    (hnone : .closing "h1" ∉ inner) (rest : List Char) :
    headingText? ("<h1>".toList ++ (Token.printAll inner ++ ("</h1>".toList ++ rest))) =
      some (Token.printAll inner) := by
  have hclosing := isCutAt_printAll_append isLexical_heading.2 (fun _ => Token.noConfusion) h hnone
    (Text.isCutAt_start (Token.print (.closing "h1")) rest)
  rw [print_closing_heading, List.append_nil] at hclosing
  rw [headingText?, (Text.isCutAt_start _ _).behind?_eq, Option.map_some, hclosing.upTo_eq]

theorem headingText?_printAll {tokens : List Token} (h : ∀ token ∈ tokens, token.IsLexical) :
    headingText? (Token.printAll tokens) = (headingTokens? tokens).map Token.printAll := by
  by_cases hmem : .opening headingTag ∈ tokens
  · obtain ⟨before, behind, rfl, hnone⟩ := List.eq_append_cons_of_mem hmem
    obtain ⟨hbefore, hbehind⟩ := List.forall_mem_append.mp h
    obtain ⟨-, hbehind⟩ := List.forall_mem_cons.mp hbehind
    rw [Token.printAll_append, headingText?_printAll_append hbefore hnone,
      headingTokens?_append hnone, Option.map_some, Token.printAll_cons, print_headingTag]
    by_cases hclosing : .closing "h1" ∈ behind
    · obtain ⟨inner, rest, rfl, hinner⟩ := List.eq_append_cons_of_mem hclosing
      have htake : (inner ++ .closing "h1" :: rest).takeWhile (· ≠ .closing "h1") = inner := by
        rw [List.takeWhile_append_of_pos, List.takeWhile_cons_of_neg (by simp), List.append_nil]
        exact fun token htoken => decide_eq_true fun heq => hinner (heq ▸ htoken)
      rw [Token.printAll_append, Token.printAll_cons, print_closing_heading, htake,
        headingText?_opening (List.forall_mem_append.mp hbehind).1 hinner]
    · have htake : behind.takeWhile (· ≠ .closing "h1") = behind := by
        rw [List.takeWhile_eq_self_iff]
        exact fun token htoken => decide_eq_true fun heq => hclosing (heq ▸ htoken)
      have hpart := isPart_printAll_append isLexical_heading.2 (fun _ => Token.noConfusion) hbehind
        hclosing []
      rw [List.append_nil, print_closing_heading] at hpart
      rw [headingText?, (Text.isCutAt_start _ _).behind?_eq, Option.map_some,
        Text.upTo_eq_self hpart, htake]
  · have happend := headingText?_printAll_append h hmem []
    rw [List.append_nil] at happend
    rw [happend, headingTokens?_eq_none hmem]
    rfl

/-! ### Thinner tokens -/

theorem mapValues_eq_headingTag_iff {f : List Char → List Char} {tag : Tag} :
    tag.mapValues f = headingTag ↔ tag = headingTag := by
  obtain ⟨name, attributes, slash⟩ := tag
  simp [Tag.mapValues, headingTag]

theorem ThinsTokens.takeWhile {a b : List Token} (h : ThinsTokens a b) :
    ThinsTokens (a.takeWhile (· ≠ .closing "h1")) (b.takeWhile (· ≠ .closing "h1")) := by
  induction h with
  | nil => exact .nil
  | keep token _ ih =>
    by_cases htoken : token = .closing "h1"
    · rw [List.takeWhile_cons_of_neg (by simpa using htoken),
        List.takeWhile_cons_of_neg (by simpa using htoken)]
      exact .nil
    · rw [List.takeWhile_cons_of_pos (by simpa using htoken),
        List.takeWhile_cons_of_pos (by simpa using htoken)]
      exact ih.keep token
  | drop hc _ ih => exact ih.drop hc
  | space hc _ ih => exact ih.space hc
  | values hf tag _ ih => exact ih.values hf tag

/-- Thinner tokens have a heading if the tokens have one, and a thinner one. -/
theorem ThinsTokens.headingTokens? {a b : List Token} (h : ThinsTokens a b) :
    Option.Rel ThinsTokens (headingTokens? a) (headingTokens? b) := by
  induction h with
  | nil => exact .none
  | keep token h ih =>
    rw [Body.headingTokens?, Body.headingTokens?]
    split
    · exact .some h.takeWhile
    · exact ih
  | drop hc _ ih => exact ih
  | space hc _ ih => exact ih
  | values hf tag h ih =>
    rw [Body.headingTokens?, Body.headingTokens?]
    simp only [Token.opening.injEq, mapValues_eq_headingTag_iff]
    split
    · exact .some h.takeWhile
    · exact ih

theorem rel_map {α β γ δ : Type} {r : α → β → Prop} {r' : γ → δ → Prop} {f : α → γ} {g : β → δ}
    {a : Option α} {b : Option β} (h : Option.Rel r a b)
    (hmap : ∀ x y, a = some x → b = some y → r x y → r' (f x) (g y)) :
    Option.Rel r' (a.map f) (b.map g) := by
  cases h with
  | some h => exact .some (hmap _ _ rfl rfl h)
  | none => exact .none

theorem rel_headingText?_compact {tokens : List Token} (h : IsFragment tokens) :
    Option.Rel (fun s t => Thins (untag noSign s) (untag noSign t))
      (headingText? (Token.printAll tokens))
      (headingText? (compact (stripSeparators (Token.printAll tokens)))) := by
  obtain ⟨thinned, hprint, hthinned, hthins⟩ := exists_thinsTokens h
  rw [← hprint, headingText?_printAll fun token htoken => (h.written token htoken).isLexical,
    headingText?_printAll fun token htoken => (hthinned.written token htoken).isLexical]
  refine rel_map hthins.headingTokens? fun inner inner' ha hb hinner => ?_
  have hwritten : ∀ token ∈ inner, IsWritten token := fun token htoken =>
    h.written token (mem_of_headingTokens? ha token htoken)
  have hlexical : ∀ token ∈ inner', token.IsLexical := fun token htoken =>
    (hthinned.written token (mem_of_headingTokens? hb token htoken)).isLexical
  rw [untag_printAll fun token htoken => (hwritten token htoken).isLexical,
    untag_printAll hlexical]
  exact hinner.thins isStable_noSign hwritten

/-! ### The heading of a message -/

/-- Whether a token neither opens nor closes a heading. -/
def IsBare (token : Token) : Prop := token ≠ .opening headingTag ∧ token ≠ .closing "h1"

theorem opening_ne {tag : Tag} (h : isHeadline tag = false) :
    Token.opening tag ≠ .opening headingTag := by
  intro heq
  rw [Token.opening.inj heq] at h
  exact absurd h (by decide)

mutual

theorem isBare_tokens : (piece : Markup) → IsUnpromoted piece → ∀ token ∈ piece.tokens, IsBare token
  | .text content, _ => by
    rw [Markup.tokens]
    exact List.forall_mem_map.mpr fun _ _ => ⟨Token.noConfusion, Token.noConfusion⟩
  | .message content, _ => by
    rw [Markup.tokens]
    exact List.forall_mem_map.mpr fun _ _ => ⟨Token.noConfusion, Token.noConfusion⟩
  | .verbatim content, h => by
    rw [IsUnpromoted] at h
    exact h.elim
  | .separator, _ => by
    rw [Markup.tokens]
    exact List.forall_mem_singleton.mpr ⟨Token.noConfusion, Token.noConfusion⟩
  | .lineBreak, _ => by
    rw [Markup.tokens]
    exact List.forall_mem_singleton.mpr ⟨by decide, Token.noConfusion⟩
  | .void name attributes, h => by
    rw [IsUnpromoted] at h
    rw [Markup.tokens]
    exact List.forall_mem_singleton.mpr ⟨opening_ne h, Token.noConfusion⟩
  | .element name attributes children, h => by
    rw [IsUnpromoted] at h
    have hclosing : Token.closing name ≠ .closing "h1" := by
      intro heq
      have hname : name = "h1" := Token.closing.inj heq
      rw [isHeadline, Markup.tag, hname] at h
      cases h.1
    rw [Markup.tokens]
    refine List.forall_mem_cons.mpr ⟨⟨opening_ne h.1, Token.noConfusion⟩, ?_⟩
    exact List.forall_mem_append.mpr ⟨isBare_tokensOfAll children h.2,
      List.forall_mem_singleton.mpr ⟨Token.noConfusion, hclosing⟩⟩

theorem isBare_tokensOfAll : (pieces : List Markup) → AreUnpromoted pieces →
    ∀ token ∈ Markup.tokensOfAll pieces, IsBare token
  | [], _ => fun _ hmem => absurd hmem List.not_mem_nil
  | piece :: rest, h => by
    rw [AreUnpromoted] at h
    rw [Markup.tokensOfAll]
    exact List.forall_mem_append.mpr ⟨isBare_tokens piece h.1, isBare_tokensOfAll rest h.2⟩

end

theorem isBare_of_mem_topLines {resolver : Resolver} {nodes : List Node} {row : List Token}
    (h : row ∈ topLines resolver nodes) : ∀ token ∈ row, IsBare token := fun token htoken =>
  isBare_tokensOfAll _ (areUnpromoted_htmlOfAll resolver nodes) token (mem_of_mem_cut h htoken)

/-- What becomes the heading of a line, if it becomes one. -/
def headingBody? (row : List Token) : Option (List Char) :=
  behindSign? ['#'] ((Token.printAll row).dropWhile isFiller)

theorem headingBody?_eq_some_iff {row : List Token} {body : List Char}
    {next? : Option (List Char)} :
    headingBody? row = some body ↔ classify (Token.printAll row) next? = .heading .first body := by
  rw [classify_eq_heading_iff, heading?_eq_some_iff]
  rfl

theorem isSome_headingBody?_iff {row : List Token} (h : ∀ token ∈ row, IsWritten token) :
    (headingBody? row).isSome = true ↔ IsMarked ['#'] row := by
  rw [← exists_behindSign?_iff (by decide) (by decide) h, Option.isSome_iff_exists]
  rfl

section Lines

variable {row : List Token} (hwritten : ∀ token ∈ row, IsWritten token)
  (hbare : ∀ token ∈ row, IsBare token)

include hwritten hbare

theorem headingText?_element {tag : Tag} {inner : List Token} (htag : IsTag tag)
    (hname : tag.name ∈ closedNames) (hne : tag.name ≠ "h1") (hinner : ∀ token ∈ inner, token ∈ row)
    (rest : List Char) :
    headingText? (Token.print (.opening tag) ++ Token.printAll inner ++
      Markup.closingTag tag.name ++ rest) = headingText? rest := by
  have hall : ∀ token ∈ .opening tag :: (inner ++ [.closing tag.name]), IsWritten token ∧
      token ≠ .opening headingTag := by
    refine List.forall_mem_cons.mpr ⟨⟨htag, fun heq => hne ?_⟩, List.forall_mem_append.mpr
      ⟨fun token htoken => ⟨hwritten token (hinner token htoken), (hbare token
        (hinner token htoken)).1⟩, List.forall_mem_singleton.mpr ⟨hname, Token.noConfusion⟩⟩⟩
    exact congrArg Tag.name (Token.opening.inj heq)
  rw [← printAll_element]
  exact headingText?_printAll_append (fun token htoken => (hall token htoken).1.isLexical)
    (fun hmem => (hall _ hmem).2 rfl) rest

theorem headingText?_classify (next? : Option (List Char)) (rest : List Char) :
    headingText? ((classify (Token.printAll row) next?).print ++ rest) =
      (headingBody? row).or (headingText? rest) := by
  have hnone : (∀ body, classify (Token.printAll row) next? ≠ .heading .first body) →
      headingBody? row = none := fun h =>
    Option.eq_none_iff_forall_ne_some.mpr fun body hbody => h body (headingBody?_eq_some_iff.mp hbody)
  cases hline : classify (Token.printAll row) next? with
  | heading level body =>
    have hbody := heading?_eq_some_iff.mp (classify_eq_heading_iff.mp hline)
    cases level with
    | first =>
      -- The text of the line closes no heading, so it is all that is between the tags.
      rw [headingBody?_eq_some_iff.mpr hline, Option.some_or]
      obtain ⟨-, behind, -, -, rfl, -, hinner⟩ := exists_behindSign? (by decide) hbody
      have hopening := headingText?_opening
        (fun token htoken => (hwritten token (hinner token htoken)).isLexical)
        (fun hmem => (hbare _ (hinner _ hmem)).2 rfl) rest
      rw [← List.append_assoc, ← List.append_assoc] at hopening
      exact hopening
    | second =>
      obtain ⟨-, behind, -, -, rfl, -, hinner⟩ := exists_behindSign? (by decide) hbody
      have htag : IsTag ⟨"h2", [], false⟩ := .plain (by decide)
      rw [hnone fun body => by rw [hline]; simp, Option.none_or]
      exact headingText?_element hwritten hbare htag (by decide) (by decide) hinner rest
  | sub body =>
    obtain ⟨-, behind, -, -, rfl, -, hinner⟩ :=
      exists_behindSign? (by decide) (classify_eq_sub_iff.mp hline).1
    rw [hnone fun body => by rw [hline]; simp, Option.none_or]
    exact headingText?_element hwritten hbare .sub (by decide) (by decide) hinner rest
  | plain text =>
    rw [hnone fun body => by rw [hline]; simp, Option.none_or, eq_of_classify_eq_plain hline]
    exact headingText?_printAll_append (fun token htoken => (hwritten token htoken).isLexical)
      (fun hmem => (hbare _ hmem).1 rfl) rest

end Lines

/-- The first heading of promoted lines is that of the first line that becomes one. -/
theorem headingText?_printAll_classifyAll {rows : List (List Token)}
    (h : ∀ row ∈ rows, ∀ token ∈ row, IsWritten token ∧ IsBare token) :
    headingText? (Line.printAll (classifyAll (rows.map Token.printAll))) =
      rows.findSome? headingBody? := by
  induction rows with
  | nil => rfl
  | cons row rest ih =>
    obtain ⟨hrow, hrest⟩ := List.forall_mem_cons.mp h
    have htail := ih hrest
    have hline := headingText?_classify (fun token htoken => (hrow token htoken).1)
      (fun token htoken => (hrow token htoken).2) (rest.map Token.printAll).head?
    obtain ⟨between, hbetween, hprint⟩ := exists_printAll_cons
      (classify (Token.printAll row) (rest.map Token.printAll).head?)
      (classifyAll (rest.map Token.printAll))
    have hskip : ∀ behind, headingText? (between ++ behind) = headingText? behind := by
      intro behind
      rcases hbetween with rfl | rfl
      · rfl
      · have hbreak : lineBreakText = Token.printAll [.opening .lineBreak] := by decide
        have hlexical : (Token.opening .lineBreak).IsLexical := IsTag.lineBreak.isLexical
        rw [hbreak]
        exact headingText?_printAll_append (List.forall_mem_singleton.mpr hlexical) (by decide) behind
    rw [List.map_cons, classifyAll, hprint, hline, hskip, htail, List.findSome?_cons]
    cases headingBody? row <;> rfl

/-- The first heading of a body is that of the first marked line of its message, with some fillers
less. -/
theorem rel_headingText?_render (resolver : Resolver) (nodes : List Node) :
    Option.Rel (fun s t => Thins (untag noSign s) (untag noSign t))
      ((topLines resolver nodes).findSome? headingBody?)
      (headingText? (render resolver nodes)) := by
  have hraw : IsFragment (rawTokens resolver nodes) := isFragment_htmlOfAll resolver nodes
  obtain ⟨promoted, hprint, hpromoted⟩ := prints_printAll_classifyAll hraw
  have hrel := rel_headingText?_compact hpromoted
  rw [printAll_rawTokens] at hprint
  rw [render, promote, ← headingText?_printAll_classifyAll, ← lines_raw, ← hprint]
  · exact hrel
  · exact fun row hrow token htoken => ⟨(isFragment_of_mem_topLines hrow).written token htoken,
      isBare_of_mem_topLines hrow token htoken⟩

end Gazette.Body
