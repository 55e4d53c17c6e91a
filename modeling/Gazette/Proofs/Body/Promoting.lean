import Gazette.Proofs.Body.Cutting
import Mathlib.Data.List.TakeWhile

/-!
# Promoting keeps lines well written

A heading is its line without some characters at both ends, in an element of its own. No tag is lost
that way, and a line that holds a line break is left alone, so promoted lines print fragments
(`prints_printAll_classifyAll`), and no line break stands in a headline.
-/

namespace Gazette.Body

open Text (after? dropTail isBlank isPart)

/-- A text that some fragment prints to. -/
def Prints (s : List Char) : Prop := ∃ tokens, Token.printAll tokens = s ∧ IsFragment tokens

theorem Prints.append {s t : List Char} (hs : Prints s) (ht : Prints t) : Prints (s ++ t) := by
  obtain ⟨a, rfl, ha⟩ := hs
  obtain ⟨b, rfl, hb⟩ := ht
  exact ⟨a ++ b, Token.printAll_append a b, ha.append hb⟩

theorem prints_lineBreakText : Prints Markup.lineBreakText :=
  ⟨[.opening .lineBreak], by decide, .lineBreak⟩

/-- Tokens that may go without changing any mark. -/
theorem IsFragment.of_marks_eq {a b : List Token} (ha : IsFragment a) (hmem : ∀ token ∈ b, token ∈ a)
    (hmarks : marks b = marks a) : IsFragment b :=
  ⟨fun token h => ha.written token (hmem token h), hmarks ▸ ha.nested⟩

/-! ### Characters at the ends -/

def isCharOf (p : Char → Bool) : Token → Bool
  | .char c => p c
  | .opening _ | .closing _ => false

/-- The tokens without their longest tail of characters that satisfy `p`. -/
def dropTailTokens (p : Char → Bool) (tokens : List Token) : List Token :=
  (tokens.reverse.dropWhile (isCharOf p)).reverse

theorem marks_eq_nil {p : Char → Bool} {tokens : List Token}
    (h : ∀ token ∈ tokens, isCharOf p token = true) : marks tokens = [] := by
  rw [marks, List.filterMap_eq_nil_iff]
  intro token htoken
  cases token with
  | char c => rfl
  | opening tag => cases h _ htoken
  | closing name => cases h _ htoken

theorem marks_dropWhile (p : Char → Bool) (tokens : List Token) :
    marks (tokens.dropWhile (isCharOf p)) = marks tokens := by
  have hhead : marks (tokens.takeWhile (isCharOf p)) = [] :=
    marks_eq_nil (List.all_eq_true.mp List.all_takeWhile)
  have hsplit := congrArg marks (List.takeWhile_append_dropWhile (p := isCharOf p) (l := tokens))
  rw [marks_append, hhead, List.nil_append] at hsplit
  exact hsplit

theorem marks_reverse (tokens : List Token) : marks tokens.reverse = (marks tokens).reverse :=
  List.filterMap_reverse

theorem marks_dropTailTokens (p : Char → Bool) (tokens : List Token) :
    marks (dropTailTokens p tokens) = marks tokens := by
  rw [dropTailTokens, marks_reverse, marks_dropWhile, marks_reverse, List.reverse_reverse]

theorem IsFragment.dropWhile {tokens : List Token} (h : IsFragment tokens) (p : Char → Bool) :
    IsFragment (tokens.dropWhile (isCharOf p)) :=
  h.of_marks_eq (fun _ htoken => (List.dropWhile_sublist _).mem htoken) (marks_dropWhile p tokens)

theorem IsFragment.dropTailTokens {tokens : List Token} (h : IsFragment tokens) (p : Char → Bool) :
    IsFragment (dropTailTokens p tokens) := by
  refine h.of_marks_eq (fun token htoken => ?_) (marks_dropTailTokens p tokens)
  have hmem := (List.dropWhile_sublist _).mem (List.mem_reverse.mp htoken)
  exact List.mem_reverse.mp hmem

theorem dropWhile_printAll {p : Char → Bool} (hp : p '<' = false) (tokens : List Token) :
    (Token.printAll tokens).dropWhile p = Token.printAll (tokens.dropWhile (isCharOf p)) := by
  induction tokens with
  | nil => rfl
  | cons token rest ih =>
    have htag : ∀ s, ('<' :: s ++ Token.printAll rest).dropWhile p =
        '<' :: s ++ Token.printAll rest :=
      fun s => List.dropWhile_cons_of_neg (by simp [hp])
    cases token with
    | char c =>
      by_cases hc : p c = true
      · rw [List.dropWhile_cons_of_pos (show isCharOf p (.char c) = true from hc), ← ih]
        exact List.dropWhile_cons_of_pos hc
      · rw [List.dropWhile_cons_of_neg (show ¬isCharOf p (.char c) = true from hc)]
        exact List.dropWhile_cons_of_neg hc
    | opening tag => exact htag _
    | closing name => exact htag _

theorem dropTail_concat_of_neg {p : Char → Bool} {c : Char} (hc : p c = false) (s : List Char) :
    dropTail p (s ++ [c]) = s ++ [c] := by
  simp [dropTail, hc]

theorem dropTail_concat_of_pos {p : Char → Bool} {c : Char} (hc : p c = true) (s : List Char) :
    dropTail p (s ++ [c]) = dropTail p s := by
  simp [dropTail, hc]

theorem dropTail_printAll {p : Char → Bool} (hp : p '>' = false) (tokens : List Token) :
    dropTail p (Token.printAll tokens) = Token.printAll (dropTailTokens p tokens) := by
  induction hlength : tokens.length generalizing tokens with
  | zero =>
    rw [List.length_eq_zero_iff.mp hlength]
    rfl
  | succ n ih =>
    obtain ⟨rest, token, rfl⟩ : ∃ rest token, tokens = rest ++ [token] := by
      refine ⟨tokens.dropLast, tokens.getLast (by rintro rfl; cases hlength), ?_⟩
      rw [List.dropLast_concat_getLast]
    have hrest := ih rest (by simpa using hlength)
    have hprint : Token.printAll (rest ++ [token]) = Token.printAll rest ++ token.print := by
      rw [Token.printAll_append, Token.printAll_cons, Token.printAll_nil, List.append_nil]
    have htag : ∀ s, token.print = s ++ ['>'] → isCharOf p token = false →
        dropTail p (Token.printAll (rest ++ [token])) =
          Token.printAll (dropTailTokens p (rest ++ [token])) := by
      intro s hs htoken
      have hkeep : dropTailTokens p (rest ++ [token]) = rest ++ [token] := by
        simp [dropTailTokens, htoken]
      rw [hkeep, hprint, hs, ← List.append_assoc, dropTail_concat_of_neg hp]
    cases token with
    | char c =>
      by_cases hc : p c = true
      · have hdrop : dropTailTokens p (rest ++ [.char c]) = dropTailTokens p rest := by
          simp [dropTailTokens, isCharOf, hc]
        rw [hdrop, ← hrest, hprint]
        exact dropTail_concat_of_pos hc _
      · have hkeep : dropTailTokens p (rest ++ [.char c]) = rest ++ [.char c] := by
          simp [dropTailTokens, isCharOf, hc]
        rw [hkeep, hprint]
        exact dropTail_concat_of_neg (Bool.eq_false_iff.mpr hc) _
    | opening tag =>
      refine htag ('<' :: (tag.name.toList ++ (tag.attributes.flatMap Tag.printAttribute ++
        (if tag.slash then [' ', '/'] else [])))) ?_ rfl
      cases hslash : tag.slash <;> simp [Token.print, Tag.inside, Tag.ending, hslash]
    | closing name => exact htag ('<' :: '/' :: name.toList) rfl rfl

/-- A text without tags at the front is a row of characters at the front. -/
theorem printAll_eq_append {tokens : List Token} {s rest : List Char} (hs : '<' ∉ s)
    (h : Token.printAll tokens = s ++ rest) :
    ∃ behind, tokens = s.map .char ++ behind ∧ Token.printAll behind = rest := by
  induction s generalizing tokens with
  | nil => exact ⟨tokens, rfl, h⟩
  | cons c s ih =>
    have hc : '<' ≠ c := fun heq => hs (heq ▸ List.mem_cons_self)
    cases tokens with
    | nil => cases h
    | cons token tokens =>
      rw [Token.printAll_cons] at h
      cases token with
      | char d =>
        obtain ⟨rfl, htail⟩ := List.cons.inj h
        obtain ⟨behind, rfl, hbehind⟩ := ih (fun hmem => hs (List.mem_cons_of_mem d hmem)) htail
        exact ⟨behind, rfl, hbehind⟩
      | opening tag => exact absurd (List.cons.inj h).1 hc
      | closing name => exact absurd (List.cons.inj h).1 hc

/-! ### Headings -/

theorem isPart_append (part before behind : List Char) (h : part ≠ []) :
    isPart part (before ++ (part ++ behind)) = true := by
  induction before with
  | nil =>
    cases hpart : part ++ behind with
    | nil => exact absurd (List.append_eq_nil_iff.mp hpart).1 h
    | cons c rest =>
      have hafter : after? part (c :: rest) = some behind :=
        Text.after?_eq_some_iff.mpr hpart.symm
      rw [List.nil_append, isPart, hafter]
      rfl
  | cons c before ih => rw [List.cons_append, isPart, ih, Bool.or_true]

theorem isPart_lineBreakText_of_mem {tokens : List Token} (h : .opening .lineBreak ∈ tokens) :
    isPart Markup.lineBreakText (Token.printAll tokens) = true := by
  obtain ⟨before, behind, rfl⟩ := List.append_of_mem h
  rw [Token.printAll_append, Token.printAll_cons, Token.print_lineBreak]
  exact isPart_append _ _ _ (by decide)

/-- A fragment whose text holds no line break holds none. -/
theorem breaks_notMem_marks {tokens : List Token} (h : ∀ token ∈ tokens, IsWritten token)
    (hpart : isPart Markup.lineBreakText (Token.printAll tokens) = false) :
    Mark.breaks ∉ marks tokens := by
  intro hmem
  obtain ⟨token, htoken, hmark⟩ := List.mem_filterMap.mp hmem
  obtain ⟨tag, rfl, hname⟩ : ∃ tag, token = .opening tag ∧ tag.name = "br" := by
    cases token with
    | char c => cases hmark
    | closing name => cases hmark
    | opening tag =>
      refine ⟨tag, rfl, ?_⟩
      simp only [mark?] at hmark
      split at hmark
      · assumption
      · split at hmark <;> cases hmark
  have htag : tag = .lineBreak := IsTag.eq_lineBreak (h _ htoken) hname
  have hfound := isPart_lineBreakText_of_mem (htag ▸ htoken)
  rw [hpart] at hfound
  cases hfound

theorem ne_of_isBlank {c : Char} (h : isBlank c = true) : c ≠ '<' := by
  rintro rfl
  exact absurd h (by decide)

theorem isEmpty_dropWhile_dropTail (p : Char → Bool) (s : List Char) :
    ((dropTail p s).dropWhile p).isEmpty = false ↔ ∃ c ∈ s, p c = false := by
  obtain ⟨tail, hs, htail⟩ := Text.dropTail_append_eq p s
  rw [← Bool.not_eq_true, List.isEmpty_iff, List.dropWhile_eq_nil_iff]
  constructor
  · intro h
    obtain ⟨c, hc, hp⟩ : ∃ c ∈ dropTail p s, ¬p c = true := by simpa using h
    exact ⟨c, hs ▸ List.mem_append_left tail hc, Bool.eq_false_iff.mpr hp⟩
  · rintro ⟨c, hc, hp⟩ hall
    rw [hs] at hc
    rcases List.mem_append.mp hc with hc | hc
    · exact Bool.eq_false_iff.mp hp (hall c hc)
    · exact Bool.eq_false_iff.mp hp (htail c hc)

theorem behindSign?_eq_some_iff {sign line body : List Char} :
    behindSign? sign line = some body ↔
      ∃ blank rest, line = sign ++ blank :: rest ∧ isBlank blank = true ∧
        (∃ c ∈ rest, isFiller c = false) ∧ isPart Markup.lineBreakText (dropTail isFiller rest) = false ∧
        body = dropTail isFiller rest := by
  unfold behindSign?
  constructor
  · intro h
    split at h
    · next blank rest hafter =>
      dsimp only at h
      split at h
      · next hcondition =>
        obtain ⟨hblank, hshown, hbreak⟩ := hcondition
        refine ⟨blank, rest, Text.after?_eq_some_iff.mp hafter, hblank, ?_, ?_, ?_⟩
        · exact (isEmpty_dropWhile_dropTail isFiller rest).mp (Bool.eq_false_iff.mpr hshown)
        · exact Bool.eq_false_iff.mpr hbreak
        · exact (Option.some.inj h).symm
      · cases h
    · cases h
  · rintro ⟨blank, rest, hline, hblank, hshown, hbreak, rfl⟩
    rw [Text.after?_eq_some_iff.mpr hline]
    refine if_pos ⟨hblank, ?_, Bool.eq_false_iff.mp hbreak⟩
    exact Bool.eq_false_iff.mp ((isEmpty_dropWhile_dropTail isFiller rest).mpr hshown)

/-- The tokens of a text with a sign: what is behind the sign, without fillers at its end, is the
body. -/
theorem exists_of_behindSign? {sign body : List Char} {tokens : List Token} (hsign : '<' ∉ sign)
    (hbody : behindSign? sign (Token.printAll tokens) = some body) :
    ∃ blank behind, isBlank blank = true ∧ tokens = sign.map .char ++ .char blank :: behind ∧
      body = Token.printAll (dropTailTokens isFiller behind) ∧
      (∃ c ∈ Token.printAll behind, isFiller c = false) ∧
      isPart Markup.lineBreakText body = false := by
  obtain ⟨blank, rest, hline, hblank, hshown, hbreak, rfl⟩ := behindSign?_eq_some_iff.mp hbody
  rw [List.append_cons] at hline
  have hopen : '<' ∉ sign ++ [blank] := by simp [hsign, (ne_of_isBlank hblank).symm]
  obtain ⟨behind, rfl, rfl⟩ := printAll_eq_append hopen hline
  refine ⟨blank, behind, hblank, ?_, dropTail_printAll (by decide) behind, hshown, hbreak⟩
  rw [List.map_append, List.append_assoc]
  rfl

theorem behindSign?_printAll {sign : List Char} {tokens : List Token} {body : List Char}
    (hsign : '<' ∉ sign) (h : IsFragment tokens)
    (hbody : behindSign? sign (Token.printAll tokens) = some body) :
    ∃ inner, Token.printAll inner = body ∧ IsFragment inner ∧ Mark.breaks ∉ marks inner := by
  obtain ⟨blank, behind, -, htokens, rfl, -, hpart⟩ := exists_of_behindSign? hsign hbody
  have hbehind : IsFragment behind := by
    rw [List.append_cons] at htokens
    refine h.of_marks_eq (fun token hmem => ?_) ?_
    · rw [htokens]
      exact List.mem_append_right _ hmem
    · rw [htokens, marks_append, marks_append, marks_map_char]
      rfl
  have hinner := hbehind.dropTailTokens isFiller
  exact ⟨dropTailTokens isFiller behind, rfl, hinner, breaks_notMem_marks hinner.written hpart⟩

theorem printAll_element (tag : Tag) (inner : List Token) :
    Token.printAll (.opening tag :: (inner ++ [.closing tag.name])) =
      Token.print (.opening tag) ++ Token.printAll inner ++ Markup.closingTag tag.name := by
  rw [Token.printAll_cons, Token.printAll_append, Token.printAll_cons, Token.printAll_nil,
    List.append_nil, ← List.append_assoc]
  rfl

/-- The text of a headline, in an element. -/
theorem prints_headline {tag : Tag} {inner : List Token} {isHeadline : Bool} (htag : IsTag tag)
    (hname : tag.name ∈ closedNames)
    (hmark : mark? (.opening tag) = some (.opens tag.name isHeadline)) (hinner : IsFragment inner)
    (hbreaks : Mark.breaks ∉ marks inner) :
    Prints (Token.print (.opening tag) ++ Token.printAll inner ++ Markup.closingTag tag.name) :=
  ⟨_, printAll_element tag inner, IsFragment.element htag hname hmark hinner (.inr hbreaks)⟩

theorem prints_heading (level : Level) {inner : List Token} (hinner : IsFragment inner)
    (hbreaks : Mark.breaks ∉ marks inner) :
    Prints (Line.heading level (Token.printAll inner)).print := by
  cases level with
  | first =>
    have htag : IsTag ⟨"h1", [], false⟩ := .plain (by decide)
    exact prints_headline htag (by decide) rfl hinner hbreaks
  | second =>
    have htag : IsTag ⟨"h2", [], false⟩ := .plain (by decide)
    exact prints_headline htag (by decide) rfl hinner hbreaks

theorem prints_sub {inner : List Token} (hinner : IsFragment inner)
    (hbreaks : Mark.breaks ∉ marks inner) : Prints (Line.sub (Token.printAll inner)).print := by
  have htag : Markup.tag "span" [.value "class" "sub"] =
      ⟨"span", [("class", some "sub".toList)], false⟩ := by decide
  rw [Line.print, ← Markup.print_tag, htag]
  exact prints_headline .sub (by decide) rfl hinner hbreaks

theorem heading?_printAll {tokens : List Token} {level : Level} {body : List Char}
    (h : IsFragment tokens) (hheading : heading? (Token.printAll tokens) = some (level, body)) :
    ∃ inner, Token.printAll inner = body ∧ IsFragment inner ∧ Mark.breaks ∉ marks inner := by
  have hdrop := h.dropWhile isFiller
  unfold heading? at hheading
  rw [dropWhile_printAll (p := isFiller) (by decide)] at hheading
  dsimp only at hheading
  split at hheading
  · next second hsecond =>
    cases hheading
    exact behindSign?_printAll (by decide) hdrop hsecond
  · obtain ⟨first, hfirst, heq⟩ := Option.map_eq_some_iff.mp hheading
    cases heq
    exact behindSign?_printAll (by decide) hdrop hfirst

theorem prints_classify {tokens : List Token} (h : IsFragment tokens)
    (next? : Option (List Char)) : Prints (classify (Token.printAll tokens) next?).print := by
  have hplain : Prints (Line.plain (Token.printAll tokens)).print := ⟨tokens, rfl, h⟩
  unfold classify
  split
  · next level body hheading =>
    obtain ⟨inner, rfl, hinner, hbreaks⟩ := heading?_printAll h hheading
    exact prints_heading level hinner hbreaks
  · split
    · next body hsign =>
      rw [dropWhile_printAll (p := isFiller) (by decide)] at hsign
      obtain ⟨inner, rfl, hinner, hbreaks⟩ :=
        behindSign?_printAll (by decide) (h.dropWhile isFiller) hsign
      split
      · exact prints_sub hinner hbreaks
      · exact hplain
    · exact hplain

theorem prints_classifyAll {texts : List (List Char)} (h : ∀ text ∈ texts, Prints text) :
    ∀ line ∈ classifyAll texts, Prints line.print := by
  induction texts with
  | nil => exact fun _ hmem => absurd hmem List.not_mem_nil
  | cons text rest ih =>
    obtain ⟨tokens, rfl, htokens⟩ := h text List.mem_cons_self
    have hrest := ih fun t ht => h t (List.mem_cons_of_mem _ ht)
    exact List.forall_mem_cons.mpr ⟨prints_classify htokens rest.head?, hrest⟩

/-- Behind a line is a line break, or nothing. -/
theorem exists_printAll_cons (line : Line) (rest : List Line) :
    ∃ between, (between = [] ∨ between = Markup.lineBreakText) ∧
      Line.printAll (line :: rest) = line.print ++ (between ++ Line.printAll rest) := by
  cases rest with
  | nil => exact ⟨[], .inl rfl, (List.append_nil line.print).symm⟩
  | cons next rest =>
    refine ⟨if line.isPlain then Markup.lineBreakText else [], ?_, ?_⟩
    · split
      · exact .inr rfl
      · exact .inl rfl
    · rw [Line.printAll, List.append_assoc]
      exact List.cons_ne_nil _ _

theorem prints_between {between : List Char} (h : between = [] ∨ between = Markup.lineBreakText) :
    Prints between := by
  rcases h with rfl | rfl
  · exact ⟨[], rfl, .nil⟩
  · exact prints_lineBreakText

theorem prints_printAll {lines : List Line} (h : ∀ line ∈ lines, Prints line.print) :
    Prints (Line.printAll lines) := by
  induction lines with
  | nil => exact ⟨[], rfl, .nil⟩
  | cons line rest ih =>
    obtain ⟨between, hbetween, hprint⟩ := exists_printAll_cons line rest
    have hline := h line List.mem_cons_self
    have hrest := ih fun l hl => h l (List.mem_cons_of_mem _ hl)
    rw [hprint]
    exact hline.append ((prints_between hbetween).append hrest)

/-- The lines of a fragment, promoted and put together again, are a fragment. -/
theorem prints_printAll_classifyAll {tokens : List Token} (h : IsFragment tokens) :
    Prints (Line.printAll (classifyAll (lines (Token.printAll tokens)))) := by
  rw [lines_printAll h.written]
  refine prints_printAll (prints_classifyAll fun text htext => ?_)
  obtain ⟨line, hline, rfl⟩ := List.mem_map.mp htext
  exact ⟨line, rfl, isFragment_of_mem_cut h hline⟩

end Gazette.Body
