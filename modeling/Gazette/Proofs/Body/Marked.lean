import Gazette.Proofs.Body.Ink

/-!
# Marked lines

A line of a message is marked if, behind fillers, it begins with a sign and a blank, shows something
behind these, and holds no line break. The marked lines are those that are promoted, those with a
dash if the next line is promoted to a heading (`exists_promotedLine`). A headline is its line
without fillers, with an element in the place of its sign, so that nothing that shows is lost
(`ink_render`).
-/

namespace Gazette.Body

open Markup (unescape lineBreakText)
open Text (after? dropTail isBlank isPart)

namespace Level

/-- The sign that makes a line a heading of the level. -/
def sign : Level → List Char
  | first => ['#']
  | second => ['#', '#']

theorem isSteady_sign (level : Level) : IsSteady level.sign := by cases level <;> decide

theorem sign_ne_nil (level : Level) : level.sign ≠ [] := by cases level <;> decide

end Level

/-! ### Tags in a text -/

theorem isPart_append_of_notMem {part s : List Char} {c : Char} (h : c ∉ s) (rest : List Char) :
    isPart (c :: part) (s ++ rest) = isPart (c :: part) rest := by
  induction s with
  | nil => rfl
  | cons d s ih =>
    obtain ⟨hd, hs⟩ := not_or.mp (fun hmem => h (List.mem_cons.mpr hmem))
    have hafter : after? (c :: part) (d :: (s ++ rest)) = none := if_neg hd
    rw [List.cons_append, isPart, hafter, ih hs]
    rfl

/-- A token that prints something else than a tag holds no beginning of the tag, or begins with the
character that all tags begin with, and is not the tag. -/
theorem print_of_ne {token other : Token} (htoken : token.IsLexical) (hchar : ∀ c, token ≠ .char c)
    (hother : other.IsLexical) (hne : other ≠ token) :
    '<' ∉ other.print ∨ ∃ s, other.print = '<' :: s ∧ '<' ∉ s ∧
      ∀ rest, after? token.print ('<' :: (s ++ rest)) = none := by
  by_cases hchar' : ∃ c, other = .char c
  · obtain ⟨c, rfl⟩ := hchar'
    exact .inl (by simpa [Token.print] using Ne.symm hother)
  · obtain ⟨s, hprint, hs⟩ := print_tag_eq hother (not_exists.mp hchar')
    refine .inr ⟨s ++ ['>'], hprint, by simpa using hs '<' (.inl rfl), fun rest => ?_⟩
    rw [Option.eq_none_iff_forall_ne_some]
    intro behind hbehind
    have heq : other.print ++ rest = token.print ++ behind := by
      rw [hprint]
      exact Text.after?_eq_some_iff.mp hbehind
    have hcut := congrArg cutTag heq
    rw [cutTag_print hother (not_exists.mp hchar'), cutTag_print htoken hchar] at hcut
    exact hne (print_injective hother htoken (Prod.mk.inj hcut).1)

/-- A text holds a tag only where it was printed. -/
theorem isPart_printAll_append {token : Token} (htoken : token.IsLexical)
    (hchar : ∀ c, token ≠ .char c) {tokens : List Token} (h : ∀ other ∈ tokens, other.IsLexical)
    (hnone : token ∉ tokens) (rest : List Char) :
    isPart token.print (Token.printAll tokens ++ rest) = isPart token.print rest := by
  obtain ⟨part, hpart, -⟩ := print_tag_eq htoken hchar
  rw [List.cons_append] at hpart
  induction tokens with
  | nil => rfl
  | cons other tokens ih =>
    obtain ⟨hother, htokens⟩ := List.forall_mem_cons.mp h
    obtain ⟨hne, hnone⟩ := not_or.mp (fun hmem => hnone (List.mem_cons.mpr hmem))
    rw [Token.printAll_cons, List.append_assoc, ← ih htokens hnone]
    obtain hopen | ⟨s, hprint, hopen, hafter⟩ := print_of_ne htoken hchar hother (Ne.symm hne)
    · rw [hpart, isPart_append_of_notMem hopen]
    · rw [hprint, List.cons_append, isPart, hafter, hpart, isPart_append_of_notMem hopen]
      rfl

theorem isPart_lineBreakText_printAll {tokens : List Token}
    (h : ∀ token ∈ tokens, IsWritten token) (hbreak : .opening .lineBreak ∉ tokens) :
    isPart lineBreakText (Token.printAll tokens) = false := by
  have hlexical : (Token.opening .lineBreak).IsLexical := IsTag.lineBreak.isLexical
  have hpart := isPart_printAll_append hlexical (fun _ => Token.noConfusion)
    (fun token htoken => (h token htoken).isLexical) hbreak []
  rwa [List.append_nil, Token.print_lineBreak] at hpart

/-! ### Signs -/

theorem IsSteady.notMem {s : List Char} (h : IsSteady s) : '<' ∉ s := fun hmem => (h '<' hmem).2 rfl

/-- No line has two signs. -/
theorem behindSign?_eq_none {sign other line body : List Char}
    (h : behindSign? sign line = some body)
    (hother : ∀ blank blank' rest rest', isBlank blank = true → isBlank blank' = true →
      sign ++ blank :: rest ≠ other ++ blank' :: rest') : behindSign? other line = none := by
  obtain ⟨blank, rest, rfl, hblank, -⟩ := behindSign?_eq_some_iff.mp h
  rw [Option.eq_none_iff_forall_ne_some]
  intro body' hbody'
  obtain ⟨blank', rest', heq, hblank', -⟩ := behindSign?_eq_some_iff.mp hbody'
  exact hother blank blank' rest rest' hblank hblank' heq

theorem heading?_eq_some_iff {line body : List Char} {level : Level} :
    heading? line = some (level, body) ↔
      behindSign? level.sign (line.dropWhile isFiller) = some body := by
  unfold heading?
  dsimp only
  cases hsecond : behindSign? ['#', '#'] (line.dropWhile isFiller) with
  | none =>
    cases level with
    | first => simp [Level.sign]
    | second => simp [Level.sign, hsecond]
  | some second =>
    have hfirst : behindSign? ['#'] (line.dropWhile isFiller) = none := by
      refine behindSign?_eq_none hsecond fun blank blank' rest rest' _ hblank' heq => ?_
      obtain rfl : '#' = blank' := (List.cons.inj (List.cons.inj heq).2).1
      exact absurd hblank' (by decide)
    cases level with
    | first => simp [Level.sign, hfirst]
    | second => simp [Level.sign, hsecond, eq_comm]

theorem classify_eq_heading_iff {line body : List Char} {level : Level}
    {next? : Option (List Char)} :
    classify line next? = .heading level body ↔ heading? line = some (level, body) := by
  unfold classify
  cases hheading : heading? line with
  | some pair => simp [Prod.ext_iff]
  | none =>
    dsimp only
    split
    · split <;> simp
    · simp

theorem eq_of_classify_eq_plain {line text : List Char} {next? : Option (List Char)}
    (h : classify line next? = .plain text) : text = line := by
  unfold classify at h
  split at h
  · cases h
  · split at h
    · split at h <;> cases h
      rfl
    · cases h
      rfl

theorem classify_eq_sub_iff {line body : List Char} {next? : Option (List Char)} :
    classify line next? = .sub body ↔
      behindSign? ['-'] (line.dropWhile isFiller) = some body ∧
        (next?.bind heading?).isSome = true := by
  have hheading : behindSign? ['-'] (line.dropWhile isFiller) = some body →
      heading? line = none := by
    intro hsub
    rw [Option.eq_none_iff_forall_ne_some]
    rintro ⟨level, body'⟩ hheading
    have hsign := heading?_eq_some_iff.mp hheading
    rw [behindSign?_eq_none hsub] at hsign
    · cases hsign
    · intro blank blank' rest rest' _ _ heq
      cases level <;> exact absurd (List.cons.inj heq).1 (by decide)
  unfold classify
  cases hsub : behindSign? ['-'] (line.dropWhile isFiller) with
  | none =>
    split
    · simp
    · simp
  | some body' =>
    rw [hsub] at hheading
    by_cases hbody : body' = body
    · subst hbody
      rw [hheading rfl]
      dsimp only
      split <;> simp_all
    · split
      · simp [hbody]
      · dsimp only
        split <;> simp [hbody]

theorem length_classifyAll (texts : List (List Char)) :
    (classifyAll texts).length = texts.length := by
  induction texts with
  | nil => rfl
  | cons text rest ih => rw [classifyAll, List.length_cons, ih, List.length_cons]

theorem getElem?_classifyAll (texts : List (List Char)) (i : Nat) :
    (classifyAll texts)[i]? = texts[i]?.map fun text => classify text texts[i + 1]? := by
  induction texts generalizing i with
  | nil => rfl
  | cons text rest ih =>
    cases i with
    | zero => simp [classifyAll, List.head?_eq_getElem?]
    | succ i => simp [classifyAll, ih]

/-! ### Marked lines -/

/-- Whether a line, behind fillers, begins with the sign and a blank, has something else behind
these, and no line break in it. -/
def IsMarked (sign : List Char) (row : List Token) : Prop :=
  (∃ fillers blank rest, Token.printAll row = fillers ++ (sign ++ blank :: rest) ∧
    (∀ c ∈ fillers, isFiller c = true) ∧ isBlank blank = true ∧ ∃ c ∈ rest, isFiller c = false) ∧
  .opening .lineBreak ∉ row

theorem mem_dropWhile_of_isCharOf {p : Char → Bool} {token : Token} {tokens : List Token}
    (htoken : isCharOf p token = false) (h : token ∈ tokens) :
    token ∈ tokens.dropWhile (isCharOf p) := by
  rw [← List.takeWhile_append_dropWhile (p := isCharOf p) (l := tokens)] at h
  refine (List.mem_append.mp h).resolve_left fun hmem => ?_
  have hhead := List.all_eq_true.mp List.all_takeWhile token hmem
  rw [htoken] at hhead
  cases hhead

theorem exists_behindSign?_iff {sign : List Char} {row : List Token} (hsteady : IsSteady sign)
    (hne : sign ≠ []) (h : ∀ token ∈ row, IsWritten token) :
    (∃ body, behindSign? sign ((Token.printAll row).dropWhile isFiller) = some body) ↔
      IsMarked sign row := by
  constructor
  · rintro ⟨body, hbody⟩
    rw [dropWhile_printAll (by decide)] at hbody
    obtain ⟨blank, behind, hblank, hrow, rfl, hshown, hbreak⟩ :=
      exists_of_behindSign? hsteady.notMem hbody
    have htext := congrArg Token.printAll hrow
    rw [← dropWhile_printAll (by decide), Token.printAll_append, Token.printAll_map_char,
      Token.printAll_cons] at htext
    refine ⟨⟨(Token.printAll row).takeWhile isFiller, blank, Token.printAll behind, ?_,
      List.all_eq_true.mp List.all_takeWhile, hblank, hshown⟩, fun hmem => ?_⟩
    · have hsplit := List.takeWhile_append_dropWhile (p := isFiller) (l := Token.printAll row)
      rw [htext] at hsplit
      exact hsplit.symm
    · have hbehind := mem_dropWhile_of_isCharOf (p := isFiller) rfl hmem
      rw [hrow] at hbehind
      have hbody : .opening .lineBreak ∈ dropTailTokens isFiller behind := by
        have hreverse : .opening .lineBreak ∈ behind.reverse := by simpa using hbehind
        exact List.mem_reverse.mpr (mem_dropWhile_of_isCharOf rfl hreverse)
      rw [isPart_lineBreakText_of_mem hbody] at hbreak
      cases hbreak
  · rintro ⟨⟨fillers, blank, rest, htext, hfillers, hblank, hshown⟩, hbreak⟩
    have hdrop : (Token.printAll row).dropWhile isFiller = sign ++ blank :: rest := by
      rw [htext, List.dropWhile_append_of_pos hfillers]
      cases sign with
      | nil => exact absurd rfl hne
      | cons c sign =>
        have hc := (hsteady c List.mem_cons_self).1
        exact List.dropWhile_cons_of_neg (by simp [hc])
    refine ⟨_, behindSign?_eq_some_iff.mpr ⟨blank, rest, hdrop, hblank, hshown, ?_, rfl⟩⟩
    have hopen : '<' ∉ fillers ++ (sign ++ [blank]) := by
      have hfiller : '<' ∉ fillers := fun hmem => absurd (hfillers '<' hmem) (by decide)
      simp [hfiller, hsteady.notMem, (ne_of_isBlank hblank).symm]
    rw [List.append_cons sign, ← List.append_assoc] at htext
    obtain ⟨behind, rfl, rfl⟩ := printAll_eq_append hopen htext
    rw [dropTail_printAll (by decide)]
    have hbehind : ∀ token ∈ dropTailTokens isFiller behind,
        token ∈ (fillers ++ (sign ++ [blank])).map .char ++ behind := by
      obtain ⟨tail, hbehind, -⟩ := exists_dropTailTokens_append isFiller behind
      intro token htoken
      rw [hbehind]
      exact List.mem_append_right _ (List.mem_append_left tail htoken)
    exact isPart_lineBreakText_printAll (fun token htoken => h token (hbehind token htoken))
      fun hmem => hbreak (hbehind _ hmem)

/-- What is behind the sign of a line is of the line. -/
theorem exists_behindSign? {sign body : List Char} {row : List Token} (hsign : '<' ∉ sign)
    (hbody : behindSign? sign ((Token.printAll row).dropWhile isFiller) = some body) :
    ∃ blank behind, isBlank blank = true ∧
      row.dropWhile (isCharOf isFiller) = sign.map .char ++ .char blank :: behind ∧
      body = Token.printAll (dropTailTokens isFiller behind) ∧ (∀ token ∈ behind, token ∈ row) ∧
      ∀ token ∈ dropTailTokens isFiller behind, token ∈ row := by
  rw [dropWhile_printAll (by decide)] at hbody
  obtain ⟨blank, behind, hblank, hrow, rfl, -⟩ := exists_of_behindSign? hsign hbody
  obtain ⟨tail, hbehind, -⟩ := exists_dropTailTokens_append isFiller behind
  have hmem : ∀ token ∈ behind, token ∈ row := by
    intro token htoken
    refine (List.dropWhile_sublist (isCharOf isFiller)).mem ?_
    rw [hrow]
    exact List.mem_append_right _ (List.mem_cons_of_mem _ htoken)
  refine ⟨blank, behind, hblank, hrow, rfl, hmem, fun token htoken => hmem token ?_⟩
  rw [hbehind]
  exact List.mem_append_left tail htoken

/-- The top-level lines of a message, as tokens. -/
def topLines (resolver : Resolver) (nodes : List Node) : List (List Token) :=
  cut 0 (rawTokens resolver nodes)

/-- The lines of the body of a message, before they are put together. -/
def promotedLines (resolver : Resolver) (nodes : List Node) : List Line :=
  classifyAll (lines (raw resolver nodes))

theorem lines_raw (resolver : Resolver) (nodes : List Node) :
    lines (raw resolver nodes) = (topLines resolver nodes).map Token.printAll := by
  have hraw : IsFragment (rawTokens resolver nodes) := isFragment_htmlOfAll resolver nodes
  rw [← printAll_rawTokens, lines_printAll hraw.written, topLines]

theorem isFragment_of_mem_topLines {resolver : Resolver} {nodes : List Node} {row : List Token}
    (h : row ∈ topLines resolver nodes) : IsFragment row :=
  isFragment_of_mem_cut (isFragment_htmlOfAll resolver nodes) h

theorem getElem?_promotedLines {resolver : Resolver} {nodes : List Node} {i : Nat}
    {row : List Token} (hrow : (topLines resolver nodes)[i]? = some row) :
    (promotedLines resolver nodes)[i]? =
      some (classify (Token.printAll row) (lines (raw resolver nodes))[i + 1]?) := by
  have hline : (lines (raw resolver nodes))[i]? = some (Token.printAll row) := by
    rw [lines_raw, List.getElem?_map, hrow]
    rfl
  rw [promotedLines, getElem?_classifyAll, hline]
  rfl

theorem exists_heading_iff (resolver : Resolver) (nodes : List Node) (i : Nat) :
    ((lines (raw resolver nodes))[i]?.bind heading?).isSome = true ↔
      ∃ level body, (promotedLines resolver nodes)[i]? = some (.heading level body) := by
  rw [promotedLines, getElem?_classifyAll]
  cases (lines (raw resolver nodes))[i]? with
  | none => simp
  | some line => simp [Option.isSome_iff_exists, classify_eq_heading_iff]

/-- What becomes of a top-level line depends on its own sign, and for a dash on the next line. -/
theorem exists_promotedLine {resolver : Resolver} {nodes : List Node} {i : Nat} {row : List Token}
    (hrow : (topLines resolver nodes)[i]? = some row) :
    ∃ line, (promotedLines resolver nodes)[i]? = some line ∧
      (∀ level, (∃ body, line = .heading level body) ↔ IsMarked level.sign row) ∧
      ((∃ body, line = .sub body) ↔ IsMarked ['-'] row ∧
        ∃ level body, (promotedLines resolver nodes)[i + 1]? = some (.heading level body)) := by
  have hwritten : ∀ token ∈ row, IsWritten token :=
    (isFragment_of_mem_topLines (List.mem_of_getElem? hrow)).written
  refine ⟨_, getElem?_promotedLines hrow, fun level => ?_, ?_⟩
  · rw [← exists_behindSign?_iff level.isSteady_sign level.sign_ne_nil hwritten]
    simp only [classify_eq_heading_iff, heading?_eq_some_iff]
  · rw [← exists_behindSign?_iff (by decide) (by decide) hwritten, ← exists_heading_iff]
    simp only [classify_eq_sub_iff, exists_and_right]

/-! ### Nothing is lost -/

theorem flatMap_cut {f : Token → List Char} (hbreak : f (.opening .lineBreak) = [])
    (depth : Nat) (tokens : List Token) :
    (cut depth tokens).flatMap (List.flatMap f) = tokens.flatMap f := by
  induction tokens generalizing depth with
  | nil => rfl
  | cons token rest ih =>
    rw [cut]
    split
    · next h => rw [List.flatMap_cons, ih, List.flatMap_cons, h.2, hbreak, List.flatMap_nil]
    · rw [List.flatMap_cons, ← ih (depthAfter token depth)]
      cases hcut : cut (depthAfter token depth) rest with
      | nil => exact absurd hcut (cut_ne_nil _ _)
      | cons line lines => simp [prependToken]

theorem untag_append_of_prints {sign : List Char → List Char} {s : List Char} (h : Prints s)
    (rest : List Char) : untag sign (s ++ rest) = untag sign s ++ untag sign rest := by
  obtain ⟨tokens, rfl, htokens⟩ := h
  have hlexical : ∀ token ∈ tokens, token.IsLexical := fun token htoken =>
    (htokens.written token htoken).isLexical
  rw [untag_printAll_append hlexical, untag_printAll hlexical]

theorem untag_headline {tag : Tag} {inner : List Token} (htag : IsTag tag)
    (hname : tag.name ∈ closedNames) (hinner : ∀ token ∈ inner, IsWritten token) :
    untag headlineSign
        (Token.print (.opening tag) ++ Token.printAll inner ++ Markup.closingTag tag.name) =
      headlineSign (Token.print (.opening tag)) ++ inner.flatMap (signOf headlineSign) := by
  have hclosing : headlineSign (Token.print (.closing tag.name)) = [] :=
    isSign_headlineSign.other (.closing tag.name) hname (fun _ => Token.noConfusion)
      Token.noConfusion rfl
  have hwritten : ∀ token ∈ .opening tag :: (inner ++ [.closing tag.name]), IsWritten token := by
    intro token h
    simp only [List.mem_cons, List.mem_append, List.not_mem_nil, or_false] at h
    rcases h with rfl | h | rfl
    · exact htag
    · exact hinner token h
    · exact hname
  rw [← printAll_element, untag_printAll fun token htoken => (hwritten token htoken).isLexical,
    List.flatMap_cons, List.flatMap_append, List.flatMap_singleton, signOf, signOf, hclosing,
    List.append_nil]

/-- A headline is read as its line is, but for fillers and the blank behind the sign. -/
theorem thins_headline {tag : Tag} {body : List Char} {row : List Token} (htag : IsTag tag)
    (hname : tag.name ∈ closedNames) (h : ∀ token ∈ row, IsWritten token)
    (hsteady : IsSteady (headlineSign (Token.print (.opening tag))))
    (hbody : behindSign? (headlineSign (Token.print (.opening tag)))
      ((Token.printAll row).dropWhile isFiller) = some body) :
    Thins (row.flatMap (signOf headlineSign))
      (untag headlineSign (Token.print (.opening tag) ++ body ++ Markup.closingTag tag.name)) := by
  obtain ⟨blank, behind, hblank, hrow, rfl, hbehind, hinner⟩ :=
    exists_behindSign? hsteady.notMem hbody
  have hdrop : Thins (row.flatMap (signOf headlineSign)) _ :=
    (ThinsTokens.dropWhile (p := isFiller) (fun _ hc => hc) row).thins isStable_headlineSign h
  have htail : Thins (behind.flatMap (signOf headlineSign)) _ :=
    (thinsTokens_dropTailTokens (p := isFiller) (fun _ hc => hc) behind).thins
      isStable_headlineSign fun token htoken => h token (hbehind token htoken)
  rw [hrow, List.flatMap_append, flatMap_signOf_map_char] at hdrop
  rw [untag_headline htag hname fun token htoken => h token (hinner token htoken)]
  exact hdrop.trans ((Thins.refl _).append (htail.drop (isFiller_of_isBlank hblank)))

theorem thins_classify {row : List Token} (h : ∀ token ∈ row, IsWritten token)
    (next? : Option (List Char)) :
    Thins (row.flatMap (signOf headlineSign))
      (untag headlineSign (classify (Token.printAll row) next?).print) := by
  cases hline : classify (Token.printAll row) next? with
  | heading level body =>
    have hbody := heading?_eq_some_iff.mp (classify_eq_heading_iff.mp hline)
    cases level with
    | first =>
      have htag : IsTag ⟨"h1", [], false⟩ := .plain (by decide)
      exact thins_headline htag (by decide) h (by decide) hbody
    | second =>
      have htag : IsTag ⟨"h2", [], false⟩ := .plain (by decide)
      exact thins_headline htag (by decide) h (by decide) hbody
  | sub body =>
    have hbody := (classify_eq_sub_iff.mp hline).1
    exact thins_headline .sub (by decide) h (by decide) hbody
  | plain text =>
    rw [eq_of_classify_eq_plain hline, Line.print,
      untag_printAll fun token htoken => (h token htoken).isLexical]
    exact .refl _

theorem thins_printAll_classifyAll {rows : List (List Token)} (h : ∀ row ∈ rows, IsFragment row) :
    Thins (rows.flatMap (List.flatMap (signOf headlineSign)))
      (untag headlineSign (Line.printAll (classifyAll (rows.map Token.printAll)))) := by
  induction rows with
  | nil => exact .nil
  | cons row rest ih =>
    obtain ⟨hrow, hrest⟩ := List.forall_mem_cons.mp h
    have htail := ih hrest
    have hhead := thins_classify hrow.written (rest.map Token.printAll).head?
    have hprints := prints_classify hrow (rest.map Token.printAll).head?
    obtain ⟨between, hbetween, hprint⟩ := exists_printAll_cons
      (classify (Token.printAll row) (rest.map Token.printAll).head?)
      (classifyAll (rest.map Token.printAll))
    -- The line break behind a plain line is not read, so that promotion drops it does not show.
    have hnone : untag headlineSign between = [] := by rcases hbetween with rfl | rfl <;> decide
    rw [List.map_cons, classifyAll, List.flatMap_cons, hprint, untag_append_of_prints hprints,
      untag_append_of_prints (prints_between hbetween), hnone, List.nil_append]
    exact hhead.append htail

/-- The body of a message shows what the message does, if headlines are read as their signs. -/
theorem ink_render (resolver : Resolver) (nodes : List Node) :
    ink (unescape (untag headlineSign (render resolver nodes))) =
      ink (unescape (untag noSign (raw resolver nodes))) := by
  have hraw : IsFragment (rawTokens resolver nodes) := isFragment_htmlOfAll resolver nodes
  have hpromote : Thins (untag headlineSign (raw resolver nodes))
      (untag headlineSign (Line.printAll (promotedLines resolver nodes))) := by
    rw [promotedLines, lines_raw, ← printAll_rawTokens,
      untag_printAll fun token htoken => (hraw.written token htoken).isLexical,
      ← flatMap_cut (f := signOf headlineSign) (by decide) 0]
    exact thins_printAll_classifyAll fun row hrow => isFragment_of_mem_topLines hrow
  have hcompact : Thins
      (untag headlineSign (Line.printAll (promotedLines resolver nodes)))
      (untag headlineSign (render resolver nodes)) := by
    obtain ⟨promoted, hprint, hpromoted⟩ := prints_printAll_classifyAll hraw
    rw [printAll_rawTokens] at hprint
    rw [promotedLines, render, promote, ← hprint]
    exact thins_compact_stripSeparators isStable_headlineSign hpromoted
  rw [ink_unescape_eq (escapes_untag_raw isSign_headlineSign (by decide) resolver nodes)
    (hpromote.trans hcompact), Markup.unescape_eq (escapes_untag_raw isSign_noSign (by decide)
      resolver nodes)]

/-- Promotion loses nothing, and promotes the lines that are marked: the body shows what the message
does, and each top-level line becomes a heading if it is marked with the sign of one, or a line above
a heading if it is marked with a dash and the next line becomes a heading. -/
theorem ink_render_and_promoted_iff (resolver : Resolver) (nodes : List Node) :
    ink (unescape (untag headlineSign (render resolver nodes))) =
        ink (unescape (untag noSign (raw resolver nodes))) ∧
      lines (raw resolver nodes) = (topLines resolver nodes).map Token.printAll ∧
      render resolver nodes =
        compact (stripSeparators (Line.printAll (promotedLines resolver nodes))) ∧
      (promotedLines resolver nodes).length = (topLines resolver nodes).length ∧
      ∀ i row, (topLines resolver nodes)[i]? = some row →
        ∃ line, (promotedLines resolver nodes)[i]? = some line ∧
          ((∃ body, line = .heading .first body) ↔ IsMarked ['#'] row) ∧
          ((∃ body, line = .heading .second body) ↔ IsMarked ['#', '#'] row) ∧
          ((∃ body, line = .sub body) ↔ IsMarked ['-'] row ∧
            ∃ level body, (promotedLines resolver nodes)[i + 1]? = some (.heading level body)) := by
  refine ⟨ink_render resolver nodes, lines_raw resolver nodes, rfl, ?_, fun i row hrow => ?_⟩
  · rw [promotedLines, length_classifyAll, lines_raw, List.length_map]
  · obtain ⟨line, hline, hheading, hsub⟩ := exists_promotedLine hrow
    exact ⟨line, hline, hheading .first, hheading .second, hsub⟩

/-- A heading with a line above it. -/
def headlines : List Node := [.text "- Today", .lineBreak, .text "# News"]

theorem ink_render_and_promoted_iff_headlines :
    (∃ body, (promotedLines Entities.empty.resolver headlines)[0]? = some (.sub body)) ∧
      ∃ body, (promotedLines Entities.empty.resolver headlines)[1]? =
        some (.heading .first body) := by
  obtain ⟨-, -, -, -, h⟩ := ink_render_and_promoted_iff Entities.empty.resolver headlines
  have hmarked : IsMarked ['#'] ((Markup.separatorChar :: "# News".toList).map .char) := by
    refine ⟨⟨[Markup.separatorChar], ' ', "News".toList, by decide, fun c hc => ?_, by decide,
      'N', by decide, by decide⟩, by decide⟩
    rw [List.mem_singleton.mp hc]
    decide
  have hdash : IsMarked ['-'] (("- Today".toList ++ [Markup.separatorChar]).map .char) :=
    ⟨⟨[], ' ', "Today".toList ++ [Markup.separatorChar], by decide,
      fun _ hc => absurd hc List.not_mem_nil, by decide, 'T', by decide, by decide⟩, by decide⟩
  have hrows : topLines Entities.empty.resolver headlines =
      [("- Today".toList ++ [Markup.separatorChar]).map .char,
        (Markup.separatorChar :: "# News".toList).map .char] := by decide
  obtain ⟨line, hline, hfirst, -⟩ := h 1 _ (congrArg (·[1]?) hrows)
  obtain ⟨body, rfl⟩ := hfirst.mpr hmarked
  obtain ⟨above, habove, -, -, hsub⟩ := h 0 _ (congrArg (·[0]?) hrows)
  obtain ⟨body', rfl⟩ := hsub.mpr ⟨hdash, .first, body, hline⟩
  exact ⟨⟨body', habove⟩, body, hline⟩

end Gazette.Body
