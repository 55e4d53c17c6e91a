import Gazette.Proofs.Body.Marked
import Gazette.Proofs.Body.Pieces

/-!
# What is visible of a body

Between its tags a body is an escaped text (`escapes_untag_render`): the passes over a message take no
entity apart. A line loses its sign up to a blank, which no entity holds, and what follows promotion
only thins.
-/

namespace Gazette.Body

open Markup (Escapes entities escapeStrictly separatorChar tokensOfAll unescape)

/-- The text of a body, without its tags and with its entities decoded. -/
def visible (body : List Char) : List Char := unescape (untag noSign body)

/-- Whether a text prints a fragment that is an escaped text between its tags. -/
def IsReadable (s : List Char) : Prop := Prints s ∧ ∃ t, Escapes (untag noSign s) t

theorem IsReadable.append {s t : List Char} (hs : IsReadable s) (ht : IsReadable t) :
    IsReadable (s ++ t) := by
  obtain ⟨hprints, u, hu⟩ := hs
  obtain ⟨hprints', v, hv⟩ := ht
  refine ⟨hprints.append hprints', u ++ v, ?_⟩
  rw [untag_append_of_prints hprints]
  exact hu.append hv

theorem isReadable_printAll {pieces : List Markup} (hplain : AreUnpromoted pieces)
    (h : IsFragment (tokensOfAll pieces)) : IsReadable (Markup.printAll pieces) :=
  ⟨⟨tokensOfAll pieces, Markup.printAll_tokensOfAll pieces, h⟩, _,
    escapes_untag_printAll isSign_noSign (by decide) hplain h.written⟩

theorem isReadable_escapeStrictly (content : String) :
    IsReadable (escapeStrictly content.toList) := by
  have hmessage : IsFragment (tokensOfAll [.message content]) := by
    rw [tokensOfAll_singleton]
    exact .message content
  have hplain : AreUnpromoted [.message content] := areUnpromoted_singleton trivial
  have h := isReadable_printAll hplain hmessage
  rwa [printAll_singleton, Markup.print] at h

theorem isReadable_of_between {between : List Char}
    (h : between = [] ∨ between = Markup.lineBreakText) : IsReadable between := by
  refine ⟨prints_between h, [], ?_⟩
  have hnone : untag noSign between = [] := by rcases h with rfl | rfl <;> decide
  rw [hnone]
  exact .nil

/-! ### Lines of a message -/

theorem isReadable_whole (resolver : Resolver) (node : Node) :
    ∀ s, .text s ∈ whole resolver node → IsReadable s := by
  intro s hs
  obtain rfl := Part.text.inj (List.mem_singleton.mp hs)
  exact isReadable_printAll (areUnpromoted_html resolver node) (isFragment_html resolver node)

mutual

theorem isReadable_parts (resolver : Resolver) : (node : Node) →
    ∀ s, .text s ∈ parts resolver node → IsReadable s
  | .lineBreak => by
    intro s hs
    rw [parts] at hs
    cases List.mem_singleton.mp hs
  | .link target content | .url target content => by
    rw [parts]
    split
    · exact isReadable_whole resolver _
    · exact isReadable_partsOfContent resolver content
  | .emoticon content => by
    rw [parts]
    exact isReadable_partsOfContent resolver content
  | .unknown kind (some content) => by
    have hcolon : escapeStrictly ": ".toList = ": ".toList := by decide
    intro s hs
    rw [parts] at hs
    rcases List.mem_cons.mp hs with heq | hs
    · obtain rfl := Part.text.inj heq
      exact isReadable_escapeStrictly kind
    rcases List.mem_cons.mp hs with heq | hs
    · obtain rfl := Part.text.inj heq
      exact hcolon ▸ isReadable_escapeStrictly ": "
    · exact isReadable_partsOfContent resolver content s hs
  | .text _ | .blockQuote _ | .mention .. | .broadcast _ | .codeBlock .. | .inlineCode _
  | .styled .. | .emoji none _ _ | .emoji (some _) _ _ | .timestamp .. | .unknown _ none => by
    rw [parts]
    exact isReadable_whole resolver _

theorem isReadable_partsOfContent (resolver : Resolver) : (content : Content) →
    ∀ s, .text s ∈ partsOfContent resolver content → IsReadable s
  | .text content => by
    intro s hs
    rw [partsOfContent] at hs
    obtain rfl := Part.text.inj (List.mem_singleton.mp hs)
    exact isReadable_escapeStrictly content
  | .nodes nodes => by
    rw [partsOfContent]
    exact isReadable_partsOfAll resolver nodes

theorem isReadable_partsOfAll (resolver : Resolver) : (nodes : List Node) →
    ∀ s, .text s ∈ partsOfAll resolver nodes → IsReadable s
  | [] => fun _ hs => absurd hs List.not_mem_nil
  | [node] => by
    rw [partsOfAll]
    exact isReadable_parts resolver node
  | node :: next :: rest => by
    have hseparator : escapeStrictly [separatorChar] = [separatorChar] := by decide
    intro s hs
    rw [partsOfAll] at hs
    · rcases List.mem_append.mp hs with hs | hs
      · exact isReadable_parts resolver node s hs
      rcases List.mem_cons.mp hs with heq | hs
      · obtain rfl := Part.text.inj heq
        exact hseparator ▸ isReadable_escapeStrictly (String.singleton separatorChar)
      · exact isReadable_partsOfAll resolver (next :: rest) s hs
    · simp

end

theorem isReadable_of_mem_pieces {parts : List Part} (h : ∀ s, .text s ∈ parts → IsReadable s) :
    ∀ line ∈ pieces parts, IsReadable line := by
  have hnil : IsReadable [] := isReadable_of_between (.inl rfl)
  induction parts with
  | nil =>
    intro line hline
    rw [List.mem_singleton.mp hline]
    exact hnil
  | cons part parts ih =>
    have hrest := ih fun s hs => h s (List.mem_cons_of_mem part hs)
    rw [pieces_cons]
    cases part with
    | lineBreak => exact List.forall_mem_cons.mpr ⟨hnil, hrest⟩
    | text s =>
      have hs := h s List.mem_cons_self
      rw [Part.before]
      cases hpieces : pieces parts with
      | nil => exact absurd hpieces (pieces_ne_nil parts)
      | cons line lines =>
        rw [hpieces] at hrest
        obtain ⟨hline, hlines⟩ := List.forall_mem_cons.mp hrest
        exact List.forall_mem_cons.mpr ⟨hs.append hline, hlines⟩

theorem isReadable_line (resolver : Resolver) (nodes : List Node) :
    ∀ line ∈ lines (raw resolver nodes), IsReadable line := by
  rw [lines_raw_eq]
  exact isReadable_of_mem_pieces (isReadable_partsOfAll resolver nodes)

/-! ### Promoted lines -/

/-- Thinning takes no entity apart. -/
theorem Thins.exists_escapes {s t u : List Char} (h : Thins s t) (hs : Escapes s u) :
    ∃ v, Escapes t v := by
  induction hs generalizing t with
  | nil =>
    cases h
    exact ⟨[], .nil⟩
  | @char c _ _ hc _ ih =>
    cases h with
    | keep _ h =>
      obtain ⟨v, hv⟩ := ih h
      exact ⟨c :: v, hv.char hc⟩
    | drop _ h => exact ih h
    | space _ h =>
      obtain ⟨v, hv⟩ := ih h
      exact ⟨' ' :: v, hv.char (by decide)⟩
  | @entity _ _ _ c hc _ ih =>
    obtain ⟨t', rfl, htail⟩ := h.exists_eq_append (isFiller_of_mem_entity hc)
    obtain ⟨v, hv⟩ := ih htail
    exact ⟨c :: v, hv.entity hc⟩

/-- What is behind the sign of a line and its blank is an escaped text if the line is one. -/
theorem exists_escapes_headline {tag : Tag} {sign body : List Char} {row : List Token}
    (htag : IsTag tag) (hname : tag.name ∈ closedNames) (hsign : '<' ∉ sign)
    (h : ∀ token ∈ row, IsWritten token) {u : List Char}
    (hrow : Escapes (row.flatMap (signOf noSign)) u)
    (hbody : behindSign? sign ((Token.printAll row).dropWhile isFiller) = some body) :
    ∃ v, Escapes (untag noSign (Token.print (.opening tag) ++ body ++ Markup.closingTag tag.name))
      v := by
  obtain ⟨blank, behind, hblank, hdrop, rfl, hbehind, hinner⟩ := exists_behindSign? hsign hbody
  have hsplit : row.flatMap (signOf noSign) =
      ((row.takeWhile (isCharOf isFiller)).flatMap (signOf noSign) ++ sign) ++
        blank :: behind.flatMap (signOf noSign) := by
    conv_lhs => rw [← List.takeWhile_append_dropWhile (p := isCharOf isFiller) (l := row)]
    rw [List.flatMap_append, hdrop, List.flatMap_append, flatMap_signOf_map_char, List.append_assoc]
    rfl
  have hnone : ∀ pair ∈ entities, blank ∉ pair.1 := by
    intro pair hpair hmem
    have hfiller := isFiller_of_mem_entity (c := pair.2) hpair blank hmem
    rw [isFiller_of_isBlank hblank] at hfiller
    cases hfiller
  rw [hsplit] at hrow
  obtain ⟨-, v, -, -, hv⟩ := hrow.exists_append_cons hnone
  have hthins : Thins (behind.flatMap (signOf noSign)) _ :=
    (thinsTokens_dropTailTokens (p := isFiller) (fun _ hc => hc) behind).thins isStable_noSign
      fun token htoken => h token (hbehind token htoken)
  have hwritten : ∀ token ∈ .opening tag :: (dropTailTokens isFiller behind ++ [.closing tag.name]),
      IsWritten token := by
    simp only [List.forall_mem_cons, List.forall_mem_append]
    exact ⟨htag, fun token htoken => h token (hinner token htoken), hname, List.forall_mem_nil _⟩
  have huntag : untag noSign (Token.print (.opening tag) ++
        Token.printAll (dropTailTokens isFiller behind) ++ Markup.closingTag tag.name) =
      (dropTailTokens isFiller behind).flatMap (signOf noSign) := by
    rw [← printAll_element, untag_printAll fun token htoken => (hwritten token htoken).isLexical,
      List.flatMap_cons, List.flatMap_append]
    exact List.append_nil _
  rw [huntag]
  exact hthins.exists_escapes hv

theorem isReadable_classify {row : List Token} (h : IsFragment row)
    (hrow : IsReadable (Token.printAll row)) (next? : Option (List Char)) :
    IsReadable (classify (Token.printAll row) next?).print := by
  refine ⟨prints_classify h next?, ?_⟩
  obtain ⟨-, u, hu⟩ := hrow
  have hflat := hu
  rw [untag_printAll fun token htoken => (h.written token htoken).isLexical] at hflat
  cases hclass : classify (Token.printAll row) next? with
  | heading level body =>
    have hbody := heading?_eq_some_iff.mp (classify_eq_heading_iff.mp hclass)
    cases level with
    | first =>
      have htag : IsTag ⟨"h1", [], false⟩ := .plain (by decide)
      exact exists_escapes_headline htag (by decide) (by decide) h.written hflat hbody
    | second =>
      have htag : IsTag ⟨"h2", [], false⟩ := .plain (by decide)
      exact exists_escapes_headline htag (by decide) (by decide) h.written hflat hbody
  | sub body =>
    have hbody := (classify_eq_sub_iff.mp hclass).1
    exact exists_escapes_headline .sub (by decide) (by decide) h.written hflat hbody
  | plain text =>
    rw [eq_of_classify_eq_plain hclass]
    exact ⟨u, hu⟩

theorem isReadable_printAll_classifyAll {rows : List (List Token)}
    (h : ∀ row ∈ rows, IsFragment row) (hrows : ∀ row ∈ rows, IsReadable (Token.printAll row)) :
    IsReadable (Line.printAll (classifyAll (rows.map Token.printAll))) := by
  induction rows with
  | nil => exact isReadable_of_between (.inl rfl)
  | cons row rest ih =>
    obtain ⟨hrow, hrest⟩ := List.forall_mem_cons.mp h
    obtain ⟨hread, hreads⟩ := List.forall_mem_cons.mp hrows
    obtain ⟨between, hbetween, hprint⟩ := exists_printAll_cons
      (classify (Token.printAll row) (rest.map Token.printAll).head?)
      (classifyAll (rest.map Token.printAll))
    rw [List.map_cons, classifyAll, hprint]
    exact (isReadable_classify hrow hread _).append
      ((isReadable_of_between hbetween).append (ih hrest hreads))

/-- Between its tags the body of a message is an escaped form of what is visible of it. -/
theorem escapes_untag_render (resolver : Resolver) (nodes : List Node) :
    Escapes (untag noSign (render resolver nodes)) (visible (render resolver nodes)) := by
  have hraw : IsFragment (rawTokens resolver nodes) := isFragment_htmlOfAll resolver nodes
  obtain ⟨promoted, hprint, hpromoted⟩ := prints_printAll_classifyAll hraw
  have hlines : ∃ u, Escapes (untag noSign (Line.printAll (promotedLines resolver nodes))) u := by
    rw [promotedLines, lines_raw]
    refine (isReadable_printAll_classifyAll (fun row hrow => isFragment_of_mem_topLines hrow)
      fun row hrow => isReadable_line resolver nodes _ ?_).2
    rw [lines_raw]
    exact List.mem_map_of_mem hrow
  have hthins : Thins (untag noSign (Line.printAll (promotedLines resolver nodes)))
      (untag noSign (render resolver nodes)) := by
    rw [printAll_rawTokens] at hprint
    rw [promotedLines, render, promote, ← hprint]
    exact thins_compact_stripSeparators isStable_noSign hpromoted
  obtain ⟨u, hu⟩ := hlines
  obtain ⟨v, hv⟩ := hthins.exists_escapes hu
  rw [visible, Markup.unescape_eq hv]
  exact hv

end Gazette.Body
