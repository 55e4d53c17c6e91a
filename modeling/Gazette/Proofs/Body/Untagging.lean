import Gazette.Proofs.Body.Cutting
import Gazette.Proofs.Markup.Unescaping

/-!
# Texts without their tags

A reader who does not see tags sees the characters between them, and in the place of a tag whatever
a sign for it is agreed to be. For a message that has no headlines yet this is an escaped form of
the texts in its markup (`escapes_untag_raw`).
-/

namespace Gazette.Body

open Markup (tokensOfAll separatorChar lineBreakText Escapes escapes_escape escapes_escapeStrictly)

/-! ### Taking tags out of a text -/

/-- What follows in a text, with a sign in the place of each tag; `tag` is what has been read of the
tag that is open here. -/
def untagFrom (sign : List Char → List Char) (tag : List Char) : List Char → List Char
  | [] => []
  | c :: rest =>
    if tag = [] then
      if c = '<' then untagFrom sign ['<'] rest else c :: untagFrom sign [] rest
    else if c = '>' then sign (tag ++ ['>']) ++ untagFrom sign [] rest
    else untagFrom sign (tag ++ [c]) rest

def untag (sign : List Char → List Char) (s : List Char) : List Char := untagFrom sign [] s

/-- What a token is read as. -/
def signOf (sign : List Char → List Char) : Token → List Char
  | .char c => [c]
  | .opening tag => sign (Token.print (.opening tag))
  | .closing name => sign (Token.print (.closing name))

variable {sign : List Char → List Char}

theorem untagFrom_append_of_notMem {tag s : List Char} (htag : tag ≠ []) (hs : '>' ∉ s)
    (rest : List Char) :
    untagFrom sign tag (s ++ '>' :: rest) = sign (tag ++ s ++ ['>']) ++ untag sign rest := by
  induction s generalizing tag with
  | nil => rw [List.nil_append, untagFrom, if_neg htag, if_pos rfl, List.append_nil, untag]
  | cons c s ih =>
    have hc : c ≠ '>' := fun heq => hs (heq ▸ List.mem_cons_self)
    have htail := ih (List.append_ne_nil_of_right_ne_nil tag (List.cons_ne_nil c []))
      fun hmem => hs (List.mem_cons_of_mem c hmem)
    rw [List.cons_append, untagFrom, if_neg htag, if_neg hc, htail, List.append_assoc tag]
    rfl

theorem untag_print {token : Token} (h : token.IsLexical) (rest : List Char) :
    untag sign (token.print ++ rest) = signOf sign token ++ untag sign rest := by
  have htag : (∀ c, token ≠ .char c) → untag sign (token.print ++ rest) =
      sign token.print ++ untag sign rest := by
    intro hchar
    obtain ⟨s, hprint, hs⟩ := print_tag_eq h hchar
    rw [hprint, List.append_assoc, List.cons_append, List.singleton_append, untag, untagFrom,
      if_pos rfl, if_pos rfl, untagFrom_append_of_notMem (List.cons_ne_nil _ _) (hs '>' (.inr rfl))]
    rfl
  cases token with
  | char c =>
    have hc : c ≠ '<' := h
    change untagFrom sign [] (c :: rest) = _
    rw [untagFrom, if_pos rfl, if_neg hc]
    rfl
  | opening tag => exact htag fun _ => Token.noConfusion
  | closing name => exact htag fun _ => Token.noConfusion

theorem untag_printAll_append {tokens : List Token} (h : ∀ token ∈ tokens, token.IsLexical)
    (rest : List Char) :
    untag sign (Token.printAll tokens ++ rest) =
      tokens.flatMap (signOf sign) ++ untag sign rest := by
  induction tokens with
  | nil => rfl
  | cons token tokens ih =>
    have htail := ih fun t ht => h t (List.mem_cons_of_mem token ht)
    rw [Token.printAll_cons, List.append_assoc, untag_print (h token List.mem_cons_self), htail,
      List.flatMap_cons, List.append_assoc]

theorem untag_printAll {tokens : List Token} (h : ∀ token ∈ tokens, token.IsLexical) :
    untag sign (Token.printAll tokens) = tokens.flatMap (signOf sign) := by
  have hnil : untag sign [] = [] := rfl
  have happend : untag sign (Token.printAll tokens ++ []) =
      tokens.flatMap (signOf sign) ++ untag sign [] := untag_printAll_append h []
  rwa [hnil, List.append_nil, List.append_nil] at happend

example : untag (fun _ => []) "<b>1</b> &lt; 2".toList = "1 &lt; 2".toList := by decide

/-! ### Signs -/

/-- Tokens that can be read are known from what they print. -/
theorem printAll_injective {a b : List Token} (ha : ∀ token ∈ a, token.IsLexical)
    (hb : ∀ token ∈ b, token.IsLexical) (h : Token.printAll a = Token.printAll b) : a = b := by
  have hread := Token.read?_printAll a ha
  rw [h, Token.read?_printAll b hb] at hread
  exact (Option.some.inj hread).symm

theorem print_injective {a b : Token} (ha : a.IsLexical) (hb : b.IsLexical)
    (h : a.print = b.print) : a = b := by
  have hprint : Token.printAll [a] = Token.printAll [b] := by
    rw [Token.printAll_cons, Token.printAll_cons, h]
  exact List.head_eq_of_cons_eq (printAll_injective (List.forall_mem_singleton.mpr ha)
    (List.forall_mem_singleton.mpr hb) hprint)

def isHeadlineToken : Token → Bool
  | .opening tag => isHeadline tag
  | .char _ | .closing _ => false

/-- Whether nothing but line breaks and headlines has a sign. -/
structure IsSign (sign : List Char → List Char) (lineBreak : List Char) : Prop where
  lineBreak : sign lineBreakText = lineBreak
  other : ∀ token, IsWritten token → (∀ c, token ≠ .char c) → token ≠ .opening .lineBreak →
    isHeadlineToken token = false → sign token.print = []

/-- Line breaks are read as newlines, and other tags are not read. -/
def newlineSign (tag : List Char) : List Char := if tag = lineBreakText then ['\n'] else []

/-- No tag is read. -/
def noSign (_tag : List Char) : List Char := []

theorem isSign_noSign : IsSign noSign [] := ⟨rfl, fun _ _ _ _ _ => rfl⟩

theorem isSign_newlineSign : IsSign newlineSign ['\n'] where
  lineBreak := rfl
  other := by
    intro token htoken _ hbreak _
    refine if_neg fun heq => hbreak ?_
    exact print_injective htoken.isLexical (IsWritten.isLexical IsTag.lineBreak)
      (heq.trans Token.print_lineBreak.symm)

/-! ### Texts in markup -/

mutual

/-- The texts in a piece of markup. -/
def seen (lineBreak : List Char) : Markup → List Char
  | .text content => content.toList
  | .message content => content.toList
  | .verbatim content => content.toList
  | .separator => [separatorChar]
  | .lineBreak => lineBreak
  | .void _ _ => []
  | .element _ _ children => seenAll lineBreak children

def seenAll (lineBreak : List Char) : List Markup → List Char
  | [] => []
  | piece :: rest => seen lineBreak piece ++ seenAll lineBreak rest

end

mutual

/-- Whether nothing in a piece of markup was printed before, and no element is a headline. -/
def IsUnpromoted : Markup → Prop
  | .text _ | .message _ | .separator | .lineBreak => True
  | .verbatim _ => False
  | .void name attributes => isHeadline (Markup.tag name attributes) = false
  | .element name attributes children =>
    isHeadline (Markup.tag name attributes) = false ∧ AreUnpromoted children

def AreUnpromoted : List Markup → Prop
  | [] => True
  | piece :: rest => IsUnpromoted piece ∧ AreUnpromoted rest

end

theorem seenAll_append (lineBreak : List Char) (a b : List Markup) :
    seenAll lineBreak (a ++ b) = seenAll lineBreak a ++ seenAll lineBreak b := by
  induction a with
  | nil => rfl
  | cons piece a ih => rw [List.cons_append, seenAll, seenAll, ih, List.append_assoc]

theorem areUnpromoted_append {a b : List Markup} (ha : AreUnpromoted a) (hb : AreUnpromoted b) :
    AreUnpromoted (a ++ b) := by
  induction a with
  | nil => exact hb
  | cons piece a ih =>
    rw [AreUnpromoted] at ha
    rw [List.cons_append, AreUnpromoted]
    exact ⟨ha.1, ih ha.2⟩

theorem areUnpromoted_singleton {piece : Markup} (h : IsUnpromoted piece) :
    AreUnpromoted [piece] := by
  rw [AreUnpromoted, AreUnpromoted]
  exact ⟨h, trivial⟩

theorem flatMap_signOf_map_char (s : List Char) : (s.map .char).flatMap (signOf sign) = s := by
  induction s with
  | nil => rfl
  | cons c s ih => rw [List.map_cons, List.flatMap_cons, ih]; rfl

theorem tag_ne_lineBreak (name : String) (attributes : List Attribute) :
    Token.opening (Markup.tag name attributes) ≠ .opening .lineBreak := by
  intro h
  exact absurd (congrArg Tag.slash (Token.opening.inj h)) Bool.false_ne_true

mutual

theorem escapes_tokens {lineBreak : List Char} (hsign : IsSign sign lineBreak)
    (hbreak : '&' ∉ lineBreak) : (piece : Markup) → IsUnpromoted piece →
    (∀ token ∈ piece.tokens, IsWritten token) →
    Escapes (piece.tokens.flatMap (signOf sign)) (seen lineBreak piece)
  | .text content, _, _ => by
    rw [Markup.tokens, flatMap_signOf_map_char, seen]
    exact escapes_escape content.toList
  | .message content, _, _ => by
    rw [Markup.tokens, flatMap_signOf_map_char, seen]
    exact escapes_escapeStrictly content.toList
  | .verbatim content, h, _ => by
    rw [IsUnpromoted] at h
    exact h.elim
  | .separator, _, _ => by
    have hchar : '&' ∉ [separatorChar] := by decide
    rw [Markup.tokens, List.flatMap_singleton, seen]
    exact .self hchar
  | .lineBreak, _, _ => by
    rw [Markup.tokens, List.flatMap_singleton, signOf, Token.print_lineBreak, hsign.lineBreak, seen]
    exact .self hbreak
  | .void name attributes, h, hwritten => by
    rw [IsUnpromoted] at h
    rw [Markup.tokens] at hwritten ⊢
    rw [List.flatMap_singleton, signOf, seen, hsign.other _ (hwritten _ List.mem_cons_self)
      (fun _ => Token.noConfusion) (tag_ne_lineBreak name attributes) h]
    exact .nil
  | .element name attributes children, h, hwritten => by
    rw [IsUnpromoted] at h
    rw [Markup.tokens] at hwritten ⊢
    obtain ⟨hopening, hwritten⟩ := List.forall_mem_cons.mp hwritten
    obtain ⟨hchildren, hclosing⟩ := List.forall_mem_append.mp hwritten
    have hopen : signOf sign (.opening (Markup.tag name attributes)) = [] :=
      hsign.other _ hopening (fun _ => Token.noConfusion) (tag_ne_lineBreak name attributes) h.1
    have hclose : signOf sign (.closing name) = [] :=
      hsign.other _ (hclosing _ List.mem_cons_self) (fun _ => Token.noConfusion)
        Token.noConfusion rfl
    rw [List.flatMap_cons, List.flatMap_append, List.flatMap_singleton, hopen, hclose,
      List.nil_append, List.append_nil, seen]
    exact escapes_tokensOfAll hsign hbreak children h.2 hchildren

theorem escapes_tokensOfAll {lineBreak : List Char} (hsign : IsSign sign lineBreak)
    (hbreak : '&' ∉ lineBreak) : (pieces : List Markup) → AreUnpromoted pieces →
    (∀ token ∈ tokensOfAll pieces, IsWritten token) →
    Escapes ((tokensOfAll pieces).flatMap (signOf sign)) (seenAll lineBreak pieces)
  | [], _, _ => .nil
  | piece :: rest, h, hwritten => by
    rw [AreUnpromoted] at h
    rw [Markup.tokensOfAll] at hwritten ⊢
    obtain ⟨hpiece, hrest⟩ := List.forall_mem_append.mp hwritten
    rw [List.flatMap_append, seenAll]
    exact (escapes_tokens hsign hbreak piece h.1 hpiece).append
      (escapes_tokensOfAll hsign hbreak rest h.2 hrest)

end

/-- Without its tags, printed markup is an escaped form of the texts in it. -/
theorem escapes_untag_printAll {lineBreak : List Char} (hsign : IsSign sign lineBreak)
    (hbreak : '&' ∉ lineBreak) {pieces : List Markup} (h : AreUnpromoted pieces)
    (hwritten : ∀ token ∈ tokensOfAll pieces, IsWritten token) :
    Escapes (untag sign (Markup.printAll pieces)) (seenAll lineBreak pieces) := by
  rw [← Markup.printAll_tokensOfAll, untag_printAll fun token h => (hwritten token h).isLexical]
  exact escapes_tokensOfAll hsign hbreak pieces h hwritten

/-! ### Messages -/

theorem isUnpromoted_style (style : Style) {children : List Markup} (h : AreUnpromoted children) :
    IsUnpromoted (style.markup children) := by
  cases style with
  | em => exact ⟨by decide, h⟩
  | strong => exact ⟨by decide, h⟩
  | underline => exact ⟨by decide, h⟩
  | strikethrough => exact ⟨by decide, h⟩
  | spoiler => exact ⟨by decide, h⟩

theorem isUnpromoted_code (language : Option String) {children : List Markup}
    (h : AreUnpromoted children) :
    IsUnpromoted (.element "pre" (language.toList.map (Attribute.value "data-lang"))
      [.plain "code" children]) := by
  have hcode : AreUnpromoted [.plain "code" children] := areUnpromoted_singleton ⟨by decide, h⟩
  cases language with
  | none => exact ⟨by decide, hcode⟩
  | some language => exact ⟨rfl, hcode⟩

theorem isUnpromoted_time (seconds : Int) (code : String) :
    IsUnpromoted (Node.timeMarkup seconds code) := by
  unfold Node.timeMarkup
  simp only
  split
  · exact ⟨rfl, areUnpromoted_singleton trivial⟩
  · trivial

mutual

theorem areUnpromoted_html (resolver : Resolver) : (node : Node) →
    AreUnpromoted (Node.html resolver node)
  | .text content => by
    rw [Node.html]
    exact areUnpromoted_singleton trivial
  | .link target content => by
    have hcontent := areUnpromoted_htmlOfContent resolver content
    rw [Node.html]
    split
    · exact areUnpromoted_singleton ⟨rfl, hcontent⟩
    · exact hcontent
  | .url target content => by
    have hcontent := areUnpromoted_htmlOfContent resolver content
    rw [Node.html]
    split
    · exact areUnpromoted_singleton ⟨rfl, hcontent⟩
    · exact hcontent
  | .blockQuote content => by
    rw [Node.html]
    exact areUnpromoted_singleton ⟨by decide, areUnpromoted_htmlOfContent resolver content⟩
  | .lineBreak => by
    rw [Node.html]
    exact areUnpromoted_singleton trivial
  | .mention reference id => by
    rw [Node.html]
    exact areUnpromoted_singleton trivial
  | .broadcast call => by
    rw [Node.html]
    exact areUnpromoted_singleton trivial
  | .codeBlock language content => by
    rw [Node.html]
    exact areUnpromoted_singleton
      (isUnpromoted_code language (areUnpromoted_htmlOfContent resolver content))
  | .inlineCode content => by
    rw [Node.html]
    exact areUnpromoted_singleton ⟨by decide, areUnpromoted_htmlOfContent resolver content⟩
  | .styled style content => by
    rw [Node.html]
    exact areUnpromoted_singleton
      (isUnpromoted_style style (areUnpromoted_htmlOfContent resolver content))
  | .emoticon content => by
    rw [Node.html]
    exact areUnpromoted_htmlOfContent resolver content
  | .emoji none name animated => by
    rw [Node.html]
    exact areUnpromoted_singleton trivial
  | .emoji (some id) name animated => by
    rw [Node.html]
    exact areUnpromoted_singleton rfl
  | .timestamp seconds code => by
    rw [Node.html]
    exact areUnpromoted_singleton (isUnpromoted_time seconds code)
  | .unknown kind none => by
    rw [Node.html]
    exact ⟨trivial, areUnpromoted_singleton trivial⟩
  | .unknown kind (some content) => by
    rw [Node.html]
    exact ⟨trivial, trivial, areUnpromoted_htmlOfContent resolver content⟩

theorem areUnpromoted_htmlOfContent (resolver : Resolver) : (content : Content) →
    AreUnpromoted (Node.htmlOfContent resolver content)
  | .text content => by
    rw [Node.htmlOfContent]
    exact areUnpromoted_singleton trivial
  | .nodes nodes => by
    rw [Node.htmlOfContent]
    exact areUnpromoted_htmlOfAll resolver nodes

theorem areUnpromoted_htmlOfAll (resolver : Resolver) : (nodes : List Node) →
    AreUnpromoted (Node.htmlOfAll resolver nodes)
  | [] => trivial
  | [node] => by
    rw [Node.htmlOfAll]
    exact areUnpromoted_html resolver node
  | node :: next :: rest => by
    rw [Node.htmlOfAll]
    · exact areUnpromoted_append (areUnpromoted_html resolver node)
        ⟨trivial, areUnpromoted_htmlOfAll resolver (next :: rest)⟩
    · simp

end

/-- A message without its tags is an escaped form of the texts in its markup. -/
theorem escapes_untag_raw {lineBreak : List Char} (hsign : IsSign sign lineBreak)
    (hbreak : '&' ∉ lineBreak) (resolver : Resolver) (nodes : List Node) :
    Escapes (untag sign (raw resolver nodes))
      (seenAll lineBreak (Node.htmlOfAll resolver nodes)) :=
  escapes_untag_printAll hsign hbreak (areUnpromoted_htmlOfAll resolver nodes)
    (isFragment_htmlOfAll resolver nodes).written

end Gazette.Body
