import Gazette.Proofs.Body.Written

/-!
# Nodes print fragments

Whatever the texts, targets, ids and names in a tree of nodes are, and whatever the resolver
answers, the markup of the tree prints a well written and well nested fragment. The induction is on
the tree; texts come in through escaping only.
-/

namespace Gazette.Body

open Markup (tokensOfAll tag escape escapeStrictly)

/-! ### Escaped texts -/

theorem mem_escape {s : List Char} {x : Char} (h : x ∈ escape s) : x ≠ '"' ∧ x ≠ '<' ∧ x ≠ '>' := by
  obtain ⟨c, -, hx⟩ := List.mem_flatMap.mp h
  obtain ⟨hopen, hclose, hquote⟩ := Markup.mem_escapeChar hx
  exact ⟨hquote, hopen, hclose⟩

theorem mem_escapeStrictly {s : List Char} {x : Char} (h : x ∈ escapeStrictly s) :
    x ≠ '<' ∧ x ≠ '>' := by
  obtain ⟨c, -, hx⟩ := List.mem_flatMap.mp h
  unfold Markup.escapeCharStrictly at hx
  split at hx
  · exact (isClean_of_decide (by decide) x hx).2
  · obtain ⟨hopen, hclose, -⟩ := Markup.mem_escapeChar hx
    exact ⟨hopen, hclose⟩

theorem isClean_escape (s : List Char) : IsClean (escape s) := fun _ h => mem_escape h

/-- The values in a tag of the library never stand in the way of reading it. -/
theorem isLexical_tag {name : String} {attributes : List Attribute} (hname : isName name = true)
    (hattributes : ∀ a ∈ attributes, isName a.token.1 = true) : (tag name attributes).IsLexical := by
  refine ⟨hname, fun a ha => ?_⟩
  obtain ⟨given, hmem, rfl⟩ := List.mem_map.mp ha
  refine ⟨hattributes given hmem, fun value hvalue => ?_⟩
  cases given with
  | value name content =>
    obtain rfl := Option.mem_some_iff.mp hvalue
    exact isClean_escape content.toList
  | flag name => cases hvalue

theorem isPrefix_escape {start s : List Char} (h : start <+: s) (hstart : escape start = start) :
    start <+: escape s := by
  obtain ⟨rest, rfl⟩ := h
  rw [Markup.escape_append, hstart]
  exact List.prefix_append start (escape rest)

theorem startsWith_iff {start text : String} :
    Text.startsWith start text = true ↔ start.toList <+: text.toList := by
  unfold Text.startsWith
  rw [Option.isSome_iff_exists]
  constructor
  · rintro ⟨rest, h⟩
    exact ⟨rest, (Text.after?_eq_some_iff.mp h).symm⟩
  · rintro ⟨rest, h⟩
    exact ⟨rest, Text.after?_eq_some_iff.mpr h.symm⟩

theorem isSecureAddress_escape {address : String} (h : isSafeImage address = true) :
    IsSecureAddress (escape address.toList) :=
  isPrefix_escape (startsWith_iff.mp h) (by decide)

theorem isWebAddress_escape {address : String} (h : isSafeLink address = true) :
    IsWebAddress (escape address.toList) := by
  rcases Bool.or_eq_true_iff.mp h with hsecure | hplain
  · exact .inr (isSecureAddress_escape hsecure)
  · exact .inl (isPrefix_escape (startsWith_iff.mp hplain) (by decide))

theorem isSafeImage_append (rest : String) : isSafeImage ("https://" ++ rest) = true := by
  rw [isSafeImage, startsWith_iff, String.toList_append]
  exact List.prefix_append _ _

theorem isSafeImage_emojiAddress (id : String) (animated : Bool) :
    isSafeImage (Node.emojiAddress id animated) = true := by
  have hhost : "https://cdn.discordapp.com/emojis/" =
      "https://" ++ "cdn.discordapp.com/emojis/" := by decide
  have haddress : Node.emojiAddress id animated =
      "https://" ++ "cdn.discordapp.com/emojis/" ++ id ++ (if animated then ".gif" else ".png") :=
    congrArg (fun host => host ++ id ++ (if animated then ".gif" else ".png")) hhost
  rw [haddress, String.append_assoc, String.append_assoc]
  exact isSafeImage_append _

theorem isSafeImage_emojiSource (resolver : Resolver) (id : String) (animated : Bool) :
    isSafeImage (Node.emojiSource resolver id animated) = true := by
  unfold Node.emojiSource
  split
  · split
    · assumption
    · exact isSafeImage_emojiAddress id animated
  · exact isSafeImage_emojiAddress id animated

/-! ### Pieces of markup -/

theorem tokensOfAll_singleton (piece : Markup) : tokensOfAll [piece] = piece.tokens := by
  rw [Markup.tokensOfAll, Markup.tokensOfAll, List.append_nil]

namespace IsFragment

theorem text (content : String) : IsFragment (Markup.text content).tokens := by
  rw [Markup.tokens]
  refine chars fun c hc => ?_
  obtain ⟨-, hopen, hclose⟩ := mem_escape hc
  exact ⟨hopen, hclose⟩

theorem message (content : String) : IsFragment (Markup.message content).tokens := by
  rw [Markup.tokens]
  exact chars fun c hc => mem_escapeStrictly hc

theorem separator : IsFragment Markup.separator.tokens := by
  have hchar : Markup.separatorChar ≠ '<' ∧ Markup.separatorChar ≠ '>' := by decide
  refine chars (s := [Markup.separatorChar]) fun c hc => ?_
  rw [List.mem_singleton.mp hc]
  exact hchar

theorem ofElement {name : String} {attributes : List Attribute} {children : List Markup}
    (htag : IsTag (tag name attributes)) (hname : name ∈ closedNames)
    (hmark : mark? (.opening (tag name attributes)) = some (.opens name false))
    (hchildren : IsFragment (tokensOfAll children)) :
    IsFragment (tokensOfAll [.element name attributes children]) := by
  rw [tokensOfAll_singleton, Markup.tokens]
  exact element htag hname hmark hchildren (.inl rfl)

theorem ofPlain {name : String} {children : List Markup} (hname : name ∈ plainNames)
    (hmark : mark? (.opening ⟨name, [], false⟩) = some (.opens name false))
    (hchildren : IsFragment (tokensOfAll children)) :
    IsFragment (tokensOfAll [.plain name children]) :=
  ofElement (.plain hname) (List.mem_append_left _ hname) hmark hchildren

theorem ofStyle (style : Style) {children : List Markup}
    (hchildren : IsFragment (tokensOfAll children)) :
    IsFragment (tokensOfAll [style.markup children]) := by
  cases style with
  | em => exact ofPlain (by decide) rfl hchildren
  | strong => exact ofPlain (by decide) rfl hchildren
  | underline => exact ofPlain (by decide) rfl hchildren
  | strikethrough => exact ofPlain (by decide) rfl hchildren
  | spoiler => exact ofElement .spoiler (by decide) (by decide) hchildren

theorem ofLink {target : String} {children : List Markup} (h : isSafeLink target = true)
    (hchildren : IsFragment (tokensOfAll children)) :
    IsFragment (tokensOfAll [.link target children]) :=
  ofElement (.link (isClean_escape _) (isWebAddress_escape h)) (by decide) rfl hchildren

theorem ofExternal {target : String} {children : List Markup} (h : isSafeLink target = true)
    (hchildren : IsFragment (tokensOfAll children)) :
    IsFragment (tokensOfAll [.element "a" (Markup.external target) children]) :=
  ofElement (.external (isClean_escape _) (isWebAddress_escape h)) (by decide) rfl hchildren

theorem ofCode (language : Option String) {children : List Markup}
    (hchildren : IsFragment (tokensOfAll children)) :
    IsFragment (tokensOfAll [.element "pre" (language.toList.map (Attribute.value "data-lang"))
      [.plain "code" children]]) := by
  have hcode : IsFragment (tokensOfAll [.plain "code" children]) :=
    ofPlain (by decide) rfl hchildren
  cases language with
  | none => exact ofPlain (by decide) rfl hcode
  | some language => exact ofElement (.code (isClean_escape _)) (by decide) rfl hcode

theorem image (resolver : Resolver) (id name : String) (animated : Bool) :
    IsFragment (tokensOfAll [.void "img" [.value "class" "emoji",
      .value "src" (Node.emojiSource resolver id animated), .value "alt" (":" ++ name ++ ":")]]) := by
  rw [tokensOfAll_singleton, Markup.tokens]
  refine ⟨fun token h => ?_, rfl⟩
  rw [List.mem_singleton.mp h]
  exact .image (isClean_escape _)
    (isSecureAddress_escape (isSafeImage_emojiSource resolver id animated)) (isClean_escape _)

theorem time (seconds : Int) (code : String) :
    IsFragment (tokensOfAll [Node.timeMarkup seconds code]) := by
  unfold Node.timeMarkup
  simp only
  split
  · refine ofElement (.time (isClean_escape _) (isClean_escape _)) (by decide) rfl ?_
    rw [tokensOfAll_singleton]
    exact text _
  · rw [tokensOfAll_singleton]
    exact message _

end IsFragment

/-! ### Trees -/

mutual

theorem isFragment_html (resolver : Resolver) : (node : Node) →
    IsFragment (tokensOfAll (Node.html resolver node))
  | .text content => by
    rw [Node.html, tokensOfAll_singleton]
    exact .message content
  | .link target content => by
    have hcontent := isFragment_htmlOfContent resolver content
    rw [Node.html]
    split
    · next h => exact .ofLink h hcontent
    · exact hcontent
  | .url target content => by
    have hcontent := isFragment_htmlOfContent resolver content
    rw [Node.html]
    split
    · next h => exact .ofExternal h hcontent
    · exact hcontent
  | .blockQuote content => by
    rw [Node.html]
    exact .ofPlain (by decide) rfl (isFragment_htmlOfContent resolver content)
  | .lineBreak => by
    rw [Node.html]
    exact .lineBreak
  | .mention reference id => by
    rw [Node.html, tokensOfAll_singleton]
    exact .message _
  | .broadcast call => by
    rw [Node.html, tokensOfAll_singleton]
    exact .text call.label
  | .codeBlock language content => by
    rw [Node.html]
    exact .ofCode language (isFragment_htmlOfContent resolver content)
  | .inlineCode content => by
    rw [Node.html]
    exact .ofPlain (by decide) rfl (isFragment_htmlOfContent resolver content)
  | .styled style content => by
    rw [Node.html]
    exact .ofStyle style (isFragment_htmlOfContent resolver content)
  | .emoticon content => by
    rw [Node.html]
    exact isFragment_htmlOfContent resolver content
  | .emoji none name animated => by
    rw [Node.html, tokensOfAll_singleton]
    exact .message name
  | .emoji (some id) name animated => by
    rw [Node.html]
    exact .image resolver id name animated
  | .timestamp seconds code => by
    rw [Node.html]
    exact .time seconds code
  | .unknown kind none => by
    rw [Node.html, Markup.tokensOfAll, tokensOfAll_singleton]
    exact (IsFragment.message kind).append (.text ": ")
  | .unknown kind (some content) => by
    rw [Node.html, Markup.tokensOfAll, Markup.tokensOfAll]
    exact (IsFragment.message kind).append
      ((IsFragment.text ": ").append (isFragment_htmlOfContent resolver content))

theorem isFragment_htmlOfContent (resolver : Resolver) : (content : Content) →
    IsFragment (tokensOfAll (Node.htmlOfContent resolver content))
  | .text content => by
    rw [Node.htmlOfContent, tokensOfAll_singleton]
    exact .message content
  | .nodes nodes => by
    rw [Node.htmlOfContent]
    exact isFragment_htmlOfAll resolver nodes

theorem isFragment_htmlOfAll (resolver : Resolver) : (nodes : List Node) →
    IsFragment (tokensOfAll (Node.htmlOfAll resolver nodes))
  | [] => .nil
  | [node] => by
    rw [Node.htmlOfAll]
    exact isFragment_html resolver node
  | node :: next :: rest => by
    rw [Node.htmlOfAll, Markup.tokensOfAll_append, Markup.tokensOfAll]
    · exact (isFragment_html resolver node).append
        (IsFragment.separator.append (isFragment_htmlOfAll resolver (next :: rest)))
    · simp

end

/-- The tokens of a message before any pass over its text. -/
def rawTokens (resolver : Resolver) (nodes : List Node) : List Token :=
  tokensOfAll (Node.htmlOfAll resolver nodes)

theorem printAll_rawTokens (resolver : Resolver) (nodes : List Node) :
    Token.printAll (rawTokens resolver nodes) = raw resolver nodes :=
  Markup.printAll_tokensOfAll _

end Gazette.Body
