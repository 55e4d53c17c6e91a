import Gazette.Proofs.Body.Untagging

/-!
# Markup and plain text agree

The markup of a message and its plain text come from two walks over one tree. Where every mention
can be looked up, the markup says nothing else than the plain text does: without its tags and
unescaped it is that text, but for separators that stand where the plain text has spaces.
-/

namespace Gazette.Node

open Body (seen seenAll seenAll_append untag newlineSign)
open Markup (unescape unescape_eq)

/-! ### Mentions -/

mutual

/-- What is mentioned in a node, and in all nodes below it. -/
def mentions : Node → List (Reference × String)
  | mention reference id => [(reference, id)]
  | text _ | lineBreak | broadcast _ | emoji .. | timestamp .. | unknown _ none => []
  | link _ content | url _ content | blockQuote content | codeBlock _ content
  | inlineCode content | styled _ content | emoticon content | unknown _ (some content) =>
    mentionsOfContent content

def mentionsOfContent : Content → List (Reference × String)
  | .text _ => []
  | .nodes nodes => mentionsOfAll nodes

def mentionsOfAll : List Node → List (Reference × String)
  | [] => []
  | node :: rest => mentions node ++ mentionsOfAll rest

end

/-- Whether all of these mentions can be looked up. -/
def Resolves (resolver : Resolver) (mentions : List (Reference × String)) : Prop :=
  ∀ mention ∈ mentions, (resolver.name? mention.1 mention.2).isSome = true

instance (resolver : Resolver) (mentions : List (Reference × String)) :
    Decidable (Resolves resolver mentions) :=
  inferInstanceAs (Decidable (∀ mention ∈ mentions, _))

/-! ### Separators and spaces -/

/-- The text with a space for each separator. -/
def blankSeparators (s : List Char) : List Char :=
  s.map fun c => if c = Markup.separatorChar then ' ' else c

theorem blankSeparators_append (s t : List Char) :
    blankSeparators (s ++ t) = blankSeparators s ++ blankSeparators t := List.map_append

/-- Whether two texts differ in separators and spaces only. -/
def Agrees (s t : List Char) : Prop := blankSeparators s = blankSeparators t

namespace Agrees

theorem rfl {s : List Char} : Agrees s s := Eq.refl _

theorem append {s s' t t' : List Char} (h : Agrees s t) (h' : Agrees s' t') :
    Agrees (s ++ s') (t ++ t') := by
  rw [Agrees, blankSeparators_append, blankSeparators_append, h, h']

theorem separator : Agrees [Markup.separatorChar] [' '] := by
  rw [Agrees]
  decide

end Agrees

/-! ### The two walks -/

variable {resolver : Resolver}

theorem seenAll_singleton (piece : Markup) : seenAll ['\n'] [piece] = seen ['\n'] piece := by
  rw [seenAll, seenAll, List.append_nil]

theorem seen_style (style : Style) (children : List Markup) :
    seen ['\n'] (style.markup children) = seenAll ['\n'] children := by
  cases style with
  | em | strong | underline | strikethrough => rw [Style.markup, Markup.plain, seen]
  | spoiler => rw [Style.markup, Markup.classed, seen]

theorem seen_time (seconds : Int) (code : String) :
    seen ['\n'] (timeMarkup seconds code) = Time.presentation seconds code := by
  unfold timeMarkup
  simp only
  split
  · rw [seen, seenAll_singleton, seen, String.toList_ofList]
  · rw [seen, String.toList_ofList]

theorem mentionText_eq_plainMention {reference : Reference} {id : String} {name? : Option String}
    (h : name?.isSome = true) : reference.mentionText id name? = plainMention reference id name? := by
  cases name? with
  | none => cases h
  | some name => rfl

mutual

theorem agrees_html : (node : Node) → Resolves resolver (mentions node) →
    Agrees (seenAll ['\n'] (html resolver node)) (plain resolver node)
  | .text content, _ => by
    rw [html, plain, seenAll_singleton, seen]
    exact .rfl
  | .link target content, h => by
    rw [mentions] at h
    have hcontent := agrees_htmlOfContent content h
    rw [html, plain]
    split
    · rw [seenAll_singleton, Markup.link, seen]
      exact hcontent
    · exact hcontent
  | .url target content, h => by
    rw [mentions] at h
    have hcontent := agrees_htmlOfContent content h
    rw [html, plain]
    split
    · rw [seenAll_singleton, seen]
      exact hcontent
    · exact hcontent
  | .blockQuote content, h => by
    rw [mentions] at h
    rw [html, plain, seenAll_singleton, Markup.plain, seen]
    exact agrees_htmlOfContent content h
  | .lineBreak, _ => by
    rw [html, plain, seenAll_singleton, seen]
    exact .rfl
  | .mention reference id, h => by
    rw [mentions] at h
    have hname := h (reference, id) List.mem_cons_self
    rw [html, plain, seenAll_singleton, seen, mentionText_eq_plainMention hname]
    exact .rfl
  | .broadcast call, _ => by
    rw [html, plain, seenAll_singleton, seen]
    exact .rfl
  | .codeBlock language content, h => by
    rw [mentions] at h
    rw [html, plain, seenAll_singleton, seen, seenAll_singleton, Markup.plain, seen]
    exact agrees_htmlOfContent content h
  | .inlineCode content, h => by
    rw [mentions] at h
    rw [html, plain, seenAll_singleton, Markup.plain, seen]
    exact agrees_htmlOfContent content h
  | .styled style content, h => by
    rw [mentions] at h
    rw [html, plain, seenAll_singleton, seen_style]
    exact agrees_htmlOfContent content h
  | .emoticon content, h => by
    rw [mentions] at h
    rw [html, plain]
    exact agrees_htmlOfContent content h
  | .emoji none name animated, _ => by
    rw [html, plain, seenAll_singleton, seen]
    exact .rfl
  | .emoji (some id) name animated, _ => by
    rw [html, plain, seenAll_singleton, seen]
    exact .rfl
  | .timestamp seconds code, _ => by
    rw [html, plain, seenAll_singleton, seen_time]
    exact .rfl
  | .unknown kind none, _ => by
    rw [html, plain, seenAll, seenAll_singleton, seen, seen]
    exact .rfl
  | .unknown kind (some content), h => by
    rw [mentions] at h
    rw [html, plain, seenAll, seenAll, seen, seen, ← List.append_assoc]
    exact Agrees.rfl.append (agrees_htmlOfContent content h)

theorem agrees_htmlOfContent : (content : Content) →
    Resolves resolver (mentionsOfContent content) →
    Agrees (seenAll ['\n'] (htmlOfContent resolver content)) (plainOfContent resolver content)
  | .text content, _ => by
    rw [htmlOfContent, plainOfContent, seenAll_singleton, seen]
    exact .rfl
  | .nodes nodes, h => by
    rw [mentionsOfContent] at h
    rw [htmlOfContent, plainOfContent]
    exact agrees_htmlOfAll nodes h

theorem agrees_htmlOfAll : (nodes : List Node) → Resolves resolver (mentionsOfAll nodes) →
    Agrees (seenAll ['\n'] (htmlOfAll resolver nodes)) (plainOfAll resolver nodes)
  | [], _ => .rfl
  | [node], h => by
    rw [mentionsOfAll, mentionsOfAll, List.append_nil] at h
    rw [htmlOfAll, plainOfAll]
    exact agrees_html node h
  | node :: next :: rest, h => by
    rw [mentionsOfAll] at h
    obtain ⟨hnode, hrest⟩ := List.forall_mem_append.mp h
    rw [htmlOfAll, plainOfAll, seenAll_append, seenAll, seen]
    · exact (agrees_html node hnode).append
        (Agrees.separator.append (agrees_htmlOfAll (next :: rest) hrest))
    · simp
    · simp

end

/-- Read with a newline for each line break and without all other tags, with its entities read once
and with a space for each separator, the markup of a message is its plain text, if everything that
is mentioned can be looked up. -/
theorem blankSeparators_unescape_untag_raw (resolver : Resolver) (nodes : List Node)
    (h : Resolves resolver (mentionsOfAll nodes)) :
    blankSeparators (unescape (untag newlineSign (Body.raw resolver nodes))) =
      blankSeparators (plainOfAll resolver nodes) := by
  have hescapes := Body.escapes_untag_raw Body.isSign_newlineSign (by decide) resolver nodes
  rw [unescape_eq hescapes]
  exact agrees_htmlOfAll nodes h

/-- A quote with a mention and a line break, and a node of an unknown kind behind it. -/
def sample : List Node :=
  [.blockQuote (.nodes [.mention .channel "7", .lineBreak, .text "<&amp;>"]),
    .unknown "it's" (some (.text "\"x\""))]

def sampleEntities : Entities := ⟨[("7", "a&b")], [], [], []⟩

theorem blankSeparators_unescape_untag_raw_sample :
    Resolves sampleEntities.resolver (mentionsOfAll sample) ∧
      blankSeparators (unescape (untag newlineSign (Body.raw sampleEntities.resolver sample))) =
        "#a&b \n <&amp;> it's: \"x\"".toList := by
  have hresolves : Resolves sampleEntities.resolver (mentionsOfAll sample) := by decide
  refine ⟨hresolves, ?_⟩
  rw [blankSeparators_unescape_untag_raw sampleEntities.resolver sample hresolves]
  decide

end Gazette.Node
