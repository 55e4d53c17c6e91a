import Gazette.Body.Render
import Gazette.Proofs.Node.Agreement

/-!
# What rendering takes from lookups

Rendering looks up the names of what is mentioned and the images of emojis, and of the answers it
takes those that it can use. A lookup that misses and one that fails come to the same, and so does an
image that may not be shown. Two resolvers whose answers are of the same use for all that a message
mentions render it alike (`rendering_congr`), and its plain text does not ask for emojis.
-/

namespace Gazette

/-! ### Answers of the same use -/

namespace Answer

/-- Whether an answer gives nothing to show: a miss, a failure, or a value that does not serve. -/
def IsUseless (serves : String → Bool) : Answer → Prop
  | found value => serves value = false
  | missing | failed _ => True

instance (serves : String → Bool) (answer : Answer) : Decidable (answer.IsUseless serves) :=
  match answer with
  | found _ => inferInstanceAs (Decidable (_ = _))
  | missing | failed _ => inferInstanceAs (Decidable True)

/-- Whether two answers are of the same use: they are one answer, or both are useless. -/
def IsLike (serves : String → Bool) (a b : Answer) : Prop :=
  a = b ∨ a.IsUseless serves ∧ b.IsUseless serves

instance (serves : String → Bool) (a b : Answer) : Decidable (a.IsLike serves b) :=
  inferInstanceAs (Decidable (_ ∨ _))

variable {serves : String → Bool} {a b : Answer}

theorem IsUseless.filter_value? (h : a.IsUseless serves) : a.value?.filter serves = none := by
  cases a with
  | found value => exact Option.filter_some_neg h
  | missing | failed _ => rfl

/-- What can be used is all that answers are told apart by. -/
theorem IsLike.filter_value? (h : a.IsLike serves b) :
    a.value?.filter serves = b.value?.filter serves := by
  obtain rfl | ⟨ha, hb⟩ := h
  · rfl
  · rw [ha.filter_value?, hb.filter_value?]

end Answer

/-! ### Resolvers that are alike -/

namespace Resolver

def answer (resolver : Resolver) : (reference : Reference) → (id : String) → Answer
  | .channel => resolver.channel
  | .role => resolver.role
  | .user => resolver.user

theorem name?_eq (resolver : Resolver) (reference : Reference) (id : String) :
    resolver.name? reference id = (resolver.answer reference id).value? := by
  cases reference <;> rfl

/-- Whether two resolvers give answers of the same use about what is mentioned: every name serves. -/
def NamesAlike (resolver other : Resolver) (mentions : List (Reference × String)) : Prop :=
  ∀ mention ∈ mentions, (resolver.answer mention.1 mention.2).IsLike (fun _ => true)
    (other.answer mention.1 mention.2)

/-- Whether two resolvers give answers of the same use about emojis: images that are safe serve. -/
def ImagesAlike (resolver other : Resolver) (ids : List String) : Prop :=
  ∀ id ∈ ids, (resolver.emoji id).IsLike isSafeImage (other.emoji id)

variable {resolver other : Resolver}

theorem NamesAlike.name?_eq {mentions : List (Reference × String)}
    (h : resolver.NamesAlike other mentions) {reference : Reference} {id : String}
    (hmem : (reference, id) ∈ mentions) :
    resolver.name? reference id = other.name? reference id := by
  have hall : ∀ value? : Option String, value?.filter (fun _ => true) = value? := by
    intro value?
    cases value? <;> rfl
  have hvalues := (h (reference, id) hmem).filter_value?
  rw [hall, hall] at hvalues
  rw [resolver.name?_eq, other.name?_eq, hvalues]

theorem ImagesAlike.emojiSource_eq {ids : List String} (h : resolver.ImagesAlike other ids)
    {id : String} (hmem : id ∈ ids) (animated : Bool) :
    Node.emojiSource resolver id animated = Node.emojiSource other id animated := by
  have hsource : ∀ resolver : Resolver, Node.emojiSource resolver id animated =
      ((resolver.emoji id).value?.filter isSafeImage).getD (Node.emojiAddress id animated) := by
    intro resolver
    unfold Node.emojiSource image?
    cases (resolver.emoji id).value? with
    | none => rfl
    | some address =>
      dsimp only
      rw [Option.filter_some]
      split <;> rfl
  rw [hsource, hsource, (h id hmem).filter_value?]

end Resolver

/-! ### The two walks -/

namespace Node

mutual

/-- The ids of the emojis in a node, and in all nodes below it. -/
def emojis : Node → List String
  | emoji (some id) _ _ => [id]
  | emoji none _ _ | text _ | lineBreak | mention .. | broadcast _ | timestamp ..
  | unknown _ none => []
  | link _ content | url _ content | blockQuote content | codeBlock _ content
  | inlineCode content | styled _ content | emoticon content | unknown _ (some content) =>
    emojisOfContent content

def emojisOfContent : Content → List String
  | .text _ => []
  | .nodes nodes => emojisOfAll nodes

def emojisOfAll : List Node → List String
  | [] => []
  | node :: rest => emojis node ++ emojisOfAll rest

end

theorem plainOfAll_cons_cons (resolver : Resolver) (node next : Node) (rest : List Node) :
    plainOfAll resolver (node :: next :: rest) =
      plain resolver node ++ ' ' :: plainOfAll resolver (next :: rest) := by
  rw [plainOfAll]
  simp

theorem htmlOfAll_cons_cons (resolver : Resolver) (node next : Node) (rest : List Node) :
    htmlOfAll resolver (node :: next :: rest) =
      html resolver node ++ .separator :: htmlOfAll resolver (next :: rest) := by
  rw [htmlOfAll]
  simp

variable {resolver other : Resolver}

mutual

theorem plain_congr : (node : Node) → resolver.NamesAlike other (mentions node) →
    plain resolver node = plain other node
  | .text _, _ | .lineBreak, _ | .broadcast _, _ | .emoji none _ _, _ | .emoji (some _) _ _, _
  | .timestamp _ _, _ | .unknown _ none, _ => by rw [plain, plain]
  | .mention reference id, h => by
    rw [mentions] at h
    rw [plain, plain, h.name?_eq List.mem_cons_self]
  | .link _ content, h | .url _ content, h | .blockQuote content, h | .codeBlock _ content, h
  | .inlineCode content, h | .styled _ content, h | .emoticon content, h
  | .unknown _ (some content), h => by
    rw [mentions] at h
    rw [plain, plain, plainOfContent_congr content h]

theorem plainOfContent_congr : (content : Content) →
    resolver.NamesAlike other (mentionsOfContent content) →
    plainOfContent resolver content = plainOfContent other content
  | .text _, _ => by rw [plainOfContent, plainOfContent]
  | .nodes nodes, h => by
    rw [mentionsOfContent] at h
    rw [plainOfContent, plainOfContent, plainOfAll_congr nodes h]

theorem plainOfAll_congr : (nodes : List Node) →
    resolver.NamesAlike other (mentionsOfAll nodes) →
    plainOfAll resolver nodes = plainOfAll other nodes
  | [], _ => by rw [plainOfAll, plainOfAll]
  | [node], h => by
    rw [mentionsOfAll, mentionsOfAll, List.append_nil] at h
    rw [plainOfAll, plainOfAll, plain_congr node h]
  | node :: next :: rest, h => by
    rw [mentionsOfAll] at h
    obtain ⟨hnode, hrest⟩ := List.forall_mem_append.mp h
    rw [plainOfAll_cons_cons, plainOfAll_cons_cons, plain_congr node hnode,
      plainOfAll_congr (next :: rest) hrest]

end

mutual

theorem html_congr : (node : Node) → resolver.NamesAlike other (mentions node) →
    resolver.ImagesAlike other (emojis node) → html resolver node = html other node
  | .text _, _, _ | .lineBreak, _, _ | .broadcast _, _, _ | .emoji none _ _, _, _
  | .timestamp _ _, _, _ | .unknown _ none, _, _ => by rw [html, html]
  | .mention reference id, hnames, _ => by
    rw [mentions] at hnames
    rw [html, html, hnames.name?_eq List.mem_cons_self]
  | .emoji (some id) _ animated, _, himages => by
    rw [emojis] at himages
    rw [html, html, himages.emojiSource_eq List.mem_cons_self]
  | .link _ content, hnames, himages | .url _ content, hnames, himages
  | .blockQuote content, hnames, himages | .codeBlock _ content, hnames, himages
  | .inlineCode content, hnames, himages | .styled _ content, hnames, himages
  | .emoticon content, hnames, himages | .unknown _ (some content), hnames, himages => by
    rw [mentions] at hnames
    rw [emojis] at himages
    rw [html, html, htmlOfContent_congr content hnames himages]

theorem htmlOfContent_congr : (content : Content) →
    resolver.NamesAlike other (mentionsOfContent content) →
    resolver.ImagesAlike other (emojisOfContent content) →
    htmlOfContent resolver content = htmlOfContent other content
  | .text _, _, _ => by rw [htmlOfContent, htmlOfContent]
  | .nodes nodes, hnames, himages => by
    rw [mentionsOfContent] at hnames
    rw [emojisOfContent] at himages
    rw [htmlOfContent, htmlOfContent, htmlOfAll_congr nodes hnames himages]

theorem htmlOfAll_congr : (nodes : List Node) →
    resolver.NamesAlike other (mentionsOfAll nodes) →
    resolver.ImagesAlike other (emojisOfAll nodes) →
    htmlOfAll resolver nodes = htmlOfAll other nodes
  | [], _, _ => by rw [htmlOfAll, htmlOfAll]
  | [node], hnames, himages => by
    rw [mentionsOfAll, mentionsOfAll, List.append_nil] at hnames
    rw [emojisOfAll, emojisOfAll, List.append_nil] at himages
    rw [htmlOfAll, htmlOfAll, html_congr node hnames himages]
  | node :: next :: rest, hnames, himages => by
    rw [mentionsOfAll] at hnames
    rw [emojisOfAll] at himages
    obtain ⟨hname, hnames⟩ := List.forall_mem_append.mp hnames
    obtain ⟨himage, himages⟩ := List.forall_mem_append.mp himages
    rw [htmlOfAll_cons_cons, htmlOfAll_cons_cons, html_congr node hname himage,
      htmlOfAll_congr (next :: rest) hnames himages]

end

/-- Two resolvers whose answers are of the same use for all that is mentioned in a message give it
one plain text, whatever they answer about emojis. If they are so for its emojis, too, then they give
it one markup with separators and one body. -/
theorem rendering_congr {resolver other : Resolver} {nodes : List Node}
    (hnames : resolver.NamesAlike other (mentionsOfAll nodes)) :
    plainOfAll resolver nodes = plainOfAll other nodes ∧
      (resolver.ImagesAlike other (emojisOfAll nodes) →
        Body.raw resolver nodes = Body.raw other nodes ∧
        Body.render resolver nodes = Body.render other nodes) := by
  refine ⟨plainOfAll_congr nodes hnames, fun himages => ?_⟩
  have hraw : Body.raw resolver nodes = Body.raw other nodes :=
    congrArg Markup.printAll (htmlOfAll_congr nodes hnames himages)
  exact ⟨hraw, congrArg (fun raw => Body.compact (Body.promote raw)) hraw⟩

/-- A channel that is known, a user who is not, and an emoji. -/
def greeting : List Node :=
  [.mention .channel "7", .styled .strong (.nodes [.mention .user "3", .emoji "4" "wave" true])]

/-- Knows the channel, and an image that may not be shown. -/
def plainResolver : Resolver :=
  Entities.resolver ⟨[("7", "news"), ("8", "a")], [], [], [("4", "http://images.example/4.gif")]⟩

/-- Knows the channel, and fails at everything else. -/
def failingResolver : Resolver where
  channel id := if id = "7" then .found "news" else .failed ⟨"channel", id, "unavailable"⟩
  role id := .failed ⟨"role", id, "unavailable"⟩
  user id := .failed ⟨"user", id, "unavailable"⟩
  emoji id := .failed ⟨"emoji", id, "unavailable"⟩

theorem rendering_congr_greeting :
    plainResolver.NamesAlike failingResolver (mentionsOfAll greeting) ∧
      plainResolver.ImagesAlike failingResolver (emojisOfAll greeting) ∧
      Body.raw failingResolver greeting =
        ("#news\uE000<b>&lt;@3&gt;\uE000<img class=\"emoji\" " ++
          "src=\"https://cdn.discordapp.com/emojis/4.gif\" alt=\":wave:\"></b>").toList ∧
      Body.raw plainResolver greeting = Body.raw failingResolver greeting ∧
      Body.render plainResolver greeting = Body.render failingResolver greeting ∧
      plainOfAll plainResolver greeting = plainOfAll failingResolver greeting := by
  have hnames : plainResolver.NamesAlike failingResolver (mentionsOfAll greeting) := by
    unfold Resolver.NamesAlike
    decide
  have himages : plainResolver.ImagesAlike failingResolver (emojisOfAll greeting) := by
    unfold Resolver.ImagesAlike
    decide
  obtain ⟨hplain, hhtml⟩ := rendering_congr hnames
  exact ⟨hnames, himages, by decide, (hhtml himages).1, (hhtml himages).2, hplain⟩

end Node

end Gazette
