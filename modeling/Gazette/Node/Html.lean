import Gazette.Entities
import Gazette.Markup.Basic
import Gazette.Text.Part
import Gazette.Time.Pattern

/-!
# Nodes as markup

Siblings are set apart by a separator. Links whose targets are no web addresses are left out, and
only their content is shown; what cannot be looked up is shown as it was written.
-/

namespace Gazette

def isSafeLink (address : String) : Bool :=
  Text.startsWith "https://" address || Text.startsWith "http://" address

def isSafeImage (address : String) : Bool := Text.startsWith "https://" address

namespace Reference

/-- The text of a mention: the name behind its sign, or the mention as it was written. -/
def mentionText (id : String) (name? : Option String) (reference : Reference) : String :=
  match name? with
  | some name => reference.sign ++ name
  | none => reference.literal id

end Reference

namespace Style

def markup (children : List Markup) : Style → Markup
  | em => .plain "i" children
  | strong => .plain "b" children
  | underline => .plain "u" children
  | strikethrough => .plain "s" children
  | spoiler => .classed "span" "spoiler" children

end Style

namespace Node

def emojiAddress (id : String) (animated : Bool) : String :=
  "https://cdn.discordapp.com/emojis/" ++ id ++ (if animated then ".gif" else ".png")

def emojiSource (resolver : Resolver) (id : String) (animated : Bool) : String :=
  match resolver.image? id with
  | some address => if isSafeImage address then address else emojiAddress id animated
  | none => emojiAddress id animated

/-- A timestamp: its text, in an element that gives the instant if there is one. -/
def timeMarkup (seconds : Int) (code : String) : Markup :=
  let text := String.ofList (Time.presentation seconds code)
  match Time.isoText? seconds with
  | some iso =>
    .element "time" [.value "datetime" (String.ofList iso), .value "data-format" code] [.text text]
  | none => .message text

mutual

def html (resolver : Resolver) : Node → List Markup
  | text content => [.message content]
  | link target content =>
    let body := htmlOfContent resolver content
    if isSafeLink target then [.link target body] else body
  | url target content =>
    let body := htmlOfContent resolver content
    if isSafeLink target then [.element "a" (Markup.external target) body] else body
  | blockQuote content => [.plain "blockquote" (htmlOfContent resolver content)]
  | lineBreak => [.lineBreak]
  | mention reference id =>
    [.message (reference.mentionText id (resolver.name? reference id))]
  | broadcast call => [.text call.label]
  | codeBlock language content =>
    let attributes := language.toList.map (Attribute.value "data-lang")
    [.element "pre" attributes [.plain "code" (htmlOfContent resolver content)]]
  | inlineCode content => [.plain "code" (htmlOfContent resolver content)]
  | styled style content => [style.markup (htmlOfContent resolver content)]
  | emoticon content => htmlOfContent resolver content
  | emoji none name _ => [.message name]
  | emoji (some id) name animated =>
    [.void "img" [.value "class" "emoji", .value "src" (emojiSource resolver id animated),
      .value "alt" (":" ++ name ++ ":")]]
  | timestamp seconds code => [timeMarkup seconds code]
  | unknown kind none => [.message kind, .text ": "]
  | unknown kind (some content) => .message kind :: .text ": " :: htmlOfContent resolver content

def htmlOfContent (resolver : Resolver) : Content → List Markup
  | .text content => [.message content]
  | .nodes nodes => htmlOfAll resolver nodes

def htmlOfAll (resolver : Resolver) : List Node → List Markup
  | [] => []
  | [node] => html resolver node
  | node :: rest => html resolver node ++ .separator :: htmlOfAll resolver rest

end

end Node

end Gazette
