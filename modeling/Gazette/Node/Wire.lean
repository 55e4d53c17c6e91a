import Gazette.Json.Decoder
import Gazette.Node.Basic
import Gazette.Text.Blank
import Gazette.Text.Number

/-!
# Nodes in JSON

Every node comes as one record, which names its kind and has room for the fields of all kinds. A
record whose kind is not known, or that lacks what its kind needs, becomes an unknown node under
its own name.
-/

namespace Gazette

/-- When a timestamp is: a number, or a text that may be one. -/
inductive WireTime where
  | seconds (value : Int)
  | text (value : String)
  deriving Repr, DecidableEq

namespace WireTime

/-- The second that is meant, if there is one. -/
def seconds? : WireTime → Option Int
  | seconds value => some value
  | text value => Text.readInt64? (Text.trim value.toList)

def ofJson? : Json → Option WireTime
  | .integer value =>
    if -(Nat.pow 2 63 : Int) ≤ value ∧ value < Nat.pow 2 63 then some (seconds value) else none
  | .string value => some (text value)
  | _ => none

end WireTime

structure WireNode where
  kind : String
  content : Option Content
  target : Option String
  id : Option String
  name : Option String
  language : Option String
  animated : Option Bool
  time : Option WireTime
  code : Option String

namespace WireNode

/-- A record without any field. -/
def blank : WireNode := ⟨"", none, none, none, none, none, none, none, none⟩

/-! ### The node of a record -/

/-- The content, or none at all. -/
def contentOrEmpty (wire : WireNode) : Content := wire.content.getD .empty

def toUnknown (wire : WireNode) : Node := .unknown wire.kind wire.content

/-- A text, if its content is one. -/
def toText (wire : WireNode) : Node :=
  match wire.content with
  | some (.text content) => .text content
  | _ => wire.toUnknown

/-- A mention, if it says of what. -/
def toMention (wire : WireNode) (reference : Reference) : Node :=
  match wire.id with
  | some id => .mention reference id
  | none => wire.toUnknown

/-- A timestamp, if it says when. -/
def toTimestamp (wire : WireNode) : Node :=
  match wire.time.bind WireTime.seconds? with
  | some seconds => .timestamp seconds (wire.code.getD "f")
  | none => wire.toUnknown

/-- A styled node, if its kind is the name of a style. -/
def toStyled (wire : WireNode) : Node :=
  match Style.ofName? wire.kind with
  | some style => .styled style wire.contentOrEmpty
  | none => wire.toUnknown

def toNode (wire : WireNode) : Node :=
  match wire.kind with
  | "text" => wire.toText
  | "link" => .link (wire.target.getD "") wire.contentOrEmpty
  | "url" | "autolink" => .url (wire.target.getD "") wire.contentOrEmpty
  | "blockQuote" => .blockQuote wire.contentOrEmpty
  | "br" | "newline" => .lineBreak
  | "channel" => wire.toMention .channel
  | "role" => wire.toMention .role
  | "user" => wire.toMention .user
  | "here" => .broadcast .here
  | "everyone" => .broadcast .everyone
  | "codeBlock" => .codeBlock (wire.language.filter (· ≠ "")) wire.contentOrEmpty
  | "inlineCode" => .inlineCode wire.contentOrEmpty
  | "emoticon" => .emoticon wire.contentOrEmpty
  | "emoji" | "twemoji" =>
    .emoji (wire.id.filter (· ≠ "")) (wire.name.getD "") (wire.animated.getD false)
  | "timestamp" => wire.toTimestamp
  | _ => wire.toStyled

/-! ### The record in JSON -/

open Json Json.Decoder in
/-- The JSON form of the record, when the form of its content is known. -/
def decoder (content? : Json → Option Content) : Decoder WireNode :=
  record "a node" blank
    [.required "type" text fun kind wire => { wire with kind },
      .lenient "content" (checked content?) fun content wire => { wire with content },
      .lenient "target" text fun target wire => { wire with target },
      .lenient "id" text fun id wire => { wire with id },
      .lenient "name" text fun name wire => { wire with name },
      .lenient "lang" text fun language wire => { wire with language },
      .lenient "animated" bool fun animated wire => { wire with animated },
      .lenient "timestamp" (checked WireTime.ofJson?) fun time wire => { wire with time },
      .lenient "format" text fun code wire => { wire with code }]

end WireNode

namespace Content

/-- The content in a value that is nested no deeper than `depth`. -/
def ofJsonWithin? : (depth : Nat) → Json → Option Content
  | 0, _ => none
  | depth + 1, json =>
    match json with
    | .string content => some (.text content)
    | .array items =>
      (items.mapM ((WireNode.decoder (ofJsonWithin? depth)).map WireNode.toNode).ofJson?).map nodes
    | _ => none

def ofJson? (json : Json) : Option Content := ofJsonWithin? (json.depth + 1) json

end Content

namespace Node

def decoder : Json.Decoder Node := (WireNode.decoder Content.ofJson?).map WireNode.toNode

def listDecoder : Json.Decoder (List Node) := decoder.list

end Node

end Gazette
