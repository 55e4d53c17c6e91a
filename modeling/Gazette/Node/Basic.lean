/-!
# Nodes

A message is a tree of nodes. Each node has a kind, which is the name it goes by; nodes of a kind
that is not known keep its name and their content.
-/

namespace Gazette

inductive Style where
  | em
  | strong
  | underline
  | strikethrough
  | spoiler
  deriving Repr, DecidableEq

namespace Style

def name : Style → String
  | em => "em"
  | strong => "strong"
  | underline => "underline"
  | strikethrough => "strikethrough"
  | spoiler => "spoiler"

def all : List Style := [em, strong, underline, strikethrough, spoiler]

def ofName? (name : String) : Option Style := all.find? (·.name == name)

theorem name_of_ofName? {name : String} {style : Style} (h : ofName? name = some style) :
    style.name = name := by
  rw [ofName?] at h
  have hbeq := List.find?_some h
  exact beq_iff_eq.mp hbeq

end Style

inductive Broadcast where
  | here
  | everyone
  deriving Repr, DecidableEq

namespace Broadcast

def name : Broadcast → String
  | here => "here"
  | everyone => "everyone"

def label : Broadcast → String
  | here => "@here"
  | everyone => "@everyone"

end Broadcast

inductive Reference where
  | channel
  | role
  | user
  deriving Repr, DecidableEq

namespace Reference

def name : Reference → String
  | channel => "channel"
  | role => "role"
  | user => "user"

def sign : Reference → String
  | channel => "#"
  | role | user => "@"

/-- A mention of something whose name is not known. -/
def literal (id : String) : Reference → String
  | channel => "<#" ++ id ++ ">"
  | role => "<@&" ++ id ++ ">"
  | user => "<@" ++ id ++ ">"

end Reference

mutual

inductive Node where
  | text (content : String)
  /-- A link with a target of its own. -/
  | link (target : String) (content : Content)
  /-- A bare address. -/
  | url (target : String) (content : Content)
  | blockQuote (content : Content)
  | lineBreak
  | mention (reference : Reference) (id : String)
  | broadcast (call : Broadcast)
  | codeBlock (language : Option String) (content : Content)
  | inlineCode (content : Content)
  | styled (style : Style) (content : Content)
  | emoticon (content : Content)
  /-- An emoji: an image with an id, or a character of its own. -/
  | emoji (id : Option String) (name : String) (animated : Bool)
  /-- A second, and the code of how it is presented. -/
  | timestamp (seconds : Int) (code : String)
  | unknown (kind : String) (content : Option Content)

inductive Content where
  | text (content : String)
  | nodes (nodes : List Node)

end

namespace Content

/-- Content without nodes. -/
def empty : Content := nodes []

instance : Inhabited Content := ⟨empty⟩

end Content

namespace Node

instance : Inhabited Node := ⟨lineBreak⟩

def kind : Node → String
  | text _ => "text"
  | link .. => "link"
  | url .. => "url"
  | blockQuote _ => "blockQuote"
  | lineBreak => "br"
  | mention reference _ => reference.name
  | broadcast call => call.name
  | codeBlock .. => "codeBlock"
  | inlineCode _ => "inlineCode"
  | styled style _ => style.name
  | emoticon _ => "emoticon"
  | emoji .. => "emoji"
  | timestamp .. => "timestamp"
  | unknown kind _ => kind

end Node

end Gazette
