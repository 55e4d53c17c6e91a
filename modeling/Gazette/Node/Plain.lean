import Gazette.Node.Html

/-!
# Nodes as plain text

Nothing is escaped, and siblings are set apart by one space. Titles, summaries and descriptions are
taken from this text.
-/

namespace Gazette.Node

/-- The text of a mention: the name behind its sign, or the id. -/
def plainMention (reference : Reference) (id : String) (name? : Option String) : String :=
  match name? with
  | some _ => reference.mentionText id name?
  | none => reference.sign ++ id

mutual

def plain (resolver : Resolver) : Node → List Char
  | text content => content.toList
  | link _ content => plainOfContent resolver content
  | url _ content => plainOfContent resolver content
  | blockQuote content => plainOfContent resolver content
  | lineBreak => ['\n']
  | mention reference id => (plainMention reference id (resolver.name? reference id)).toList
  | broadcast call => call.label.toList
  | codeBlock _ content => plainOfContent resolver content
  | inlineCode content => plainOfContent resolver content
  | styled _ content => plainOfContent resolver content
  | emoticon content => plainOfContent resolver content
  | emoji none name _ => name.toList
  | emoji (some _) _ _ => []
  | timestamp seconds code => Time.presentation seconds code
  | unknown kind none => kind.toList ++ ": ".toList
  | unknown kind (some content) =>
    kind.toList ++ ": ".toList ++ plainOfContent resolver content

def plainOfContent (resolver : Resolver) : Content → List Char
  | .text content => content.toList
  | .nodes nodes => plainOfAll resolver nodes

def plainOfAll (resolver : Resolver) : List Node → List Char
  | [] => []
  | [node] => plain resolver node
  | node :: rest => plain resolver node ++ ' ' :: plainOfAll resolver rest

end

end Gazette.Node
