import Gazette.Markup.Basic

/-!
# Tokens of printed markup

Printed markup is a row of characters and tags. A token keeps the values of a tag's attributes as
they stand in the text, already escaped, so a pass that works on the text can be followed from one
row of tokens to another. `printAll_tokensOfAll` says that the tokens of a piece of markup print to
what the piece itself prints to.
-/

namespace Gazette

/-- An opening tag as it stands in a text. -/
structure Tag where
  name : String
  /-- Names of attributes, each with the raw text of its value if it has one. -/
  attributes : List (String × Option (List Char))
  /-- Whether the tag ends in ` />`. -/
  slash : Bool
  deriving Repr, DecidableEq

inductive Token where
  | char (c : Char)
  | opening (tag : Tag)
  | closing (name : String)
  deriving Repr, DecidableEq

namespace Tag

/-- The line break of a message. -/
def lineBreak : Tag := ⟨"br", [], true⟩

def printAttribute : String × Option (List Char) → List Char
  | (name, some value) => ' ' :: name.toList ++ '=' :: '"' :: value ++ ['"']
  | (name, none) => ' ' :: name.toList

def ending (slash : Bool) : List Char := if slash then " />".toList else ['>']

/-- What stands behind the `<` of a tag. -/
def inside (tag : Tag) : List Char :=
  tag.name.toList ++ (tag.attributes.flatMap printAttribute ++ ending tag.slash)

/-- The tag with its values changed. -/
def mapValues (f : List Char → List Char) (tag : Tag) : Tag :=
  { tag with attributes := tag.attributes.map fun (name, value) => (name, value.map f) }

end Tag

namespace Token

def print : Token → List Char
  | char c => [c]
  | opening tag => '<' :: tag.inside
  | closing name => Markup.closingTag name

def printAll (tokens : List Token) : List Char := tokens.flatMap print

theorem printAll_nil : printAll [] = [] := rfl

theorem printAll_cons (token : Token) (tokens : List Token) :
    printAll (token :: tokens) = token.print ++ printAll tokens := rfl

theorem printAll_append (a b : List Token) : printAll (a ++ b) = printAll a ++ printAll b :=
  List.flatMap_append

theorem printAll_map_char (s : List Char) : printAll (s.map char) = s := by
  induction s with
  | nil => rfl
  | cons c s ih =>
    rw [List.map_cons, printAll_cons, ih]
    rfl

theorem print_lineBreak : print (.opening .lineBreak) = Markup.lineBreakText := by decide

end Token

/-! ### The tokens of a piece of markup -/

def Attribute.token : Attribute → String × Option (List Char)
  | value name content => (name, some (Markup.escape content.toList))
  | flag name => (name, none)

theorem Attribute.printAttribute_token (a : Attribute) : Tag.printAttribute a.token = a.print := by
  cases a <;> rfl

namespace Markup

/-- The opening tag of an element of the library. -/
def tag (name : String) (attributes : List Attribute) : Tag :=
  ⟨name, attributes.map Attribute.token, false⟩

theorem print_tag (name : String) (attributes : List Attribute) :
    Token.print (.opening (tag name attributes)) = openingTag name attributes := by
  have hattributes : (attributes.map Attribute.token).flatMap Tag.printAttribute =
      attributes.flatMap Attribute.print := by
    rw [List.flatMap_map, funext Attribute.printAttribute_token]
  simp [Token.print, Tag.inside, tag, hattributes, openingTag, Tag.ending]

mutual

def tokens : Markup → List Token
  | text content => (escape content.toList).map .char
  | message content => (escapeStrictly content.toList).map .char
  | verbatim content => content.toList.map .char
  | separator => [.char separatorChar]
  | lineBreak => [.opening .lineBreak]
  | void name attributes => [.opening (tag name attributes)]
  | element name attributes children =>
    .opening (tag name attributes) :: (tokensOfAll children ++ [.closing name])

def tokensOfAll : List Markup → List Token
  | [] => []
  | piece :: rest => tokens piece ++ tokensOfAll rest

end

mutual

theorem printAll_tokens : (piece : Markup) → Token.printAll piece.tokens = piece.print
  | text content => by rw [tokens, print, Token.printAll_map_char]
  | message content => by rw [tokens, print, Token.printAll_map_char]
  | verbatim content => by rw [tokens, print, Token.printAll_map_char]
  | separator => rfl
  | lineBreak => by
    rw [tokens, print, Token.printAll_cons, Token.print_lineBreak, Token.printAll_nil,
      List.append_nil]
  | void name attributes => by
    rw [tokens, print, Token.printAll_cons, print_tag, Token.printAll_nil, List.append_nil]
  | element name attributes children => by
    have hclosing : Token.printAll [.closing name] = closingTag name := by
      rw [Token.printAll_cons, Token.printAll_nil, List.append_nil]
      rfl
    rw [tokens, print, Token.printAll_cons, Token.printAll_append, print_tag, hclosing,
      printAll_tokensOfAll children, List.append_assoc]

theorem printAll_tokensOfAll : (pieces : List Markup) →
    Token.printAll (tokensOfAll pieces) = printAll pieces
  | [] => rfl
  | piece :: rest => by
    rw [tokensOfAll, printAll, Token.printAll_append, printAll_tokens piece,
      printAll_tokensOfAll rest]

end

theorem tokensOfAll_append (a b : List Markup) :
    tokensOfAll (a ++ b) = tokensOfAll a ++ tokensOfAll b := by
  induction a with
  | nil => rfl
  | cons piece rest ih => rw [List.cons_append, tokensOfAll, tokensOfAll, ih, List.append_assoc]

end Markup

end Gazette
