import Gazette.Markup.Escape

/-!
# Markup

Trees of elements and texts, and how they are printed. Text and attributes are escaped when they are
printed, and nowhere else; only what is given as `verbatim` is markup already.
-/

namespace Gazette

inductive Attribute where
  | value (name value : String)
  /-- An attribute that stands without a value. -/
  | flag (name : String)
  deriving Repr, DecidableEq

inductive Markup where
  /-- A text of the page's own. -/
  | text (content : String)
  /-- A text of a message. -/
  | message (content : String)
  /-- Markup that has been printed before. -/
  | verbatim (content : String)
  /-- The boundary between two siblings of a message. -/
  | separator
  /-- A line break in a message. -/
  | lineBreak
  /-- An element that has no content and no closing tag. -/
  | void (name : String) (attributes : List Attribute)
  | element (name : String) (attributes : List Attribute) (children : List Markup)
  deriving Inhabited

namespace Attribute

/-- An attribute as it stands in a tag, with a space before it. -/
def print : Attribute → List Char
  | value name content =>
    ' ' :: name.toList ++ '=' :: '"' :: Markup.escape content.toList ++ ['"']
  | flag name => ' ' :: name.toList

end Attribute

namespace Markup

def separatorChar : Char := '\uE000'

def lineBreakText : List Char := "<br />".toList

def openingTag (name : String) (attributes : List Attribute) : List Char :=
  '<' :: name.toList ++ attributes.flatMap Attribute.print ++ ['>']

def closingTag (name : String) : List Char := '<' :: '/' :: name.toList ++ ['>']

mutual

def print : Markup → List Char
  | text content => escape content.toList
  | message content => escapeStrictly content.toList
  | verbatim content => content.toList
  | separator => [separatorChar]
  | lineBreak => lineBreakText
  | void name attributes => openingTag name attributes
  | element name attributes children =>
    openingTag name attributes ++ printAll children ++ closingTag name

def printAll : List Markup → List Char
  | [] => []
  | piece :: rest => print piece ++ printAll rest

end

@[simp] theorem printAll_append (a b : List Markup) :
    printAll (a ++ b) = printAll a ++ printAll b := by
  induction a with
  | nil => simp [printAll]
  | cons piece rest ih => simp [printAll, ih]

def render (pieces : List Markup) : String := String.ofList (printAll pieces)

/-! ### Elements -/

def plain (name : String) (children : List Markup) : Markup := element name [] children

def classed (name className : String) (children : List Markup) : Markup :=
  element name [.value "class" className] children

def link (target : String) (children : List Markup) : Markup :=
  element "a" [.value "href" target] children

def external (target : String) : List Attribute :=
  [.value "href" target, .value "target" "_blank", .value "rel" "noopener noreferrer"]

end Markup

end Gazette
