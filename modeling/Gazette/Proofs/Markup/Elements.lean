import Gazette.Proofs.Body.Nodes
import Gazette.Proofs.Markup.Xml

/-!
# Elements of a document

What has been read of a document is put together to elements, which have to be closed in the order in
which they were opened. `Parses` says of a part of a text which elements and characters it is, whatever
stands around it, and printed markup has an equation for each of its pieces.
-/

namespace Gazette.Xml

open Markup (escape unescape)

inductive Tree where
  | char (c : Char)
  | element (tag : Tag) (children : List Tree)

/-- Puts tokens together. `stack` are the open elements, each with what stands before it, and `before`
is what stands before the tokens in the innermost one. -/
def build? : (stack : List (Tag × List Tree)) → (before : List Tree) → List Token →
    Option (List Tree)
  | [], before, [] => some before
  | _ :: _, _, [] => none
  | stack, before, .char c :: rest => build? stack (before ++ [.char c]) rest
  | stack, before, .opening tag :: rest =>
    if tag.slash then build? stack (before ++ [.element tag []]) rest
    else build? ((tag, before) :: stack) [] rest
  | (tag, outer) :: stack, before, .closing name :: rest =>
    if tag.name = name then build? stack (outer ++ [.element tag before]) rest else none
  | [], _, .closing _ :: _ => none

/-- The characters and the elements of a document. -/
def parse? (s : List Char) : Option (List Tree) := (read? s).bind (build? [] [])

/-- Whether tokens are put together to some trees, whatever is open around them. -/
def Builds (tokens : List Token) (trees : List Tree) : Prop :=
  ∀ stack before rest,
    build? stack before (tokens ++ rest) = build? stack (before ++ trees) rest

/-- Whether a text is some trees wherever it stands in content. -/
def Parses (s : List Char) (trees : List Tree) : Prop :=
  ∃ tokens, Reads s tokens ∧ Builds tokens trees

theorem Builds.append {a b : List Token} {x y : List Tree} (ha : Builds a x) (hb : Builds b y) :
    Builds (a ++ b) (x ++ y) := by
  intro stack before rest
  rw [List.append_assoc, ha, hb, List.append_assoc]

theorem builds_nil : Builds [] [] := by
  intro stack before rest
  rw [List.append_nil]
  rfl

theorem builds_char (c : Char) : Builds [.char c] [.char c] := by
  intro stack before rest
  rw [List.singleton_append, build?]

theorem builds_empty {tag : Tag} (hslash : tag.slash = true) :
    Builds [.opening tag] [.element tag []] := by
  intro stack before rest
  rw [List.singleton_append, build?, if_pos hslash]

theorem builds_element {tag : Tag} (hslash : tag.slash = false) {tokens : List Token}
    {trees : List Tree} (h : Builds tokens trees) :
    Builds (.opening tag :: (tokens ++ [.closing tag.name])) [.element tag trees] := by
  intro stack before rest
  have hopen : build? stack before (.opening tag :: (tokens ++ ([.closing tag.name] ++ rest))) =
      build? ((tag, before) :: stack) [] (tokens ++ ([.closing tag.name] ++ rest)) := by
    rw [build?, hslash]
    rfl
  rw [List.cons_append, List.append_assoc, hopen, h, List.nil_append, List.singleton_append, build?,
    if_pos rfl]

namespace Parses

theorem nil : Parses [] [] := ⟨[], .nil _, builds_nil⟩

theorem append {s t : List Char} {x y : List Tree} (hs : Parses s x) (ht : Parses t y) :
    Parses (s ++ t) (x ++ y) := by
  obtain ⟨a, hreads, hbuilds⟩ := hs
  obtain ⟨b, hreads', hbuilds'⟩ := ht
  exact ⟨a ++ b, hreads.append hreads', hbuilds.append hbuilds'⟩

theorem parse?_eq {s : List Char} {trees : List Tree} (h : Parses s trees) :
    parse? s = some trees := by
  obtain ⟨tokens, hreads, hbuilds⟩ := h
  have hbuild := hbuilds [] [] []
  rw [List.append_nil, List.nil_append, build?] at hbuild
  rw [parse?, hreads.read?_eq, Option.bind_some, hbuild]

end Parses

/-! ### Printed markup -/

/-- The trees of a text. -/
def letters (s : List Char) : List Tree := s.map .char

theorem parses_of_reads_chars {s t : List Char} (h : Reads s (chars t)) : Parses s (letters t) := by
  refine ⟨chars t, h, ?_⟩
  clear h
  induction t with
  | nil => exact builds_nil
  | cons c t ih => exact (builds_char c).append ih

/-- The opening tag of an element as it is read. -/
def tagOf (name : String) (attributes : List Attribute) : Tag :=
  (Markup.tag name attributes).mapValues unescape

/-- Whether an element can be read whatever the values of its attributes are. -/
def isReadable (name : String) (attributes : List Attribute) : Bool :=
  isTagName name && attributes.all fun a => isName a.token.1

theorem parses_element {name : String} {attributes : List Attribute}
    (h : isReadable name attributes = true) {children : List Markup} {trees : List Tree}
    (hchildren : Parses (Markup.printAll children) trees) :
    Parses (Markup.print (.element name attributes children))
      [.element (tagOf name attributes) trees] := by
  simp only [isReadable, Bool.and_eq_true, List.all_eq_true] at h
  obtain ⟨hname, hattributes⟩ := h
  have hlexical : (Markup.tag name attributes).IsLexical :=
    Body.isLexical_tag (Bool.and_eq_true_iff.mp (Bool.and_eq_true_iff.mp hname).1).1 hattributes
  obtain ⟨tokens, hreads, hbuilds⟩ := hchildren
  refine ⟨.opening (tagOf name attributes) :: (tokens ++ [.closing name]), ?_,
    @builds_element (tagOf name attributes) rfl _ _ hbuilds⟩
  rw [Markup.print, ← Markup.print_tag, List.append_assoc]
  have hopening : Reads (Token.print (.opening (Markup.tag name attributes)))
      [.opening (tagOf name attributes)] := reads_opening hname hlexical
  exact hopening.append (hreads.append (reads_closing hlexical.1))

theorem parses_text (content : String) :
    Parses (Markup.print (.text content)) (letters content.toList) := by
  rw [Markup.print]
  exact parses_of_reads_chars (reads_escape content.toList)

theorem parses_printAll_nil : Parses (Markup.printAll []) [] := .nil

theorem parses_printAll_cons {piece : Markup} {rest : List Markup} {x y : List Tree}
    (hpiece : Parses piece.print x) (hrest : Parses (Markup.printAll rest) y) :
    Parses (Markup.printAll (piece :: rest)) (x ++ y) := by
  rw [Markup.printAll]
  exact hpiece.append hrest

theorem parses_printAll_append {a b : List Markup} {x y : List Tree}
    (ha : Parses (Markup.printAll a) x) (hb : Parses (Markup.printAll b) y) :
    Parses (Markup.printAll (a ++ b)) (x ++ y) := by
  rw [Markup.printAll_append]
  exact ha.append hb

theorem parses_printAll_map {α : Type} {f : α → Markup} {tree : α → Tree} (items : List α)
    (h : ∀ item, Parses (f item).print [tree item]) :
    Parses (Markup.printAll (items.map f)) (items.map tree) := by
  induction items with
  | nil => exact .nil
  | cons item items ih => exact parses_printAll_cons (h item) ih

/-- An element that holds nothing but a text. -/
def leaf (name : String) (attributes : List Attribute) (content : List Char) : Tree :=
  .element (tagOf name attributes) (letters content)

theorem parses_leaf {name : String} {attributes : List Attribute}
    (h : isReadable name attributes = true) (content : String) :
    Parses (Markup.print (.element name attributes [.text content]))
      [leaf name attributes content.toList] := by
  have htext := parses_printAll_cons (parses_text content) parses_printAll_nil
  rw [List.append_nil] at htext
  exact parses_element h htext

theorem parses_cdata (fragment : List Char) :
    Parses (Markup.printAll [.verbatim (String.ofList (Markup.cdata fragment))])
      (letters fragment) := by
  rw [Markup.printAll, Markup.printAll, Markup.print, String.toList_ofList, List.append_nil]
  exact parses_of_reads_chars (reads_cdata fragment)

/-! ### Looking into elements -/

/-- What stands in the elements of a name. -/
def within (name : String) (trees : List Tree) : List (List Tree) :=
  trees.filterMap fun tree =>
    match tree with
    | .element tag children => if tag.name = name then some children else none
    | .char _ => none

def Tree.char? : Tree → Option Char
  | char c => some c
  | element .. => none

/-- A text without elements. -/
def text? (trees : List Tree) : Option String := (trees.mapM Tree.char?).map String.ofList

/-- The text of the only element of a name. -/
def field? (name : String) (trees : List Tree) : Option String :=
  match within name trees with
  | [content] => text? content
  | _ => none

theorem text?_letters (s : List Char) : text? (letters s) = some (String.ofList s) := by
  have hmap : (letters s).mapM Tree.char? = some s := by
    induction s with
    | nil => rfl
    | cons c s ih =>
      rw [letters, List.map_cons, List.mapM_cons, ← letters, ih]
      rfl
  rw [text?, hmap]
  rfl

end Gazette.Xml
