import Gazette.Proofs.Body.Nodes
import Gazette.Proofs.Markup.Reading

/-!
# Skeletons of pages

The skeleton of a text is what its tags make of it: the tags in their order, with the names of their
attributes, but without the texts between them and without values. Only a script keeps its values,
since they say what is loaded. The skeleton of printed markup is known from its tree
(`skeleton_print`), and of a tree of plain elements it is well nested and has no scripts
(`isCalm_tags`).
-/

namespace Gazette

open Markup (escape escapeStrictly separatorChar)

/-! ### Reading texts in a row -/

namespace Place

/-- Behind a text that has been read the reader is not in a tag. -/
theorem read?_append {place : Place} {s : List Char} {tokens : List Token}
    (h : place.read? s = some tokens) (rest : List Char) :
    place.read? (s ++ rest) = (text.read? rest).map (tokens ++ ·) := by
  induction s generalizing place tokens with
  | nil =>
    rw [read?] at h
    split at h
    · next hplace =>
      cases h
      subst hplace
      exact Option.map_id'.symm
    · cases h
  | cons c s ih =>
    rw [read?] at h
    rw [List.cons_append, read?]
    cases hnext : place.next c with
    | none => rw [hnext] at h; cases h
    | some step =>
      obtain ⟨behind, token?⟩ := step
      rw [hnext] at h
      cases token? with
      | none => exact ih h
      | some token =>
        obtain ⟨tail, htail, rfl⟩ := Option.map_eq_some_iff.mp h
        simp only [ih htail, Option.map_map]
        rfl

end Place

/-! ### Skeletons -/

/-- Whether an element is a script, however its name is written. -/
def isScriptName (name : String) : Bool := name.toList.map Char.toLower == "script".toList

/-- What a token is to the skeleton of a text. -/
def Token.sketch? : Token → Option Token
  | char _ => none
  | opening tag => some (.opening (if isScriptName tag.name then tag else tag.mapValues fun _ => []))
  | closing name => some (.closing name)

/-- The tags of a text; none if it cannot be read. -/
def skeleton (s : List Char) : Option (List Token) :=
  (Token.read? s).map (List.filterMap Token.sketch?)

theorem skeleton_append {s t : List Char} {a b : List Token} (hs : skeleton s = some a)
    (ht : skeleton t = some b) : skeleton (s ++ t) = some (a ++ b) := by
  obtain ⟨tokens, hread, rfl⟩ := Option.map_eq_some_iff.mp hs
  obtain ⟨tokens', hread', rfl⟩ := Option.map_eq_some_iff.mp ht
  rw [skeleton, Token.read?, Place.read?_append hread, ← Token.read?, hread', Option.map_some,
    Option.map_some, List.filterMap_append]

theorem skeleton_printAll {tokens : List Token} (h : ∀ token ∈ tokens, token.IsLexical) :
    skeleton (Token.printAll tokens) = some (tokens.filterMap Token.sketch?) := by
  rw [skeleton, Token.read?_printAll tokens h]
  rfl

theorem skeleton_print {token : Token} (h : token.IsLexical) :
    skeleton token.print = some token.sketch?.toList := by
  have hprint := skeleton_printAll (List.forall_mem_singleton.mpr h)
  rw [Token.printAll_cons, Token.printAll_nil, List.append_nil] at hprint
  rw [hprint]
  cases token <;> rfl

/-- A text without tags has an empty skeleton. -/
theorem skeleton_of_notMem {s : List Char} (h : '<' ∉ s) : skeleton s = some [] := by
  have hlexical : ∀ token ∈ s.map Token.char, token.IsLexical := by
    intro token htoken
    obtain ⟨c, hc, rfl⟩ := List.mem_map.mp htoken
    exact fun heq => h (heq ▸ hc)
  have hprint := skeleton_printAll hlexical
  rw [Token.printAll_map_char, List.filterMap_map] at hprint
  rw [hprint]
  exact congrArg some (List.filterMap_eq_nil_iff.mpr fun _ _ => rfl)

/-! ### Nesting -/

/-- The elements that have no closing tag. -/
def unclosedNames : List String := ["meta", "link", "input", "img", "br"]

/-- What a token does to the open elements of a page. -/
def Token.mark? : Token → Option Mark
  | char _ => none
  | opening tag => if tag.name ∈ unclosedNames then none else some (.opens tag.name false)
  | closing name => some (.closes name)

def Token.script? : Token → Option Tag
  | opening tag => if isScriptName tag.name then some tag else none
  | char _ | closing _ => none

/-- Whether tags are well nested, and none is a script. -/
structure IsCalm (tags : List Token) : Prop where
  nested : nest? [] (tags.filterMap Token.mark?) = some []
  scriptless : tags.filterMap Token.script? = []

theorem isCalm_nil : IsCalm [] := ⟨rfl, rfl⟩

theorem IsCalm.append {a b : List Token} (ha : IsCalm a) (hb : IsCalm b) : IsCalm (a ++ b) := by
  constructor
  · rw [List.filterMap_append, nest?_append, ha.nested]
    exact hb.nested
  · rw [List.filterMap_append, ha.scriptless, hb.scriptless]
    rfl

namespace Markup

/-! ### Skeletons of trees -/

/-- The opening tag of an element, without the values of its attributes. -/
def blankTag (name : String) (attributes : List Attribute) : Tag :=
  (tag name attributes).mapValues fun _ => []

/-- The tags of an element with some tags in it. -/
def elementTags (name : String) (attributes : List Attribute) (inner : List Token) : List Token :=
  .opening (blankTag name attributes) :: (inner ++ [.closing name])

mutual

/-- The tags of a piece of markup, with those of markup that was printed before. -/
def tags : Markup → List Token
  | text _ | message _ | separator => []
  | verbatim content => (skeleton content.toList).getD []
  | lineBreak => [.opening .lineBreak]
  | void name attributes => [.opening (blankTag name attributes)]
  | element name attributes children => elementTags name attributes (tagsOfAll children)

def tagsOfAll : List Markup → List Token
  | [] => []
  | piece :: rest => tags piece ++ tagsOfAll rest

end

/-- Whether the names of an element and of its attributes can be read, and it is no script. -/
def arePlainNames (name : String) (names : List String) : Bool :=
  isName name && names.all isName && !isScriptName name

def isPlainTag (name : String) (attributes : List Attribute) : Bool :=
  arePlainNames name (attributes.map fun a => a.token.1)

mutual

/-- Whether a piece of markup has no scripts and its tags are well nested, also those that were printed
before. -/
def IsSound : Markup → Prop
  | text _ | message _ | separator | lineBreak => True
  | verbatim content => ∃ tags, skeleton content.toList = some tags ∧ IsCalm tags
  | void name attributes => isPlainTag name attributes = true ∧ name ∈ unclosedNames
  | element name attributes children =>
    isPlainTag name attributes = true ∧ name ∉ unclosedNames ∧ AreSound children

def AreSound : List Markup → Prop
  | [] => True
  | piece :: rest => IsSound piece ∧ AreSound rest

end

theorem isLexical_tag {name : String} {attributes : List Attribute}
    (h : isPlainTag name attributes = true) : (tag name attributes).IsLexical := by
  simp only [isPlainTag, arePlainNames, Bool.and_eq_true, List.all_map, List.all_eq_true] at h
  exact Body.isLexical_tag h.1.1 h.1.2

theorem isScriptName_of_isPlainTag {name : String} {attributes : List Attribute}
    (h : isPlainTag name attributes = true) : isScriptName name = false := by
  simp only [isPlainTag, arePlainNames, Bool.and_eq_true, Bool.not_eq_true'] at h
  exact h.2

theorem sketch?_tag {name : String} {attributes : List Attribute}
    (h : isPlainTag name attributes = true) :
    Token.sketch? (.opening (tag name attributes)) =
      some (.opening (blankTag name attributes)) := by
  have hscript : isScriptName (tag name attributes).name = false := isScriptName_of_isPlainTag h
  rw [Token.sketch?, hscript]
  rfl

theorem skeleton_openingTag {name : String} {attributes : List Attribute}
    (h : isPlainTag name attributes = true) :
    skeleton (openingTag name attributes) = some [.opening (blankTag name attributes)] := by
  have hlexical : (Token.opening (tag name attributes)).IsLexical := isLexical_tag h
  have hprint := skeleton_print hlexical
  rw [sketch?_tag h, print_tag] at hprint
  exact hprint

theorem skeleton_element {name : String} {attributes : List Attribute}
    (h : isPlainTag name attributes = true) {inner : List Char} {tags : List Token}
    (hinner : skeleton inner = some tags) :
    skeleton (openingTag name attributes ++ inner ++ closingTag name) =
      some (elementTags name attributes tags) := by
  have hclosing : skeleton (closingTag name) = some [.closing name] :=
    skeleton_print (show (Token.closing name).IsLexical from (isLexical_tag h).1)
  rw [List.append_assoc]
  exact skeleton_append (skeleton_openingTag h) (skeleton_append hinner hclosing)

mutual

theorem skeleton_eq_tags : (piece : Markup) → IsSound piece →
    skeleton piece.print = some piece.tags
  | text content, _ => by
    rw [print, tags]
    exact skeleton_of_notMem fun hmem => (Body.mem_escape hmem).2.1 rfl
  | message content, _ => by
    rw [print, tags]
    exact skeleton_of_notMem fun hmem => (Body.mem_escapeStrictly hmem).1 rfl
  | separator, _ => by
    rw [print, tags]
    exact skeleton_of_notMem (by decide)
  | lineBreak, _ => by
    have hlexical : (Token.opening .lineBreak).IsLexical := Body.IsTag.isLexical .lineBreak
    have hprint := skeleton_print hlexical
    rw [Token.print_lineBreak] at hprint
    rw [print, tags, hprint]
    decide
  | verbatim content, h => by
    obtain ⟨found, hfound, -⟩ := h
    rw [print, tags, hfound]
    rfl
  | void name attributes, h => by
    rw [IsSound] at h
    rw [print, tags]
    exact skeleton_openingTag h.1
  | element name attributes children, h => by
    rw [IsSound] at h
    rw [print, tags]
    exact skeleton_element h.1 (skeleton_eq_tagsOfAll children h.2.2)

theorem skeleton_eq_tagsOfAll : (pieces : List Markup) → AreSound pieces →
    skeleton (printAll pieces) = some (tagsOfAll pieces)
  | [], _ => rfl
  | piece :: rest, h => by
    rw [AreSound] at h
    rw [printAll, tagsOfAll]
    exact skeleton_append (skeleton_eq_tags piece h.1) (skeleton_eq_tagsOfAll rest h.2)

end

theorem script?_blankTag {name : String} {attributes : List Attribute}
    (h : isPlainTag name attributes = true) :
    Token.script? (.opening (blankTag name attributes)) = none := by
  have hscript : isScriptName (blankTag name attributes).name = false :=
    isScriptName_of_isPlainTag h
  rw [Token.script?, hscript]
  rfl

theorem nest?_elementTags {name : String} {attributes : List Attribute}
    (hvoid : name ∉ unclosedNames) {inner : List Token}
    (h : nest? [] (inner.filterMap Token.mark?) = some []) :
    nest? [] ((elementTags name attributes inner).filterMap Token.mark?) = some [] := by
  have hmark : Token.mark? (.opening (blankTag name attributes)) = some (.opens name false) :=
    if_neg hvoid
  rw [elementTags, List.filterMap_cons_some hmark, List.filterMap_append]
  exact nest?_element h name (.inl rfl)

theorem isCalm_element {name : String} {attributes : List Attribute}
    (h : isPlainTag name attributes = true) (hvoid : name ∉ unclosedNames) {inner : List Token}
    (hinner : IsCalm inner) :
    IsCalm (elementTags name attributes inner) := by
  have hclosing : [Token.closing name].filterMap Token.script? = [] := rfl
  refine ⟨nest?_elementTags hvoid hinner.nested, ?_⟩
  rw [elementTags, List.filterMap_cons_none (script?_blankTag h), List.filterMap_append, hinner.scriptless,
    hclosing]
  rfl

mutual

theorem isCalm_tags : (piece : Markup) → IsSound piece → IsCalm piece.tags
  | text _, _ | message _, _ | separator, _ => by
    rw [tags]
    exact isCalm_nil
  | lineBreak, _ => by
    rw [tags]
    exact ⟨by decide, by decide⟩
  | verbatim content, h => by
    obtain ⟨found, hfound, hcalm⟩ := h
    rw [tags, hfound]
    exact hcalm
  | void name attributes, h => by
    rw [IsSound] at h
    rw [tags]
    have hmark : Token.mark? (.opening (blankTag name attributes)) = none := if_pos h.2
    refine ⟨?_, ?_⟩
    · rw [List.filterMap_cons_none hmark]
      rfl
    · rw [List.filterMap_cons_none (script?_blankTag h.1)]
      rfl
  | element name attributes children, h => by
    rw [IsSound] at h
    rw [tags]
    exact isCalm_element h.1 h.2.1 (areCalm_tagsOfAll children h.2.2)

theorem areCalm_tagsOfAll : (pieces : List Markup) → AreSound pieces → IsCalm (tagsOfAll pieces)
  | [], _ => isCalm_nil
  | piece :: rest, h => by
    rw [AreSound] at h
    rw [tagsOfAll]
    exact (isCalm_tags piece h.1).append (areCalm_tagsOfAll rest h.2)

end

end Markup

end Gazette
