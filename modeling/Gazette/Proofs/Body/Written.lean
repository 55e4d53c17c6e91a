import Gazette.Body.Render
import Gazette.Proofs.Markup.Nesting
import Gazette.Proofs.Markup.Reading

/-!
# Well written fragments

The tags that the body of a message may have, and what makes a row of tokens a well written
fragment: its tags are of these, and they are well nested.
-/

namespace Gazette.Body

/-- The elements that stand without attributes. -/
def plainNames : List String := ["blockquote", "pre", "code", "i", "b", "u", "s", "h1", "h2"]

/-- The elements that are closed. -/
def closedNames : List String := plainNames ++ ["a", "span", "time"]

def tagNames : List String := closedNames ++ ["br", "img"]

def attributeNames : List String :=
  ["href", "target", "rel", "data-lang", "class", "datetime", "data-format", "src", "alt"]

def IsSecureAddress (value : List Char) : Prop := "https://".toList <+: value

def IsWebAddress (value : List Char) : Prop := "http://".toList <+: value ∨ IsSecureAddress value

/-- The opening tags of a body. -/
inductive IsTag : Tag → Prop where
  | plain {name : String} (h : name ∈ plainNames) : IsTag ⟨name, [], false⟩
  | lineBreak : IsTag .lineBreak
  | link {target : List Char} (hclean : IsClean target) (haddress : IsWebAddress target) :
    IsTag ⟨"a", [("href", some target)], false⟩
  | external {target : List Char} (hclean : IsClean target) (haddress : IsWebAddress target) :
    IsTag ⟨"a", [("href", some target), ("target", some "_blank".toList),
      ("rel", some "noopener noreferrer".toList)], false⟩
  | code {language : List Char} (hclean : IsClean language) :
    IsTag ⟨"pre", [("data-lang", some language)], false⟩
  | spoiler : IsTag ⟨"span", [("class", some "spoiler".toList)], false⟩
  | sub : IsTag ⟨"span", [("class", some "sub".toList)], false⟩
  | time {instant code : List Char} (hinstant : IsClean instant) (hcode : IsClean code) :
    IsTag ⟨"time", [("datetime", some instant), ("data-format", some code)], false⟩
  | image {source name : List Char} (hsource : IsClean source) (haddress : IsSecureAddress source)
      (hname : IsClean name) :
    IsTag ⟨"img", [("class", some "emoji".toList), ("src", some source), ("alt", some name)], false⟩

def IsWritten : Token → Prop
  | .char c => c ≠ '<' ∧ c ≠ '>'
  | .opening tag => IsTag tag
  | .closing name => name ∈ closedNames

/-- Headings, and the lines above them. -/
def isHeadline (tag : Tag) : Bool :=
  ["h1", "h2"].contains tag.name ||
    (tag.name == "span" && tag.attributes == [("class", some "sub".toList)])

/-- What a token of a body does to the open elements. -/
def mark? : Token → Option Mark
  | .char _ => none
  | .opening tag =>
    if tag.name = "br" then some .breaks
    else if tag.name = "img" then none
    else some (.opens tag.name (isHeadline tag))
  | .closing name => some (.closes name)

def marks (tokens : List Token) : List Mark := tokens.filterMap mark?

/-- Tokens that print to a well written and well nested fragment. -/
structure IsFragment (tokens : List Token) : Prop where
  written : ∀ token ∈ tokens, IsWritten token
  nested : nest? [] (marks tokens) = some []

/-! ### Written tags can be read -/

theorem isClean_of_decide {value : List Char}
    (h : (value.all fun c => c != '"' && c != '<' && c != '>') = true) : IsClean value := by
  intro c hc
  have hall := List.all_eq_true.mp h c hc
  simpa [and_assoc] using hall

theorem isName_of_mem {name : String} (h : name ∈ tagNames) : isName name := by
  have hall : ∀ name ∈ tagNames, isName name := by decide
  exact hall name h

theorem IsTag.name_mem {tag : Tag} (h : IsTag tag) : tag.name ∈ tagNames := by
  cases h with
  | plain h => exact List.mem_append_left _ (List.mem_append_left _ h)
  | lineBreak => decide
  | spoiler | sub => decide
  | link | external => exact (by decide : "a" ∈ tagNames)
  | code => exact (by decide : "pre" ∈ tagNames)
  | time => exact (by decide : "time" ∈ tagNames)
  | image => exact (by decide : "img" ∈ tagNames)

theorem IsTag.attribute_mem {tag : Tag} (h : IsTag tag) :
    ∀ a ∈ tag.attributes, a.1 ∈ attributeNames ∧ ∀ value ∈ a.2, IsClean value := by
  cases h with
  | plain | lineBreak => exact fun _ hmem => absurd hmem List.not_mem_nil
  | link hclean => simpa using ⟨by decide, hclean⟩
  | external hclean =>
    simpa using ⟨⟨by decide, hclean⟩, ⟨by decide, isClean_of_decide (by decide)⟩,
      ⟨by decide, isClean_of_decide (by decide)⟩⟩
  | code hclean => simpa using ⟨by decide, hclean⟩
  | spoiler | sub => simpa using ⟨by decide, isClean_of_decide (by decide)⟩
  | time hinstant hcode => simpa using ⟨⟨by decide, hinstant⟩, ⟨by decide, hcode⟩⟩
  | image hsource haddress hname =>
    simpa using ⟨⟨by decide, isClean_of_decide (by decide)⟩, ⟨by decide, hsource⟩,
      ⟨by decide, hname⟩⟩

theorem IsTag.isLexical {tag : Tag} (h : IsTag tag) : tag.IsLexical := by
  have hattributes : ∀ name ∈ attributeNames, isName name := by decide
  refine ⟨isName_of_mem h.name_mem, fun a ha => ?_⟩
  obtain ⟨hname, hvalue⟩ := h.attribute_mem a ha
  exact ⟨hattributes a.1 hname, hvalue⟩

theorem IsWritten.isLexical {token : Token} (h : IsWritten token) : token.IsLexical := by
  cases token with
  | char c => exact h.1
  | opening tag => exact IsTag.isLexical h
  | closing name => exact isName_of_mem (List.mem_append_left _ h)

/-- No other tag has the name of a line break. -/
theorem IsTag.eq_lineBreak {tag : Tag} (h : IsTag tag) (hname : tag.name = "br") :
    tag = .lineBreak := by
  cases h with
  | lineBreak => rfl
  | plain h =>
    have hall : ∀ name ∈ plainNames, name ≠ "br" := by decide
    exact absurd hname (hall _ h)
  | link | external => exact absurd hname (by decide : "a" ≠ "br")
  | code => exact absurd hname (by decide : "pre" ≠ "br")
  | spoiler | sub => exact absurd hname (by decide : "span" ≠ "br")
  | time => exact absurd hname (by decide : "time" ≠ "br")
  | image => exact absurd hname (by decide : "img" ≠ "br")

/-! ### Building fragments -/

theorem marks_append (a b : List Token) : marks (a ++ b) = marks a ++ marks b :=
  List.filterMap_append

theorem marks_map_char (s : List Char) : marks (s.map .char) = [] := by
  induction s with
  | nil => rfl
  | cons c s ih => exact ih

namespace IsFragment

theorem nil : IsFragment [] := ⟨fun _ h => absurd h List.not_mem_nil, rfl⟩

theorem append {a b : List Token} (ha : IsFragment a) (hb : IsFragment b) :
    IsFragment (a ++ b) := by
  refine ⟨fun token h => (List.mem_append.mp h).elim (ha.written token) (hb.written token), ?_⟩
  rw [marks_append, nest?_append, ha.nested]
  exact hb.nested

theorem chars {s : List Char} (h : ∀ c ∈ s, c ≠ '<' ∧ c ≠ '>') : IsFragment (s.map .char) := by
  constructor
  · intro token htoken
    obtain ⟨c, hc, rfl⟩ := List.mem_map.mp htoken
    exact h c hc
  · rw [marks_map_char]
    rfl

theorem lineBreak : IsFragment [.opening .lineBreak] := by
  refine ⟨fun token h => ?_, rfl⟩
  rw [List.mem_singleton.mp h]
  exact IsTag.lineBreak

/-- An element around a fragment, which may be a headline if no line break stands in it. -/
theorem element {tag : Tag} {inner : List Token} {isHeadline : Bool} (htag : IsTag tag)
    (hname : tag.name ∈ closedNames)
    (hmark : mark? (.opening tag) = some (.opens tag.name isHeadline)) (hinner : IsFragment inner)
    (hbreaks : isHeadline = false ∨ Mark.breaks ∉ marks inner) :
    IsFragment (.opening tag :: (inner ++ [.closing tag.name])) := by
  constructor
  · intro token h
    simp only [List.mem_cons, List.mem_append, List.not_mem_nil, or_false] at h
    rcases h with rfl | h | rfl
    · exact htag
    · exact hinner.written token h
    · exact hname
  · have hmarks : marks (.opening tag :: (inner ++ [.closing tag.name])) =
        .opens tag.name isHeadline :: (marks inner ++ [.closes tag.name]) := by
      rw [marks, List.filterMap_cons_some hmark, List.filterMap_append]
      rfl
    rw [hmarks]
    exact nest?_element hinner.nested tag.name hbreaks

end IsFragment

end Gazette.Body
