import Gazette.Proofs.Markup.Token

/-!
# Reading tokens

A reader goes through a text character by character and tells where in a tag it is. A `<` always
begins a tag; a text in which one does not, or in which a tag is broken off or written in another
way than `<name name="value">`, is not read at all. `read?_printAll` says that the reader gets back
the tokens that a text was printed from.
-/

namespace Gazette

/-- Whether a character may stand in the name of an element or of an attribute. -/
def isNameChar (c : Char) : Bool := !([' ', '"', '\'', '<', '>', '/', '='].contains c)

def isName (name : String) : Bool := !name.toList.isEmpty && name.toList.all isNameChar

/-- A text that can stand as the value of an attribute and neither ends it nor looks like a tag. -/
def IsClean (value : List Char) : Prop := ∀ c ∈ value, c ≠ '"' ∧ c ≠ '<' ∧ c ≠ '>'

namespace Tag

def add (name : List Char) (value : Option (List Char)) (tag : Tag) : Tag :=
  { tag with attributes := tag.attributes ++ [(String.ofList name, value)] }

/-- Names are names, and values are clean. -/
def IsLexical (tag : Tag) : Prop :=
  isName tag.name ∧ ∀ a ∈ tag.attributes, isName a.1 ∧ ∀ value ∈ a.2, IsClean value

end Tag

/-- Where in a text a reader is, and what it has read of a tag. -/
inductive Place where
  | text
  /-- Behind the `<` of a tag. -/
  | start
  | closing (name : List Char)
  | name (name : List Char)
  /-- Behind a space in a tag. -/
  | gap (tag : Tag)
  | attributeName (tag : Tag) (name : List Char)
  /-- Behind the `=` of an attribute. -/
  | equals (tag : Tag) (name : List Char)
  | value (tag : Tag) (name value : List Char)
  /-- Behind the quote that ends a value. -/
  | behind (tag : Tag)
  /-- Behind the `/` at the end of a tag. -/
  | slash (tag : Tag)
  deriving Repr, DecidableEq

namespace Place

/-- The place behind a character, and the token that ends there; none if the character may not
stand at the place. -/
def next : Place → Char → Option (Place × Option Token)
  | text, c => if c = '<' then some (start, none) else some (text, some (.char c))
  | start, c =>
    if c = '/' then some (closing [], none)
    else if isNameChar c then some (name [c], none) else none
  | closing n, c =>
    if c = '>' then (if n = [] then none else some (text, some (.closing (String.ofList n))))
    else if isNameChar c then some (closing (n ++ [c]), none) else none
  | name n, c =>
    if c = ' ' then some (gap ⟨String.ofList n, [], false⟩, none)
    else if c = '>' then some (text, some (.opening ⟨String.ofList n, [], false⟩))
    else if isNameChar c then some (name (n ++ [c]), none) else none
  | gap tag, c =>
    if c = '/' then some (slash tag, none)
    else if isNameChar c then some (attributeName tag [c], none) else none
  | attributeName tag n, c =>
    if c = '=' then some (equals tag n, none)
    else if c = ' ' then some (gap (tag.add n none), none)
    else if c = '>' then some (text, some (.opening (tag.add n none)))
    else if isNameChar c then some (attributeName tag (n ++ [c]), none) else none
  | equals tag n, c => if c = '"' then some (value tag n [], none) else none
  | value tag n v, c =>
    if c = '"' then some (behind (tag.add n (some v)), none) else some (value tag n (v ++ [c]), none)
  | behind tag, c =>
    if c = ' ' then some (gap tag, none)
    else if c = '>' then some (text, some (.opening tag)) else none
  | slash tag, c => if c = '>' then some (text, some (.opening { tag with slash := true })) else none

/-- The tokens of what follows a place. -/
def read? : Place → List Char → Option (List Token)
  | place, [] => if place = text then some [] else none
  | place, c :: rest =>
    match place.next c with
    | none => none
    | some (place, none) => read? place rest
    | some (place, some token) => (read? place rest).map (token :: ·)

end Place

namespace Token

/-- The tokens of a text. -/
def read? (s : List Char) : Option (List Token) := Place.text.read? s

/-- A token that can be read where it is printed. -/
def IsLexical : Token → Prop
  | char c => c ≠ '<'
  | opening tag => tag.IsLexical
  | closing name => isName name

end Token

/-! ### Names and values -/

theorem isName_cons {name : String} (h : isName name) :
    ∃ c rest, name.toList = c :: rest ∧ isNameChar c ∧ ∀ d ∈ rest, isNameChar d := by
  simp only [isName, Bool.and_eq_true, List.all_eq_true] at h
  cases hname : name.toList with
  | nil => simp [hname] at h
  | cons c rest =>
    rw [hname] at h
    exact ⟨c, rest, rfl, h.2 c List.mem_cons_self, fun d hd => h.2 d (List.mem_cons_of_mem c hd)⟩

theorem isNameChar_ne {c d : Char} (h : isNameChar c) (hd : isNameChar d = false) : c ≠ d := by
  rintro rfl
  rw [h] at hd
  cases hd

namespace Place

theorem read?_cons_none {place behind : Place} {c : Char} (h : place.next c = some (behind, none))
    (rest : List Char) : place.read? (c :: rest) = behind.read? rest := by
  rw [read?, h]

theorem read?_cons_some {place behind : Place} {c : Char} {token : Token}
    (h : place.next c = some (behind, some token)) (rest : List Char) :
    place.read? (c :: rest) = (behind.read? rest).map (token :: ·) := by
  rw [read?, h]

/-- A place that collects characters takes a whole row of them. -/
theorem read?_collect {place : List Char → Place} {p : Char → Prop}
    (h : ∀ n c, p c → (place n).next c = some (place (n ++ [c]), none))
    (n m rest : List Char) (hm : ∀ c ∈ m, p c) :
    (place n).read? (m ++ rest) = (place (n ++ m)).read? rest := by
  induction m generalizing n with
  | nil => rw [List.append_nil, List.nil_append]
  | cons c m ih =>
    have hc : p c := hm c List.mem_cons_self
    have hrest : ∀ d ∈ m, p d := fun d hd => hm d (List.mem_cons_of_mem c hd)
    rw [List.cons_append, read?_cons_none (h n c hc), ih (n ++ [c]) hrest, List.append_assoc]
    rfl

theorem next_name {c : Char} (h : isNameChar c) (n : List Char) :
    (name n).next c = some (name (n ++ [c]), none) := by
  have hspace := isNameChar_ne h (d := ' ') rfl
  have hend := isNameChar_ne h (d := '>') rfl
  simp [next, hspace, hend, h]

theorem next_closing {c : Char} (h : isNameChar c) (n : List Char) :
    (closing n).next c = some (closing (n ++ [c]), none) := by
  have hend := isNameChar_ne h (d := '>') rfl
  simp [next, hend, h]

theorem next_attributeName {c : Char} (h : isNameChar c) (tag : Tag) (n : List Char) :
    (attributeName tag n).next c = some (attributeName tag (n ++ [c]), none) := by
  have hequals := isNameChar_ne h (d := '=') rfl
  have hspace := isNameChar_ne h (d := ' ') rfl
  have hend := isNameChar_ne h (d := '>') rfl
  simp [next, hequals, hspace, hend, h]

theorem next_value {c : Char} (h : c ≠ '"') (tag : Tag) (n v : List Char) :
    (value tag n v).next c = some (value tag n (v ++ [c]), none) := by
  simp [next, h]

/-! ### Tags -/

/-- A place where a tag may go on with an attribute or come to its end. -/
structure Holds (place : Place) (tag : Tag) : Prop where
  space : place.next ' ' = some (gap tag, none)
  ending : place.next '>' = some (text, some (.opening tag))

theorem holds_name (n : List Char) : Holds (name n) ⟨String.ofList n, [], false⟩ := ⟨rfl, rfl⟩

theorem holds_behind (tag : Tag) : Holds (behind tag) tag := ⟨rfl, rfl⟩

theorem holds_attributeName (tag : Tag) (n : List Char) : Holds (attributeName tag n) (tag.add n none) :=
  ⟨rfl, rfl⟩

theorem read?_attribute {place : Place} {tag : Tag} (h : Holds place tag) {name : String}
    {value? : Option (List Char)} (hname : isName name) (hvalue : ∀ value ∈ value?, IsClean value) :
    ∃ behind, Holds behind (tag.add name.toList value?) ∧ ∀ rest,
      place.read? (Tag.printAttribute (name, value?) ++ rest) = behind.read? rest := by
  obtain ⟨c, n, hcons, hc, hn⟩ := isName_cons hname
  have hgap : (gap tag).next c = some (attributeName tag [c], none) := by
    have hslash := isNameChar_ne hc (d := '/') rfl
    simp [next, hslash, hc]
  have hread : ∀ rest, place.read? (' ' :: name.toList ++ rest) =
      (attributeName tag name.toList).read? rest := by
    intro rest
    rw [List.cons_append, read?_cons_none h.space, hcons, List.cons_append, read?_cons_none hgap]
    exact read?_collect (fun n c hc => next_attributeName hc tag n) [c] n rest hn
  cases value? with
  | none => exact ⟨attributeName tag name.toList, holds_attributeName tag _, hread⟩
  | some v =>
    refine ⟨behind (tag.add name.toList (some v)), holds_behind _, fun rest => ?_⟩
    have hv : ∀ c ∈ v, c ≠ '"' := fun c hc => (hvalue v rfl c hc).1
    have hquoted : (attributeName tag name.toList).read? ('=' :: '"' :: v ++ '"' :: rest) =
        (behind (tag.add name.toList (some v))).read? rest := by
      rw [List.cons_append, List.cons_append, read?_cons_none rfl,
        read?_cons_none rfl,
        read?_collect (fun v c hc => next_value hc tag name.toList v) [] v _ hv, List.nil_append,
        read?_cons_none rfl]
    have hprint : Tag.printAttribute (name, some v) ++ rest =
        ' ' :: name.toList ++ ('=' :: '"' :: v ++ '"' :: rest) := by
      simp [Tag.printAttribute]
    rw [hprint, hread, hquoted]

theorem read?_attributes {place : Place} {tag : Tag} (h : Holds place tag)
    (attributes : List (String × Option (List Char))) (slash : Bool) (rest : List Char)
    (hplain : tag.slash = false)
    (hlexical : ∀ a ∈ attributes, isName a.1 ∧ ∀ value ∈ a.2, IsClean value) :
    place.read? (attributes.flatMap Tag.printAttribute ++ Tag.ending slash ++ rest) =
      (text.read? rest).map
        (.opening ⟨tag.name, tag.attributes ++ attributes, slash⟩ :: ·) := by
  induction attributes generalizing place tag with
  | nil =>
    obtain ⟨name, old, _⟩ := tag
    subst hplain
    rw [List.flatMap_nil, List.nil_append, List.append_nil]
    cases slash with
    | false => exact read?_cons_some h.ending rest
    | true =>
      change place.read? (' ' :: '/' :: '>' :: rest) = _
      rw [read?_cons_none h.space, read?_cons_none rfl]
      exact read?_cons_some rfl rest
  | cons a attributes ih =>
    have ha := hlexical a List.mem_cons_self
    obtain ⟨behind, hbehind, hread⟩ := read?_attribute h ha.1 ha.2
    have hrest := ih hbehind hplain fun b hb => hlexical b (List.mem_cons_of_mem a hb)
    rw [List.flatMap_cons, List.append_assoc, List.append_assoc, hread, ← List.append_assoc, hrest]
    simp [Tag.add]

end Place

namespace Token

theorem read?_print (token : Token) (h : token.IsLexical) (rest : List Char) :
    read? (token.print ++ rest) = (read? rest).map (token :: ·) := by
  cases token with
  | char c => exact Place.read?_cons_some (by simp [Place.next, show c ≠ '<' from h]) rest
  | closing name =>
    obtain ⟨c, n, hcons, hc, hn⟩ := isName_cons h
    have hall : ∀ d ∈ name.toList, isNameChar d := by
      rw [hcons]
      exact List.forall_mem_cons.mpr ⟨hc, hn⟩
    have hend : (Place.closing name.toList).next '>' = some (.text, some (.closing name)) := by
      have hne : name.toList ≠ [] := by simp [hcons]
      simp [Place.next, hne]
    have hprint : print (closing name) ++ rest = '<' :: '/' :: (name.toList ++ '>' :: rest) := by
      simp [print, Markup.closingTag]
    rw [hprint, read?, Place.read?_cons_none rfl,
      Place.read?_cons_none rfl,
      Place.read?_collect (fun n c hc => Place.next_closing hc n) [] _ _ hall, List.nil_append,
      Place.read?_cons_some hend]
    rfl
  | opening tag =>
    obtain ⟨c, n, hcons, hc, hn⟩ := isName_cons h.1
    have hstart : Place.start.next c = some (.name [c], none) := by
      have hslash := isNameChar_ne hc (d := '/') rfl
      simp [Place.next, hslash, hc]
    have hname : String.ofList ([c] ++ n) = tag.name := by
      rw [List.singleton_append, ← hcons, String.ofList_toList]
    have hholds : Place.Holds (.name ([c] ++ n)) ⟨tag.name, [], false⟩ :=
      hname ▸ Place.holds_name ([c] ++ n)
    have hprint : print (opening tag) ++ rest = '<' :: c :: (n ++
        (tag.attributes.flatMap Tag.printAttribute ++ Tag.ending tag.slash ++ rest)) := by
      simp [print, Tag.inside, hcons]
    rw [hprint, read?, Place.read?_cons_none rfl, Place.read?_cons_none hstart,
      Place.read?_collect (fun n c hc => Place.next_name hc n) [c] n _ hn,
      Place.read?_attributes hholds tag.attributes tag.slash rest rfl h.2]
    rfl

/-- A text that was printed from tokens is read as these tokens. -/
theorem read?_printAll (tokens : List Token) (h : ∀ token ∈ tokens, token.IsLexical) :
    read? (printAll tokens) = some tokens := by
  induction tokens with
  | nil => rfl
  | cons token tokens ih =>
    have htail := ih fun t ht => h t (List.mem_cons_of_mem token ht)
    rw [printAll_cons, read?_print token (h token List.mem_cons_self), htail]
    rfl

example : read? "a < b".toList = none := by decide

end Token

end Gazette
