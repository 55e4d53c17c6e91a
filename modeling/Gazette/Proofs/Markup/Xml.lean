import Gazette.Markup.Cdata
import Gazette.Proofs.Markup.Reading
import Gazette.Proofs.Markup.Unescaping

/-!
# Reading XML

A reader of XML goes through a text character by character. It knows tags, entities, instructions and
sections of character data, and gets from it characters and tags with the values of their attributes,
both decoded. It stops at anything else. `Reads` says of a part of a text what is read of it, whatever
follows; the parts of a document are put together by `Reads.append`.
-/

namespace Gazette.Xml

open Markup (cdata cdataEnd cdataStart cutEnds entities unescape)

/-- Where in a text a reader is. -/
inductive Place where
  | content
  /-- In an entity, of which something has been read. -/
  | entity (read : List Char)
  /-- Behind the `<` of something. -/
  | angle
  | tag (place : Gazette.Place)
  /-- In the start of a section of character data, behind its `<!`. -/
  | sectionStart (read : List Char)
  /-- In a section of character data, behind some `]` that may belong to its end. -/
  | sectionData (brackets : Nat)
  /-- In an instruction, perhaps behind the `?` of its end. -/
  | instruction (atEnd : Bool)
  deriving Repr, DecidableEq

/-- A tag as it is read, with its values decoded. -/
def decode : Token → Token
  | .opening tag => .opening (tag.mapValues unescape)
  | token => token

def chars (s : List Char) : List Token := s.map .char

namespace Place

/-- The place behind a character, and what has been read when it is reached. -/
def next : Place → Char → Option (Place × List Token)
  | content, c =>
    if c = '<' then some (angle, [])
    else if c = '&' then some (entity ['&'], [])
    else some (content, [.char c])
  | entity read, c =>
    if c = ';' then (entities.lookup (read ++ [c])).map fun decoded => (content, [.char decoded])
    else some (entity (read ++ [c]), [])
  | angle, c =>
    if c = '!' then some (sectionStart ['<', '!'], [])
    else if c = '?' then some (instruction false, [])
    else (Gazette.Place.start.next c).map fun behind => (tag behind.1, [])
  | tag place, c =>
    (place.next c).map fun behind =>
      match behind.2 with
      | none => (tag behind.1, [])
      | some token => (content, [decode token])
  | sectionStart read, c =>
    if read ++ [c] = cdataStart then some (sectionData 0, [])
    else if (read ++ [c]).isPrefixOf cdataStart then some (sectionStart (read ++ [c]), [])
    else none
  | sectionData brackets, c =>
    if c = ']' then
      if brackets = 2 then some (sectionData 2, [.char ']'])
      else some (sectionData (brackets + 1), [])
    else if c = '>' ∧ brackets = 2 then some (content, [])
    else some (sectionData 0, chars (List.replicate brackets ']' ++ [c]))
  | instruction atEnd, c =>
    if c = '>' ∧ atEnd = true then some (content, [])
    else some (instruction (c = '?'), [])

/-- Where a reader is behind a text, and what it has read of it. -/
def run : Place → List Char → Option (Place × List Token)
  | place, [] => some (place, [])
  | place, c :: rest =>
    (place.next c).bind fun behind =>
      (behind.1.run rest).map fun last => (last.1, behind.2 ++ last.2)

end Place

/-- The characters and the tags of a document. -/
def read? (s : List Char) : Option (List Token) :=
  match Place.content.run s with
  | some (.content, tokens) => some tokens
  | _ => none

/-- Whether a text leads a reader from one place to another, and is read as some tokens. -/
def Leads (place : Place) (s : List Char) (behind : Place) (tokens : List Token) : Prop :=
  place.run s = some (behind, tokens)

instance (place behind : Place) (s : List Char) (tokens : List Token) :
    Decidable (Leads place s behind tokens) :=
  inferInstanceAs (Decidable (place.run s = some (behind, tokens)))

namespace Leads

variable {place middle behind : Place} {s t : List Char} {a b : List Token}

theorem nil (place : Place) : Leads place [] place [] := rfl

theorem cons {c : Char} (hc : place.next c = some (middle, a)) (h : Leads middle s behind b) :
    Leads place (c :: s) behind (a ++ b) := by
  unfold Leads at h ⊢
  rw [Place.run, hc, Option.bind_some, h]
  rfl

theorem append (hs : Leads place s middle a) (ht : Leads middle t behind b) :
    Leads place (s ++ t) behind (a ++ b) := by
  induction s generalizing place a with
  | nil =>
    cases hs
    exact ht
  | cons c s ih =>
    unfold Leads at hs
    rw [Place.run] at hs
    obtain ⟨⟨first, tokens⟩, hnext, hrest⟩ := Option.bind_eq_some_iff.mp hs
    obtain ⟨⟨last, more⟩, hlast, heq⟩ := Option.map_eq_some_iff.mp hrest
    cases heq
    rw [List.append_assoc]
    exact cons hnext (ih hlast)

theorem read?_eq (h : Leads .content s .content a) : read? s = some a := by
  rw [read?, h]

end Leads

/-- Whether a text is read as some tokens wherever it stands in content. -/
def Reads (s : List Char) (tokens : List Token) : Prop := Leads .content s .content tokens

theorem Reads.append {s t : List Char} {a b : List Token} (hs : Reads s a) (ht : Reads t b) :
    Reads (s ++ t) (a ++ b) :=
  Leads.append hs ht

/-! ### Texts -/

theorem reads_of_escapes {s t : List Char} (h : Markup.Escapes s t) (hopen : '<' ∉ s) :
    Reads s (chars t) := by
  induction h with
  | nil => exact .nil _
  | @char c s t hc _ ih =>
    obtain ⟨hne, hrest⟩ := not_or.mp (fun hmem => hopen (List.mem_cons.mpr hmem))
    have hnext : Place.content.next c = some (.content, [.char c]) := by
      rw [Place.next, if_neg (Ne.symm hne), if_neg hc]
    exact Leads.cons hnext (ih hrest)
  | @entity entity s t c hc _ ih =>
    have hall : ∀ pair ∈ entities, Leads .content pair.1 .content [.char pair.2] := by decide
    exact Leads.append (hall _ hc) (ih fun hmem => hopen (List.mem_append_right entity hmem))

theorem reads_escape (s : List Char) : Reads (Markup.escape s) (chars s) := by
  refine reads_of_escapes (Markup.escapes_escape s) fun hmem => ?_
  obtain ⟨c, -, hc⟩ := List.mem_flatMap.mp hmem
  exact (Markup.mem_escapeChar hc).1 rfl

/-! ### Tags -/

/-- The reader of tags tells a tag when it is back in the text. -/
theorem eq_text_iff_of_next {place behind : Gazette.Place} {c : Char} {token? : Option Token}
    (hplace : place ≠ .text) (h : place.next c = some (behind, token?)) :
    behind = .text ↔ token? ≠ none := by
  cases place with
  | text => exact absurd rfl hplace
  | _ =>
    simp only [Gazette.Place.next] at h
    split at h <;> grind

theorem read?_ne_nil {place : Gazette.Place} (hplace : place ≠ .text) (s : List Char) :
    place.read? s ≠ some [] := by
  induction s generalizing place with
  | nil => simp [Gazette.Place.read?, hplace]
  | cons c s ih =>
    rw [Gazette.Place.read?]
    cases hnext : place.next c with
    | none => simp
    | some behind =>
      obtain ⟨behind, token?⟩ := behind
      cases token? with
      | none => exact ih fun htext => (eq_text_iff_of_next hplace hnext).mp htext rfl
      | some token => simp

theorem eq_nil_of_read?_text {s : List Char} (h : Gazette.Place.text.read? s = some []) :
    s = [] := by
  cases s with
  | nil => rfl
  | cons c s =>
    rw [Gazette.Place.read?, Gazette.Place.next] at h
    split at h
    · next hnext => split at hnext <;> cases hnext
    · next behind hnext =>
      split at hnext
      · cases hnext
        exact absurd h (read?_ne_nil (by decide) s)
      · cases hnext
    · simp at h

/-- What is read as one tag leads through it and back to the content. -/
theorem leads_tag {place : Gazette.Place} (hplace : place ≠ .text) {s : List Char} {token : Token}
    (h : place.read? s = some [token]) : Leads (.tag place) s .content [decode token] := by
  induction s generalizing place with
  | nil => simp [Gazette.Place.read?, hplace] at h
  | cons c s ih =>
    rw [Gazette.Place.read?] at h
    cases hnext : place.next c with
    | none => rw [hnext] at h; cases h
    | some behind =>
      obtain ⟨behind, token?⟩ := behind
      have htext := eq_text_iff_of_next hplace hnext
      rw [hnext] at h
      cases token? with
      | none =>
        have hstep : (Place.tag place).next c = some (.tag behind, []) := by
          rw [Place.next, hnext]
          rfl
        exact Leads.cons hstep (ih (fun heq => htext.mp heq rfl) h)
      | some found =>
        obtain ⟨rest, hrest, heq⟩ := Option.map_eq_some_iff.mp h
        obtain ⟨rfl, rfl⟩ := List.cons.inj heq
        rw [htext.mpr (Option.some_ne_none found)] at hrest
        obtain rfl := eq_nil_of_read?_text hrest
        have hstep : (Place.tag place).next c = some (.content, [decode found]) := by
          rw [Place.next, hnext]
          rfl
        exact Leads.cons hstep (.nil _)

/-- A name that can be told from the start of an instruction or of a section. -/
def isTagName (name : String) : Bool :=
  isName name && name.toList.head? != some '!' && name.toList.head? != some '?'

theorem reads_tag {token : Token} (h : token.IsLexical) {c : Char} {rest : List Char}
    (hprint : token.print = '<' :: c :: rest) (hbang : c ≠ '!') (hmark : c ≠ '?') :
    Reads token.print [decode token] := by
  have hread := Token.read?_printAll [token] (List.forall_mem_singleton.mpr h)
  rw [Token.printAll_cons, Token.printAll_nil, List.append_nil, hprint, Token.read?,
    @Gazette.Place.read?_cons_none .text .start _ rfl _, Gazette.Place.read?] at hread
  cases hnext : Gazette.Place.start.next c with
  | none => rw [hnext] at hread; cases hread
  | some behind =>
    obtain ⟨behind, token?⟩ := behind
    have htext := eq_text_iff_of_next (by decide) hnext
    have hnone : token? = none := by
      simp only [Gazette.Place.next] at hnext
      split at hnext <;> grind
    subst hnone
    rw [hnext] at hread
    have hangle : Place.angle.next c = some (.tag behind, []) := by
      rw [Place.next, if_neg hbang, if_neg hmark, hnext]
      rfl
    have hopen : Place.content.next '<' = some (.angle, []) := rfl
    rw [hprint]
    exact Leads.cons hopen (Leads.cons hangle (leads_tag (fun heq => htext.mp heq rfl) hread))

theorem reads_opening {tag : Tag} (hname : isTagName tag.name) (h : tag.IsLexical) :
    Reads (Token.print (.opening tag)) [.opening (tag.mapValues unescape)] := by
  obtain ⟨c, rest, hcons, -, -⟩ := isName_cons h.1
  simp only [isTagName, hcons, Bool.and_eq_true, bne_iff_ne, List.head?_cons, Ne,
    Option.some.injEq] at hname
  have hprint : Token.print (.opening tag) = '<' :: c :: (rest ++
      (tag.attributes.flatMap Tag.printAttribute ++ Tag.ending tag.slash)) := by
    rw [Token.print, Tag.inside, hcons]
    rfl
  exact reads_tag h hprint hname.1.2 hname.2

theorem reads_closing {name : String} (h : isName name) :
    Reads (Markup.closingTag name) [.closing name] := by
  have hlexical : (Token.closing name).IsLexical := h
  exact reads_tag hlexical rfl (by decide) (by decide)

/-! ### Sections of character data -/

theorem chars_append (s t : List Char) : chars (s ++ t) = chars s ++ chars t := List.map_append

theorem leads_cdataEnd {brackets : Nat} (h : brackets ≤ 2) :
    Leads (.sectionData brackets) cdataEnd .content (chars (List.replicate brackets ']')) := by
  have hall : ∀ brackets < 3,
      Leads (.sectionData brackets) cdataEnd .content (chars (List.replicate brackets ']')) := by
    decide
  exact hall brackets (Nat.lt_succ_of_le h)

/-- Where a section is cut, its last brackets are read, and those before them. -/
theorem leads_cut {brackets : Nat} (h : brackets ≤ 2) :
    Leads (.sectionData brackets) (']' :: ']' :: cdataEnd ++ cdataStart) (.sectionData 0)
      (chars (List.replicate brackets ']' ++ [']', ']'])) := by
  have hall : ∀ brackets < 3,
      Leads (.sectionData brackets) (']' :: ']' :: cdataEnd ++ cdataStart) (.sectionData 0)
        (chars (List.replicate brackets ']' ++ [']', ']'])) := by
    decide
  exact hall brackets (Nat.lt_succ_of_le h)

/-- What was cut is read as it was before, in one section or in many. The induction follows the cuts;
brackets that have been read may not end the section with what follows. -/
theorem leads_cutEnds (s : List Char) {brackets : Nat} (hle : brackets ≤ 2)
    (hone : 1 ≤ brackets → ¬ [']', '>'] <+: s) (htwo : brackets = 2 → ¬ ['>'] <+: s) :
    Leads (.sectionData brackets) (cutEnds s ++ cdataEnd) .content
      (chars (List.replicate brackets ']' ++ s)) := by
  fun_induction cutEnds s generalizing brackets with
  | case1 rest ih =>
    have hclose : Place.next (.sectionData 0) '>' = some (.sectionData 0, chars ['>']) := rfl
    have hrest := Leads.cons hclose (ih (Nat.zero_le 2) (by omega) (by omega))
    have hall := (leads_cut hle).append hrest
    rw [← chars_append, ← chars_append] at hall
    simpa using hall
  | case2 c rest hcut ih =>
    by_cases hc : c = ']'
    · subst hc
      have hnot : ¬ [']', '>'] <+: rest := by
        rintro ⟨behind, rfl⟩
        exact hcut behind rfl rfl
      by_cases hbrackets : brackets = 2
      · subst hbrackets
        have hnext : Place.next (.sectionData 2) ']' = some (.sectionData 2, chars [']']) := rfl
        have hclose : ¬ ['>'] <+: rest := fun hclose =>
          hone (by omega) (List.cons_prefix_cons.mpr ⟨rfl, hclose⟩)
        have hrest := Leads.cons hnext (ih (Nat.le_refl 2) (fun _ => hnot) fun _ => hclose)
        rw [← chars_append] at hrest
        exact hrest
      · have hnext : Place.next (.sectionData brackets) ']' =
            some (.sectionData (brackets + 1), []) := by
          rw [Place.next, if_pos rfl, if_neg hbrackets]
        have hclose : brackets + 1 = 2 → ¬ ['>'] <+: rest := fun heq hclose =>
          hone (by omega) (List.cons_prefix_cons.mpr ⟨rfl, hclose⟩)
        have hrest := Leads.cons hnext (ih (by omega) (fun _ => hnot) hclose)
        rw [List.nil_append, List.replicate_succ', List.append_assoc] at hrest
        exact hrest
    · have hnext : Place.next (.sectionData brackets) c =
          some (.sectionData 0, chars (List.replicate brackets ']' ++ [c])) := by
        rw [Place.next, if_neg hc, if_neg]
        rintro ⟨rfl, hbrackets⟩
        exact htwo hbrackets ⟨rest, rfl⟩
      have hrest := Leads.cons hnext (ih (Nat.zero_le 2) (by omega) (by omega))
      rw [← chars_append, List.append_assoc] at hrest
      exact hrest
  | case3 =>
    rw [List.append_nil]
    exact leads_cdataEnd hle

/-- Character data is read as it was, whatever stands in it. -/
theorem reads_cdata (fragment : List Char) : Reads (cdata fragment) (chars fragment) := by
  have hstart : Leads .content cdataStart (.sectionData 0) [] := by decide
  have hsection : Leads (.sectionData 0) (cutEnds fragment ++ cdataEnd) .content (chars fragment) :=
    leads_cutEnds fragment (by omega) (by omega) (by omega)
  rw [cdata, List.append_assoc]
  exact hstart.append hsection

/-- A sign in a value is decoded, and one in a section is taken as it is. -/
example : read? "<a b=\"&lt;\"><![CDATA[<]]></a>".toList =
    some [.opening ⟨"a", [("b", some ['<'])], false⟩, .char '<', .closing "a"] := by decide

end Gazette.Xml
