import Gazette.Proofs.Markup.Unescaping
import Mathlib.Data.List.Infix

/-!
# Parts of escaped texts

An escaped text that is found in another one stands for a part of what the other one stands for,
unless it begins in the middle of an entity (`Escapes.infix_or_beginsInEntity`): from the start of an
entity on, both are read alike.
-/

namespace Gazette.Markup

/-- Whether a part is found in a text behind the first character of an entity. -/
def BeginsInEntity (part s : List Char) : Prop :=
  ∃ front entity tail behind, entity ∈ entities.map Prod.fst ∧ s = front ++ (entity ++ behind) ∧
    tail <:+ entity ∧ tail ≠ entity ∧ tail ≠ [] ∧ part <+: tail ++ behind

theorem BeginsInEntity.append {part s : List Char} (h : BeginsInEntity part s)
    (front : List Char) : BeginsInEntity part (front ++ s) := by
  obtain ⟨front', entity, tail, behind, hentity, rfl, htail⟩ := h
  exact ⟨front ++ front', entity, tail, behind, hentity, (List.append_assoc ..).symm, htail⟩

theorem exists_cons_of_mem_entities {entity : List Char} {c : Char} (h : (entity, c) ∈ entities) :
    ∃ tail, entity = '&' :: tail := by
  have hall : ∀ pair ∈ entities, pair.1.head? = some '&' := by decide
  have hhead := hall _ h
  cases entity with
  | nil => cases hhead
  | cons d tail => exact ⟨tail, by rw [Option.some.inj hhead]⟩

/-- No entity begins with another one. -/
theorem entity_inj {entity entity' s s' : List Char} {c c' : Char} (h : (entity, c) ∈ entities)
    (h' : (entity', c') ∈ entities) (heq : entity ++ s = entity' ++ s') :
    entity = entity' ∧ c = c' ∧ s = s' := by
  have hall : ∀ pair ∈ entities, ∀ pair' ∈ entities, pair.1 <+: pair'.1 → pair = pair' := by decide
  have hsame : (entity, c) = (entity', c') := by
    obtain hbegin | hbegin := List.prefix_or_prefix_of_prefix (List.prefix_append entity s)
      (heq ▸ List.prefix_append entity' s')
    · exact hall _ h _ h' hbegin
    · exact (hall _ h' _ h hbegin).symm
  cases hsame
  exact ⟨rfl, rfl, List.append_cancel_left heq⟩

namespace Escapes

variable {s t part shown : List Char}

theorem exists_of_cons {c : Char} (hc : c ≠ '&') (h : Escapes (c :: s) t) :
    ∃ t', t = c :: t' ∧ Escapes s t' := by
  generalize hw : c :: s = w at h
  cases h with
  | nil => cases hw
  | char _ h =>
    obtain ⟨rfl, rfl⟩ := List.cons.inj hw
    exact ⟨_, rfl, h⟩
  | entity hentity _ =>
    obtain ⟨tail, rfl⟩ := exists_cons_of_mem_entities hentity
    exact absurd (List.cons.inj hw).1 hc

theorem exists_of_entity {entity : List Char} {c : Char} (hc : (entity, c) ∈ entities)
    (h : Escapes (entity ++ s) t) : ∃ t', t = c :: t' ∧ Escapes s t' := by
  obtain ⟨tail, hentity⟩ := exists_cons_of_mem_entities hc
  generalize hw : entity ++ s = w at h
  cases h with
  | nil => exact absurd (List.append_eq_nil_iff.mp hw).1 (by simp [hentity])
  | char hd _ =>
    rw [hentity] at hw
    exact absurd (List.cons.inj hw).1.symm hd
  | entity hentity' h =>
    obtain ⟨-, rfl, rfl⟩ := entity_inj hc hentity' hw
    exact ⟨_, rfl, h⟩

/-- From its start on, an escaped text is read alike in whatever it begins. -/
theorem prefix_of_prefix (hpart : Escapes part shown) (h : Escapes s t) (hbegin : part <+: s) :
    shown <+: t := by
  induction hpart generalizing s t with
  | nil => exact List.nil_prefix
  | char hc _ ih =>
    obtain ⟨behind, rfl⟩ := hbegin
    obtain ⟨t', rfl, htail⟩ := h.exists_of_cons hc
    exact List.cons_prefix_cons.mpr ⟨rfl, ih htail (List.prefix_append _ _)⟩
  | entity hc _ ih =>
    obtain ⟨behind, rfl⟩ := hbegin
    rw [List.append_assoc] at h
    obtain ⟨t', rfl, htail⟩ := h.exists_of_entity hc
    exact List.cons_prefix_cons.mpr ⟨rfl, ih htail (List.prefix_append _ _)⟩

/-- A part of two texts in a row begins with the first one, in the middle of it, or behind it. -/
theorem prefix_cases_of_infix_append {a b : List Char} (h : part <:+: a ++ b) :
    part <+: a ++ b ∨ (∃ tail, tail <:+ a ∧ tail ≠ a ∧ tail ≠ [] ∧ part <+: tail ++ b) ∨
      part <:+: b := by
  have htail : part <:+: b ∨ ∃ tail, tail <:+ a ∧ part <+: tail ++ b := by
    obtain ⟨before, behind, rfl⟩ | hb | ⟨front, rest, rfl, hfront, hrest⟩ :=
      List.infix_append_iff.mp h
    · refine .inr ⟨part ++ behind, ⟨before, (List.append_assoc ..).symm⟩, ?_⟩
      exact (List.prefix_append part behind).trans (List.prefix_append _ b)
    · exact .inl hb
    · exact .inr ⟨front, hfront, (List.prefix_append_right_inj front).mpr hrest⟩
  obtain hb | ⟨tail, hsuffix, hpart⟩ := htail
  · exact .inr (.inr hb)
  · by_cases hall : tail = a
    · exact .inl (hall ▸ hpart)
    · by_cases hnil : tail = []
      · subst hnil
        exact .inr (.inr hpart.isInfix)
      · exact .inr (.inl ⟨tail, hsuffix, hall, hnil, hpart⟩)

/-- An escaped text that is found in another one begins in an entity, or stands for a part of what
the other one stands for. -/
theorem infix_or_beginsInEntity (hpart : Escapes part shown) (h : Escapes s t)
    (hheld : part <:+: s) : BeginsInEntity part s ∨ shown <:+: t := by
  induction h with
  | nil => exact .inr (hpart.prefix_of_prefix .nil (List.infix_nil.mp hheld ▸ List.nil_prefix)).isInfix
  | @char c s t hc h ih =>
    obtain hstart | hbehind := List.infix_cons_iff.mp hheld
    · exact .inr (hpart.prefix_of_prefix (h.char hc) hstart).isInfix
    · exact (ih hbehind).imp (fun h => h.append [c]) fun h => h.trans (List.suffix_cons c t).isInfix
  | @entity entity s t c hc h ih =>
    obtain hstart | ⟨tail, htail, hne, hnil, hmiddle⟩ | hbehind := prefix_cases_of_infix_append hheld
    · exact .inr (hpart.prefix_of_prefix (h.entity hc) hstart).isInfix
    · exact .inl ⟨[], entity, tail, s, List.mem_map_of_mem hc, rfl, htail, hne, hnil, hmiddle⟩
    · exact (ih hbehind).imp (fun h => h.append entity)
        fun h => h.trans (List.suffix_cons c t).isInfix

end Escapes

end Gazette.Markup
