import Gazette.Proofs.Body.Kept
import Gazette.Proofs.Index.Bylines
import Gazette.Proofs.Text.Lowercasing

/-!
# What a search finds

A query is escaped as the texts of a body are, and lowercasing goes with escaping and thinning: none
of them makes or changes what the others are about. So a text of a message that holds a query makes
its post a hit (`mem_hits_of_shows`).
-/

namespace Gazette

open Body (HoldsThinned Thins ink isFiller isOfSign)
open Markup (escapeStrictly escapeCharStrictly separatorChar)
open Text (isBlank lowercase)
open Text.Casing (eq_of_mem_lowerChar isFixed isFixed_of_isBlank lowerChar lowerChar_of_isFixed)

/-! ### Lowercase texts that are escaped and thinned -/

namespace Text.Casing

theorem isFixed_of_isFiller {c : Char} (h : isFiller c = true) : isFixed c = true := by
  obtain hseparator | hblank := Bool.or_eq_true_iff.mp h
  · rw [beq_iff_eq.mp hseparator]
    decide
  · exact isFixed_of_isBlank hblank

theorem isFixed_of_isOfSign {c : Char} (h : isOfSign c = true) : isFixed c = true := by
  simp only [isOfSign, Bool.or_eq_true, beq_iff_eq] at h
  obtain (h | rfl) | rfl := h
  · exact isFixed_of_isFiller h
  · decide
  · decide

theorem flatMap_lowerChar_eq_self {s : List Char} (h : ∀ c ∈ s, isFixed c = true) :
    s.flatMap lowerChar = s := by
  induction s with
  | nil => rfl
  | cons c s ih =>
    obtain ⟨hc, hs⟩ := List.forall_mem_cons.mp h
    rw [List.flatMap_cons, lowerChar_of_isFixed hc, ih hs]
    rfl

end Text.Casing

namespace Markup

/-- The characters that stand in a text as entities. -/
def specials : List Char := ['&', '<', '>', '"', '\'']

theorem escapeCharStrictly_of_notMem {c : Char} (h : c ∉ specials) :
    escapeCharStrictly c = [c] := by
  simp only [specials, List.mem_cons, List.not_mem_nil, or_false, not_or] at h
  obtain ⟨hamp, hopen, hclose, hquote, hapostrophe⟩ := h
  rw [escapeCharStrictly, if_neg hapostrophe]
  exact escapeChar_eq_self (by simp [hamp, hopen, hclose, hquote])

theorem escapeStrictly_eq_self {s : List Char} (h : ∀ c ∈ s, c ∉ specials) :
    escapeStrictly s = s := by
  induction s with
  | nil => rfl
  | cons c s ih =>
    obtain ⟨hc, hs⟩ := List.forall_mem_cons.mp h
    rw [escapeStrictly, List.flatMap_cons, escapeCharStrictly_of_notMem hc, ← escapeStrictly, ih hs]
    rfl

theorem escapeStrictly_infix {s t : List Char} (h : s <:+: t) :
    escapeStrictly s <:+: escapeStrictly t := by
  obtain ⟨before, behind, rfl⟩ := h
  rw [escapeStrictly_append, escapeStrictly_append]
  exact ⟨escapeStrictly before, escapeStrictly behind, rfl⟩

end Markup

namespace Body

theorem ink_lowerChar_escapeCharStrictly (c : Char) :
    ink ((escapeCharStrictly c).flatMap lowerChar) = escapeStrictly (ink (lowerChar c)) := by
  by_cases hc : c ∈ Markup.specials
  · have hall : (Markup.specials.all fun c =>
        ink ((escapeCharStrictly c).flatMap lowerChar) == escapeStrictly (ink (lowerChar c))) := by
      decide
    exact eq_of_beq (List.all_eq_true.mp hall c hc)
  · rw [Markup.escapeCharStrictly_of_notMem hc, List.flatMap_singleton]
    refine (Markup.escapeStrictly_eq_self fun x hx hspecial => ?_).symm
    have hfixed : Markup.specials.all isFixed = true := by decide
    have hself := eq_of_mem_lowerChar (List.mem_filter.mp hx).1
      (List.all_eq_true.mp hfixed x hspecial)
    exact hc (hself ▸ hspecial)

/-- Lowercasing an escaped text is escaping the lowercase text, as far as it shows. -/
theorem ink_flatMap_lowerChar_escapeStrictly (s : List Char) :
    ink ((escapeStrictly s).flatMap lowerChar) = escapeStrictly (ink (s.flatMap lowerChar)) := by
  induction s with
  | nil => rfl
  | cons c s ih =>
    rw [escapeStrictly, List.flatMap_cons, List.flatMap_append, ink_append,
      ink_lowerChar_escapeCharStrictly, ← escapeStrictly, ih, ← Markup.escapeStrictly_append,
      ← ink_append, List.flatMap_cons]

/-- Thinning a text leaves the ink of its lowercase form. -/
theorem Thins.ink_flatMap_lowerChar {s t : List Char} (h : Thins s t) :
    ink (t.flatMap lowerChar) = ink (s.flatMap lowerChar) := by
  have hfiller : ∀ {c}, isFiller c = true → ink (lowerChar c) = [] := by
    intro c hc
    rw [lowerChar_of_isFixed (Text.Casing.isFixed_of_isFiller hc), ink_cons_of_filler hc]
    rfl
  induction h with
  | nil => rfl
  | keep c _ ih => rw [List.flatMap_cons, List.flatMap_cons, ink_append, ink_append, ih]
  | drop hc _ ih => rw [List.flatMap_cons, ink_append, hfiller hc, ih, List.nil_append]
  | space hc _ ih =>
    rw [List.flatMap_cons, List.flatMap_cons, ink_append, ink_append, hfiller hc, ih,
      hfiller (by decide)]

theorem Thins.mem {s t : List Char} (h : Thins s t) {c : Char} (hc : c ∈ t) : c ∈ s ∨ c = ' ' := by
  induction h with
  | nil => cases hc
  | keep d _ ih =>
    obtain rfl | hc := List.mem_cons.mp hc
    · exact .inl List.mem_cons_self
    · exact (ih hc).imp_left (List.mem_cons_of_mem d)
  | drop _ _ ih => exact (ih hc).imp_left (List.mem_cons_of_mem _)
  | space _ _ ih =>
    obtain rfl | hc := List.mem_cons.mp hc
    · exact .inr rfl
    · exact (ih hc).imp_left (List.mem_cons_of_mem _)

theorem separatorChar_notMem_render (resolver : Resolver) (nodes : List Node) :
    separatorChar ∉ render resolver nodes := by
  intro hmem
  have hne : separatorChar ≠ ' ' := by decide
  have hcompact := (thins_trim _).mem hmem
  have hstrip := mem_compactFrom (hcompact.resolve_right hne)
  have hkeep := (List.mem_filter.mp (hstrip.resolve_right hne)).2
  simp at hkeep

end Body

/-! ### Queries -/

namespace Search

theorem normalize_of_notMem {s : List Char} (h : 'Σ' ∉ s) :
    normalize s = (s.flatMap lowerChar).filter (!isBlank ·) := by
  rw [normalize, Text.lowercase_of_notMem h]

/-- What is searched of a post is its body and the line break above it. -/
theorem withoutByline_card (resolver : Resolver) (options : PostOptions) (document : Document) :
    withoutByline (Post.ofDocument resolver options document).1.card.toList =
      Markup.lineBreakText ++ Body.render resolver document.nodes := by
  rw [Post.ofDocument_eq_dated, Post.card_dated]
  exact (Post.isBylineOf_bylineText _ (Post.escape_date _ _ _)).withoutByline_eq

theorem isFiller_eq {c : Char} (h : c ≠ separatorChar) : isFiller c = isBlank c := by
  rw [isFiller, beq_eq_false_iff_ne.mpr h, Bool.false_or]

/-- A text that is held thinned by another is found there in its lowercase form. -/
theorem escapeStrictly_infix_normalize {left s : List Char} (h : HoldsThinned (escapeStrictly left) s)
    (hsigma : 'Σ' ∉ left) (hseparator : separatorChar ∉ s) :
    escapeStrictly (ink (left.flatMap lowerChar)) <:+: normalize s := by
  obtain ⟨kept, hthins, hkept⟩ := h
  have hnotMem : 'Σ' ∉ kept := by
    intro hmem
    obtain ⟨c, hc, hesc⟩ := List.mem_flatMap.mp ((hthins.mem hmem).resolve_right (by decide))
    by_cases hspecial : c ∈ Markup.specials
    · have hall : (Markup.specials.all fun c => !(escapeCharStrictly c).contains 'Σ') = true := by
        decide
      have hnot := List.all_eq_true.mp hall c hspecial
      rw [List.contains_iff_mem.mpr hesc] at hnot
      cases hnot
    · rw [Markup.escapeCharStrictly_of_notMem hspecial] at hesc
      exact hsigma (List.mem_singleton.mp hesc ▸ hc)
  have hblank : ink (kept.flatMap lowerChar) = (kept.flatMap lowerChar).filter (!isBlank ·) := by
    refine List.filter_congr fun x hx => ?_
    obtain ⟨c, hc, hx⟩ := List.mem_flatMap.mp hx
    have hne : x ≠ separatorChar := by
      rintro rfl
      exact hseparator (hkept.mem (eq_of_mem_lowerChar hx (by decide) ▸ hc))
    rw [isFiller_eq hne]
  rw [← Body.ink_flatMap_lowerChar_escapeStrictly, ← hthins.ink_flatMap_lowerChar, hblank, normalize]
  exact (Text.flatMap_lowerChar_infix hnotMem hkept).filter _

/-- A query without signs and fillers is looked for behind the sign of a line only. -/
theorem infix_ink_of_infix_normalize {part gone left : List Char} (hpart : part ≠ [])
    (hsign : ∀ c ∈ part, isOfSign c = false) (hgone : ∀ c ∈ gone, isOfSign c = true)
    (hsigma : 'Σ' ∉ gone ++ left) (h : part <:+: normalize (gone ++ left)) :
    part <:+: ink (left.flatMap lowerChar) := by
  have hfixed : gone.flatMap lowerChar = gone :=
    Text.Casing.flatMap_lowerChar_eq_self fun c hc =>
      Text.Casing.isFixed_of_isOfSign (hgone c hc)
  rw [normalize_of_notMem hsigma, List.flatMap_append, List.filter_append, hfixed] at h
  have hapart : ∀ c ∈ gone.filter (!isBlank ·), c ∉ part := by
    intro c hc hmem
    have hofSign := hgone c (List.mem_filter.mp hc).1
    rw [hsign c hmem] at hofSign
    cases hofSign
  have hbehind := Text.infix_of_infix_append hpart hapart h
  have hshown : ∀ c, isOfSign c = false → (!isFiller c) = true := by
    intro c hc
    simp only [isOfSign, Bool.or_eq_false_iff] at hc
    rw [hc.1.1]
    rfl
  have hpartInk : ink part = part := List.filter_eq_self.mpr fun c hc => hshown c (hsign c hc)
  have hleftInk : ink ((left.flatMap lowerChar).filter (!isBlank ·)) =
      ink (left.flatMap lowerChar) := by
    rw [ink, List.filter_filter]
    refine List.filter_congr fun c _ => ?_
    cases hblank : isBlank c with
    | true => rw [Body.isFiller_of_isBlank hblank]; rfl
    | false => exact Bool.and_true _
  rw [← hpartInk, ← hleftInk]
  exact hbehind.filter _

/-- Nothing of a query without signs and separators is one in its normalized form. -/
theorem isOfSign_of_mem_normalize {s : List Char} (hsigma : 'Σ' ∉ s)
    (hsign : ∀ c ∈ s, c ≠ '#' ∧ c ≠ '-' ∧ c ≠ separatorChar) :
    ∀ c ∈ normalize s, isOfSign c = false := by
  intro c hc
  rw [normalize_of_notMem hsigma] at hc
  obtain ⟨hform, hblank⟩ := List.mem_filter.mp hc
  obtain ⟨d, hd, hform⟩ := List.mem_flatMap.mp hform
  refine Bool.eq_false_iff.mpr fun hofSign => ?_
  obtain rfl := eq_of_mem_lowerChar hform (Text.Casing.isFixed_of_isOfSign hofSign)
  obtain ⟨hhash, hdash, hseparator⟩ := hsign d hd
  rw [isOfSign, isFiller_eq hseparator] at hofSign
  simp_all

/-- A text of the message at any depth that holds a query, as searches compare them, makes the post
a hit for it. -/
theorem mem_hits_of_shows (resolver : Resolver) (options : PostOptions) (document : Document)
    {content query : String}
    (hshows : ∃ place ∈ Body.placesOfAll [] document.nodes, place.1.Shows content)
    (hcontent : 'Σ' ∉ content.toList) (hquery : 'Σ' ∉ query.toList)
    (hsign : ∀ c ∈ query.toList, c ≠ '#' ∧ c ≠ '-' ∧ c ≠ separatorChar)
    (hne : normalize query.toList ≠ [])
    (hpart : normalize query.toList <:+: normalize content.toList) {posts : List Post}
    (hpost : (Post.ofDocument resolver options document).1 ∈ posts) :
    (Post.ofDocument resolver options document).1 ∈ hits posts query := by
  obtain ⟨gone, left, heq, hgone, hbody⟩ := Body.exists_infix_render resolver hshows
  rw [heq] at hcontent hpart
  have hleft : 'Σ' ∉ left := fun hmem => hcontent (List.mem_append_right gone hmem)
  have hink : normalize query.toList <:+: ink (left.flatMap lowerChar) :=
    infix_ink_of_infix_normalize hne (isOfSign_of_mem_normalize hquery hsign) hgone hcontent hpart
  have hsearched : HoldsThinned (escapeStrictly left)
      (Markup.lineBreakText ++ Body.render resolver document.nodes) := by
    obtain ⟨kept, hthins, hkept⟩ := hbody
    exact ⟨kept, hthins, hkept.trans (List.suffix_append _ _).isInfix⟩
  have hseparator :
      separatorChar ∉ Markup.lineBreakText ++ Body.render resolver document.nodes := by
    rw [List.mem_append, not_or]
    exact ⟨by decide, Body.separatorChar_notMem_render resolver document.nodes⟩
  refine mem_hits_iff.mpr ⟨hpost, ?_, ?_⟩
  · obtain ⟨c, rest, hcons⟩ := List.exists_cons_of_ne_nil hne
    rw [needle, hcons, escapeStrictly, List.flatMap_cons]
    obtain hself | ⟨tail, hentity⟩ := Markup.escapeCharStrictly_eq_cases c
    · rw [hself]
      exact List.cons_ne_nil _ _
    · rw [hentity]
      exact List.cons_ne_nil _ _
  · rw [Text.isPart_iff, withoutByline_card]
    exact (Markup.escapeStrictly_infix hink).trans
      (escapeStrictly_infix_normalize hsearched hleft hseparator)

/-- A heading with a letter that is longer in lowercase. -/
def greeted : Document :=
  ⟨"7", none, ⟨"1", none, "ada"⟩, ⟨0, 0⟩, none, "", [.text "# Tom & \u0130lse's"], []⟩

theorem mem_hits_of_shows_greeted :
    let post := (Post.ofDocument Entities.empty.resolver ⟨.utc, []⟩ greeted).1
    post ∈ hits [post] "M&I\u0307LSE'S" := by
  intro post
  have hplace : (Node.text "# Tom & \u0130lse's", []) ∈ Body.placesOfAll [] greeted.nodes := by
    simp [Body.placesOfAll, Body.places, greeted]
  have hsign : ∀ c ∈ "M&I\u0307LSE'S".toList, c ≠ '#' ∧ c ≠ '-' ∧ c ≠ Markup.separatorChar := by
    intro c hc
    exact of_decide_eq_true (List.all_eq_true.mp (by decide : ("M&I\u0307LSE'S".toList.all fun c =>
      decide (c ≠ '#' ∧ c ≠ '-' ∧ c ≠ Markup.separatorChar)) = true) c hc)
  exact mem_hits_of_shows Entities.empty.resolver ⟨.utc, []⟩ greeted ⟨_, hplace, .inl rfl⟩
    (by decide) (by decide) hsign (by decide +kernel) (by decide +kernel)
    (List.mem_singleton_self post)

end Search

end Gazette
