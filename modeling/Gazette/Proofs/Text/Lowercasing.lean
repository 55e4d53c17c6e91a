import Gazette.Text.Blank
import Gazette.Text.Casing
import Mathlib.Data.List.Infix

/-!
# What lowercasing keeps apart

Blanks, punctuation, digits and private characters are fixed: they are their own lowercase forms, and
no other character has one of them in its form (`lowerChar_eq_cases`). Only the form of a capital
sigma depends on what is around it, so a text without one is lowercased character by character
wherever it stands (`lowercaseFrom_append_of_notMem`).
-/

namespace Gazette.Text

namespace Casing

/-- Characters that no lowercasing makes or changes. -/
def fixedRanges : Ranges :=
  [(0x09, 0x0D), (0x20, 0x3F), (0x85, 0x85), (0xA0, 0xA0), (0x1680, 0x1680), (0x2000, 0x200A),
    (0x2028, 0x2029), (0x202F, 0x202F), (0x205F, 0x205F), (0x3000, 0x3000), (0xE000, 0xF8FF)]

def isFixed (c : Char) : Bool := fixedRanges.contains c.toNat

theorem isFixed_iff {c : Char} :
    isFixed c = true ↔ ∃ range ∈ fixedRanges, range.1 ≤ c.toNat ∧ c.toNat ≤ range.2 :=
  fixedRanges.contains_iff c.toNat

theorem isFixed_of_isBlank {c : Char} (h : isBlank c = true) : isFixed c = true := by
  simp only [isBlank, Bool.or_eq_true, Bool.and_eq_true, decide_eq_true_eq, beq_iff_eq] at h
  simp only [isFixed_iff, fixedRanges, List.mem_cons, List.not_mem_nil, or_false,
    exists_eq_or_imp, exists_eq_left]
  omega

/-- No run leads away from a fixed character or to one. -/
theorem run_apart : ∀ run ∈ lowerRuns, ∀ range ∈ fixedRanges,
    (run.last < range.1 ∨ range.2 < run.first) ∧
      (run.last + run.shift < range.1 ∨ (range.2 : Int) < run.first + run.shift) := by
  decide +kernel

theorem isFixed_of_le_last {run : Run} (hrun : run ∈ lowerRuns) {c : Char}
    (hfirst : run.first ≤ c.toNat) (hlast : c.toNat ≤ run.last) : isFixed c = false := by
  refine Bool.eq_false_iff.mpr fun hfixed => ?_
  obtain ⟨range, hrange, hlow, hhigh⟩ := isFixed_iff.mp hfixed
  obtain h | h := (run_apart run hrun range hrange).1
  · omega
  · omega

theorem toNat_ofNat (n : Nat) : (Char.ofNat n).toNat = n ∨ (Char.ofNat n).toNat = 0 := by
  by_cases h : n.isValidChar
  · left
    rw [Char.ofNat, dif_pos h]
    rfl
  · right
    rw [Char.ofNat, dif_neg h]
    rfl

theorem isFixed_ofNat {run : Run} (hrun : run ∈ lowerRuns) {n : Nat} (hfirst : run.first ≤ n)
    (hlast : n ≤ run.last) : isFixed (Char.ofNat (Int.toNat (n + run.shift))) = false := by
  refine Bool.eq_false_iff.mpr fun hfixed => ?_
  obtain ⟨range, hrange, hlow, hhigh⟩ := isFixed_iff.mp hfixed
  have hpos : ∀ range ∈ fixedRanges, 0 < range.1 := by decide
  have hstart := hpos range hrange
  have happart := (run_apart run hrun range hrange).2
  -- A code that is no character gives the character with code zero, which is not fixed.
  obtain hcode | hcode := toNat_ofNat (Int.toNat (n + run.shift))
  · rw [hcode] at hlow hhigh
    omega
  · omega

theorem Run.le_of_moves {run : Run} {code : Nat} (h : run.moves code = true) :
    run.first ≤ code ∧ code ≤ run.last := by
  simp only [Run.moves, Bool.and_eq_true, decide_eq_true_eq] at h
  exact h.1

theorem toLower_cases {c : Char} (h : c.toNat < 0x80) :
    c.toLower = c ∨ isFixed c = false ∧ isFixed c.toLower = false := by
  have hall : ∀ n < 0x80, (Char.ofNat n).toLower = Char.ofNat n ∨
      isFixed (Char.ofNat n) = false ∧ isFixed (Char.ofNat n).toLower = false := by
    decide +kernel
  have hcode := hall c.toNat h
  rwa [Char.ofNat_toNat] at hcode

/-- A character is its own lowercase form, or neither it nor a character of its form is fixed. -/
theorem lowerChar_eq_cases (c : Char) :
    lowerChar c = [c] ∨ isFixed c = false ∧ ∀ x ∈ lowerChar c, isFixed x = false := by
  unfold lowerChar
  split
  · next hcode =>
    obtain h | ⟨hc, hlower⟩ := toLower_cases hcode
    · exact .inl (by rw [h])
    · exact .inr ⟨hc, List.forall_mem_singleton.mpr hlower⟩
  · split
    · next h =>
      subst h
      exact .inr ⟨by decide, List.forall_mem_cons.mpr
        ⟨by decide, List.forall_mem_singleton.mpr (by decide)⟩⟩
    · split
      · next run hfind =>
        obtain ⟨hfirst, hlast⟩ := Run.le_of_moves (by simpa using List.find?_some hfind)
        have hrun := List.mem_of_find?_eq_some hfind
        refine .inr ⟨isFixed_of_le_last hrun hfirst hlast, List.forall_mem_singleton.mpr ?_⟩
        exact isFixed_ofNat hrun hfirst hlast
      · exact .inl rfl

theorem lowerChar_of_isFixed {c : Char} (h : isFixed c = true) : lowerChar c = [c] := by
  obtain hself | ⟨hfree, -⟩ := lowerChar_eq_cases c
  · exact hself
  · rw [h] at hfree
    cases hfree

/-- A fixed character in the form of a character is that character. -/
theorem eq_of_mem_lowerChar {c x : Char} (h : x ∈ lowerChar c) (hx : isFixed x = true) : c = x := by
  obtain hself | ⟨-, hfree⟩ := lowerChar_eq_cases c
  · rw [hself] at h
    exact (List.mem_singleton.mp h).symm
  · rw [hfree x h] at hx
    cases hx

/-! ### Where words end -/

/-- Whether a word ends before a character, whatever is behind it. -/
def isWordEnd (c : Char) : Bool := !isIgnorable c && !isCased c

theorem wordAfter_of_isWordEnd {c : Char} (h : isWordEnd c = true) (word : Bool) :
    wordAfter word c = false := by
  simp only [isWordEnd, Bool.and_eq_true, Bool.not_eq_true'] at h
  rw [wordAfter, h.1, h.2]
  rfl

theorem startsCased_append_cons {c : Char} (h : isWordEnd c = true) (s rest : List Char) :
    startsCased (s ++ c :: rest) = startsCased s := by
  simp only [isWordEnd, Bool.and_eq_true, Bool.not_eq_true'] at h
  induction s with
  | nil => simp [startsCased, h.1, h.2]
  | cons d s ih => rw [List.cons_append, startsCased, startsCased, ih]

/-! ### Sigmas -/

/-- Both small sigmas as one. -/
def foldSigma (c : Char) : Char := if c = 'ς' then 'σ' else c

theorem lowerChar_sigma : lowerChar 'Σ' = ['σ'] := by
  decide +kernel

end Casing

open Casing

theorem lowercaseFrom_cons (word : Bool) (c : Char) (rest : List Char) :
    ∃ form, lowercaseFrom word (c :: rest) = form ++ lowercaseFrom (wordAfter word c) rest ∧
      (c ≠ 'Σ' → form = lowerChar c) ∧ form.map foldSigma = (lowerChar c).map foldSigma := by
  by_cases hc : c = 'Σ'
  · subst hc
    refine ⟨if word && !startsCased rest then ['ς'] else ['σ'], ?_, fun h => absurd rfl h, ?_⟩
    · rw [lowercaseFrom, if_pos rfl]
    · rw [lowerChar_sigma]
      split <;> rfl
  · exact ⟨lowerChar c, lowercaseFrom_cons_of_ne hc word rest, fun _ => rfl, rfl⟩

/-- A text without a capital sigma is lowercased character by character, whatever follows. -/
theorem lowercaseFrom_append_of_notMem {s : List Char} (h : 'Σ' ∉ s) (word : Bool)
    (rest : List Char) :
    lowercaseFrom word (s ++ rest) =
      s.flatMap lowerChar ++ lowercaseFrom (s.foldl wordAfter word) rest := by
  induction s generalizing word with
  | nil => rfl
  | cons c s ih =>
    have hc : c ≠ 'Σ' := fun heq => h (heq ▸ List.mem_cons_self)
    have hs : 'Σ' ∉ s := fun hmem => h (List.mem_cons_of_mem c hmem)
    rw [List.cons_append, lowercaseFrom_cons_of_ne hc, ih hs, List.flatMap_cons, List.append_assoc,
      List.foldl_cons]

theorem lowercase_of_notMem {s : List Char} (h : 'Σ' ∉ s) : lowercase s = s.flatMap lowerChar := by
  have happend := lowercaseFrom_append_of_notMem h false []
  rwa [List.append_nil, lowercaseFrom, List.append_nil] at happend

/-- A text without a capital sigma has one lowercase form wherever it stands. -/
theorem flatMap_lowerChar_infix {s t : List Char} (h : 'Σ' ∉ s) (hst : s <:+: t) :
    s.flatMap lowerChar <:+: lowercase t := by
  obtain ⟨before, behind, rfl⟩ := hst
  have hfront : ∀ before word, s.flatMap lowerChar <:+:
      lowercaseFrom word (before ++ (s ++ behind)) := by
    intro before
    induction before with
    | nil =>
      intro word
      rw [List.nil_append, lowercaseFrom_append_of_notMem h]
      exact (List.prefix_append _ _).isInfix
    | cons c before ih =>
      intro word
      obtain ⟨form, hform, -⟩ := lowercaseFrom_cons word c (before ++ (s ++ behind))
      rw [List.cons_append, hform]
      exact (ih (wordAfter word c)).trans (List.suffix_append _ _).isInfix
  rw [List.append_assoc]
  exact hfront before false

/-- Words end at the sign, so what is before it and what is behind it do not meet. -/
theorem lowercaseFrom_append_cons {c : Char} (hc : isWordEnd c = true) (hsigma : c ≠ 'Σ')
    (word : Bool) (s rest : List Char) :
    lowercaseFrom word (s ++ c :: rest) =
      lowercaseFrom word s ++ (lowerChar c ++ lowercaseFrom false rest) := by
  induction s generalizing word with
  | nil =>
    rw [List.nil_append, lowercaseFrom_cons_of_ne hsigma, wordAfter_of_isWordEnd hc]
    rfl
  | cons d s ih =>
    rw [List.cons_append, lowercaseFrom, startsCased_append_cons hc, ih, lowercaseFrom,
      List.append_assoc]

/-- With both small sigmas as one, the form of a character does not depend on what is around it. -/
theorem map_foldSigma_lowercaseFrom (word : Bool) (s : List Char) :
    (lowercaseFrom word s).map foldSigma = (s.flatMap lowerChar).map foldSigma := by
  induction s generalizing word with
  | nil => rfl
  | cons c s ih =>
    obtain ⟨form, hform, -, hfold⟩ := lowercaseFrom_cons word c s
    rw [hform, List.map_append, ih, hfold, List.flatMap_cons, List.map_append]

end Gazette.Text
