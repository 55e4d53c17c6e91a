import Gazette.Text.Part

/-!
# The first place of a part

A part may stand in a text more than once. What is behind it, and what the text is with something
else in its place, is about the first of these places (`behind?_eq_some_iff`,
`IsCutAt.replaceFirst_eq`). It is found by going over what holds no beginning of the part.
-/

namespace Gazette.Text

variable {part s before rest : List Char}

/-- What stands before the first place of `part`. -/
def upTo (part : List Char) : List Char → List Char
  | [] => []
  | c :: rest => if (after? part (c :: rest)).isSome then [] else c :: upTo part rest

/-- Whether `before` and `rest` are what is around the first place of `part` in the text. -/
structure IsCutAt (part s before rest : List Char) : Prop where
  eq : s = before ++ (part ++ rest)
  first : ∀ before' rest', s = before' ++ (part ++ rest') → before.length ≤ before'.length

theorem isCutAt_start (part rest : List Char) : IsCutAt part (part ++ rest) [] rest :=
  ⟨rfl, fun _ _ _ => Nat.zero_le _⟩

namespace IsCutAt

/-- A character at which the part does not begin is gone over. -/
theorem cons {c : Char} (h : IsCutAt part s before rest) (hc : after? part (c :: s) = none) :
    IsCutAt part (c :: s) (c :: before) rest := by
  refine ⟨by rw [h.eq]; rfl, fun before' rest' heq => ?_⟩
  cases before' with
  | nil =>
    have hafter : after? part (c :: s) = some rest' := after?_eq_some_iff.mpr heq
    rw [hc] at hafter
    cases hafter
  | cons d before' => exact Nat.succ_le_succ (h.first before' rest' (List.cons.inj heq).2)

/-- A text without the first character of the part is gone over. -/
theorem append {c : Char} {start : List Char} (h : IsCutAt (c :: part) s before rest)
    (hstart : c ∉ start) : IsCutAt (c :: part) (start ++ s) (start ++ before) rest := by
  induction start with
  | nil => exact h
  | cons d start ih =>
    obtain ⟨hd, hrest⟩ := not_or.mp (fun hmem => hstart (List.mem_cons.mpr hmem))
    exact (ih hrest).cons (if_neg hd)

/-- The first place is at the start of the text or behind its first character. -/
theorem cases_cons {c : Char} (h : IsCutAt part (c :: s) before rest) :
    (before = [] ∧ after? part (c :: s) = some rest) ∨
      ∃ before', before = c :: before' ∧ after? part (c :: s) = none ∧
        IsCutAt part s before' rest := by
  cases before with
  | nil => exact .inl ⟨rfl, after?_eq_some_iff.mpr h.eq⟩
  | cons d before =>
    obtain ⟨rfl, htail⟩ := List.cons.inj h.eq
    have hafter : after? part (c :: s) = none := by
      refine Option.eq_none_iff_forall_not_mem.mpr fun rest' hrest' => ?_
      have heq : c :: s = part ++ rest' := after?_eq_some_iff.mp hrest'
      exact absurd (h.first [] rest' heq) (Nat.not_succ_le_zero before.length)
    refine .inr ⟨before, rfl, hafter, htail, fun before' rest' heq => ?_⟩
    exact Nat.le_of_succ_le_succ (h.first (c :: before') rest' (congrArg (c :: ·) heq))

theorem behind?_eq (h : IsCutAt part s before rest) : behind? part s = some rest := by
  induction s generalizing before with
  | nil =>
    obtain ⟨-, hpart⟩ := List.append_eq_nil_iff.mp h.eq.symm
    obtain ⟨rfl, rfl⟩ := List.append_eq_nil_iff.mp hpart
    rfl
  | cons c s ih =>
    obtain ⟨-, hafter⟩ | ⟨before', -, hafter, htail⟩ := h.cases_cons
    · rw [behind?, hafter]
    · rw [behind?, hafter]
      exact ih htail

theorem upTo_eq (h : IsCutAt part s before rest) : upTo part s = before := by
  induction s generalizing before with
  | nil => exact (List.append_eq_nil_iff.mp h.eq.symm).1.symm
  | cons c s ih =>
    obtain ⟨rfl, hafter⟩ | ⟨before', rfl, hafter, htail⟩ := h.cases_cons
    · rw [upTo, hafter]
      rfl
    · rw [upTo, hafter, ih htail]
      rfl

theorem replaceFirst_eq (h : IsCutAt part s before rest) (new : List Char) :
    replaceFirst part new s = before ++ (new ++ rest) := by
  induction s generalizing before with
  | nil =>
    obtain ⟨rfl, hpart⟩ := List.append_eq_nil_iff.mp h.eq.symm
    obtain ⟨rfl, rfl⟩ := List.append_eq_nil_iff.mp hpart
    simp [replaceFirst]
  | cons c s ih =>
    obtain ⟨rfl, hafter⟩ | ⟨before', rfl, hafter, htail⟩ := h.cases_cons
    · rw [replaceFirst, hafter, List.nil_append]
    · rw [replaceFirst, hafter, List.cons_append, ih htail]

end IsCutAt

theorem behind?_eq_some_iff : behind? part s = some rest ↔ ∃ before, IsCutAt part s before rest := by
  refine ⟨fun h => ?_, fun ⟨_, h⟩ => h.behind?_eq⟩
  induction s with
  | nil =>
    rw [behind?] at h
    split at h
    · next hpart =>
      obtain rfl : [] = rest := Option.some.inj h
      obtain rfl : part = [] := List.isEmpty_iff.mp hpart
      exact ⟨[], isCutAt_start [] []⟩
    · cases h
  | cons c s ih =>
    rw [behind?] at h
    split at h
    · next behind hafter =>
      obtain rfl : behind = rest := Option.some.inj h
      rw [after?_eq_some_iff.mp hafter]
      exact ⟨[], isCutAt_start part behind⟩
    · next hafter =>
      obtain ⟨before, hcut⟩ := ih h
      exact ⟨c :: before, hcut.cons hafter⟩

theorem isSome_behind? (part s : List Char) : (behind? part s).isSome = isPart part s := by
  induction s with
  | nil =>
    rw [behind?, isPart]
    split
    · next hpart => exact hpart.symm
    · next hpart => exact (Bool.eq_false_iff.mpr hpart).symm
  | cons c s ih =>
    rw [behind?, isPart]
    cases after? part (c :: s) with
    | some rest => rfl
    | none => exact ih

theorem upTo_eq_self (h : isPart part s = false) : upTo part s = s := by
  induction s with
  | nil => rfl
  | cons c s ih =>
    rw [isPart, Bool.or_eq_false_iff] at h
    rw [upTo, h.1, ih h.2]
    rfl

end Gazette.Text
