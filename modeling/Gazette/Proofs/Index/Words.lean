import Gazette.Index.Paging
import Mathlib.Algebra.Group.Int.Defs
import Mathlib.Algebra.Group.Nat.Defs
import Mathlib.Logic.Basic

/-!
# Numbers as words

Numbers are words of 64 bits, with a sign or without one. An operation has a result where its exact
value is a word, and there the word stands for this value.
-/

namespace Gazette.Word

/-! ### Words without a sign -/

section

variable {a b : UInt64}

/-- The word of a number, or the largest one for numbers beyond it. -/
def upTo (n : Nat) : UInt64 := UInt64.ofNat (min n Paging.largest)

/-- A sum, when it is a word. -/
def plus? (a b : UInt64) : Option UInt64 :=
  if a.toNat + b.toNat ≤ Paging.largest then some (a + b) else none

/-- A difference, when it is not negative. -/
def minus? (a b : UInt64) : Option UInt64 := if b ≤ a then some (a - b) else none

/-- A quotient, when there is one. -/
def over? (a b : UInt64) : Option UInt64 := if b = 0 then none else some (a / b)

theorem toNat_le_largest (a : UInt64) : a.toNat ≤ Paging.largest := Nat.le_pred_of_lt a.toNat_lt

theorem toNat_ofNat {n : Nat} (h : n ≤ Paging.largest) : (UInt64.ofNat n).toNat = n :=
  UInt64.toNat_ofNat_of_lt' (Nat.lt_of_le_of_lt h (by decide))

theorem toNat_upTo (n : Nat) : (upTo n).toNat = min n Paging.largest :=
  toNat_ofNat (Nat.min_le_right n Paging.largest)

theorem plus?_eq (h : a.toNat + b.toNat ≤ Paging.largest) :
    ∃ sum, plus? a b = some sum ∧ sum.toNat = a.toNat + b.toNat := by
  refine ⟨a + b, if_pos h, ?_⟩
  rw [UInt64.toNat_add, Nat.mod_eq_of_lt (Nat.lt_of_le_of_lt h (by decide))]

theorem map_toNat_plus? (a b : UInt64) :
    (plus? a b).map UInt64.toNat =
      if a.toNat + b.toNat ≤ Paging.largest then some (a.toNat + b.toNat) else none := by
  split
  · next h =>
    obtain ⟨sum, hsum, hvalue⟩ := plus?_eq h
    rw [hsum, Option.map_some, hvalue]
  · next h => rw [plus?, if_neg h, Option.map_none]

theorem minus?_eq (h : b.toNat ≤ a.toNat) :
    ∃ difference, minus? a b = some difference ∧ difference.toNat = a.toNat - b.toNat := by
  have hle : b ≤ a := UInt64.le_iff_toNat_le.mpr h
  exact ⟨a - b, if_pos hle, UInt64.toNat_sub_of_le a b hle⟩

theorem over?_eq (h : 0 < b.toNat) :
    ∃ quotient, over? a b = some quotient ∧ quotient.toNat = a.toNat / b.toNat := by
  have hne : b ≠ 0 := fun heq => by rw [heq] at h; exact Nat.lt_irrefl 0 h
  exact ⟨a / b, if_neg hne, UInt64.toNat_div a b⟩

end

/-! ### Words with a sign -/

section

variable {a b : Int64}

/-- Whether a number is a signed word. -/
def IsSigned (n : Int) : Prop := Int64.minValue.toInt ≤ n ∧ n ≤ Int64.maxValue.toInt

instance (n : Int) : Decidable (IsSigned n) := inferInstanceAs (Decidable (_ ∧ _))

/-- A sum of signed words, when it is one. -/
def signedPlus? (a b : Int64) : Option Int64 :=
  if IsSigned (a.toInt + b.toInt) then some (a + b) else none

/-- A difference of signed words, when it is one. -/
def signedMinus? (a b : Int64) : Option Int64 :=
  if IsSigned (a.toInt - b.toInt) then some (a - b) else none

theorem bmod_of_isSigned {n : Int} (h : IsSigned n) : n.bmod (2 ^ 64) = n := by
  have hmin : Int64.minValue.toInt = -9223372036854775808 := rfl
  have hmax : Int64.maxValue.toInt = 9223372036854775807 := rfl
  obtain ⟨hlower, hupper⟩ := h
  exact Int.bmod_eq_of_le (by omega) (by omega)

theorem signedPlus?_eq (h : IsSigned (a.toInt + b.toInt)) :
    ∃ sum, signedPlus? a b = some sum ∧ sum.toInt = a.toInt + b.toInt :=
  ⟨a + b, if_pos h, by rw [Int64.toInt_add, bmod_of_isSigned h]⟩

theorem signedMinus?_eq (h : IsSigned (a.toInt - b.toInt)) :
    ∃ difference, signedMinus? a b = some difference ∧ difference.toInt = a.toInt - b.toInt :=
  ⟨a - b, if_pos h, by rw [Int64.toInt_sub, bmod_of_isSigned h]⟩

theorem toInt_max (a b : Int64) : (max a b).toInt = max a.toInt b.toInt := by
  change (if a ≤ b then b else a).toInt = _
  split
  · next h => exact (Int.max_eq_right (Int64.le_iff_toInt_le.mp h)).symm
  · next h => exact (Int.max_eq_left (by rw [Int64.le_iff_toInt_le] at h; omega)).symm

/-- A signed word that is not negative is the same number without a sign. -/
theorem toNat_toUInt64 (h : 0 ≤ a.toInt) : a.toUInt64.toNat = a.toInt.toNat := by
  have hcases := BitVec.toInt_eq_toNat_cond a.toBitVec
  rw [Int64.toInt_toBitVec, Int64.toNat_toBitVec] at hcases
  have hlt := a.toUInt64.toNat_lt
  split at hcases <;> omega

end

/-! ### Words that are needed -/

/-- A number that is computed only where it is needed. -/
def onlyIf (needed : Prop) [Decidable needed] (number : Option Int64) : Option (Option Int64) :=
  if needed then number.map some else some none

theorem onlyIf_eq {needed shown : Prop} [Decidable needed] [Decidable shown]
    {number : Option Int64} {n : Int} (hshown : needed ↔ shown)
    (h : shown → ∃ word, number = some word ∧ word.toInt = n) :
    ∃ result, onlyIf needed number = some result ∧
      result.map Int64.toInt = if shown then some n else none := by
  by_cases hneeded : needed
  · obtain ⟨word, rfl, rfl⟩ := h (hshown.mp hneeded)
    exact ⟨some word, if_pos hneeded, (if_pos (hshown.mp hneeded)).symm⟩
  · exact ⟨none, if_neg hneeded, (if_neg (hshown.not.mp hneeded)).symm⟩

end Gazette.Word
