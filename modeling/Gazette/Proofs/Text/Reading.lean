import Gazette.Proofs.Text.Encoding
import Gazette.Text.Number

/-!
# Numbers are read back

Numbers are read from the digits that they are written in, and digits are not changed when blanks are
trimmed.
-/

namespace Gazette.Text

/-! ### Decimal digits -/

theorem toNat_of_isDigit {c : Char} (h : c.isDigit = true) : 48 ≤ c.toNat ∧ c.toNat ≤ 57 :=
  Char.isDigit_iff_toNat.mp h

theorem le_ofDigitChars (s : List Char) (value : Nat) : value ≤ Nat.ofDigitChars 10 s value := by
  induction s generalizing value with
  | nil => exact Nat.le_refl value
  | cons c s ih =>
    have hnext := ih (10 * value + (c.toNat - '0'.toNat))
    rw [Nat.ofDigitChars_cons]
    omega

theorem readDigits_of_isDigit {bound value : Nat} {s : List Char}
    (hdigits : ∀ c ∈ s, c.isDigit = true) (hbound : Nat.ofDigitChars 10 s value ≤ bound) :
    readDigits bound value s = .ok (Nat.ofDigitChars 10 s value) := by
  induction s generalizing value with
  | nil => rfl
  | cons c s ih =>
    have hc := hdigits c List.mem_cons_self
    have hnext : value * 10 + (c.toNat - '0'.toNat) = 10 * value + (c.toNat - '0'.toNat) := by omega
    rw [Nat.ofDigitChars_cons] at hbound ⊢
    have hle := Nat.le_trans (le_ofDigitChars s _) hbound
    rw [readDigits, if_pos hc]
    dsimp only
    rw [hnext, if_pos hle]
    exact ih (fun d hd => hdigits d (List.mem_cons_of_mem c hd)) hbound

theorem readDigits_natDigits {bound n : Nat} (h : n ≤ bound) :
    readDigits bound 0 (natDigits n) = .ok n := by
  have hvalue := ofDigitChars_natDigits n
  rw [readDigits_of_isDigit (fun c hc => isDigit_of_mem_natDigits hc) (hvalue.symm ▸ h), hvalue]

theorem readInt?_natDigits {bits n : Nat} (h : n ≤ Nat.pow 2 bits - 1) :
    readInt? bits (natDigits n) = some (n : Int) := by
  have hread := readDigits_natDigits h
  have hdigits : ∀ c ∈ natDigits n, c.isDigit = true := fun c hc => isDigit_of_mem_natDigits hc
  cases hcases : natDigits n with
  | nil => exact absurd hcases (natDigits_ne_nil n)
  | cons c s =>
    rw [hcases] at hread hdigits
    have hc := hdigits c List.mem_cons_self
    unfold readInt?
    split
    · next heq => cases heq
    · next heq =>
      obtain ⟨rfl, -⟩ := List.cons.inj heq
      exact absurd hc (by decide)
    · next heq =>
      obtain ⟨rfl, -⟩ := List.cons.inj heq
      exact absurd hc (by decide)
    · rw [hread]
      rfl

/-! ### Trimming -/

theorem isBlank_of_isDigit {c : Char} (h : c.isDigit = true) : isBlank c = false := by
  have hrange := toNat_of_isDigit h
  simp only [isBlank, Bool.or_eq_false_iff, Bool.and_eq_false_iff, decide_eq_false_iff_not,
    beq_eq_false_iff_ne]
  omega

theorem trimStart_cons {c : Char} (h : isBlank c = false) (s : List Char) :
    trimStart (c :: s) = c :: s :=
  List.dropWhile_cons_of_neg (Bool.eq_false_iff.mp h)

theorem trim_of_forall {s : List Char} (h : ∀ c ∈ s, isBlank c = false) : trim s = s := by
  have hdrop : ∀ t : List Char, (∀ c ∈ t, isBlank c = false) → t.dropWhile isBlank = t := by
    intro t ht
    cases t with
    | nil => rfl
    | cons c t => rw [List.dropWhile_cons, ht c List.mem_cons_self, if_neg Bool.false_ne_true]
  have hstart : trimStart s = s := hdrop s h
  rw [trim, hstart, trimEnd, dropTail, hdrop s.reverse fun c hc => h c (List.mem_reverse.mp hc),
    List.reverse_reverse]

end Gazette.Text
