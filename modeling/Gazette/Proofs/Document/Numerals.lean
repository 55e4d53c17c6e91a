import Gazette.Proofs.Document.Order
import Gazette.Proofs.Text.Decoding
import Gazette.Proofs.Text.Reading

/-!
# Ids that are numbers

Ids are given out as numbers, written in decimal digits. Of two such numbers the one with more digits
is the larger one, and of two with as many digits the one that is larger where they first differ. So
comparing the ids comes to comparing the numbers, of whatever length they are, and it tells all ids
apart and puts them in a row (`compareIds_isOrder`).
-/

namespace Gazette

open Text (toNat_of_isDigit)

/-- Whether an id is a number in decimal digits, without zeros in front of it. -/
structure IsNumeral (id : String) : Prop where
  ne_empty : id ≠ ""
  isDigit : ∀ c ∈ id.toList, c.isDigit = true
  noLeadingZero : id.toList.head? = some '0' → id = "0"

/-- The number for which an id stands that is written in decimal digits. -/
def numeralValue (id : String) : Nat := Nat.ofDigitChars 10 id.toList 0

/-! ### Bytes of digits -/

theorem idBytes_eq_encode (id : String) : idBytes id = Text.Utf8.encode id.toList := by
  calc idBytes id
    _ = idBytes (String.ofList id.toList) := by rw [String.ofList_toList]
    _ = Text.Utf8.encode id.toList := by
      rw [idBytes, String.toByteArray_ofList, List.utf8Encode, List.data_toByteArray]
      rfl

def digitByte (c : Char) : UInt8 := UInt8.ofNat c.toNat

variable {a b : String} {s t : List Char} {c d : Char}

theorem idBytes_of_isDigit (h : ∀ c ∈ a.toList, c.isDigit = true) :
    idBytes a = a.toList.map digitByte := by
  rw [idBytes_eq_encode]
  refine Text.Utf8.encode_of_lt fun c hc => ?_
  have hrange := toNat_of_isDigit (h c hc)
  omega

theorem digitByte_lt_iff (hc : c.isDigit = true) (hd : d.isDigit = true) :
    digitByte c < digitByte d ↔ c.toNat < d.toNat := by
  have hrange := toNat_of_isDigit hc
  have hrange' := toNat_of_isDigit hd
  rw [digitByte, digitByte, UInt8.lt_iff_toNat_lt,
    UInt8.toNat_ofNat_of_lt' (Nat.lt_of_le_of_lt hrange.2 (by decide)),
    UInt8.toNat_ofNat_of_lt' (Nat.lt_of_le_of_lt hrange'.2 (by decide))]

/-! ### As many digits -/

/-- What comes first decides, whatever digits follow. -/
theorem ofDigitChars_lt_of_lt {start start' : Nat} (h : start < start')
    (hs : ∀ c ∈ s, c.isDigit = true) (hlength : s.length = t.length) :
    Nat.ofDigitChars 10 s start < Nat.ofDigitChars 10 t start' := by
  induction s generalizing start start' t with
  | nil =>
    rw [List.eq_nil_of_length_eq_zero hlength.symm]
    exact h
  | cons c s ih =>
    cases t with
    | nil => cases hlength
    | cons d t =>
      have hrange := toNat_of_isDigit (hs c List.mem_cons_self)
      rw [Nat.ofDigitChars_cons, Nat.ofDigitChars_cons]
      refine ih ?_ (fun x hx => hs x (List.mem_cons_of_mem c hx)) (Nat.succ.inj hlength)
      rw [show '0'.toNat = 48 from rfl]
      omega

theorem ofDigitChars_lt_of_compareBytes {start : Nat} (hs : ∀ c ∈ s, c.isDigit = true)
    (ht : ∀ c ∈ t, c.isDigit = true) (hlength : s.length = t.length)
    (h : compareBytes (s.map digitByte) (t.map digitByte) = .lt) :
    Nat.ofDigitChars 10 s start < Nat.ofDigitChars 10 t start := by
  induction s generalizing start t with
  | nil =>
    rw [List.eq_nil_of_length_eq_zero hlength.symm] at h
    cases h
  | cons c s ih =>
    cases t with
    | nil => cases hlength
    | cons d t =>
      have hc := hs c List.mem_cons_self
      have hd := ht d List.mem_cons_self
      have hrest := fun x hx => hs x (List.mem_cons_of_mem c hx)
      have hrange := toNat_of_isDigit hc
      simp only [List.map_cons, compareBytes, digitByte_lt_iff hc hd, digitByte_lt_iff hd hc] at h
      rw [Nat.ofDigitChars_cons, Nat.ofDigitChars_cons]
      split at h
      · next hlt =>
        refine ofDigitChars_lt_of_lt ?_ hrest (Nat.succ.inj hlength)
        rw [show '0'.toNat = 48 from rfl]
        omega
      · next hge =>
        split at h
        · cases h
        · next hle =>
          have heq : c.toNat = d.toNat := by omega
          rw [heq]
          exact ih hrest (fun x hx => ht x (List.mem_cons_of_mem d hx)) (Nat.succ.inj hlength) h

/-! ### More digits -/

theorem mul_pow_le_ofDigitChars (s : List Char) (start : Nat) :
    start * 10 ^ s.length ≤ Nat.ofDigitChars 10 s start := by
  induction s generalizing start with
  | nil => exact Nat.le_of_eq (Nat.mul_one start)
  | cons c s ih =>
    rw [Nat.ofDigitChars_cons, List.length_cons]
    calc start * 10 ^ (s.length + 1)
      _ = 10 * start * 10 ^ s.length := by
        rw [Nat.pow_succ', ← Nat.mul_assoc, Nat.mul_comm start]
      _ ≤ (10 * start + (c.toNat - '0'.toNat)) * 10 ^ s.length :=
        Nat.mul_le_mul_right _ (Nat.le_add_right _ _)
      _ ≤ _ := ih _

theorem ofDigitChars_lt_mul_pow (hs : ∀ c ∈ s, c.isDigit = true) (start : Nat) :
    Nat.ofDigitChars 10 s start < (start + 1) * 10 ^ s.length := by
  induction s generalizing start with
  | nil => exact Nat.lt_of_lt_of_eq (Nat.lt_succ_self start) (Nat.mul_one _).symm
  | cons c s ih =>
    have hrange := toNat_of_isDigit (hs c List.mem_cons_self)
    have hdigit : c.toNat - '0'.toNat ≤ 9 := by
      rw [show '0'.toNat = 48 from rfl]
      omega
    rw [Nat.ofDigitChars_cons, List.length_cons]
    calc Nat.ofDigitChars 10 s (10 * start + (c.toNat - '0'.toNat))
      _ < (10 * start + (c.toNat - '0'.toNat) + 1) * 10 ^ s.length :=
        ih (fun x hx => hs x (List.mem_cons_of_mem c hx)) _
      _ ≤ (10 * start + 9 + 1) * 10 ^ s.length := Nat.mul_le_mul_right _ (by omega)
      _ = (start + 1) * 10 ^ (s.length + 1) := by
        rw [show 10 * start + 9 + 1 = (start + 1) * 10 by omega, Nat.mul_assoc, ← Nat.pow_succ']

theorem IsNumeral.length_pos (h : IsNumeral a) : 0 < a.toList.length :=
  List.length_pos_iff.mpr fun hnil => h.ne_empty (String.toList_eq_nil_iff.mp hnil)

/-- A number with more digits is larger, as its first digit is not zero. -/
theorem numeralValue_lt_of_length_lt (ha : IsNumeral a) (hb : IsNumeral b)
    (h : a.toList.length < b.toList.length) : numeralValue a < numeralValue b := by
  have hpos := ha.length_pos
  cases hcases : b.toList with
  | nil =>
    rw [hcases] at h
    exact absurd h (Nat.not_lt_zero _)
  | cons d t =>
    have hfirst : d ≠ '0' := by
      rintro rfl
      rw [hb.noLeadingZero (by rw [hcases]; rfl)] at h
      exact absurd h (Nat.not_lt.mpr hpos)
    have hdigit : 1 ≤ d.toNat - '0'.toNat := by
      have hrange := toNat_of_isDigit (hb.isDigit d (hcases ▸ List.mem_cons_self))
      have hne : d.toNat ≠ '0'.toNat := fun heq => hfirst (Char.toNat_inj.mp heq)
      rw [show '0'.toNat = 48 from rfl] at hne ⊢
      omega
    rw [hcases, List.length_cons] at h
    unfold numeralValue
    rw [hcases, Nat.ofDigitChars_cons, Nat.mul_zero, Nat.zero_add]
    calc Nat.ofDigitChars 10 a.toList 0
      _ < (0 + 1) * 10 ^ a.toList.length := ofDigitChars_lt_mul_pow ha.isDigit 0
      _ ≤ 1 * 10 ^ t.length :=
        Nat.mul_le_mul_left 1 (Nat.pow_le_pow_right (by decide) (Nat.le_of_lt_succ h))
      _ ≤ (d.toNat - '0'.toNat) * 10 ^ t.length := Nat.mul_le_mul_right _ hdigit
      _ ≤ Nat.ofDigitChars 10 t (d.toNat - '0'.toNat) := mul_pow_le_ofDigitChars t _

/-! ### The order -/

theorem numeralValue_lt_of_compareIds (ha : IsNumeral a) (hb : IsNumeral b)
    (h : compareIds a b = .lt) : numeralValue a < numeralValue b := by
  rw [compareIds, idBytes_of_isDigit ha.isDigit, idBytes_of_isDigit hb.isDigit, List.length_map,
    List.length_map, Ordering.then_eq_lt, Nat.compare_eq_lt, Nat.compare_eq_eq] at h
  obtain hlength | ⟨hlength, hbytes⟩ := h
  · exact numeralValue_lt_of_length_lt ha hb hlength
  · exact ofDigitChars_lt_of_compareBytes ha.isDigit hb.isDigit hlength hbytes

theorem compareIds_eq_compare_numeralValue (ha : IsNumeral a) (hb : IsNumeral b) :
    compareIds a b = compare (numeralValue a) (numeralValue b) := by
  cases h : compareIds a b with
  | lt => exact (Nat.compare_eq_lt.mpr (numeralValue_lt_of_compareIds ha hb h)).symm
  | eq =>
    rw [eq_of_compareIds_eq h]
    exact (Nat.compare_eq_eq.mpr rfl).symm
  | gt =>
    have hswap : compareIds b a = .lt := by rw [← compareIds_swap, h, Ordering.swap_gt]
    exact (Nat.compare_eq_gt.mpr (numeralValue_lt_of_compareIds hb ha hswap)).symm

/-- Comparing ids the other way round turns the result, what is smaller than a smaller one is smaller
still, and ids that come out equal are the same id. Numbers in decimal digits come out as the numbers
themselves do. -/
theorem compareIds_isOrder :
    (∀ a b, compareIds b a = (compareIds a b).swap) ∧
      (∀ a b c, compareIds a b = .lt → compareIds b c = .lt → compareIds a c = .lt) ∧
      (∀ a b, compareIds a b = .eq ↔ a = b) ∧
      ∀ a b, IsNumeral a → IsNumeral b →
        compareIds a b = compare (numeralValue a) (numeralValue b) := by
  refine ⟨fun a b => (compareIds_swap a b).symm, fun a b c hab hbc => ?_, fun a b => ?_,
    fun a b => compareIds_eq_compare_numeralValue⟩
  · rw [compareIds_eq_lt_iff] at hab hbc ⊢
    exact Nat.lt_trans hab hbc
  · refine ⟨eq_of_compareIds_eq, ?_⟩
    rintro rfl
    rw [compareIds_eq_compare]
    exact Nat.compare_eq_eq.mpr rfl

/-- A number of 21 digits, which no machine word holds, is larger than one of 20. -/
theorem compareIds_isOrder_long :
    IsNumeral "99999999999999999999" ∧ IsNumeral "100000000000000000000" ∧
      compareIds "99999999999999999999" "100000000000000000000" = .lt := by
  have hsmall : IsNumeral "99999999999999999999" :=
    ⟨by decide, List.all_eq_true.mp (by decide), by decide⟩
  have hlarge : IsNumeral "100000000000000000000" :=
    ⟨by decide, List.all_eq_true.mp (by decide), by decide⟩
  have hcompare := compareIds_isOrder.2.2.2 _ _ hsmall hlarge
  exact ⟨hsmall, hlarge, hcompare.trans (by decide)⟩

end Gazette
