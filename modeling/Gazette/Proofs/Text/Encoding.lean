import Gazette.Text.Percent
import Mathlib.Algebra.Group.Nat.Defs
import Mathlib.Data.List.Basic

/-!
# Written forms can be told apart

Numbers in decimal digits and percent encoded texts are known from how they are written. For the
latter the bytes of the encoded text, decoded, are those of the text itself (`decodeBytes_encode`).
-/

namespace Gazette.Text

/-- What stands before the first mark, and what behind it. -/
theorem append_cons_injective {α : Type} {mark : α} {s s' t t' : List α} (hs : mark ∉ s)
    (hs' : mark ∉ s') (h : s ++ mark :: t = s' ++ mark :: t') : s = s' ∧ t = t' := by
  -- What one of the two texts has beyond the other would begin with the mark.
  obtain ⟨gap, rfl, hgap⟩ | ⟨gap, rfl, hgap⟩ := List.append_eq_append_iff.mp h
  · cases gap with
    | nil => exact ⟨(List.append_nil s).symm, (List.cons.inj hgap).2⟩
    | cons c gap =>
      obtain ⟨rfl, -⟩ := List.cons.inj hgap
      exact absurd (List.mem_append_right s List.mem_cons_self) hs'
  · cases gap with
    | nil => exact ⟨List.append_nil s', (List.cons.inj hgap).2.symm⟩
    | cons c gap =>
      obtain ⟨rfl, -⟩ := List.cons.inj hgap
      exact absurd (List.mem_append_right s' List.mem_cons_self) hs

/-! ### Decimal digits -/

theorem isDigit_of_mem_natDigits {n : Nat} {c : Char} (h : c ∈ natDigits n) : c.isDigit = true :=
  Nat.isDigit_of_mem_toDigits (by decide) (by decide) h

theorem notMem_natDigits {c : Char} (h : c.isDigit = false) (n : Nat) : c ∉ natDigits n := by
  intro hmem
  rw [isDigit_of_mem_natDigits hmem] at h
  cases h

theorem natDigits_ne_nil (n : Nat) : natDigits n ≠ [] := Nat.toDigits_ne_nil

theorem ofDigitChars_natDigits (n : Nat) : Nat.ofDigitChars 10 (natDigits n) 0 = n :=
  Nat.ofDigitChars_toDigits (by decide) (by decide)

theorem natDigits_injective {m n : Nat} (h : natDigits m = natDigits n) : m = n := by
  rw [← ofDigitChars_natDigits m, h, ofDigitChars_natDigits]

theorem intDigits_injective {m n : Int} (h : intDigits m = intDigits n) : m = n := by
  have hsign : ∀ k l : Nat, '-' :: natDigits k ≠ natDigits l := by
    intro k l heq
    exact notMem_natDigits (by decide) l (heq ▸ List.mem_cons_self)
  unfold intDigits at h
  by_cases hm : m < 0 <;> by_cases hn : n < 0
  · rw [if_pos hm, if_pos hn] at h
    have habs := natDigits_injective (List.cons.inj h).2
    omega
  · rw [if_pos hm, if_neg hn] at h
    exact absurd h (hsign _ _)
  · rw [if_neg hm, if_pos hn] at h
    exact absurd h.symm (hsign _ _)
  · rw [if_neg hm, if_neg hn] at h
    have habs := natDigits_injective h
    omega

theorem notMem_intDigits {c : Char} (hdigit : c.isDigit = false) (hminus : c ≠ '-') (n : Int) :
    c ∉ intDigits n := by
  have hdigits := notMem_natDigits hdigit n.natAbs
  unfold intDigits
  split
  · exact List.not_mem_cons_of_ne_of_not_mem hminus hdigits
  · exact hdigits

theorem decimal_injective {m n : Int} (h : decimal m = decimal n) : m = n :=
  intDigits_injective (String.ofList_injective h)

/-! ### Zeros in front -/

theorem isDigit_of_mem_padded {width n : Nat} {c : Char} (h : c ∈ padded width n) :
    c.isDigit = true := by
  obtain hzero | hdigit := List.mem_append.mp h
  · rw [(List.mem_replicate.mp hzero).2]
    rfl
  · exact isDigit_of_mem_natDigits hdigit

theorem notMem_padded {c : Char} (h : c.isDigit = false) (width n : Nat) : c ∉ padded width n := by
  intro hmem
  rw [isDigit_of_mem_padded hmem] at h
  cases h

theorem ofDigitChars_padded (width n : Nat) : Nat.ofDigitChars 10 (padded width n) 0 = n := by
  rw [padded, Nat.ofDigitChars_append, Nat.ofDigitChars_replicate_zero, Nat.mul_zero,
    ofDigitChars_natDigits]

theorem padded_injective {width m n : Nat} (h : padded width m = padded width n) : m = n := by
  rw [← ofDigitChars_padded width m, h, ofDigitChars_padded]

theorem padded_ne_nil (width n : Nat) : padded width n ≠ [] :=
  List.append_ne_nil_of_right_ne_nil _ (natDigits_ne_nil n)

/-- Zeros fill up the width, where the number is not too large for it. -/
theorem length_padded {width n : Nat} (hwidth : 0 < width) (h : n < 10 ^ width) :
    (padded width n).length = width := by
  have hlength : (natDigits n).length ≤ width := (Nat.length_toDigits_le_iff (by decide) hwidth).mpr h
  rw [padded, List.length_append, List.length_replicate]
  omega

/-! ### Bytes of texts -/

namespace Utf8

theorem encode_append (s t : List Char) : encode (s ++ t) = encode s ++ encode t :=
  List.flatMap_append

theorem encode_cons (c : Char) (s : List Char) :
    encode (c :: s) = String.utf8EncodeChar c ++ encode s := rfl

theorem encodeChar_of_lt {c : Char} (h : c.toNat < 0x80) :
    String.utf8EncodeChar c = [UInt8.ofNat c.toNat] := by
  have hle : c.val.toNat ≤ 0x7F := Nat.le_of_lt_succ h
  unfold String.utf8EncodeChar
  exact if_pos hle

theorem encode_injective {s t : List Char} (h : encode s = encode t) : s = t := by
  have hread : ∀ s : List Char, (encode s).toByteArray.utf8Decode? = some s.toArray := fun s =>
    List.utf8Decode?_utf8Encode
  have heq := hread s
  rw [h, hread t] at heq
  exact (Array.toList_inj.mpr (Option.some.inj heq)).symm

end Utf8

/-! ### Percent encoding -/

namespace Percent

theorem upperHexDigit_lt {n : Nat} (h : n < 16) : (upperHexDigit n).toNat < 0x80 := by
  have hall : ∀ n < 16, (upperHexDigit n).toNat < 0x80 := by decide
  exact hall n h

theorem hexValue?_upperHexDigit {n : Nat} (h : n < 16) : hexValue? (upperHexDigit n) = some n := by
  have hall : ∀ n < 16, hexValue? (upperHexDigit n) = some n := by decide
  exact hall n h

theorem isUnreserved_upperHexDigit {n : Nat} (h : n < 16) :
    isUnreserved (upperHexDigit n) = true := by
  have hall : ∀ n < 16, isUnreserved (upperHexDigit n) = true := by decide
  exact hall n h

theorem hexDigits_of_byte (byte : UInt8) : byte.toNat / 16 < 16 ∧ byte.toNat % 16 < 16 := by
  have := byte.toNat_lt
  omega

theorem isUnreserved_lt {c : Char} (h : isUnreserved c = true) : c.toNat < 0x80 ∧ c ≠ '%' := by
  refine ⟨?_, ?_⟩
  · have hcases : ((((decide (c.val ≥ 'A'.val ∧ c.val ≤ 'Z'.val) ||
        (decide (c.val ≥ 'a'.val) && decide (c.val ≤ 'z'.val))) ||
        (decide (c.val ≥ '0'.val) && decide (c.val ≤ '9'.val))) ||
        c == '-' || c == '_' || c == '.' || c == '~') = true) := h
    simp only [Bool.or_eq_true, Bool.and_eq_true, decide_eq_true_eq, beq_iff_eq,
      UInt32.le_iff_toNat_le, ge_iff_le] at hcases
    change c.val.toNat < 0x80
    rcases hcases with (((((h | h) | h) | rfl) | rfl) | rfl) | rfl
    · exact Nat.lt_of_le_of_lt h.2 (by decide)
    · exact Nat.lt_of_le_of_lt h.2 (by decide)
    · exact Nat.lt_of_le_of_lt h.2 (by decide)
    all_goals decide
  · rintro rfl
    exact absurd h (by decide)

theorem decodeBytes_cons_of_ne {byte : UInt8} (h : byte ≠ 0x25) (rest : List UInt8) :
    decodeBytes (byte :: rest) = byte :: decodeBytes rest := by
  rw [decodeBytes]
  simp [h]

/-- The byte of a digit is read as the digit. -/
theorem hexValue?_ofNat_upperHexDigit {n : Nat} (h : n < 16) :
    hexValue? (Char.ofNat (UInt8.ofNat (upperHexDigit n).toNat).toNat) = some n := by
  have hlt := upperHexDigit_lt h
  have hbyte : (UInt8.ofNat (upperHexDigit n).toNat).toNat = (upperHexDigit n).toNat := by
    rw [UInt8.toNat_ofNat']
    omega
  rw [hbyte, Char.ofNat_toNat, hexValue?_upperHexDigit h]

theorem decodeBytes_encodeByte (byte : UInt8) (rest : List UInt8) :
    decodeBytes (Utf8.encode (encodeByte byte) ++ rest) = byte :: decodeBytes rest := by
  obtain ⟨hhigh, hlow⟩ := hexDigits_of_byte byte
  have hbytes : Utf8.encode (encodeByte byte) =
      [0x25, UInt8.ofNat (upperHexDigit (byte.toNat / 16)).toNat,
        UInt8.ofNat (upperHexDigit (byte.toNat % 16)).toNat] := by
    rw [encodeByte, Utf8.encode_cons, Utf8.encode_cons, Utf8.encode_cons,
      Utf8.encodeChar_of_lt (by decide), Utf8.encodeChar_of_lt (upperHexDigit_lt hhigh),
      Utf8.encodeChar_of_lt (upperHexDigit_lt hlow)]
    rfl
  have hpair : pair? (UInt8.ofNat (upperHexDigit (byte.toNat / 16)).toNat)
      (UInt8.ofNat (upperHexDigit (byte.toNat % 16)).toNat) = some byte := by
    have hvalue : byte.toNat / 16 * 16 + byte.toNat % 16 = byte.toNat := by omega
    rw [pair?, hexValue?_ofNat_upperHexDigit hhigh, hexValue?_ofNat_upperHexDigit hlow]
    change some (UInt8.ofNat (byte.toNat / 16 * 16 + byte.toNat % 16)) = some byte
    rw [hvalue, UInt8.ofNat_toNat]
  rw [hbytes]
  change decodeBytes (0x25 :: _ :: _ :: rest) = _
  rw [decodeBytes, hpair]

theorem decodeBytes_encodeBytes (bytes rest : List UInt8) :
    decodeBytes (Utf8.encode (bytes.flatMap encodeByte) ++ rest) = bytes ++ decodeBytes rest := by
  induction bytes with
  | nil => rfl
  | cons byte bytes ih =>
    rw [List.flatMap_cons, Utf8.encode_append, List.append_assoc, decodeBytes_encodeByte, ih]
    rfl

theorem decodeBytes_encodeChar (c : Char) (rest : List UInt8) :
    decodeBytes (Utf8.encode (encodeChar c) ++ rest) =
      String.utf8EncodeChar c ++ decodeBytes rest := by
  unfold encodeChar
  split
  · next hc =>
    obtain ⟨hlt, hne⟩ := isUnreserved_lt hc
    have hbyte : UInt8.ofNat c.toNat ≠ 0x25 := by
      intro heq
      have hnat := congrArg UInt8.toNat heq
      rw [UInt8.toNat_ofNat', Nat.mod_eq_of_lt (by omega)] at hnat
      exact hne (Char.toNat_inj.mp hnat)
    rw [Utf8.encode_cons, Utf8.encodeChar_of_lt hlt]
    exact decodeBytes_cons_of_ne hbyte rest
  · exact decodeBytes_encodeBytes (String.utf8EncodeChar c) rest

/-- The bytes of an encoded text are read as those of the text. -/
theorem decodeBytes_encode (s : List Char) : decodeBytes (Utf8.encode (encode s)) = Utf8.encode s := by
  induction s with
  | nil => rfl
  | cons c s ih =>
    have hencode : encode (c :: s) = encodeChar c ++ encode s := rfl
    rw [hencode, Utf8.encode_append, decodeBytes_encodeChar, ih]
    rfl

theorem encode_injective {s t : List Char} (h : encode s = encode t) : s = t := by
  refine Utf8.encode_injective ?_
  rw [← decodeBytes_encode s, h, decodeBytes_encode t]

theorem mem_encode {s : List Char} {x : Char} (h : x ∈ encode s) :
    isUnreserved x = true ∨ x = '%' := by
  obtain ⟨c, -, hx⟩ := List.mem_flatMap.mp h
  unfold encodeChar at hx
  split at hx
  · next hc => exact .inl (List.mem_singleton.mp hx ▸ hc)
  · obtain ⟨byte, -, hx⟩ := List.mem_flatMap.mp hx
    obtain ⟨hhigh, hlow⟩ := hexDigits_of_byte byte
    simp only [encodeByte, List.mem_cons, List.not_mem_nil, or_false] at hx
    rcases hx with rfl | rfl | rfl
    · exact .inr rfl
    · exact .inl (isUnreserved_upperHexDigit hhigh)
    · exact .inl (isUnreserved_upperHexDigit hlow)

end Percent

end Gazette.Text
