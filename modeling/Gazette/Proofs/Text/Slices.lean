import Gazette.Proofs.Text.Encoding

/-!
# Slices of a text

A place in a text is the number of bytes in front of it. What stands between two places can be taken
out of the text if both are in the text, in their order, and neither is inside of a character
(`slice?_eq_some_iff`).
-/

namespace Gazette.Text

def byteLength (s : List Char) : Nat := (Utf8.encode s).length

variable {s front part rest : List Char} {place first last : Nat}

theorem byteLength_cons (c : Char) (s : List Char) :
    byteLength (c :: s) = c.utf8Size + byteLength s := by
  rw [byteLength, Utf8.encode_cons, List.length_append, String.length_utf8EncodeChar]
  rfl

theorem byteLength_append (s t : List Char) :
    byteLength (s ++ t) = byteLength s + byteLength t := by
  rw [byteLength, Utf8.encode_append, List.length_append]
  rfl

/-! ### Cutting at a place -/

/-- What is in front of a place and behind it. There is no place behind the end of the text, and
none inside of a character. -/
def cutAt? (place : Nat) : List Char → Option (List Char × List Char)
  | [] => if place = 0 then some ([], []) else none
  | c :: rest =>
    if place = 0 then some ([], c :: rest)
    else if place < c.utf8Size then none
    else (cutAt? (place - c.utf8Size) rest).map fun (front, rest) => (c :: front, rest)

theorem cutAt?_zero (s : List Char) : cutAt? 0 s = some ([], s) := by
  cases s <;> rw [cutAt?, if_pos rfl]

theorem cutAt?_byteLength (front rest : List Char) :
    cutAt? (byteLength front) (front ++ rest) = some (front, rest) := by
  induction front with
  | nil => exact cutAt?_zero rest
  | cons c front ih =>
    have hpos := c.utf8Size_pos
    rw [byteLength_cons, List.cons_append, cutAt?, if_neg (by omega), if_neg (by omega),
      Nat.add_sub_cancel_left, ih]
    rfl

theorem cutAt?_eq_some_iff :
    cutAt? place s = some (front, rest) ↔ s = front ++ rest ∧ byteLength front = place := by
  constructor
  · intro h
    induction s generalizing place front with
    | nil =>
      rw [cutAt?, Option.ite_none_right_eq_some] at h
      obtain ⟨rfl, heq⟩ := h
      cases heq
      exact ⟨rfl, rfl⟩
    | cons c s ih =>
      by_cases hzero : place = 0
      · rw [hzero, cutAt?_zero] at h
        cases h
        exact ⟨rfl, hzero.symm⟩
      · rw [cutAt?, if_neg hzero, Option.ite_none_left_eq_some] at h
        obtain ⟨hle, hcut⟩ := h
        obtain ⟨⟨before, behind⟩, hcut, heq⟩ := Option.map_eq_some_iff.mp hcut
        cases heq
        obtain ⟨rfl, hlength⟩ := ih hcut
        refine ⟨rfl, ?_⟩
        rw [byteLength_cons]
        omega
  · rintro ⟨rfl, rfl⟩
    exact cutAt?_byteLength front rest

/-! ### Slices -/

/-- What stands between two places. -/
def slice? (s : List Char) (first last : Nat) : Option (List Char) :=
  if first ≤ last then do
    let (_, behind) ← cutAt? first s
    let (part, _) ← cutAt? (last - first) behind
    return part
  else none

theorem slice?_eq_some_iff :
    slice? s first last = some part ↔ ∃ front rest, s = front ++ part ++ rest ∧
      byteLength front = first ∧ byteLength (front ++ part) = last := by
  constructor
  · intro h
    rw [slice?, Option.ite_none_right_eq_some] at h
    obtain ⟨hle, h⟩ := h
    obtain ⟨⟨front, behind⟩, hfront, h⟩ := Option.bind_eq_some_iff.mp h
    obtain ⟨⟨part', rest⟩, hpart, h⟩ := Option.bind_eq_some_iff.mp h
    obtain rfl : part' = part := Option.some.inj h
    obtain ⟨rfl, rfl⟩ := cutAt?_eq_some_iff.mp hfront
    obtain ⟨rfl, hlength⟩ := cutAt?_eq_some_iff.mp hpart
    refine ⟨front, rest, (List.append_assoc ..).symm, rfl, ?_⟩
    rw [byteLength_append]
    omega
  · rintro ⟨front, rest, rfl, rfl, rfl⟩
    have hlength : byteLength (front ++ part) - byteLength front = byteLength part := by
      rw [byteLength_append, Nat.add_sub_cancel_left]
    rw [slice?, if_pos (by rw [byteLength_append]; omega), List.append_assoc, cutAt?_byteLength]
    change (cutAt? _ (part ++ rest)).bind _ = _
    rw [hlength, cutAt?_byteLength]
    rfl

/-- The second place is inside of a character. -/
example : slice? "a€".toList 1 3 = none := by decide

/-! ### Finding a character -/

/-- The first place of a character. -/
def find? (c : Char) : List Char → Option Nat
  | [] => none
  | d :: rest => if d = c then some 0 else (find? c rest).map (d.utf8Size + ·)

theorem find?_eq_none {c : Char} (h : c ∉ s) : find? c s = none := by
  induction s with
  | nil => rfl
  | cons d s ih =>
    rw [find?, if_neg (List.ne_of_not_mem_cons h).symm, ih (List.not_mem_of_not_mem_cons h)]
    rfl

theorem find?_append {c : Char} (h : c ∉ front) (rest : List Char) :
    find? c (front ++ c :: rest) = some (byteLength front) := by
  induction front with
  | nil => exact if_pos rfl
  | cons d front ih =>
    rw [List.cons_append, find?, if_neg (List.ne_of_not_mem_cons h).symm,
      ih (List.not_mem_of_not_mem_cons h), byteLength_cons]
    rfl

end Gazette.Text
