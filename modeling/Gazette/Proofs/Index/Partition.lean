import Gazette.Proofs.Index.Words
import Mathlib.Data.List.Basic

/-!
# Pages partition a list

The pages of a list, from the first one to the last, are the list, and all of them but the last are
full (`pages_partition`). Page numbers are signed words and positions are words without a sign. In
words, no difference is negative and no part of a list is out of bounds: what words compute is the
page (`page?_eq`) and the number of pages (`count?_eq`).
-/

namespace Gazette.Paging

variable {α : Type} {items : List α} {page size : Nat}

/-! ### Numbers of pages -/

theorem pageCount_eq (count : Nat) {size : Nat} (hsize : 0 < size) :
    pageCount count size = count / size + if count % size = 0 then 0 else 1 := by
  have hlt := Nat.mod_lt count hsize
  have hrest : (count % size + (size - 1)) / size = if count % size = 0 then 0 else 1 := by
    split
    · next h =>
      rw [h, Nat.zero_add, Nat.div_eq_of_lt (by omega)]
    · next h =>
      rw [Nat.div_eq_sub_div hsize (by omega), Nat.div_eq_of_lt (by omega)]
  calc pageCount count size
    _ = (size * (count / size) + (count % size + (size - 1))) / size := by
      rw [pageCount, Nat.max_eq_left hsize, ← Nat.add_assoc, Nat.div_add_mod]
    _ = count / size + if count % size = 0 then 0 else 1 := by
      rw [Nat.mul_add_div hsize, hrest]

theorem lt_pageCount_iff {count size n : Nat} (hsize : 0 < size) :
    n < pageCount count size ↔ n * size < count := by
  rw [pageCount, Nat.max_eq_left hsize, Nat.lt_iff_add_one_le, Nat.le_div_iff_mul_le hsize,
    Nat.add_mul]
  omega

theorem pageCount_le (count : Nat) {size : Nat} (hsize : 0 < size) :
    pageCount count size ≤ count := by
  refine Nat.le_of_not_lt fun h => ?_
  have hmul := (lt_pageCount_iff hsize).mp h
  exact absurd (Nat.le_mul_of_pos_right count hsize) (Nat.not_le_of_lt hmul)

/-! ### Pages in words -/

/-- The items from one position up to another; none out of bounds. -/
def slice? (items : List α) (first behind : UInt64) : Option (List α) :=
  if first.toNat ≤ behind.toNat ∧ behind.toNat ≤ items.length then
    some ((items.take behind.toNat).drop first.toNat)
  else none

/-- A page, computed in words. There is none if a number is negative or a position out of bounds. -/
def page? (items : List α) (page : Int64) (size : UInt64) : Option (List α) := do
  let before ← Word.minus? (max page 1).toUInt64 1
  let first := Word.upTo (before.toNat * size.toNat)
  let length := UInt64.ofNat items.length
  if length ≤ first then return []
  slice? items first (min (Word.upTo (first.toNat + size.toNat)) length)

/-- The number of pages, computed in words. -/
def count? (count size : UInt64) : Option UInt64 := do
  let full ← Word.over? count (max size 1)
  if count % max size 1 = 0 then return full
  Word.plus? full 1

theorem toNat_max_one (page : Int64) :
    (max page 1).toUInt64.toNat = pageNumber page.toInt := by
  have hpage : (max page 1).toInt = max page.toInt 1 := Word.toInt_max page 1
  rw [Word.toNat_toUInt64 (by omega), hpage, pageNumber]

theorem page?_eq (hlength : items.length ≤ largest) (page : Int64) (size : UInt64) :
    page? items page size = some (paginate items page.toInt size.toNat) := by
  have hnumber := toNat_max_one page
  obtain ⟨before, hbefore, hvalue⟩ := @Word.minus?_eq (max page 1).toUInt64 1
    (by rw [hnumber, pageNumber]; change 1 ≤ _; omega)
  rw [hnumber] at hvalue
  have hfirst :
      (Word.upTo (before.toNat * size.toNat)).toNat = pageStart page.toInt size.toNat := by
    rw [Word.toNat_upTo, hvalue]
    rfl
  have hcount := Word.toNat_ofNat hlength
  rw [page?, hbefore]
  change (if UInt64.ofNat items.length ≤ Word.upTo (before.toNat * size.toNat) then some []
    else slice? items _ _) = _
  simp only [UInt64.le_iff_toNat_le, hcount, hfirst]
  rw [paginate]
  split
  · rfl
  · next hinside =>
    have hbehind : (min (Word.upTo (pageStart page.toInt size.toNat + size.toNat))
        (UInt64.ofNat items.length)).toNat = pageEnd page.toInt size.toNat items.length := by
      rw [UInt64.toNat_min, Word.toNat_upTo, hcount, pageEnd]
    have hle : pageStart page.toInt size.toNat ≤ pageEnd page.toInt size.toNat items.length ∧
        pageEnd page.toInt size.toNat items.length ≤ items.length := by
      unfold pageEnd
      unfold pageStart at hinside ⊢
      omega
    rw [slice?, hbehind, hfirst, if_pos hle]

theorem count?_eq (count size : UInt64) :
    ∃ pages, count? count size = some pages ∧ pages.toNat = pageCount count.toNat size.toNat := by
  have hsize : (max size 1).toNat = max size.toNat 1 := UInt64.toNat_max size 1
  have hpos : 0 < max size.toNat 1 := by omega
  obtain ⟨full, hfull, hvalue⟩ := @Word.over?_eq count (max size 1) (by omega)
  rw [hsize] at hvalue
  have hzero : count % max size 1 = 0 ↔ count.toNat % max size.toNat 1 = 0 := by
    rw [← UInt64.toNat_inj, UInt64.toNat_mod, hsize]
    rfl
  have hcount : pageCount count.toNat size.toNat = pageCount count.toNat (max size.toNat 1) := by
    rw [pageCount, pageCount, Nat.max_eq_left hpos]
  have hle := pageCount_le count.toNat hpos
  rw [pageCount_eq _ hpos, ← hvalue] at hle hcount
  rw [hcount, count?, hfull]
  change ∃ pages, (if count % max size 1 = 0 then some full else Word.plus? full 1) = some pages ∧ _
  by_cases hrest : count.toNat % max size.toNat 1 = 0
  · rw [if_pos hrest, if_pos (hzero.mpr hrest)]
    exact ⟨full, rfl, rfl⟩
  · rw [if_neg hrest] at hle ⊢
    rw [if_neg fun h => hrest (hzero.mp h)]
    exact Word.plus?_eq (Nat.le_trans hle (Word.toNat_le_largest count))

/-! ### The pages of a list -/

/-- All pages of a list, from the first to the last. -/
def pagesOf (items : List α) (size : Nat) : List (List α) :=
  (List.range (pageCount items.length size)).map fun n : Nat => paginate items (n + 1) size

theorem paginate_eq (hlength : items.length ≤ largest) (n size : Nat) :
    paginate items (n + 1) size = (items.drop (n * size)).take size := by
  have hnumber : pageNumber (n + 1) - 1 = n := by
    rw [pageNumber]
    omega
  unfold paginate pageEnd pageStart
  rw [hnumber]
  split
  · next h =>
    rw [List.drop_eq_nil_of_le (by omega), List.take_nil]
  · next h =>
    rw [Nat.min_eq_left (by omega : n * size ≤ largest), List.drop_take, List.take_eq_take_iff,
      List.length_drop]
    omega

/-- Pages below the first one are the first one. -/
theorem paginate_of_le {number : Int} (h : number ≤ 1) (items : List α) (size : Nat) :
    paginate items number size = paginate items 1 size := by
  have hnumber : pageNumber number = pageNumber 1 := by
    rw [pageNumber, pageNumber, Int.max_eq_right h]
    rfl
  unfold paginate pageEnd pageStart
  rw [hnumber]

theorem length_paginate (hlength : items.length ≤ largest) (n size : Nat) :
    (paginate items (n + 1) size).length = min size (items.length - n * size) := by
  rw [paginate_eq hlength, List.length_take, List.length_drop]

/-- The pages up to one of them are the items up to its end. -/
theorem flatten_paginate (hlength : items.length ≤ largest) (size n : Nat) :
    ((List.range n).map fun n : Nat => paginate items (n + 1) size).flatten =
      items.take (n * size) := by
  induction n with
  | zero => simp
  | succ n ih =>
    rw [List.range_succ, List.map_append, List.flatten_append, ih, List.map_singleton,
      List.flatten_singleton, paginate_eq hlength, Nat.succ_mul, List.take_add]

theorem paginate_ne_nil_iff (hlength : items.length ≤ largest) {size : Nat} (hsize : 0 < size)
    (n : Nat) : paginate items (n + 1) size ≠ [] ↔ n < pageCount items.length size := by
  rw [← List.length_pos_iff, length_paginate hlength, lt_pageCount_iff hsize]
  omega

theorem length_of_mem_dropLast_pagesOf (hlength : items.length ≤ largest) (hsize : 0 < size) :
    ∀ page ∈ (pagesOf items size).dropLast, page.length = size := by
  unfold pagesOf
  cases hcount : pageCount items.length size with
  | zero => exact fun _ h => absurd h List.not_mem_nil
  | succ last =>
    rw [List.range_succ, List.map_append, List.map_singleton, List.dropLast_concat]
    intro page hpage
    obtain ⟨n, hn, rfl⟩ := List.mem_map.mp hpage
    -- The page behind this one begins inside the list, so this one is full.
    have hnext : n + 1 < pageCount items.length size := by
      have hlast := List.mem_range.mp hn
      omega
    have hinside := (lt_pageCount_iff hsize).mp hnext
    rw [Nat.succ_mul] at hinside
    rw [length_paginate hlength]
    omega

theorem getLast?_pagesOf_ne_nil (hlength : items.length ≤ largest) (hsize : 0 < size) :
    ∀ page ∈ (pagesOf items size).getLast?, page ≠ [] := by
  unfold pagesOf
  cases hcount : pageCount items.length size with
  | zero => exact fun _ h => absurd h (Option.not_mem_none _)
  | succ last =>
    rw [List.range_succ, List.map_append, List.map_singleton, List.getLast?_concat]
    rintro page ⟨⟩
    exact (paginate_ne_nil_iff hlength hsize last).mpr (by omega)

theorem flatten_pagesOf (hlength : items.length ≤ largest) (hsize : 0 < size) :
    (pagesOf items size).flatten = items := by
  have hcover : ¬ pageCount items.length size * size < items.length := fun h =>
    absurd ((lt_pageCount_iff hsize).mpr h) (Nat.lt_irrefl _)
  rw [pagesOf, flatten_paginate hlength]
  exact List.take_of_length_le (Nat.le_of_not_lt hcover)

theorem paginate_eq_nil (hlength : items.length ≤ largest) (hsize : 0 < size) {number : Int}
    (h : pageCount items.length size < number) : paginate items number size = [] := by
  obtain ⟨n, rfl⟩ : ∃ n : Nat, number = n + 1 := ⟨(number - 1).toNat, by omega⟩
  refine Decidable.of_not_not fun hne => ?_
  have hlt := (paginate_ne_nil_iff hlength hsize n).mp hne
  omega

/-- The pages of a list in their order are the list. All of them are full but the last one, which
has some items; behind it there are empty pages only, and below the first one there is none.
Whatever the numbers are, words suffice to compute a page and the number of pages. -/
theorem pages_partition {α : Type} (items : List α) (hlength : items.length < 2 ^ 63)
    (size : UInt64) (hsize : 1 ≤ size) :
    let count := pageCount items.length size.toNat
    let pages := pagesOf items size.toNat
    (∀ page : Int64, page? items page size = some (paginate items page.toInt size.toNat)) ∧
    (count? (UInt64.ofNat items.length) size).map UInt64.toNat = some count ∧
    count < 2 ^ 63 ∧
    pages.flatten = items ∧
    (∀ page ∈ pages.dropLast, page.length = size.toNat) ∧
    (∀ page ∈ pages.getLast?, page ≠ []) ∧
    (∀ page : Int64, count < page.toInt → paginate items page.toInt size.toNat = []) ∧
    ∀ page : Int64, page < 1 →
      paginate items page.toInt size.toNat = paginate items 1 size.toNat := by
  have hword : items.length ≤ largest := by
    have hlargest : largest = 2 ^ 64 - 1 := rfl
    omega
  have hpos : 0 < size.toNat := UInt64.le_iff_toNat_le.mp hsize
  obtain ⟨pages, hpages, hcount⟩ := count?_eq (UInt64.ofNat items.length) size
  rw [Word.toNat_ofNat hword] at hcount
  refine ⟨fun page => page?_eq hword page size, by rw [hpages, Option.map_some, hcount],
    Nat.lt_of_le_of_lt (pageCount_le _ hpos) hlength, flatten_pagesOf hword hpos,
    length_of_mem_dropLast_pagesOf hword hpos, getLast?_pagesOf_ne_nil hword hpos,
    fun page => paginate_eq_nil hword hpos, fun page hpage => paginate_of_le ?_ items _⟩
  exact Int.le_of_lt (Int64.lt_iff_toInt_lt.mp hpage)

/-- Three items in pages of two. -/
theorem pages_partition_three :
    [1, 2, 3].length < 2 ^ 63 ∧ (1 : UInt64) ≤ 2 ∧
      (pagesOf [1, 2, 3] 2).flatten = [1, 2, 3] ∧
      paginate [1, 2, 3] Int64.maxValue.toInt 2 = [] ∧ paginate [1, 2, 3] (-7) 2 = [1, 2] := by
  have hlength : [1, 2, 3].length < 2 ^ 63 := by decide
  have hsize : (1 : UInt64) ≤ 2 := by decide
  obtain ⟨-, -, -, hflatten, -, -, hbehind, hbelow⟩ := pages_partition [1, 2, 3] hlength 2 hsize
  exact ⟨hlength, hsize, hflatten, hbehind Int64.maxValue (by decide), hbelow (-7) (by decide)⟩

end Gazette.Paging
