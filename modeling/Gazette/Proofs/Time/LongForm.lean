import Gazette.Proofs.Time.Reading

/-!
# Long dates tell seconds apart

A date and time in full names every part of an instant down to the second: the month by its name, the
hour by its number on a clock of twelve and by its half of the day. Each field ends at a character
that it does not hold, so it can be told where one ends and what it says
(`seconds_eq_of_longDateTime`).
-/

namespace Gazette.Time

open Text

/-! ### Fields -/

theorem notMem_yearDigits {c : Char} (hc : c.isDigit = false) (hminus : c ≠ '-') (hplus : c ≠ '+')
    (year : Int) : c ∉ yearDigits year := by
  unfold yearDigits
  split
  · exact notMem_padded hc 4 _
  · refine List.not_mem_cons_of_ne_of_not_mem ?_ (notMem_padded hc 4 _)
    split
    · exact hminus
    · exact hplus

theorem yearDigits_injective {year year' : Int} (h : yearDigits year = yearDigits year') :
    year = year' := by
  have hread := Reader.year?_yearDigits year (by decide : '-'.isDigit = false) []
  rw [h, Reader.year?_yearDigits year' (by decide)] at hread
  exact (congrArg Prod.fst (Option.some.inj hread)).symm

theorem notMem_monthName {month : Nat} (h : month ≤ 12) : ' ' ∉ monthName month := by
  have hall : ∀ month < 13, ' ' ∉ monthName month := by decide
  exact hall month (Nat.lt_succ_of_le h)

theorem monthName_injective {month month' : Nat} (hpos : 1 ≤ month) (hle : month ≤ 12)
    (hpos' : 1 ≤ month') (hle' : month' ≤ 12) (h : monthName month = monthName month') :
    month = month' := by
  have hall : ∀ m < 13, ∀ n < 13, 1 ≤ m → 1 ≤ n → monthName m = monthName n → m = n := by decide
  exact hall month (Nat.lt_succ_of_le hle) month' (Nat.lt_succ_of_le hle') hpos hpos' h

/-- Noon and midnight are both twelve, and the half of the day tells which one it is. -/
theorem hour_eq_of_hour12 {hour hour' : Nat} (hlt : hour < 24) (hlt' : hour' < 24)
    (h : (hour + 11) % 12 + 1 = (hour' + 11) % 12 + 1)
    (hhalf : (if hour < 12 then "AM".toList else "PM".toList) =
      if hour' < 12 then "AM".toList else "PM".toList) : hour = hour' := by
  split at hhalf
  · split at hhalf
    · omega
    · exact absurd hhalf (by decide)
  · split at hhalf
    · exact absurd hhalf (by decide)
    · omega

/-! ### Dates in full -/

theorem format_longDateTime (at' : Instant) :
    Pattern.longDateTime.format at' = monthName at'.date.month ++ ' ' :: (natDigits at'.date.day ++
      ',' :: ' ' :: (yearDigits at'.date.year ++ ' ' :: 'a' :: 't' :: ' ' ::
        (natDigits ((at'.clock.hour + 11) % 12 + 1) ++ ':' :: (padded 2 at'.clock.minute ++
          ':' :: (padded 2 at'.clock.second ++
            ' ' :: if at'.clock.hour < 12 then "AM".toList else "PM".toList))))) := by
  simp [Pattern.format, Pattern.longDateTime, Pattern.longDate, Pattern.mediumTime, Field.format]

/-- Instants at which seconds begin are the same if their dates and times in full are. -/
theorem seconds_eq_of_longDateTime {a b : Instant} (ha : a.nanos = 0) (hb : b.nanos = 0)
    (h : Pattern.longDateTime.format a = Pattern.longDateTime.format b) : a.seconds = b.seconds := by
  obtain ⟨hpos, hle, -, -⟩ := a.isValid_date.bounds
  obtain ⟨hpos', hle', -, -⟩ := b.isValid_date.bounds
  rw [format_longDateTime, format_longDateTime] at h
  obtain ⟨hmonth, h⟩ := append_cons_injective (notMem_monthName hle) (notMem_monthName hle') h
  obtain ⟨hday, h⟩ := append_cons_injective (notMem_natDigits (by decide) _)
    (notMem_natDigits (by decide) _) h
  obtain ⟨hyear, h⟩ := append_cons_injective
    (notMem_yearDigits (by decide) (by decide) (by decide) _)
    (notMem_yearDigits (by decide) (by decide) (by decide) _) (List.cons.inj h).2
  replace h := @List.append_cancel_left _ "at ".toList _ _ h
  obtain ⟨hhour, h⟩ := append_cons_injective (notMem_natDigits (by decide) _)
    (notMem_natDigits (by decide) _) h
  obtain ⟨hminute, h⟩ := append_cons_injective (notMem_padded (by decide) 2 _)
    (notMem_padded (by decide) 2 _) h
  obtain ⟨hsecond, h⟩ := append_cons_injective (notMem_padded (by decide) 2 _)
    (notMem_padded (by decide) 2 _) h
  have hdate : a.date = b.date := by
    change Date.mk a.date.year a.date.month a.date.day =
      Date.mk b.date.year b.date.month b.date.day
    rw [yearDigits_injective hyear, monthName_injective hpos hle hpos' hle' hmonth,
      natDigits_injective hday]
  rw [Instant.seconds_eq ha, Instant.seconds_eq hb, hdate,
    hour_eq_of_hour12 a.hour_lt b.hour_lt (natDigits_injective hhour) h,
    padded_injective hminute, padded_injective hsecond]

end Gazette.Time
