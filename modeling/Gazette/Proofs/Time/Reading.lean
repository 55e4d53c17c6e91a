import Gazette.Proofs.Text.Reading
import Gazette.Proofs.Time.Numbering
import Gazette.Time.Pattern
import Gazette.Time.Reader
import Mathlib.Data.Option.Basic

/-!
# Written instants are read back

The reader finds in a universal date and time what was written there, field by field: the digits of a
year, with a sign if it has one, and two digits for everything else. A date is one of the calendar,
and its year is in bounds where the instant is, so nothing is refused (`read?_isoDateTime`).
-/

namespace Gazette.Time

open Text

/-! ### Seconds of a day -/

namespace Instant

variable {at' : Instant}

theorem isValid_date (at' : Instant) : at'.date.IsValid := Date.isValid_ofDays at'.days

theorem toDays_date (at' : Instant) : at'.date.toDays = at'.seconds / secondsPerDay :=
  Date.toDays_ofDays at'.days

theorem hour_lt (at' : Instant) : at'.clock.hour < 24 := by
  unfold clock secondsPerDay
  dsimp only
  omega

theorem minute_lt (at' : Instant) : at'.clock.minute < 60 := Nat.mod_lt _ (by decide)

theorem second_eq (h : at'.nanos = 0) :
    at'.clock.second = (at'.seconds % secondsPerDay).toNat % 60 := by
  unfold clock
  dsimp only
  rw [h, Nat.zero_div, Nat.add_zero]

theorem second_lt (h : at'.nanos = 0) : at'.clock.second < 60 := by
  rw [second_eq h]
  exact Nat.mod_lt _ (by decide)

/-- Where a second begins, the date and the clock tell which one it is. -/
theorem seconds_eq (h : at'.nanos = 0) :
    at'.seconds = at'.date.toDays * secondsPerDay +
      (at'.clock.hour * 3600 + at'.clock.minute * 60 + at'.clock.second : Nat) := by
  rw [second_eq h, toDays_date]
  unfold clock secondsPerDay
  dsimp only
  omega

/-- The years of the instants that can be represented are those that are read. -/
theorem year_bounds (h : InRange at'.seconds) :
    -262143 ≤ at'.date.year ∧ at'.date.year ≤ 262142 := by
  obtain ⟨hfirst, hlast⟩ := h
  rw [firstSecond_eq] at hfirst
  rw [lastSecond_eq] at hlast
  have hdays := toDays_date at'
  unfold secondsPerDay at hfirst hlast hdays
  exact ⟨Date.le_year_of_le_toDays at'.isValid_date (by omega),
    Date.year_le_of_toDays_le at'.isValid_date (by omega)⟩

end Instant

namespace Reader

/-! ### Digits -/

theorem digitsValue_eq (digits : List Char) : digitsValue digits = Nat.ofDigitChars 10 digits 0 := by
  have hstep : (fun (value : Nat) (c : Char) => value * 10 + (c.toNat - '0'.toNat)) =
      fun value c => 10 * value + (c.toNat - '0'.toNat) := by
    funext value c
    rw [Nat.mul_comm]
  rw [digitsValue, hstep]
  rfl

theorem takeWhile_padded (width n : Nat) (s : List Char) :
    (padded width n ++ s).takeWhile Char.isDigit = padded width n ++ s.takeWhile Char.isDigit :=
  List.takeWhile_append_of_pos fun _ => isDigit_of_mem_padded

theorem natural?_padded (width n : Nat) {c : Char} (hc : c.isDigit = false) (s : List Char) :
    natural? (padded width n ++ c :: s) = some (n, c :: s) := by
  have hdigits : (padded width n ++ c :: s).takeWhile Char.isDigit = padded width n := by
    rw [takeWhile_padded, List.takeWhile_cons_of_neg (Bool.eq_false_iff.mp hc), List.append_nil]
  unfold natural?
  dsimp only
  rw [hdigits, if_neg (mt List.isEmpty_iff.mp (padded_ne_nil width n)), List.drop_left,
    digitsValue_eq, ofDigitChars_padded]

theorem short?_padded {width n : Nat} (hwidth : 0 < width) (h : n < 10 ^ width) (s : List Char) :
    short? width (padded width n ++ s) = some (n, s) := by
  have hdigits : ((padded width n ++ s).take width).takeWhile Char.isDigit = padded width n := by
    have htake := takeWhile_padded width n []
    rw [List.append_nil, List.takeWhile_nil, List.append_nil] at htake
    rw [List.take_left' (length_padded hwidth h), htake]
  unfold short?
  dsimp only
  rw [hdigits, if_neg (mt List.isEmpty_iff.mp (padded_ne_nil width n)), List.drop_left,
    digitsValue_eq, ofDigitChars_padded]

theorem exists_padded_eq_cons (width n : Nat) :
    ∃ c s, padded width n = c :: s ∧ c.isDigit = true := by
  obtain ⟨c, s, hcons⟩ := List.exists_cons_of_ne_nil (padded_ne_nil width n)
  exact ⟨c, s, hcons, isDigit_of_mem_padded (hcons ▸ List.mem_cons_self)⟩

theorem trimStart_padded (width n : Nat) (s : List Char) :
    trimStart (padded width n ++ s) = padded width n ++ s := by
  obtain ⟨c, rest, hcons, hc⟩ := exists_padded_eq_cons width n
  rw [hcons, List.cons_append, trimStart_cons (isBlank_of_isDigit hc)]

/-! ### Parts -/

theorem part?_padded {n : Nat} (h : n < 100) (s : List Char) :
    part? (padded 2 n ++ s) = some (n, s) := by
  rw [part?, trimStart_padded]
  exact short?_padded (by decide) h s

theorem mark?_cons {c : Char} (hc : isBlank c = false) (s : List Char) :
    mark? c (c :: s) = some s := by
  rw [mark?, trimStart_cons hc, after?, if_pos rfl, after?]

theorem year?_minus (s : List Char) :
    year? ('-' :: s) = (natural? s).map fun (n, rest) => (-(n : Int), rest) := by
  rw [year?, trimStart_cons (by decide)]
  rfl

theorem year?_plus (s : List Char) :
    year? ('+' :: s) = (natural? s).map fun (n, rest) => ((n : Int), rest) := by
  rw [year?, trimStart_cons (by decide)]
  rfl

theorem year?_padded (n : Nat) (s : List Char) :
    year? (padded 4 n ++ s) =
      (short? 4 (padded 4 n ++ s)).map fun (n, rest) => ((n : Int), rest) := by
  obtain ⟨c, rest, hcons, hc⟩ := exists_padded_eq_cons 4 n
  rw [year?, trimStart_padded, hcons, List.cons_append]
  split
  · next heq =>
    obtain ⟨rfl, -⟩ := List.cons.inj heq
    exact absurd hc (by decide)
  · next heq =>
    obtain ⟨rfl, -⟩ := List.cons.inj heq
    exact absurd hc (by decide)
  · rfl

theorem year?_yearDigits (year : Int) {c : Char} (hc : c.isDigit = false) (s : List Char) :
    year? (yearDigits year ++ c :: s) = some (year, c :: s) := by
  unfold yearDigits
  split
  · next hshort =>
    rw [year?_padded, short?_padded (by decide) (by omega), Option.map_some]
    dsimp only
    rw [Int.toNat_of_nonneg hshort.1]
  · next hlong =>
    rw [List.cons_append]
    split
    · next hneg =>
      rw [year?_minus, natural?_padded 4 year.natAbs hc, Option.map_some]
      dsimp only
      rw [Int.ofNat_natAbs_of_nonpos (Int.le_of_lt hneg), Int.neg_neg]
    · next hpos =>
      rw [year?_plus, natural?_padded 4 year.natAbs hc, Option.map_some]
      dsimp only
      rw [Int.natAbs_of_nonneg (Int.not_lt.mp hpos)]

/-! ### Dates and times -/

theorem date?_digits {date : Date} (hvalid : date.IsValid) (hfirst : -262143 ≤ date.year)
    (hlast : date.year ≤ 262142) (s : List Char) :
    date? (yearDigits date.year ++
      '-' :: (padded 2 date.month ++ '-' :: (padded 2 date.day ++ s))) = some (date, s) := by
  obtain ⟨-, hmonth, -, hday⟩ := hvalid.bounds
  have hguard := eq_true (And.intro hvalid (And.intro hfirst hlast))
  simp only [date?, Option.bind_eq_bind, year?_yearDigits date.year (by decide : '-'.isDigit = false),
    Option.bind_some, mark?_cons (by decide : isBlank '-' = false),
    part?_padded (by omega : date.month < 100), part?_padded (by omega : date.day < 100), hguard]
  rfl

theorem time?_digits {hour minute second : Nat} (hhour : hour < 24) (hminute : minute < 60)
    (hsecond : second < 60) (s : List Char) :
    time? (padded 2 hour ++ ':' :: (padded 2 minute ++ ':' :: (padded 2 second ++ 'Z' :: s))) =
      some (hour * 3600 + minute * 60 + second, 0, 'Z' :: s) := by
  have hguard : (hour ≤ 23 ∧ minute ≤ 59 ∧ second ≤ 60) = True :=
    eq_true ⟨by omega, by omega, by omega⟩
  have hmin : min second 59 = second := by omega
  have hleap : second / 60 = 0 := by omega
  have hfraction : fraction? ('Z' :: s) = some (0, 'Z' :: s) := rfl
  simp only [time?, Option.bind_eq_bind, part?_padded (by omega : hour < 100), Option.bind_some,
    mark?_cons (by decide : isBlank ':' = false), part?_padded (by omega : minute < 100),
    part?_padded (by omega : second < 100), hfraction, hguard, hmin, hleap]
  rfl

theorem offset?_universal (s : List Char) : offset? ('Z' :: s) = some (0, s) := by
  rw [offset?, trimStart_cons (by decide)]
  rfl

end Reader

/-! ### Instants -/

theorem format_isoDateTime (at' : Instant) :
    Pattern.isoDateTime.format at' = yearDigits at'.date.year ++
      '-' :: (padded 2 at'.date.month ++ '-' :: (padded 2 at'.date.day ++
        'T' :: (padded 2 at'.clock.hour ++ ':' :: (padded 2 at'.clock.minute ++
          ':' :: (padded 2 at'.clock.second ++ ['Z']))))) := by
  simp [Pattern.format, Pattern.isoDateTime, Pattern.isoDate, Pattern.isoTime, Field.format]

/-- An instant at which a second begins is read from its universal date and time. -/
theorem read?_isoDateTime {at' : Instant} (hnanos : at'.nanos = 0)
    (h : Instant.InRange at'.seconds) :
    Instant.read? (Pattern.isoDateTime.format at') = some at' := by
  obtain ⟨hfirst, hlast⟩ := Instant.year_bounds h
  have hdate := Reader.date?_digits at'.isValid_date hfirst hlast
  have htime := Reader.time?_digits at'.hour_lt at'.minute_lt (Instant.second_lt hnanos) []
  have hdivider : ∀ s, Reader.divider? ('T' :: s) = some s := fun _ => rfl
  have hseconds : at'.date.toDays * Instant.secondsPerDay +
      (at'.clock.hour * 3600 + at'.clock.minute * 60 + at'.clock.second : Nat) - 0 = at'.seconds := by
    rw [Instant.seconds_eq hnanos, Int.sub_zero]
  have hend : ((trimStart []).isEmpty = true) = True := eq_true rfl
  rw [format_isoDateTime]
  simp only [Instant.read?, Option.bind_eq_bind, hdate, Option.bind_some, hdivider, htime,
    Reader.offset?_universal, hend, hseconds, eq_true h]
  change some (Instant.mk at'.seconds 0) = some at'
  rw [← hnanos]

end Gazette.Time
