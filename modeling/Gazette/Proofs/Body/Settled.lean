import Gazette.Proofs.Body.Compacting
import Mathlib.Data.Bool.AllAny
import Mathlib.Data.List.DropRight

/-!
# Compact markup stays as it is

Compacting keeps what is not blank, and with it the places where preformatted elements begin and
end. Compacting again finds the same ones open and has nothing left to do (`compact_compact`).
Compact markup is settled (`isSettled_compact`), and neither of its ends is blank
(`isTrimmed_compact`).
-/

namespace Gazette.Body

open Text (after? dropTail dropTail_append_eq isBlank trim trimEnd trimStart)

variable {depth : Nat} {inRun : Bool} {c : Char} {s : List Char}

/-! ### Texts without blanks at their ends -/

/-- Whether a text neither starts nor ends with a blank. -/
structure IsTrimmed (s : List Char) : Prop where
  head : ∀ c ∈ s.head?, isBlank c = false
  last : ∀ c ∈ s.getLast?, isBlank c = false

theorem IsTrimmed.trim_eq (h : IsTrimmed s) : trim s = s := by
  have hstart : trimStart s = s := by
    cases s with
    | nil => rfl
    | cons c s => exact List.dropWhile_cons_of_neg (by simp [h.head c rfl])
  have hend : trimEnd s = s := List.rdropWhile_eq_self_iff.mpr fun hne => by
    simp [h.last _ (List.getLast?_eq_some_getLast hne)]
  rw [trim, hstart, hend]

theorem last_dropTail (p : Char → Bool) (s : List Char) :
    ∀ c ∈ (dropTail p s).getLast?, p c = false := by
  intro c hc
  obtain ⟨hne, rfl⟩ := List.mem_getLast?_eq_getLast hc
  exact Bool.eq_false_iff.mpr (List.rdropWhile_last_not p s hne)

theorem isTrimmed_trim (s : List Char) : IsTrimmed (trim s) := by
  refine ⟨fun c hc => ?_, last_dropTail isBlank (trimStart s)⟩
  obtain ⟨rest, htrim⟩ := List.head?_eq_some_iff.mp hc
  obtain ⟨tail, hstart, -⟩ := dropTail_append_eq isBlank (trimStart s)
  have hhead := List.head?_dropWhile_not isBlank s
  have hcons : s.dropWhile isBlank = c :: (rest ++ tail) := by
    rw [← trimStart, hstart, ← trimEnd, ← trim, htrim, List.cons_append]
  rw [hcons] at hhead
  exact hhead

/-! ### Tags in compact markup -/

def preStart : List Char := "<pre".toList

def preEnd : List Char := "</pre>".toList

theorem isBlank_preStart : ∀ a ∈ preStart, isBlank a = false :=
  List.all_iff_forall_prop.mp (by decide)

theorem isBlank_preEnd : ∀ a ∈ preEnd, isBlank a = false :=
  List.all_iff_forall_prop.mp (by decide)

/-- Compacting leaves what stands in front, up to the first blank. -/
theorem isSome_after?_compactFrom {start : List Char} (hstart : ∀ a ∈ start, isBlank a = false)
    (depth : Nat) (s : List Char) :
    (after? start (compactFrom depth false s)).isSome = (after? start s).isSome := by
  induction start generalizing depth s with
  | nil => rfl
  | cons a start ih =>
    obtain ⟨ha, hrest⟩ := List.forall_mem_cons.mp hstart
    cases s with
    | nil => rfl
    | cons c s =>
      rw [compactFrom]
      split
      · next hblank =>
        have hspace : a ≠ ' ' := fun heq => by rw [heq] at ha; cases ha
        have hc : a ≠ c := fun heq => by rw [heq, hblank.2] at ha; cases ha
        rw [if_neg (by decide), after?, if_neg hspace, after?, if_neg hc]
      · rw [after?, after?]
        split
        · exact ih hrest _ s
        · rfl

theorem preDepth_congr {t : List Char} (h : ∀ start, (∀ a ∈ start, isBlank a = false) →
    (after? start s).isSome = (after? start t).isSome) (depth : Nat) :
    preDepth depth s = preDepth depth t := by
  rw [preDepth, preDepth, h "<pre".toList isBlank_preStart, h "</pre>".toList isBlank_preEnd]

theorem isSome_after?_cons_compactFrom {start : List Char}
    (hstart : ∀ a ∈ start, isBlank a = false) (depth : Nat) (c : Char) (s : List Char) :
    (after? start (c :: compactFrom depth false s)).isSome = (after? start (c :: s)).isSome := by
  cases start with
  | nil => rfl
  | cons a start =>
    rw [after?, after?]
    split
    · exact isSome_after?_compactFrom (List.forall_mem_cons.mp hstart).2 depth s
    · rfl

/-- As many preformatted elements are open in what compacting leaves. -/
theorem preDepth_compactFrom (depth inner : Nat) (c : Char) (s : List Char) :
    preDepth depth (c :: compactFrom inner false s) = preDepth depth (c :: s) :=
  preDepth_congr (fun _ hstart => isSome_after?_cons_compactFrom hstart inner c s) depth

theorem preDepth_of_isBlank (h : isBlank c = true) (depth : Nat) (s : List Char) :
    preDepth depth (c :: s) = depth :=
  preDepth_of_ne (fun heq => by rw [heq] at h; cases h) depth s

/-- In front of blanks at its end, a text has the tags that it has without them. -/
theorem after?_append {start tail : List Char} (hstart : ∀ a ∈ start, isBlank a = false)
    (htail : ∀ a ∈ tail, isBlank a = true) (s : List Char) :
    after? start (s ++ tail) = (after? start s).map (· ++ tail) := by
  induction start generalizing s with
  | nil => rfl
  | cons a start ih =>
    obtain ⟨ha, hrest⟩ := List.forall_mem_cons.mp hstart
    cases s with
    | nil =>
      cases tail with
      | nil => rfl
      | cons b tail =>
        have hne : a ≠ b := fun heq => by rw [heq, htail b List.mem_cons_self] at ha; cases ha
        exact if_neg hne
    | cons c s =>
      rw [List.cons_append, after?, after?]
      split
      · exact ih hrest s
      · rfl

theorem preDepth_append {tail : List Char} (htail : ∀ a ∈ tail, isBlank a = true) (depth : Nat)
    (s : List Char) : preDepth depth (s ++ tail) = preDepth depth s :=
  preDepth_congr (fun start hstart => by rw [after?_append hstart htail, Option.isSome_map]) depth

/-! ### Settled markup -/

/-- Whether compacting leaves a text as it is, where some preformatted elements are open. -/
def IsSettled (depth : Nat) (inRun : Bool) (s : List Char) : Prop := compactFrom depth inRun s = s

theorem length_compactFrom_le (depth : Nat) (inRun : Bool) (s : List Char) :
    (compactFrom depth inRun s).length ≤ s.length := by
  induction s generalizing depth inRun with
  | nil => exact Nat.le_refl 0
  | cons c s ih =>
    rw [compactFrom]
    split
    · split
      · exact Nat.le_succ_of_le (ih _ true)
      · exact Nat.succ_le_succ (ih _ true)
    · exact Nat.succ_le_succ (ih _ false)

/-- Outside of preformatted elements, a blank that stays is a single space. -/
theorem isSettled_cons_of_blank (hblank : isBlank c = true) :
    IsSettled 0 inRun (c :: s) ↔ inRun = false ∧ c = ' ' ∧ IsSettled 0 true s := by
  unfold IsSettled
  rw [compactFrom, preDepth_of_isBlank hblank, if_pos ⟨rfl, hblank⟩]
  cases inRun with
  | true =>
    have hle := length_compactFrom_le 0 true s
    refine ⟨fun h => ?_, fun h => absurd h.1 (by decide)⟩
    rw [if_pos rfl] at h
    rw [h] at hle
    exact absurd hle (Nat.not_succ_le_self _)
  | false =>
    rw [if_neg (by decide), List.cons.injEq, eq_comm]
    exact (and_iff_right rfl).symm

theorem isSettled_cons (h : ¬ (preDepth depth (c :: s) = 0 ∧ isBlank c = true)) :
    IsSettled depth inRun (c :: s) ↔ IsSettled (preDepth depth (c :: s)) false s := by
  unfold IsSettled
  rw [compactFrom, if_neg h, List.cons.injEq]
  exact and_iff_right rfl

theorem isSettled_compactFrom (depth : Nat) (inRun : Bool) (s : List Char) :
    IsSettled depth inRun (compactFrom depth inRun s) := by
  induction s generalizing depth inRun with
  | nil => rfl
  | cons c s ih =>
    by_cases h : preDepth depth (c :: s) = 0 ∧ isBlank c = true
    · obtain rfl : depth = 0 := (preDepth_of_isBlank h.2 depth s).symm.trans h.1
      rw [compactFrom, if_pos h, h.1]
      cases inRun with
      | true => exact ih 0 true
      | false => exact (isSettled_cons_of_blank (by decide)).mpr ⟨rfl, rfl, ih 0 true⟩
    · have hdepth := preDepth_compactFrom depth (preDepth depth (c :: s)) c s
      rw [compactFrom, if_neg h]
      rw [← hdepth] at h
      rw [isSettled_cons h, hdepth]
      exact ih _ false

theorem IsSettled.trimStart (h : IsSettled 0 inRun s) : IsSettled 0 false (trimStart s) := by
  induction s generalizing inRun with
  | nil => rfl
  | cons c s ih =>
    by_cases hc : isBlank c = true
    · rw [Text.trimStart, List.dropWhile_cons_of_pos hc]
      exact ih ((isSettled_cons_of_blank hc).mp h).2.2
    · have hother : ¬ (preDepth 0 (c :: s) = 0 ∧ isBlank c = true) := fun hboth => hc hboth.2
      rw [Text.trimStart, List.dropWhile_cons_of_neg hc]
      rw [isSettled_cons hother] at h
      exact (isSettled_cons hother).mpr h

/-- Of a text with blanks at its end, everything in front of them is compacted as it is alone. -/
theorem exists_compactFrom_append {tail : List Char} (htail : ∀ a ∈ tail, isBlank a = true)
    (depth : Nat) (inRun : Bool) (s : List Char) :
    ∃ rest, compactFrom depth inRun (s ++ tail) = compactFrom depth inRun s ++ rest ∧
      ∀ a ∈ rest, isBlank a = true := by
  induction s generalizing depth inRun with
  | nil =>
    refine ⟨compactFrom depth inRun tail, rfl, fun a ha => ?_⟩
    obtain hmem | rfl := mem_compactFrom ha
    · exact htail a hmem
    · rfl
  | cons c s ih =>
    have hdepth := preDepth_append htail depth (c :: s)
    rw [List.cons_append] at hdepth
    rw [List.cons_append, compactFrom, compactFrom, hdepth]
    split
    · split
      · exact ih _ true
      · obtain ⟨rest, heq, hrest⟩ := ih (preDepth depth (c :: s)) true
        exact ⟨rest, congrArg (' ' :: ·) heq, hrest⟩
    · obtain ⟨rest, heq, hrest⟩ := ih (preDepth depth (c :: s)) false
      exact ⟨rest, congrArg (c :: ·) heq, hrest⟩

theorem IsSettled.trimEnd (h : IsSettled depth inRun s) : IsSettled depth inRun (trimEnd s) := by
  obtain ⟨tail, hs, htail⟩ := dropTail_append_eq isBlank s
  rw [← Text.trimEnd] at hs
  obtain ⟨rest, hrest, hblank⟩ := exists_compactFrom_append htail depth inRun (Text.trimEnd s)
  have hlength := length_compactFrom_le depth inRun (Text.trimEnd s)
  rw [← hs, show compactFrom depth inRun s = s from h] at hrest
  -- Neither of the two fronts can be the longer one: compacting makes nothing longer, and the front
  -- does not end with a blank.
  obtain ⟨more, hmore, -⟩ | ⟨more, hmore, hbehind⟩ :=
    List.append_eq_append_iff.mp (hs.symm.trans hrest)
  · rw [hmore, List.length_append] at hlength
    obtain rfl := List.eq_nil_of_length_eq_zero (by omega : more.length = 0)
    rw [List.append_nil] at hmore
    exact hmore
  · cases hlast : more.getLast? with
    | none =>
      rw [List.getLast?_eq_none_iff.mp hlast, List.append_nil] at hmore
      exact hmore.symm
    | some b =>
      have hmem : b ∈ rest := hbehind ▸ List.mem_append_left _ (List.mem_of_getLast? hlast)
      have hend : b ∈ (Text.trimEnd s).getLast? := by
        rw [hmore]
        exact List.mem_getLast?_append_of_mem_getLast? hlast
      exact absurd (hblank b hmem) (by simp [last_dropTail isBlank s b hend])

theorem isSettled_compact (s : List Char) : IsSettled 0 false (compact s) :=
  (isSettled_compactFrom 0 false s).trimStart.trimEnd

theorem isTrimmed_compact (s : List Char) : IsTrimmed (compact s) := isTrimmed_trim _

theorem compact_compact (s : List Char) : compact (compact s) = compact s := by
  have hsettled : compactFrom 0 false (compact s) = compact s := isSettled_compact s
  rw [compact, hsettled, (isTrimmed_compact s).trim_eq]

/-! ### What is not blank -/

theorem filter_compactFrom (depth : Nat) (inRun : Bool) (s : List Char) :
    (compactFrom depth inRun s).filter (!isBlank ·) = s.filter (!isBlank ·) := by
  induction s generalizing depth inRun with
  | nil => rfl
  | cons c s ih =>
    rw [compactFrom]
    split
    · next hblank =>
      rw [List.filter_cons_of_neg (by simp [hblank.2])]
      split
      · exact ih _ true
      · exact ih _ true
    · rw [List.filter_cons, List.filter_cons, ih]

theorem filter_trim (s : List Char) : (trim s).filter (!isBlank ·) = s.filter (!isBlank ·) := by
  have hnone : ∀ {part : List Char}, (∀ c ∈ part, isBlank c = true) →
      part.filter (!isBlank ·) = [] :=
    fun hpart => List.filter_eq_nil_iff.mpr fun c hc => by simp [hpart c hc]
  obtain ⟨tail, hend, htail⟩ := dropTail_append_eq isBlank (trimStart s)
  have hstart := List.takeWhile_append_dropWhile (p := isBlank) (l := s)
  calc (trim s).filter (!isBlank ·)
    _ = (trimStart s).filter (!isBlank ·) := by
      conv => rhs; rw [hend]
      rw [List.filter_append, hnone htail, List.append_nil, trim, trimEnd]
    _ = s.filter (!isBlank ·) := by
      conv => rhs; rw [← hstart]
      rw [List.filter_append, hnone (List.all_eq_true.mp List.all_takeWhile), List.nil_append,
        trimStart]

theorem filter_compact (s : List Char) :
    (compact s).filter (!isBlank ·) = s.filter (!isBlank ·) := by
  rw [compact, filter_trim, filter_compactFrom]

end Gazette.Body
