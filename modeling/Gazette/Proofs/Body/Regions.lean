import Gazette.Proofs.Body.Settled
import Gazette.Proofs.Text.Parts

/-!
# Preformatted regions

A `<pre` is closed by the `</pre>` that is left for it when those in between have been closed
(`untilClosed?`). Compacting keeps what stands between the two (`regions_compact`), and leaves none
unclosed that was closed (`isClosed_compact`).
-/

namespace Gazette.Body

open Text (after? after?_eq_some_iff dropTail_append_eq isBlank trim trimEnd trimStart)

/-! ### Regions -/

/-- What stands between a `<pre` and the `</pre>` that closes it, and what begins with this one, in
the text behind the `<pre`; `nested` others are open in it. -/
def untilClosed? (nested : Nat) : List Char → Option (List Char × List Char)
  | [] => none
  | c :: rest =>
    let inside (nested : Nat) := (untilClosed? nested rest).map (Prod.map (c :: ·) id)
    if (after? preStart (c :: rest)).isSome then inside (nested + 1)
    else if (after? preEnd (c :: rest)).isSome then
      if nested = 0 then some ([], c :: rest) else inside (nested - 1)
    else inside nested

example : untilClosed? 0 ">a<pre>b</pre></pre>c".toList =
    some (">a<pre>b</pre>".toList, "</pre>c".toList) := by decide

/-- The region that a text begins with, and what follows it. -/
def firstRegion? (s : List Char) : Option (List Char × List Char) :=
  (after? preStart s).bind (untilClosed? 0)

/-- Whether each `<pre` of a text is closed. -/
def IsClosed (s : List Char) : Prop :=
  ∀ inside, preStart ++ inside <:+ s → (untilClosed? 0 inside).isSome = true

theorem isClosed_iff {s : List Char} : IsClosed s ↔
    ∀ t ∈ s.tails, ∀ inside ∈ after? preStart t, (untilClosed? 0 inside).isSome = true := by
  refine ⟨fun h t ht inside hinside => h inside ?_, fun h inside hsuffix => ?_⟩
  · exact after?_eq_some_iff.mp hinside ▸ (List.mem_tails _ _).mp ht
  · exact h _ ((List.mem_tails _ _).mpr hsuffix) inside (after?_eq_some_iff.mpr rfl)

instance (s : List Char) : Decidable (IsClosed s) := decidable_of_iff _ isClosed_iff.symm

section

variable {nested : Nat} {inRun : Bool} {c : Char} {s region rest before behind : List Char}

/-! ### Reading to the end of a region -/

/-- The end of a region is where as few elements are open as in front of it. -/
theorem untilClosed?_cons (nested : Nat) (c : Char) (s : List Char) :
    untilClosed? nested (c :: s) =
      if preDepth (nested + 1) (c :: s) = 0 then some ([], c :: s)
      else (untilClosed? (preDepth (nested + 1) (c :: s) - 1) s).map (Prod.map (c :: ·) id) := by
  rw [untilClosed?, preDepth]
  change (if (after? "<pre".toList (c :: s)).isSome then _
    else if (after? "</pre>".toList (c :: s)).isSome then _ else _) = _
  split
  · rfl
  · split
    · cases nested <;> rfl
    · rfl

theorem exists_of_preDepth_succ_eq_zero (h : preDepth (nested + 1) s = 0) :
    nested = 0 ∧ ∃ rest, s = preEnd ++ rest := by
  unfold preDepth at h
  split at h
  · omega
  · split at h
    · next hclose =>
      obtain ⟨rest, hrest⟩ := Option.isSome_iff_exists.mp hclose
      exact ⟨by omega, rest, after?_eq_some_iff.mp hrest⟩
    · omega

theorem exists_of_preDepth_zero_ne_zero (h : preDepth 0 s ≠ 0) :
    preDepth 0 s = 1 ∧ ∃ rest, s = preStart ++ rest := by
  unfold preDepth at h ⊢
  split at h
  · next hopen =>
    obtain ⟨rest, hrest⟩ := Option.isSome_iff_exists.mp hopen
    exact ⟨if_pos hopen, rest, after?_eq_some_iff.mp hrest⟩
  · split at h <;> omega

theorem exists_of_untilClosed? (h : untilClosed? nested s = some (region, rest)) :
    ∃ behind, s = region ++ (preEnd ++ behind) ∧ rest = preEnd ++ behind := by
  induction s generalizing nested region with
  | nil => cases h
  | cons c s ih =>
    rw [untilClosed?_cons] at h
    split at h
    · next hclosed =>
      cases h
      obtain ⟨-, behind, hbehind⟩ := exists_of_preDepth_succ_eq_zero hclosed
      exact ⟨behind, hbehind, hbehind⟩
    · obtain ⟨⟨inner, tail⟩, hfound, heq⟩ := Option.map_eq_some_iff.mp h
      cases heq
      obtain ⟨behind, rfl, hrest⟩ := ih hfound
      exact ⟨behind, rfl, hrest⟩

theorem isSome_after?_append_of_le {start part : List Char} (h : start.length ≤ part.length)
    (s t : List Char) :
    (after? start (part ++ s)).isSome = (after? start (part ++ t)).isSome := by
  induction start generalizing part with
  | nil => rfl
  | cons a start ih =>
    cases part with
    | nil => exact absurd h (Nat.not_succ_le_zero _)
    | cons c part =>
      rw [List.cons_append, List.cons_append, after?, after?]
      split
      · exact ih (Nat.le_of_succ_le_succ h)
      · rfl

theorem preDepth_append_of_le {part : List Char} (h : preEnd.length ≤ part.length) (depth : Nat)
    (s t : List Char) : preDepth depth (part ++ s) = preDepth depth (part ++ t) := by
  have hopen : preStart.length ≤ part.length := Nat.le_trans (by decide) h
  change (if (after? preStart (part ++ s)).isSome then _
    else if (after? preEnd (part ++ s)).isSome then _ else _) = _
  rw [isSome_after?_append_of_le hopen s t, isSome_after?_append_of_le h s t]
  rfl

/-- What follows a region does not tell where it ends. -/
theorem untilClosed?_append
    (h : untilClosed? nested (region ++ (preEnd ++ s)) = some (region, preEnd ++ s))
    (t : List Char) :
    untilClosed? nested (region ++ (preEnd ++ t)) = some (region, preEnd ++ t) := by
  induction region generalizing nested with
  | nil =>
    have hcons : ∀ t, preEnd ++ t = '<' :: ("/pre>".toList ++ t) := fun _ => rfl
    have hdepth := preDepth_append_of_le (Nat.le_refl preEnd.length) (nested + 1) s t
    rw [List.nil_append, hcons, untilClosed?_cons, ← hcons, hdepth] at h
    rw [List.nil_append, hcons, untilClosed?_cons, ← hcons]
    split at h
    · next hclosed => rw [if_pos hclosed]
    · obtain ⟨found, -, heq⟩ := Option.map_eq_some_iff.mp h
      cases heq
  | cons c region ih =>
    have hlength : preEnd.length ≤ (c :: region ++ preEnd).length := by
      rw [List.length_append]
      exact Nat.le_add_left _ _
    have hdepth := preDepth_append_of_le hlength (nested + 1) s t
    rw [List.append_assoc, List.append_assoc, List.cons_append, List.cons_append] at hdepth
    rw [List.cons_append, untilClosed?_cons] at h ⊢
    rw [← hdepth]
    split at h
    · cases h
    · next hopen =>
      obtain ⟨⟨inner, tail⟩, hfound, heq⟩ := Option.map_eq_some_iff.mp h
      cases heq
      rw [if_neg hopen, ih hfound]
      rfl

theorem untilClosed?_append_of_notMem {front : List Char} (hfront : '<' ∉ front) (nested : Nat)
    (s : List Char) :
    untilClosed? nested (front ++ s) = (untilClosed? nested s).map (Prod.map (front ++ ·) id) := by
  induction front with
  | nil => exact Option.map_id'.symm
  | cons c front ih =>
    obtain ⟨hc, hrest⟩ := not_or.mp (fun hmem => hfront (List.mem_cons.mpr hmem))
    rw [List.cons_append, untilClosed?_cons, preDepth_of_ne (Ne.symm hc),
      if_neg (Nat.succ_ne_zero _), Nat.add_sub_cancel, ih hrest, Option.map_map]
    rfl

/-! ### Compacting regions -/

theorem preDepth_add (outer nested : Nat) (s : List Char) :
    preDepth (outer + (nested + 1)) s = outer + preDepth (nested + 1) s := by
  unfold preDepth
  split
  · rfl
  · split <;> rfl

theorem compactFrom_of_untilClosed? (h : untilClosed? nested s = some (region, rest))
    (outer : Nat) : compactFrom (outer + (nested + 1)) false s =
      region ++ compactFrom (outer + 1) false rest := by
  induction s generalizing nested region with
  | nil => cases h
  | cons c s ih =>
    rw [untilClosed?_cons] at h
    split at h
    · next hclosed =>
      cases h
      rw [(exists_of_preDepth_succ_eq_zero hclosed).1]
      rfl
    · next hopen =>
      obtain ⟨⟨inner, tail⟩, hfound, heq⟩ := Option.map_eq_some_iff.mp h
      cases heq
      have hinner := ih hfound
      rw [Nat.sub_add_cancel (Nat.pos_of_ne_zero hopen)] at hinner
      rw [compactFrom, preDepth_add, if_neg (fun h => hopen (Nat.eq_zero_of_add_eq_zero h.1).2),
        hinner]
      rfl

theorem compactFrom_preEnd (depth : Nat) (rest : List Char) :
    compactFrom depth false (preEnd ++ rest) = preEnd ++ compactFrom (depth - 1) false rest := by
  have hend : IsSteady "/pre>".toList := by decide
  change compactFrom depth false ('<' :: ("/pre>".toList ++ rest)) = _
  rw [compactFrom_cons_of_not_blank (by decide)]
  exact congrArg ('<' :: ·) (compactFrom_append_of_isSteady hend (depth - 1) rest)

theorem compactFrom_preStart (depth : Nat) (inRun : Bool) (rest : List Char) :
    compactFrom depth inRun (preStart ++ rest) =
      preStart ++ compactFrom (depth + 1) false rest := by
  have hstart : IsSteady "pre".toList := by decide
  change compactFrom depth inRun ('<' :: ("pre".toList ++ rest)) = _
  rw [compactFrom_cons_of_not_blank (by decide)]
  exact congrArg ('<' :: ·) (compactFrom_append_of_isSteady hstart (depth + 1) rest)

/-- A region is kept, and compacting goes on behind it. -/
theorem compactFrom_region
    (h : untilClosed? 0 (region ++ (preEnd ++ behind)) = some (region, preEnd ++ behind))
    (outer : Nat) (inRun : Bool) :
    compactFrom outer inRun (preStart ++ (region ++ (preEnd ++ behind))) =
      preStart ++ (region ++ (preEnd ++ compactFrom outer false behind)) := by
  have hregion := compactFrom_of_untilClosed? h outer
  rw [compactFrom_preEnd, Nat.add_sub_cancel] at hregion
  rw [compactFrom_preStart, hregion]

/-! ### The regions of a text -/

theorem exists_of_firstRegion? (h : firstRegion? s = some (region, rest)) :
    ∃ behind, s = preStart ++ (region ++ (preEnd ++ behind)) ∧ rest = preEnd ++ behind ∧
      untilClosed? 0 (region ++ (preEnd ++ behind)) = some (region, preEnd ++ behind) := by
  obtain ⟨inside, hinside, hclosed⟩ := Option.bind_eq_some_iff.mp h
  obtain ⟨behind, rfl, rfl⟩ := exists_of_untilClosed? hclosed
  exact ⟨behind, after?_eq_some_iff.mp hinside, rfl, hclosed⟩

theorem length_lt_of_firstRegion? (h : firstRegion? s = some (region, rest)) :
    rest.length < s.length := by
  obtain ⟨behind, rfl, rfl, -⟩ := exists_of_firstRegion? h
  have hstart : 0 < preStart.length := by decide
  simp only [List.length_append]
  omega

/-- What stands between each `<pre` and its `</pre>`, where this is in no other region. -/
def regions (s : List Char) : List (List Char) :=
  match s with
  | [] => []
  | c :: rest =>
    match _hfirst : firstRegion? (c :: rest) with
    | none => regions rest
    | some (region, behind) => region :: regions behind
termination_by s.length
decreasing_by
  · exact Nat.lt_succ_self _
  · exact length_lt_of_firstRegion? _hfirst

theorem regions_cons (h : firstRegion? (c :: s) = none) : regions (c :: s) = regions s := by
  rw [regions]
  split
  · rfl
  · next hsome =>
    rw [h] at hsome
    cases hsome

theorem regions_of_firstRegion? (h : firstRegion? s = some (region, rest)) :
    regions s = region :: regions rest := by
  cases s with
  | nil => cases h
  | cons c s =>
    rw [regions]
    split
    · next hnone =>
      rw [h] at hnone
      cases hnone
    · next found behind hsome =>
      rw [h] at hsome
      cases hsome
      rfl

theorem firstRegion?_cons_of_ne (hc : c ≠ '<') (s : List Char) : firstRegion? (c :: s) = none := by
  have hstart : after? preStart (c :: s) = none := if_neg (Ne.symm hc)
  rw [firstRegion?, hstart, Option.bind_none]

theorem regions_append_of_notMem {front : List Char} (hfront : '<' ∉ front) (s : List Char) :
    regions (front ++ s) = regions s := by
  induction front with
  | nil => rfl
  | cons c front ih =>
    obtain ⟨hc, hrest⟩ := not_or.mp (fun hmem => hfront (List.mem_cons.mpr hmem))
    rw [List.cons_append, regions_cons (firstRegion?_cons_of_ne (Ne.symm hc) _), ih hrest]

/-! ### Regions of compact markup -/

theorem IsClosed.of_suffix (h : IsClosed s) (hsuffix : rest <:+ s) : IsClosed rest :=
  fun inside hinside => h inside (hinside.trans hsuffix)

theorem IsClosed.after?_eq_none (h : IsClosed s) (hfirst : firstRegion? s = none) :
    after? preStart s = none := by
  refine Option.eq_none_iff_forall_not_mem.mpr fun inside hinside => ?_
  have hclosed := h inside (after?_eq_some_iff.mp hinside ▸ List.suffix_rfl)
  rw [firstRegion?, hinside, Option.bind_some] at hfirst
  rw [hfirst] at hclosed
  cases hclosed

/-- Compacting keeps every region where each one is closed. The induction goes from region to
region: one that the text begins with is kept as a whole, and outside of them no `<pre` comes or
goes. -/
theorem regions_compactFrom (s : List Char) (h : IsClosed s) (inRun : Bool) :
    regions (compactFrom 0 inRun s) = regions s := by
  fun_induction regions s generalizing inRun with
  | case1 => rw [compactFrom, regions]
  | case2 c s hfirst ih =>
    have hrest := ih (h.of_suffix (List.suffix_cons c s))
    have hafter := h.after?_eq_none hfirst
    have hdepth : preDepth 0 (c :: s) = 0 := by
      refine Decidable.of_not_not fun hne => ?_
      obtain ⟨-, inside, hinside⟩ := exists_of_preDepth_zero_ne_zero hne
      rw [after?_eq_some_iff.mpr hinside] at hafter
      cases hafter
    rw [compactFrom, hdepth]
    split
    · split
      · exact hrest true
      · rw [regions_cons (firstRegion?_cons_of_ne (by decide) _)]
        exact hrest true
    · have hnone := isSome_after?_cons_compactFrom isBlank_preStart 0 c s
      rw [hafter, Option.isSome_none, Option.isSome_eq_false_iff,
        Option.isNone_iff_eq_none] at hnone
      rw [regions_cons (by rw [firstRegion?, hnone, Option.bind_none])]
      exact hrest false
  | case3 c s region rest hfirst ih =>
    obtain ⟨behind, hs, rfl, hregion⟩ := exists_of_firstRegion? hfirst
    have hsuffix : preEnd ++ behind <:+ c :: s := by
      rw [hs]
      exact (List.suffix_append region _).trans (List.suffix_append preStart _)
    have hrest := ih (h.of_suffix hsuffix) false
    have hkept : firstRegion? (preStart ++ (region ++ (preEnd ++ compactFrom 0 false behind))) =
        some (region, preEnd ++ compactFrom 0 false behind) := by
      rw [firstRegion?, after?_eq_some_iff.mpr rfl, Option.bind_some, untilClosed?_append hregion]
    rw [compactFrom_preEnd] at hrest
    rw [hs, compactFrom_region hregion, regions_of_firstRegion? hkept, hrest]

theorem regions_trimStart (s : List Char) : regions (trimStart s) = regions s := by
  have hblanks : '<' ∉ s.takeWhile isBlank := fun hmem =>
    absurd (List.all_eq_true.mp List.all_takeWhile '<' hmem) (by decide)
  have happend := regions_append_of_notMem hblanks (trimStart s)
  rwa [trimStart, List.takeWhile_append_dropWhile, eq_comm] at happend

section Blanks

variable {tail : List Char} (htail : ∀ a ∈ tail, isBlank a = true)

include htail

theorem untilClosed?_append_of_blank (nested : Nat) (s : List Char) :
    untilClosed? nested (s ++ tail) = (untilClosed? nested s).map (Prod.map id (· ++ tail)) := by
  induction s generalizing nested with
  | nil =>
    refine Option.eq_none_iff_forall_not_mem.mpr fun found hfound => ?_
    obtain ⟨behind, heq, -⟩ := exists_of_untilClosed? hfound
    have hmem : '<' ∈ tail := by
      rw [← List.nil_append tail, heq]
      exact List.mem_append_right _ (List.mem_append_left _ (by decide))
    exact absurd (htail '<' hmem) (by decide)
  | cons c s ih =>
    have hdepth := preDepth_append htail (nested + 1) (c :: s)
    rw [List.cons_append] at hdepth ⊢
    rw [untilClosed?_cons, untilClosed?_cons, hdepth, ih]
    split
    · rfl
    · rw [Option.map_map, Option.map_map]
      rfl

theorem firstRegion?_append_of_blank (s : List Char) :
    firstRegion? (s ++ tail) = (firstRegion? s).map (Prod.map id (· ++ tail)) := by
  rw [firstRegion?, firstRegion?, after?_append isBlank_preStart htail]
  cases after? preStart s with
  | none => rfl
  | some inside => exact untilClosed?_append_of_blank htail 0 inside

theorem regions_append_of_blank (s : List Char) : regions (s ++ tail) = regions s := by
  have hfirst := firstRegion?_append_of_blank htail
  fun_induction regions s with
  | case1 =>
    have hblanks : '<' ∉ tail := fun hmem => absurd (htail '<' hmem) (by decide)
    have happend := regions_append_of_notMem hblanks []
    rw [List.append_nil] at happend
    rw [List.nil_append, happend, regions]
  | case2 c s hnone ih =>
    have hfront := hfirst (c :: s)
    rw [hnone] at hfront
    rw [List.cons_append] at hfront ⊢
    rw [regions_cons hfront, ih]
  | case3 c s region rest hsome ih =>
    have hfront := hfirst (c :: s)
    rw [hsome] at hfront
    rw [regions_of_firstRegion? hfront, id, ih]

end Blanks

/-- The regions of a text in which each `<pre` is closed are kept character for character. -/
theorem regions_compact (h : IsClosed s) : regions (compact s) = regions s := by
  obtain ⟨tail, hend, htail⟩ := dropTail_append_eq isBlank (trimStart (compactFrom 0 false s))
  calc regions (compact s)
    _ = regions (trimStart (compactFrom 0 false s)) := by
      conv => rhs; rw [hend]
      rw [regions_append_of_blank htail, compact, trim, trimEnd]
    _ = regions s := by rw [regions_trimStart, regions_compactFrom s h]

/-! ### Closed regions stay closed -/

/-- A `<pre` in compacted markup was there before, and what is behind it was compacted too. -/
theorem exists_suffix_of_compactFrom {depth : Nat} {inside : List Char}
    (h : preStart ++ inside <:+ compactFrom depth inRun s) :
    ∃ outer rest, preStart ++ rest <:+ s ∧ inside = compactFrom (outer + 1) false rest := by
  induction s generalizing depth inRun with
  | nil => exact absurd (List.suffix_nil.mp h) (List.cons_ne_nil _ _)
  | cons c s ih =>
    have htail : ∀ {depth : Nat} {inRun : Bool}, preStart ++ inside <:+ compactFrom depth inRun s →
        ∃ outer rest, preStart ++ rest <:+ c :: s ∧
          inside = compactFrom (outer + 1) false rest := by
      intro depth inRun h
      obtain ⟨outer, rest, hrest, hinside⟩ := ih h
      exact ⟨outer, rest, hrest.trans (List.suffix_cons c s), hinside⟩
    by_cases hblank : preDepth depth (c :: s) = 0 ∧ isBlank c = true
    · rw [compactFrom, if_pos hblank] at h
      split at h
      · exact htail h
      · obtain heq | h := List.suffix_cons_iff.mp h
        · have hhead : '<' :: ("pre".toList ++ inside) = ' ' :: _ := heq
          exact absurd (List.cons.inj hhead).1 (by decide)
        · exact htail h
    · have hkept : compactFrom depth inRun (c :: s) =
          c :: compactFrom (preDepth depth (c :: s)) false s := by rw [compactFrom, if_neg hblank]
      rw [hkept] at h
      obtain heq | h := List.suffix_cons_iff.mp h
      · have hstart := isSome_after?_cons_compactFrom isBlank_preStart (preDepth depth (c :: s)) c s
        rw [after?_eq_some_iff.mpr heq.symm, Option.isSome_some, eq_comm] at hstart
        obtain ⟨rest, hrest⟩ := Option.isSome_iff_exists.mp hstart
        have hs := after?_eq_some_iff.mp hrest
        rw [← hkept, hs, compactFrom_preStart] at heq
        exact ⟨depth, rest, hs ▸ List.suffix_rfl, List.append_cancel_left heq⟩
      · exact htail h

theorem isClosed_compactFrom (h : IsClosed s) (depth : Nat) (inRun : Bool) :
    IsClosed (compactFrom depth inRun s) := by
  intro inside hsuffix
  obtain ⟨outer, rest, hrest, rfl⟩ := exists_suffix_of_compactFrom hsuffix
  obtain ⟨⟨region, tail⟩, hfound⟩ := Option.isSome_iff_exists.mp (h rest hrest)
  have hregion := compactFrom_of_untilClosed? hfound outer
  obtain ⟨behind, rfl, rfl⟩ := exists_of_untilClosed? hfound
  rw [compactFrom_preEnd] at hregion
  rw [hregion, untilClosed?_append hfound]
  rfl

theorem isClosed_trimEnd (h : IsClosed s) : IsClosed (trimEnd s) := by
  obtain ⟨tail, hs, htail⟩ := dropTail_append_eq isBlank s
  rw [← trimEnd] at hs
  rintro inside ⟨front, hfront⟩
  have hclosed := h (inside ++ tail) ⟨front, by
    rw [← List.append_assoc, ← List.append_assoc, List.append_assoc front, hfront, ← hs]⟩
  rwa [untilClosed?_append_of_blank htail, Option.isSome_map] at hclosed

theorem isClosed_compact (h : IsClosed s) : IsClosed (compact s) :=
  isClosed_trimEnd ((isClosed_compactFrom h 0 false).of_suffix (List.dropWhile_suffix isBlank))

end

end Gazette.Body
