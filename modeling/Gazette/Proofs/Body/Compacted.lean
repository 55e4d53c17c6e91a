import Gazette.Proofs.Body.Regions

/-!
# Places in compact markup

Each place in a text is in a region, behind a `<pre` that is never closed, or where nothing is
preformatted (`isPreformatted_iff`). There, compacting leaves only spaces without a blank next to
them (`isSingle_of_not_isPreformatted`).
-/

namespace Gazette.Body

open Text (isBlank)

section

variable {nested : Nat} {inRun : Bool} {c : Char} {s before behind : List Char}

/-! ### Kinds of places -/

/-- Whether what was opened in front of a place is not closed before it; it need not be closed. -/
def StaysOpen (nested : Nat) (before behind : List Char) : Prop :=
  ∀ region rest, untilClosed? nested (before ++ behind) = some (region, rest) →
    before.length < region.length

/-- Whether a place is behind a `<pre`, and not behind the `</pre>` that closes it. -/
def IsPreformatted (before behind : List Char) : Prop :=
  ∃ front inside, before = front ++ (preStart ++ inside) ∧ StaysOpen 0 inside behind

/-- Whether a place is between a `<pre` and the `</pre>` that closes it. -/
def IsEnclosed (before behind : List Char) : Prop :=
  ∃ front inside region rest, before = front ++ (preStart ++ inside) ∧
    untilClosed? 0 (inside ++ behind) = some (region, rest) ∧ inside.length < region.length

/-- Whether a place is behind a `<pre` that is never closed. -/
def IsUnclosed (before behind : List Char) : Prop :=
  ∃ front inside, before = front ++ (preStart ++ inside) ∧
    untilClosed? 0 (inside ++ behind) = none

theorem isPreformatted_iff :
    IsPreformatted before behind ↔ IsEnclosed before behind ∨ IsUnclosed before behind := by
  constructor
  · rintro ⟨front, inside, rfl, hopen⟩
    cases hfound : untilClosed? 0 (inside ++ behind) with
    | none => exact .inr ⟨front, inside, rfl, hfound⟩
    | some found => exact .inl ⟨front, inside, found.1, found.2, rfl, hfound, hopen _ _ hfound⟩
  · rintro (⟨front, inside, region, rest, rfl, hfound, hlength⟩ | ⟨front, inside, rfl, hnone⟩)
    · refine ⟨front, inside, rfl, fun other tail hother => ?_⟩
      cases hfound.symm.trans hother
      exact hlength
    · refine ⟨front, inside, rfl, fun region rest hfound => ?_⟩
      cases hnone.symm.trans hfound

theorem IsClosed.not_isUnclosed (h : IsClosed (before ++ behind)) :
    ¬ IsUnclosed before behind := by
  rintro ⟨front, inside, rfl, hnone⟩
  have hclosed := h (inside ++ behind) ⟨front, by simp only [List.append_assoc]⟩
  rw [hnone] at hclosed
  cases hclosed

/-! ### Blanks -/

/-- How many preformatted elements are open at a place, when some were open in front of the text. -/
def depthAt (depth : Nat) : (before behind : List Char) → Nat
  | [], _ => depth
  | c :: before, behind => depthAt (preDepth depth (c :: (before ++ behind))) before behind

/-- Where no element is open, a blank that compacting leaves is a single space. -/
theorem IsSettled.isSingle {depth : Nat} (h : IsSettled depth inRun (before ++ c :: behind))
    (hc : isBlank c = true) (hdepth : depthAt depth before (c :: behind) = 0) :
    c = ' ' ∧ (before = [] → inRun = false) ∧ (∀ b ∈ before.getLast?, isBlank b = false) ∧
      ∀ b ∈ behind.head?, isBlank b = false := by
  induction before generalizing depth inRun with
  | nil =>
    obtain rfl : depth = 0 := hdepth
    obtain ⟨hrun, hspace, hbehind⟩ := (isSettled_cons_of_blank hc).mp h
    refine ⟨hspace, fun _ => hrun, fun _ hb => absurd hb (Option.not_mem_none _), fun b hb => ?_⟩
    obtain ⟨rest, rfl⟩ := List.head?_eq_some_iff.mp hb
    refine Bool.eq_false_iff.mpr fun hblank => ?_
    exact absurd ((isSettled_cons_of_blank hblank).mp hbehind).1 (by decide)
  | cons b before ih =>
    rw [depthAt] at hdepth
    by_cases hblank : preDepth depth (b :: (before ++ c :: behind)) = 0 ∧ isBlank b = true
    · obtain rfl : depth = 0 := (preDepth_of_isBlank hblank.2 depth _).symm.trans hblank.1
      rw [hblank.1] at hdepth
      obtain ⟨hrun, -, hbehind⟩ := (isSettled_cons_of_blank hblank.2).mp h
      obtain ⟨hspace, hnil, hlast, hhead⟩ := ih hbehind hdepth
      cases before with
      | nil => exact absurd (hnil rfl) (by decide)
      | cons d before =>
        exact ⟨hspace, fun hnil => absurd hnil (List.cons_ne_nil _ _), hlast, hhead⟩
    · obtain ⟨hspace, -, hlast, hhead⟩ := ih ((isSettled_cons hblank).mp h) hdepth
      refine ⟨hspace, fun hnil => absurd hnil (List.cons_ne_nil _ _), fun d hd => ?_, hhead⟩
      cases before with
      | nil =>
        obtain rfl : b = d := Option.some.inj hd
        exact Bool.eq_false_iff.mpr fun hb => hblank ⟨hdepth, hb⟩
      | cons e before => exact hlast d hd

theorem StaysOpen.cons {b : Char} (hdepth : preDepth (nested + 1) (b :: (before ++ behind)) ≠ 0)
    (h : StaysOpen (preDepth (nested + 1) (b :: (before ++ behind)) - 1) before behind) :
    StaysOpen nested (b :: before) behind := by
  intro region rest hfound
  rw [List.cons_append, untilClosed?_cons, if_neg hdepth] at hfound
  obtain ⟨⟨inner, tail⟩, hinner, heq⟩ := Option.map_eq_some_iff.mp hfound
  cases heq
  exact Nat.succ_lt_succ (h inner _ hinner)

theorem StaysOpen.of_append {front inside : List Char} (hfront : '<' ∉ front)
    (h : StaysOpen nested (front ++ inside) behind) : StaysOpen nested inside behind := by
  intro region rest hfound
  have hall := untilClosed?_append_of_notMem hfront nested (inside ++ behind)
  rw [hfound, ← List.append_assoc] at hall
  have hlength := h _ _ hall
  rw [List.length_append, List.length_append] at hlength
  exact Nat.lt_of_add_lt_add_left hlength

/-- What is open at a place was open in front of the text, or a `<pre` in front of the place is. The
induction goes forward to the last `<pre` that no other one was open at. -/
theorem staysOpen_or_isPreformatted (hc : isBlank c = true) {depth : Nat}
    (h : depthAt depth before (c :: behind) ≠ 0) :
    (depth ≠ 0 ∧ StaysOpen (depth - 1) before (c :: behind)) ∨
      IsPreformatted before (c :: behind) := by
  induction before generalizing depth with
  | nil =>
    refine .inl ⟨h, fun region rest hfound => ?_⟩
    have hdepth := preDepth_of_isBlank hc (depth - 1 + 1) behind
    rw [List.nil_append, untilClosed?_cons, hdepth, if_neg (Nat.succ_ne_zero _)] at hfound
    obtain ⟨⟨inner, tail⟩, -, heq⟩ := Option.map_eq_some_iff.mp hfound
    cases heq
    exact Nat.succ_pos _
  | cons b before ih =>
    obtain ⟨hne, hopen⟩ | ⟨front, inside, rfl, hopen⟩ := ih h
    · by_cases hdepth : depth = 0
      · -- Nothing was open, so what is open now is a `<pre` that begins here. The blank is not in
        -- it, and so behind it.
        subst hdepth
        obtain ⟨hone, rest, hrest⟩ := exists_of_preDepth_zero_ne_zero hne
        have hprefix : preStart <+: (b :: before) ++ c :: behind := ⟨rest, hrest.symm⟩
        have hnotMem : c ∉ preStart := fun hmem => by
          rw [isBlank_preStart c hmem] at hc
          cases hc
        obtain ⟨inside, hinside⟩ := Text.prefix_of_prefix_append_cons hnotMem hprefix
        have hcons : '<' :: ("pre".toList ++ inside) = b :: before := hinside
        obtain rfl := (List.cons.inj hcons).2
        have hname : '<' ∉ "pre".toList := by decide
        rw [hone] at hopen
        exact .inr ⟨[], inside, hinside.symm, hopen.of_append hname⟩
      · obtain ⟨nested, rfl⟩ := Nat.exists_eq_succ_of_ne_zero hdepth
        exact .inl ⟨hdepth, hopen.cons hne⟩
    · exact .inr ⟨b :: front, inside, rfl, hopen⟩

theorem isPreformatted_of_depthAt (hc : isBlank c = true)
    (h : depthAt 0 before (c :: behind) ≠ 0) : IsPreformatted before (c :: behind) :=
  (staysOpen_or_isPreformatted hc h).resolve_left fun hzero => hzero.1 rfl

/-- Where a blank of compact markup is not preformatted, it is a space between two inked ones. -/
theorem isSingle_of_not_isPreformatted (hcompact : compact s = before ++ c :: behind)
    (hc : isBlank c = true) (h : ¬ IsPreformatted before (c :: behind)) :
    c = ' ' ∧ (∀ b ∈ before.getLast?, isBlank b = false) ∧
      ∀ b ∈ behind.head?, isBlank b = false := by
  have hdepth : depthAt 0 before (c :: behind) = 0 :=
    Decidable.of_not_not fun hne => h (isPreformatted_of_depthAt hc hne)
  have hsettled := isSettled_compact s
  rw [hcompact] at hsettled
  obtain ⟨hspace, -, hlast, hhead⟩ := hsettled.isSingle hc hdepth
  exact ⟨hspace, hlast, hhead⟩

end

/-- What compacting does to any text: it leaves compact markup as it is, keeps what is not blank in
its order, and leaves no blank at either end. In no region and behind no `<pre` that is never
closed, it leaves only spaces without a blank next to them. Where each `<pre` is closed, all of them
stay closed, and the regions are kept. -/
theorem compact_normalizes (s : List Char) :
    compact (compact s) = compact s ∧
      (compact s).filter (!isBlank ·) = s.filter (!isBlank ·) ∧
      IsTrimmed (compact s) ∧
      (∀ before c behind, compact s = before ++ c :: behind → isBlank c = true →
        ¬ IsEnclosed before (c :: behind) → ¬ IsUnclosed before (c :: behind) →
          c = ' ' ∧ (∀ b ∈ before.getLast?, isBlank b = false) ∧
            ∀ b ∈ behind.head?, isBlank b = false) ∧
      (IsClosed s → regions (compact s) = regions s ∧
        ∀ before behind, compact s = before ++ behind → ¬ IsUnclosed before behind) := by
  refine ⟨compact_compact s, filter_compact s, isTrimmed_compact s, ?_, fun h => ?_⟩
  · intro before c behind hcompact hc henclosed hunclosed
    refine isSingle_of_not_isPreformatted hcompact hc fun hplace => ?_
    exact (isPreformatted_iff.mp hplace).elim henclosed hunclosed
  · refine ⟨regions_compact h, fun before behind hcompact => ?_⟩
    have hclosed := isClosed_compact h
    rw [hcompact] at hclosed
    exact hclosed.not_isUnclosed

theorem compact_normalizes_pre :
    ∃ before c behind, compact "a \n b<pre>c  d</pre>\n".toList = before ++ c :: behind ∧
      isBlank c = true ∧ ¬ IsEnclosed before (c :: behind) ∧ ¬ IsUnclosed before (c :: behind) ∧
      (∀ b ∈ behind.head?, isBlank b = false) ∧
      IsClosed "a \n b<pre>c  d</pre>\n".toList ∧
      regions (compact "a \n b<pre>c  d</pre>\n".toList) =
        regions "a \n b<pre>c  d</pre>\n".toList := by
  have hcompact : compact "a \n b<pre>c  d</pre>\n".toList =
      "a".toList ++ ' ' :: "b<pre>c  d</pre>".toList := by decide
  have hclosed : IsClosed "a \n b<pre>c  d</pre>\n".toList := by decide
  have henclosed : ¬ IsEnclosed "a".toList (' ' :: "b<pre>c  d</pre>".toList) := by
    rintro ⟨front, inside, -, -, heq, -⟩
    have hlength := congrArg List.length heq
    have hstart : "a".toList.length < preStart.length := by decide
    simp only [List.length_append] at hlength
    omega
  obtain ⟨-, -, -, hblanks, hregions⟩ := compact_normalizes "a \n b<pre>c  d</pre>\n".toList
  obtain ⟨hkept, hunclosed⟩ := hregions hclosed
  have hopen := hunclosed _ _ hcompact
  obtain ⟨-, -, hnext⟩ := hblanks _ _ _ hcompact (by decide) henclosed hopen
  exact ⟨_, _, _, hcompact, by decide, henclosed, hopen, hnext, hclosed, hkept⟩

/-- Behind a `<pre` that is never closed, two blanks can stay next to each other. -/
theorem compact_unclosed :
    ¬ ∀ s before c behind, compact s = before ++ c :: behind → isBlank c = true →
      ¬ IsEnclosed before (c :: behind) →
        c = ' ' ∧ (∀ b ∈ before.getLast?, isBlank b = false) ∧
          ∀ b ∈ behind.head?, isBlank b = false := by
  intro h
  have hopen : ¬ IsEnclosed "<pre a".toList "  b".toList := by
    rintro ⟨front, inside, region, rest, hbefore, hfound, -⟩
    obtain ⟨tail, hregion, -⟩ := exists_of_untilClosed? hfound
    have hmem : '/' ∈ inside ++ "  b".toList := by
      rw [hregion]
      exact List.mem_append_right _ (List.mem_append_left _ (by decide))
    have hnot : '/' ∉ "<pre a".toList ++ "  b".toList := by decide
    rw [hbefore, List.append_assoc, List.append_assoc] at hnot
    exact hnot (List.mem_append_right _ (List.mem_append_right _ hmem))
  obtain ⟨-, -, hnext⟩ :=
    h "<pre a  b".toList "<pre a".toList ' ' " b".toList (by decide) (by decide) hopen
  exact absurd (hnext ' ' rfl) (by decide)

end Gazette.Body
