import Gazette.Proofs.Text.Lowercasing

/-!
# Lowercase texts and the ends of words

What lowercasing makes is lowercase already (`lowerChar_of_mem_lowerChar`). A text is lowercased
character by character once it is known which of its capital sigmas end a word, so a text without its
blanks has the lowercase form of the text without the blanks in it, if the sigmas that end a word are
told to be those of the text (`filter_lowercaseWith`).
-/

namespace Gazette.Text

namespace Casing

/-! ### Forms that stay -/

/-- The codes of the lowercase forms of a run. -/
def Run.image (run : Run) : Run :=
  ⟨Int.toNat (run.first + run.shift), Int.toNat (run.last + run.shift), run.step, 0⟩

/-- Whether two runs lie one behind the other, or one between the codes of the other. -/
def Run.isApart (run other : Run) : Bool :=
  Nat.blt run.last other.first || Nat.blt other.last run.first ||
    (other.step == 2 && (run.step == 2 || run.first == run.last) &&
      (run.first + other.first) % 2 == 1)

theorem Run.moves_iff {run : Run} {code : Nat} :
    run.moves code = true ↔ run.first ≤ code ∧ code ≤ run.last ∧ (code - run.first) % run.step = 0 := by
  simp [moves, and_assoc]

theorem Run.moves_eq_false_of_isApart {run other : Run} (h : run.isApart other = true) {code : Nat}
    (hmoves : run.moves code = true) : other.moves code = false := by
  refine Bool.eq_false_iff.mpr fun hother => ?_
  obtain ⟨hfirst, hlast, hstep⟩ := Run.moves_iff.mp hmoves
  obtain ⟨hfirst', hlast', hstep'⟩ := Run.moves_iff.mp hother
  simp only [isApart, Bool.or_eq_true, Bool.and_eq_true, Nat.blt_eq, beq_iff_eq] at h
  obtain (hbefore | hbehind) | ⟨⟨htwo, hshape⟩, hodd⟩ := h
  · omega
  · omega
  · rw [htwo] at hstep'
    obtain htwo | hsingle := hshape
    · rw [htwo] at hstep
      omega
    · omega

theorem Run.moves_image {run : Run} (hpos : 0 < run.image.first) {code : Nat}
    (h : run.moves code = true) : run.image.moves (Int.toNat (code + run.shift)) = true := by
  obtain ⟨hfirst, hlast, hstep⟩ := Run.moves_iff.mp h
  have hdistance : Int.toNat (code + run.shift) - run.image.first = code - run.first := by
    simp only [image] at hpos ⊢
    omega
  refine Run.moves_iff.mpr ⟨?_, ?_, ?_⟩
  · simp only [image]
    omega
  · simp only [image]
    omega
  · rw [hdistance]
    exact hstep

/-- The dotted capital I as a run of one code. -/
def dottedRun : Run := ⟨0x130, 0x130, 1, 0⟩

/-- No run leads to a code that is moved. -/
theorem image_isApart : ((lowerRuns.map Run.image).all fun run =>
    Nat.ble 1 run.first && (dottedRun :: lowerRuns).all run.isApart) = true := by
  decide +kernel

theorem lowerChar_eq_self {c : Char} (hdotted : dottedRun.moves c.toNat = false)
    (h : ∀ run ∈ lowerRuns, run.moves c.toNat = false) : lowerChar c = [c] := by
  unfold lowerChar
  split
  · next hcode =>
    have hall : ∀ n < 0x80, (⟨0x41, 0x5A, 1, 32⟩ : Run).moves n = false →
        (Char.ofNat n).toLower = Char.ofNat n := by decide +kernel
    have hself := hall c.toNat hcode (h _ List.mem_cons_self)
    rw [Char.ofNat_toNat] at hself
    rw [hself]
  · split
    · next heq =>
      rw [heq] at hdotted
      exact absurd hdotted (by decide)
    · have hnone : lowerRuns.find? (·.moves c.toNat) = none :=
        List.find?_eq_none.mpr fun run hrun => Bool.eq_false_iff.mp (h run hrun)
      rw [hnone]

theorem lowerChar_ofNat {run : Run} (hrun : run ∈ lowerRuns) {code : Nat}
    (h : run.moves code = true) :
    lowerChar (Char.ofNat (Int.toNat (code + run.shift))) =
      [Char.ofNat (Int.toNat (code + run.shift))] := by
  have himage := List.all_eq_true.mp image_isApart run.image (List.mem_map_of_mem hrun)
  rw [Bool.and_eq_true, List.all_eq_true, Nat.ble_eq] at himage
  obtain ⟨hpos, hapart⟩ := himage
  have hmoved := Run.moves_image hpos h
  obtain hcode | hcode := toNat_ofNat (Int.toNat (code + run.shift))
  · rw [← hcode] at hmoved
    have hfree : ∀ other ∈ dottedRun :: lowerRuns,
        other.moves (Char.ofNat (Int.toNat (code + run.shift))).toNat = false :=
      fun other hother => Run.moves_eq_false_of_isApart (hapart other hother) hmoved
    exact lowerChar_eq_self (hfree _ List.mem_cons_self)
      fun other hother => hfree other (List.mem_cons_of_mem _ hother)
  · -- A code that is no character gives the character with code zero.
    rw [← Char.ofNat_toNat (Char.ofNat (Int.toNat (code + run.shift))), hcode]
    decide +kernel

/-- The characters of a lowercase form are their own lowercase forms. -/
theorem lowerChar_of_mem_lowerChar {c x : Char} (h : x ∈ lowerChar c) : lowerChar x = [x] := by
  rw [lowerChar] at h
  split at h
  · next hcode =>
    have hall : ∀ n < 0x80, lowerChar (Char.ofNat n).toLower = [(Char.ofNat n).toLower] := by
      decide +kernel
    have hself := hall c.toNat hcode
    rw [Char.ofNat_toNat] at hself
    rw [List.mem_singleton.mp h, hself]
  · next hcode =>
    split at h
    · obtain rfl | hdot := List.mem_cons.mp h
      · rfl
      · obtain rfl := List.mem_singleton.mp hdot
        decide +kernel
    · next hletter =>
      split at h
      · next run hfind =>
        rw [List.mem_singleton.mp h]
        exact lowerChar_ofNat (List.mem_of_find?_eq_some hfind) (by simpa using List.find?_some hfind)
      · next hfind =>
        rw [List.mem_singleton.mp h, lowerChar, if_neg hcode, if_neg hletter, hfind]

end Casing

open Casing

/-! ### Sigmas that end a word -/

/-- For each capital sigma of a text, whether a word ends with it, when the text follows a letter
(`word`) or does not. -/
def sigmaEndsFrom : (word : Bool) → List Char → List Bool
  | _, [] => []
  | word, c :: rest =>
    if c = 'Σ' then (word && !startsCased rest) :: sigmaEndsFrom (wordAfter word c) rest
    else sigmaEndsFrom (wordAfter word c) rest

def sigmaEnds (s : List Char) : List Bool := sigmaEndsFrom false s

/-- The lowercase form of a text, when it is told of each capital sigma whether a word ends with it. -/
def lowercaseWith : (ends : List Bool) → List Char → List Char
  | _, [] => []
  | ends, c :: rest =>
    if c = 'Σ' then (if ends.headD false then 'ς' else 'σ') :: lowercaseWith ends.tail rest
    else lowerChar c ++ lowercaseWith ends rest

theorem lowercaseFrom_eq_lowercaseWith (word : Bool) (s : List Char) :
    lowercaseFrom word s = lowercaseWith (sigmaEndsFrom word s) s := by
  induction s generalizing word with
  | nil => rfl
  | cons c rest ih =>
    by_cases hc : c = 'Σ'
    · rw [lowercaseFrom, sigmaEndsFrom, lowercaseWith, if_pos hc, if_pos hc, if_pos hc, ih,
        List.headD_cons, List.tail_cons]
      split <;> rfl
    · rw [lowercaseFrom, sigmaEndsFrom, lowercaseWith, if_neg hc, if_neg hc, if_neg hc, ih]

theorem length_sigmaEndsFrom (word : Bool) (s : List Char) :
    (sigmaEndsFrom word s).length = s.count 'Σ' := by
  induction s generalizing word with
  | nil => rfl
  | cons c rest ih =>
    by_cases hc : c = 'Σ'
    · rw [sigmaEndsFrom, if_pos hc, List.length_cons, ih, hc, List.count_cons_self]
    · rw [sigmaEndsFrom, if_neg hc, ih, List.count_cons_of_ne hc]

/-- A blank is its own lowercase form, and stands in no other one. -/
theorem filter_lowerChar (c : Char) :
    (lowerChar c).filter (!isBlank ·) = if isBlank c then [] else lowerChar c := by
  split
  · next hblank =>
    rw [lowerChar_of_isFixed (isFixed_of_isBlank hblank)]
    exact List.filter_cons_of_neg (by simpa using hblank)
  · next hblank =>
    refine List.filter_eq_self.mpr fun x hx => ?_
    cases hx' : isBlank x with
    | false => rfl
    | true => exact absurd (eq_of_mem_lowerChar hx (isFixed_of_isBlank hx') ▸ hx') hblank

theorem filter_lowercaseWith (ends : List Bool) (s : List Char) :
    (lowercaseWith ends s).filter (!isBlank ·) = lowercaseWith ends (s.filter (!isBlank ·)) := by
  induction s generalizing ends with
  | nil => rfl
  | cons c rest ih =>
    by_cases hc : c = 'Σ'
    · have hkeep : isBlank (if ends.headD false then 'ς' else 'σ') = false := by split <;> decide
      rw [List.filter_cons_of_pos (by rw [hc]; decide), lowercaseWith, lowercaseWith, if_pos hc,
        if_pos hc, List.filter_cons_of_pos (by rw [hkeep]; rfl), ih]
    · rw [lowercaseWith, if_neg hc, List.filter_append, filter_lowerChar, ih]
      cases hblank : isBlank c with
      | true => rw [List.filter_cons_of_neg (by simpa using hblank)]; rfl
      | false =>
        rw [List.filter_cons_of_pos (by simpa using hblank), lowercaseWith, if_neg hc]
        rfl

/-- The lowercase form tells which sigmas end a word. -/
theorem lowercaseWith_injective {a b : List Bool} {s : List Char} (ha : a.length = s.count 'Σ')
    (hb : b.length = s.count 'Σ') (h : lowercaseWith a s = lowercaseWith b s) : a = b := by
  induction s generalizing a b with
  | nil => rw [List.length_eq_zero_iff.mp ha, List.length_eq_zero_iff.mp hb]
  | cons c rest ih =>
    by_cases hc : c = 'Σ'
    · rw [hc, List.count_cons_self] at ha hb
      obtain ⟨first, a, rfl⟩ := List.exists_cons_of_length_eq_add_one ha
      obtain ⟨other, b, rfl⟩ := List.exists_cons_of_length_eq_add_one hb
      rw [lowercaseWith, lowercaseWith, if_pos hc, if_pos hc, List.headD_cons, List.headD_cons] at h
      obtain ⟨hhead, htail⟩ := List.cons.inj h
      have hfirst : first = other := by
        revert hhead
        cases first <;> cases other <;> decide
      rw [hfirst, ih (Nat.succ.inj ha) (Nat.succ.inj hb) htail]
    · rw [List.count_cons_of_ne hc] at ha hb
      rw [lowercaseWith, lowercaseWith, if_neg hc, if_neg hc] at h
      exact ih ha hb (List.append_cancel_left h)

/-- With both small sigmas as one, nothing is left of what was told. -/
theorem map_foldSigma_lowercaseWith (a b : List Bool) (s : List Char) :
    (lowercaseWith a s).map foldSigma = (lowercaseWith b s).map foldSigma := by
  induction s generalizing a b with
  | nil => rfl
  | cons c rest ih =>
    by_cases hc : c = 'Σ'
    · have hsigma : ∀ ends : List Bool, foldSigma (if ends.headD false then 'ς' else 'σ') = 'σ' := by
        intro ends
        split <;> decide
      rw [lowercaseWith, lowercaseWith, if_pos hc, if_pos hc, List.map_cons, List.map_cons, hsigma,
        hsigma, ih a.tail b.tail]
    · rw [lowercaseWith, lowercaseWith, if_neg hc, if_neg hc, List.map_append, List.map_append, ih a b]

theorem lowerChar_of_mem_lowercaseWith {ends : List Bool} {s : List Char} {x : Char}
    (h : x ∈ lowercaseWith ends s) : lowerChar x = [x] := by
  induction s generalizing ends with
  | nil => cases h
  | cons c rest ih =>
    rw [lowercaseWith] at h
    split at h
    · obtain rfl | h := List.mem_cons.mp h
      · split <;> decide +kernel
      · exact ih h
    · obtain h | h := List.mem_append.mp h
      · exact lowerChar_of_mem_lowerChar h
      · exact ih h

end Gazette.Text
