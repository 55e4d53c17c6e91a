import Gazette.Proofs.Body.Compacting
import Gazette.Proofs.Body.Untagging

/-!
# Ink

Blanks and separators leave no ink. Taking some of them out, or writing them as spaces, leaves the
ink of a text as it is, and of a text whose entities are still to be read too, since no entity holds
one (`ink_unescape_eq`). The passes that follow promotion do nothing else to what is read of a
message (`exists_thinsTokens`, `thins_compact_stripSeparators`).
-/

namespace Gazette.Body

open Markup (Escapes entities separatorChar unescape unescape_cons unescape_entity lineBreakText)
open Text (dropTail isBlank trim trimStart trimEnd)

theorem isFiller_of_isBlank {c : Char} (h : isBlank c = true) : isFiller c = true :=
  Bool.or_eq_true_iff.mpr (.inr h)

/-- What shows of a text. -/
def ink (s : List Char) : List Char := s.filter fun c => !isFiller c

theorem ink_cons_of_filler {c : Char} (hc : isFiller c = true) (s : List Char) :
    ink (c :: s) = ink s :=
  List.filter_cons_of_neg (by simp [hc])

theorem ink_append (s t : List Char) : ink (s ++ t) = ink s ++ ink t := List.filter_append s t

theorem ink_cons_congr (c : Char) {s t : List Char} (h : ink s = ink t) :
    ink (c :: s) = ink (c :: t) := by
  have happend : ∀ s, ink (c :: s) = ink [c] ++ ink s := ink_append [c]
  rw [happend s, happend t, h]

/-! ### Thinning -/

/-- Whether the second text is the first one with some fillers taken out, and others written as
spaces. -/
inductive Thins : List Char → List Char → Prop where
  | nil : Thins [] []
  | keep (c : Char) {s t : List Char} (h : Thins s t) : Thins (c :: s) (c :: t)
  | drop {c : Char} {s t : List Char} (hc : isFiller c = true) (h : Thins s t) : Thins (c :: s) t
  | space {c : Char} {s t : List Char} (hc : isFiller c = true) (h : Thins s t) :
    Thins (c :: s) (' ' :: t)

namespace Thins

theorem refl : (s : List Char) → Thins s s
  | [] => .nil
  | c :: s => (refl s).keep c

theorem append {s s' t t' : List Char} (h : Thins s t) (h' : Thins s' t') :
    Thins (s ++ s') (t ++ t') := by
  induction h with
  | nil => exact h'
  | keep c _ ih => exact ih.keep c
  | drop hc _ ih => exact ih.drop hc
  | space hc _ ih => exact ih.space hc

theorem trans {s t u : List Char} (h : Thins s t) (h' : Thins t u) : Thins s u := by
  induction h generalizing u with
  | nil => exact h'
  | keep c _ ih =>
    cases h' with
    | keep _ h' => exact (ih h').keep c
    | drop hc h' => exact (ih h').drop hc
    | space hc h' => exact (ih h').space hc
  | drop hc _ ih => exact (ih h').drop hc
  | space hc _ ih =>
    cases h' with
    | keep _ h' => exact (ih h').space hc
    | drop _ h' => exact (ih h').drop hc
    | space _ h' => exact (ih h').space hc

/-- Fillers may go altogether. -/
theorem of_fillers {s : List Char} (h : ∀ c ∈ s, isFiller c = true) : Thins s [] := by
  induction s with
  | nil => exact .nil
  | cons c s ih =>
    obtain ⟨hc, hs⟩ := List.forall_mem_cons.mp h
    exact (ih hs).drop hc

/-- A text without fillers stays. -/
theorem exists_eq_append {s s' t : List Char} (hs : ∀ c ∈ s, isFiller c = false)
    (h : Thins (s ++ s') t) : ∃ t', t = s ++ t' ∧ Thins s' t' := by
  induction s generalizing t with
  | nil => exact ⟨t, rfl, h⟩
  | cons c s ih =>
    obtain ⟨hc, hs⟩ := List.forall_mem_cons.mp hs
    cases h with
    | keep _ h =>
      obtain ⟨t', rfl, ht'⟩ := ih hs h
      exact ⟨t', rfl, ht'⟩
    | drop hfiller => rw [hc] at hfiller; cases hfiller
    | space hfiller => rw [hc] at hfiller; cases hfiller

end Thins

theorem isFiller_of_mem_entity {entity : List Char} {c : Char} (h : (entity, c) ∈ entities) :
    ∀ d ∈ entity, isFiller d = false := by
  have hall : ∀ pair ∈ entities, (pair.1.all fun d => !isFiller d) = true := by decide
  intro d hd
  simpa using List.all_eq_true.mp (hall (entity, c) h) d hd

/-- Thinning an escaped text leaves the ink of what it stands for. -/
theorem ink_unescape_eq {s t u : List Char} (hs : Escapes s u) (h : Thins s t) :
    ink (unescape t) = ink u := by
  induction hs generalizing t with
  | nil =>
    cases h
    rfl
  | char hc _ ih =>
    cases h with
    | keep c h =>
      rw [unescape_cons hc]
      exact ink_cons_congr _ (ih h)
    | drop hfiller h => rw [ih h, ink_cons_of_filler hfiller]
    | space hfiller h =>
      rw [unescape_cons (by decide), ink_cons_of_filler (by decide), ih h,
        ink_cons_of_filler hfiller]
  | entity hc _ ih =>
    -- No entity can lose a character, so it is still one.
    obtain ⟨t', rfl, htail⟩ := h.exists_eq_append (isFiller_of_mem_entity hc)
    rw [unescape_entity hc]
    exact ink_cons_congr _ (ih htail)

/-! ### Signs of headlines -/

/-- Headlines are read as the signs that make them, and other tags are not read. -/
def headlineSign (tag : List Char) : List Char :=
  if tag = "<h1>".toList then ['#']
  else if tag = "<h2>".toList then ['#', '#']
  else if tag = "<span class=\"sub\">".toList then ['-']
  else []

theorem isSign_headlineSign : IsSign headlineSign [] where
  lineBreak := by decide
  other := by
    intro token htoken _ _ hheadline
    have hne : ∀ tag, IsTag tag → isHeadline tag = true →
        token.print ≠ Token.print (.opening tag) := by
      intro tag htag hsign hprint
      have hlexical : (Token.opening tag).IsLexical := IsTag.isLexical htag
      obtain rfl := print_injective htoken.isLexical hlexical hprint
      rw [isHeadlineToken, hsign] at hheadline
      cases hheadline
    have hfirst : token.print ≠ "<h1>".toList :=
      hne ⟨"h1", [], false⟩ (.plain (by decide)) (by decide)
    have hsecond : token.print ≠ "<h2>".toList :=
      hne ⟨"h2", [], false⟩ (.plain (by decide)) (by decide)
    have hsub : token.print ≠ "<span class=\"sub\">".toList :=
      hne ⟨"span", [("class", some "sub".toList)], false⟩ .sub (by decide)
    rw [headlineSign, if_neg hfirst, if_neg hsecond, if_neg hsub]

variable {f : List Char → List Char}

/-- Whether a tag is a headline, and of which kind, does not depend on what thinning changes. -/
theorem headlineSign_mapValues (hf : IsThinning f) {tag : Tag} (h : IsTag tag) :
    headlineSign (Token.print (.opening (tag.mapValues f))) =
      headlineSign (Token.print (.opening tag)) := by
  have hother : ∀ tag, IsTag tag → tag ≠ .lineBreak → isHeadline tag = false →
      headlineSign (Token.print (.opening tag)) = [] := fun tag htag hbreak hheadline =>
    isSign_headlineSign.other (.opening tag) htag (fun _ => Token.noConfusion)
      (fun heq => hbreak (Token.opening.inj heq)) hheadline
  have hunread : tag.name ∈ ["a", "pre", "time", "img"] →
      headlineSign (Token.print (.opening (tag.mapValues f))) =
        headlineSign (Token.print (.opening tag)) := by
    intro hname
    have hall : ∀ name ∈ ["a", "pre", "time", "img"], name ≠ "br" ∧ name ≠ "span" ∧
        ["h1", "h2"].contains name = false := by decide
    obtain ⟨hbreak, hspan, hlevel⟩ := hall tag.name hname
    have hheadline : ∀ tag' : Tag, tag'.name = tag.name → isHeadline tag' = false := by
      intro tag' heq
      rw [isHeadline, heq, hlevel, beq_eq_false_iff_ne.mpr hspan]
      rfl
    have hne : ∀ tag' : Tag, tag'.name = tag.name → tag' ≠ .lineBreak := by
      rintro tag' heq rfl
      exact hbreak heq.symm
    rw [hother _ (hf.isTag h).1 (hne _ rfl) (hheadline _ rfl),
      hother _ h (hne _ rfl) (hheadline _ rfl)]
  -- Tags without values stay, and what stands in a class is steady; all others are not read.
  cases h with
  | plain | lineBreak => rfl
  | spoiler => rw [hf.mapValues_span (by decide)]
  | sub => rw [hf.mapValues_span (by decide)]
  | link | external | code | time | image => exact hunread (by simp)

/-! ### Rows of tokens -/

/-- Whether the second row is the first one with some fillers taken out, others written as spaces,
and thinner values. -/
inductive ThinsTokens : List Token → List Token → Prop where
  | nil : ThinsTokens [] []
  | keep (token : Token) {a b : List Token} (h : ThinsTokens a b) :
    ThinsTokens (token :: a) (token :: b)
  | drop {c : Char} {a b : List Token} (hc : isFiller c = true) (h : ThinsTokens a b) :
    ThinsTokens (.char c :: a) b
  | space {c : Char} {a b : List Token} (hc : isFiller c = true) (h : ThinsTokens a b) :
    ThinsTokens (.char c :: a) (.char ' ' :: b)
  | values {f : List Char → List Char} (hf : IsThinning f) (tag : Tag) {a b : List Token}
    (h : ThinsTokens a b) : ThinsTokens (.opening tag :: a) (.opening (tag.mapValues f) :: b)

theorem IsThinning.comp {g : List Char → List Char} (hg : IsThinning g) (hf : IsThinning f) :
    IsThinning (g ∘ f) where
  mem value c hc := (hg.mem (f value) c hc).elim (hf.mem value c) .inr
  empty := by rw [Function.comp, hf.empty, hg.empty]
  steady start value h := by
    rw [Function.comp, hf.steady start value h, hg.steady start (f value) h]
    rfl
  relation := by rw [Function.comp, hf.relation, hg.relation]

theorem mapValues_mapValues (f g : List Char → List Char) (tag : Tag) :
    (tag.mapValues f).mapValues g = tag.mapValues (g ∘ f) := by
  simp [Tag.mapValues, Function.comp_def]

/-- Whether what a tag is read as does not depend on what thinning changes. -/
def IsStable (sign : List Char → List Char) : Prop :=
  ∀ f tag, IsThinning f → IsTag tag →
    sign (Token.print (.opening (tag.mapValues f))) = sign (Token.print (.opening tag))

theorem isStable_headlineSign : IsStable headlineSign :=
  fun _ _ hf htag => headlineSign_mapValues hf htag

theorem isStable_noSign : IsStable noSign := fun _ _ _ _ => rfl

namespace ThinsTokens

variable {a b c : List Token}

theorem refl : (tokens : List Token) → ThinsTokens tokens tokens
  | [] => .nil
  | token :: tokens => (refl tokens).keep token

theorem trans (h : ThinsTokens a b) (h' : ThinsTokens b c) : ThinsTokens a c := by
  induction h generalizing c with
  | nil => exact h'
  | keep token _ ih =>
    cases h' with
    | keep _ h' => exact (ih h').keep token
    | drop hc h' => exact (ih h').drop hc
    | space hc h' => exact (ih h').space hc
    | values hf tag h' => exact (ih h').values hf tag
  | drop hc _ ih => exact (ih h').drop hc
  | space hc _ ih =>
    cases h' with
    | keep _ h' => exact (ih h').space hc
    | drop _ h' => exact (ih h').drop hc
    | space _ h' => exact (ih h').space hc
  | values hf tag _ ih =>
    cases h' with
    | keep _ h' => exact (ih h').values hf tag
    | values hg _ h' =>
      rw [mapValues_mapValues]
      exact (ih h').values (hg.comp hf) tag

theorem append {a' b' : List Token} (h : ThinsTokens a b) (h' : ThinsTokens a' b') :
    ThinsTokens (a ++ a') (b ++ b') := by
  induction h with
  | nil => exact h'
  | keep token _ ih => exact ih.keep token
  | drop hc _ ih => exact ih.drop hc
  | space hc _ ih => exact ih.space hc
  | values hf tag _ ih => exact ih.values hf tag

/-- Fillers may go altogether. -/
theorem of_fillers {p : Char → Bool} (hp : ∀ c, p c = true → isFiller c = true)
    {tokens : List Token} (h : ∀ token ∈ tokens, isCharOf p token = true) :
    ThinsTokens tokens [] := by
  induction tokens with
  | nil => exact .nil
  | cons token tokens ih =>
    obtain ⟨htoken, hrest⟩ := List.forall_mem_cons.mp h
    cases token with
    | char c => exact (ih hrest).drop (hp c htoken)
    | opening tag => cases htoken
    | closing name => cases htoken

theorem dropWhile {p : Char → Bool} (hp : ∀ c, p c = true → isFiller c = true)
    (tokens : List Token) : ThinsTokens tokens (tokens.dropWhile (isCharOf p)) := by
  have hhead : ThinsTokens (tokens.takeWhile (isCharOf p)) [] :=
    of_fillers hp (List.all_eq_true.mp List.all_takeWhile)
  have happend := hhead.append (refl (tokens.dropWhile (isCharOf p)))
  rwa [List.takeWhile_append_dropWhile] at happend

/-- Thinner tokens are read as a thinner text. -/
theorem thins {sign : List Char → List Char} (hsign : IsStable sign) (h : ThinsTokens a b)
    (ha : ∀ token ∈ a, IsWritten token) :
    Thins (a.flatMap (signOf sign)) (b.flatMap (signOf sign)) := by
  induction h with
  | nil => exact .nil
  | keep token _ ih => exact (Thins.refl _).append (ih (List.forall_mem_cons.mp ha).2)
  | drop hc _ ih => exact (ih (List.forall_mem_cons.mp ha).2).drop hc
  | space hc _ ih => exact (ih (List.forall_mem_cons.mp ha).2).space hc
  | values hf tag _ ih =>
    obtain ⟨htag, hrest⟩ := List.forall_mem_cons.mp ha
    rw [List.flatMap_cons, List.flatMap_cons, signOf, signOf, hsign _ tag hf htag]
    exact (Thins.refl _).append (ih hrest)

end ThinsTokens

theorem exists_dropTailTokens_append (p : Char → Bool) (tokens : List Token) :
    ∃ tail, tokens = dropTailTokens p tokens ++ tail ∧
      ∀ token ∈ tail, isCharOf p token = true := by
  refine ⟨(tokens.reverse.takeWhile (isCharOf p)).reverse, ?_, fun token htoken => ?_⟩
  · rw [dropTailTokens, ← List.reverse_append, List.takeWhile_append_dropWhile,
      List.reverse_reverse]
  · exact List.all_eq_true.mp List.all_takeWhile token (List.mem_reverse.mp htoken)

theorem thinsTokens_dropTailTokens {p : Char → Bool} (hp : ∀ c, p c = true → isFiller c = true)
    (tokens : List Token) : ThinsTokens tokens (dropTailTokens p tokens) := by
  obtain ⟨tail, htokens, htail⟩ := exists_dropTailTokens_append p tokens
  have happend := (ThinsTokens.refl (dropTailTokens p tokens)).append (.of_fillers hp htail)
  rwa [← htokens, List.append_nil] at happend

theorem thinsTokens_strip (tokens : List Token) :
    ThinsTokens tokens (tokens.filterMap strip?) := by
  induction tokens with
  | nil => exact .nil
  | cons token rest ih =>
    cases token with
    | char c =>
      by_cases hc : c = separatorChar
      · have hstrip : strip? (.char c) = none := if_pos hc
        rw [List.filterMap_cons_none hstrip]
        exact ih.drop (by rw [hc]; decide)
      · have hstrip : strip? (.char c) = some (.char c) := if_neg hc
        rw [List.filterMap_cons_some hstrip]
        exact ih.keep _
    | opening tag => exact ih.values isThinning_stripSeparators tag
    | closing name => exact ih.keep _

theorem thinsTokens_compactTokens (depth : Nat) (inRun : Bool) (tokens : List Token) :
    ThinsTokens tokens (compactTokens depth inRun tokens) := by
  induction tokens generalizing depth inRun with
  | nil => exact .nil
  | cons token rest ih =>
    cases token with
    | char c =>
      rw [compactTokens]
      split
      · next hblank =>
        have hfiller := isFiller_of_isBlank hblank.2
        cases inRun with
        | true => exact (ih depth true).drop hfiller
        | false => exact (ih depth true).space hfiller
      · exact (ih depth false).keep _
    | opening tag => exact (ih _ false).values (isThinning_compactFrom _) tag
    | closing name => exact (ih _ false).keep _

/-- What follows promotion only thins the tokens of a fragment. -/
theorem exists_thinsTokens {tokens : List Token} (h : IsFragment tokens) :
    ∃ thinned, Token.printAll thinned = compact (stripSeparators (Token.printAll tokens)) ∧
      IsFragment thinned ∧ ThinsTokens tokens thinned := by
  have hblank : ∀ c, isBlank c = true → isFiller c = true := fun _ => isFiller_of_isBlank
  have hstrip := isFragment_strip h
  have hcompact := isFragment_compactTokens hstrip 0 false
  refine ⟨_, ?_, (hcompact.dropWhile isBlank).dropTailTokens isBlank,
    (thinsTokens_strip tokens).trans ((thinsTokens_compactTokens 0 false _).trans
      ((ThinsTokens.dropWhile hblank _).trans (thinsTokens_dropTailTokens hblank _)))⟩
  rw [stripSeparators_printAll h.written, compact, compactFrom_printAll hstrip.written, trim,
    trimStart, trimEnd, dropWhile_printAll (by decide), dropTail_printAll (by decide)]

/-- What follows promotion only thins what is read of a fragment. -/
theorem thins_compact_stripSeparators {sign : List Char → List Char} (hsign : IsStable sign)
    {tokens : List Token} (h : IsFragment tokens) :
    Thins (untag sign (Token.printAll tokens))
      (untag sign (compact (stripSeparators (Token.printAll tokens)))) := by
  obtain ⟨thinned, hprint, hthinned, hthins⟩ := exists_thinsTokens h
  rw [← hprint, untag_printAll fun token htoken => (h.written token htoken).isLexical,
    untag_printAll fun token htoken => (hthinned.written token htoken).isLexical]
  exact hthins.thins hsign h.written

end Gazette.Body
