import Gazette.Proofs.Body.Thinning

/-!
# Bodies are well written

Compacting is followed through the tokens of a message as the passes before it are. With it the
text of every body can be read as tags and characters again, each tag is one that a body may have,
and all of them are well nested (`exists_read_render`).
-/

namespace Gazette.Body

open Text (after? trim trimStart trimEnd isBlank)

/-! ### Single characters -/

theorem preDepth_of_ne {c : Char} (h : c ≠ '<') (depth : Nat) (rest : List Char) :
    preDepth depth (c :: rest) = depth := by
  have hopen : after? "<pre".toList (c :: rest) = none := if_neg (Ne.symm h)
  have hclose : after? "</pre>".toList (c :: rest) = none := if_neg (Ne.symm h)
  rw [preDepth, hopen, hclose]
  rfl

theorem compactFrom_cons {c : Char} (hc : c ≠ '<') (depth : Nat) (inRun : Bool)
    (rest : List Char) :
    compactFrom depth inRun (c :: rest) =
      if depth = 0 ∧ isBlank c then
        if inRun then compactFrom depth true rest else ' ' :: compactFrom depth true rest
      else c :: compactFrom depth false rest := by
  rw [compactFrom, preDepth_of_ne hc]

/-- A character that is not blank is kept, and ends a run of blanks. -/
theorem compactFrom_cons_of_not_blank {c : Char} (hc : isBlank c = false) (depth : Nat)
    (inRun : Bool) (rest : List Char) :
    compactFrom depth inRun (c :: rest) =
      c :: compactFrom (preDepth depth (c :: rest)) false rest := by
  rw [compactFrom]
  exact if_neg (by simp [hc])

theorem isBlank_of_isFiller {c : Char} (h : isFiller c = false) : isBlank c = false :=
  (Bool.or_eq_false_iff.mp h).2

theorem compactFrom_append_of_isSteady {s : List Char} (h : IsSteady s) (depth : Nat)
    (rest : List Char) :
    compactFrom depth false (s ++ rest) = s ++ compactFrom depth false rest := by
  induction s with
  | nil => rfl
  | cons c s ih =>
    obtain ⟨hc, hs⟩ := List.forall_mem_cons.mp h
    rw [List.cons_append, compactFrom_cons_of_not_blank (isBlank_of_isFiller hc.1),
      preDepth_of_ne hc.2, ih hs]
    rfl

/-- A single space is kept. -/
theorem compactFrom_space {c : Char} (hc : isFiller c = false ∧ c ≠ '<') (depth : Nat)
    (rest : List Char) :
    compactFrom depth false (' ' :: c :: rest) = ' ' :: c :: compactFrom depth false rest := by
  have hrest : ∀ inRun, compactFrom depth inRun (c :: rest) = c :: compactFrom depth false rest := by
    intro inRun
    rw [compactFrom_cons_of_not_blank (isBlank_of_isFiller hc.1), preDepth_of_ne hc.2]
  rw [compactFrom_cons (by decide)]
  split
  · rw [hrest]
    rfl
  · rw [hrest]

/-! ### Values -/

/-- Behind a value, compacting goes on at the character that ends it. -/
theorem compactFrom_append {s : List Char} (hs : '<' ∉ s) {c : Char} (hblank : isBlank c = false)
    (hc : c ≠ '<') (depth : Nat) (inRun : Bool) (rest : List Char) :
    compactFrom depth inRun (s ++ c :: rest) =
      compactFrom depth inRun s ++ c :: compactFrom depth false rest := by
  induction s generalizing inRun with
  | nil =>
    rw [List.nil_append, compactFrom_cons_of_not_blank hblank, preDepth_of_ne hc]
    rfl
  | cons d s ih =>
    have hd : d ≠ '<' := fun heq => hs (heq ▸ List.mem_cons_self)
    have htail := ih fun hmem => hs (List.mem_cons_of_mem d hmem)
    rw [List.cons_append, compactFrom_cons hd, compactFrom_cons hd]
    split
    · cases inRun with
      | true => exact htail true
      | false => exact congrArg (' ' :: ·) (htail true)
    · exact congrArg (d :: ·) (htail false)

theorem mem_compactFrom {depth : Nat} {inRun : Bool} {s : List Char} {c : Char}
    (h : c ∈ compactFrom depth inRun s) : c ∈ s ∨ c = ' ' := by
  induction s generalizing depth inRun with
  | nil => cases h
  | cons d s ih =>
    have htail : ∀ {depth inRun}, c ∈ compactFrom depth inRun s → c ∈ d :: s ∨ c = ' ' :=
      fun hmem => (ih hmem).imp_left (List.mem_cons_of_mem d)
    rw [compactFrom] at h
    split at h
    · split at h
      · exact htail h
      · rcases List.mem_cons.mp h with hspace | h
        · exact .inr hspace
        · exact htail h
    · rcases List.mem_cons.mp h with rfl | h
      · exact .inl List.mem_cons_self
      · exact htail h

theorem isThinning_compactFrom (depth : Nat) : IsThinning (compactFrom depth false) where
  mem := fun _ _ hc => mem_compactFrom hc
  empty := rfl
  steady := fun _ _ h => compactFrom_append_of_isSteady h depth _
  relation := by
    have hsplit : "noopener noreferrer".toList = "noopener".toList ++ ' ' :: "noreferrer".toList := by
      decide
    have hsecond : compactFrom depth false (' ' :: "noreferrer".toList) =
        ' ' :: "noreferrer".toList := by
      have hspace := compactFrom_space (c := 'n') (by decide) depth "oreferrer".toList
      have htail := compactFrom_append_of_isSteady
        (by decide : IsSteady "oreferrer".toList) depth []
      rw [List.append_nil] at htail
      rw [htail] at hspace
      exact hspace
    rw [hsplit, compactFrom_append_of_isSteady (by decide), hsecond]

/-! ### Tags -/

theorem compactFrom_printAttribute {a : String × Option (List Char)} (hname : isName a.1)
    (hsteady : IsSteady a.1.toList) (hvalue : ∀ value ∈ a.2, IsClean value) (depth : Nat)
    (rest : List Char) :
    compactFrom depth false (Tag.printAttribute a ++ rest) =
      Tag.printAttribute (a.1, a.2.map (compactFrom depth false)) ++
        compactFrom depth false rest := by
  obtain ⟨name, value?⟩ := a
  obtain ⟨c, n, hcons, -, -⟩ := isName_cons hname
  have hn : IsSteady (c :: n) := hcons ▸ hsteady
  obtain ⟨hc, hn⟩ := List.forall_mem_cons.mp hn
  have hspace : ∀ tail, compactFrom depth false (' ' :: name.toList ++ tail) =
      ' ' :: name.toList ++ compactFrom depth false tail := by
    intro tail
    rw [hcons]
    change compactFrom depth false (' ' :: c :: (n ++ tail)) = _
    rw [compactFrom_space hc, compactFrom_append_of_isSteady hn]
    rfl
  cases value? with
  | none => exact hspace rest
  | some value =>
    have hnotMem : '<' ∉ value := fun hmem => (hvalue value rfl '<' hmem).2.1 rfl
    have hquoted : compactFrom depth false (['=', '"'] ++ (value ++ '"' :: rest)) =
        ['=', '"'] ++ (compactFrom depth false value ++ '"' :: compactFrom depth false rest) := by
      rw [compactFrom_append_of_isSteady (by decide),
        compactFrom_append hnotMem (by decide) (by decide)]
    have hprint : ∀ value tail, Tag.printAttribute (name, some value) ++ tail =
        ' ' :: name.toList ++ (['=', '"'] ++ (value ++ '"' :: tail)) := by
      intro value tail
      simp [Tag.printAttribute]
    rw [hprint, hspace, hquoted]
    exact (hprint _ _).symm

theorem compactFrom_attributes {attributes : List (String × Option (List Char))}
    (hlexical : ∀ a ∈ attributes, isName a.1 ∧ ∀ value ∈ a.2, IsClean value)
    (hsteady : ∀ a ∈ attributes, IsSteady a.1.toList) (depth : Nat) (rest : List Char) :
    compactFrom depth false (attributes.flatMap Tag.printAttribute ++ rest) =
      (attributes.map fun a => (a.1, a.2.map (compactFrom depth false))).flatMap
        Tag.printAttribute ++ compactFrom depth false rest := by
  induction attributes with
  | nil => rfl
  | cons a attributes ih =>
    obtain ⟨ha, hlexical⟩ := List.forall_mem_cons.mp hlexical
    obtain ⟨hname, hsteady⟩ := List.forall_mem_cons.mp hsteady
    rw [List.flatMap_cons, List.append_assoc, compactFrom_printAttribute ha.1 hname ha.2,
      ih hlexical hsteady, List.map_cons, List.flatMap_cons, List.append_assoc]

theorem compactFrom_ending (slash : Bool) (depth : Nat) (rest : List Char) :
    compactFrom depth false (Tag.ending slash ++ rest) =
      Tag.ending slash ++ compactFrom depth false rest := by
  have hclose := compactFrom_append_of_isSteady (by decide : IsSteady ['>']) depth rest
  cases slash with
  | false => exact hclose
  | true =>
    have hspace := compactFrom_space (c := '/') (by decide) depth ('>' :: rest)
    exact hspace.trans (congrArg (' ' :: '/' :: ·) hclose)

/-- The inside of a tag keeps its shape, whatever the depth. -/
theorem compactFrom_inside {tag : Tag} (h : IsTag tag) (depth : Nat) (rest : List Char) :
    compactFrom depth false (tag.inside ++ rest) =
      (tag.mapValues (compactFrom depth false)).inside ++ compactFrom depth false rest := by
  obtain ⟨hname, hattributes⟩ := h.isSteady
  rw [Tag.inside, List.append_assoc, List.append_assoc, compactFrom_append_of_isSteady hname,
    compactFrom_attributes h.isLexical.2 hattributes, compactFrom_ending]
  simp [Tag.inside, Tag.mapValues]

theorem preDepth_opening {tag : Tag} (h : tag.name ∈ tagNames) (depth : Nat)
    (rest : List Char) :
    preDepth depth (Token.print (.opening tag) ++ rest) =
      if tag.name = "pre" then depth + 1 else depth := by
  have hall : ∀ name ∈ tagNames,
      name = "pre" ∨ (name.toList ≠ [] ∧ name.toList.head? ≠ some 'p' ∧
        name.toList.head? ≠ some '/') := by decide
  rcases hall tag.name h with hpre | ⟨hne, hp, hslash⟩
  · have hopen : after? "<pre".toList (Token.print (.opening tag) ++ rest) =
        some (tag.attributes.flatMap Tag.printAttribute ++ (Tag.ending tag.slash ++ rest)) := by
      refine Text.after?_eq_some_iff.mpr ?_
      simp [Token.print, Tag.inside, hpre]
    rw [preDepth, hopen, if_pos hpre]
    rfl
  · cases hname : tag.name.toList with
    | nil => exact absurd hname hne
    | cons c n =>
      rw [hname, List.head?_cons] at hp hslash
      have hpc : 'p' ≠ c := fun heq => hp (heq ▸ rfl)
      have hslashc : '/' ≠ c := fun heq => hslash (heq ▸ rfl)
      have hnot : tag.name ≠ "pre" := by
        intro hpre
        rw [hpre] at hname
        exact hpc (List.cons.inj hname).1
      have hprint : Token.print (.opening tag) ++ rest = '<' :: c :: (n ++
          (tag.attributes.flatMap Tag.printAttribute ++ Tag.ending tag.slash) ++ rest) := by
        rw [Token.print, Tag.inside, hname]
        rfl
      have hopen : after? "<pre".toList (Token.print (.opening tag) ++ rest) = none := by
        rw [hprint]
        exact if_neg hpc
      have hclose : after? "</pre>".toList (Token.print (.opening tag) ++ rest) = none := by
        rw [hprint]
        exact if_neg hslashc
      rw [preDepth, hopen, hclose, if_neg hnot]
      rfl

theorem preDepth_closing {name : String} (h : name ∈ closedNames) (depth : Nat)
    (rest : List Char) :
    preDepth depth (Token.print (.closing name) ++ rest) =
      if name = "pre" then depth - 1 else depth := by
  simp only [closedNames, plainNames, List.mem_append, List.mem_cons, List.not_mem_nil,
    or_false] at h
  rcases h with (rfl | rfl | rfl | rfl | rfl | rfl | rfl | rfl | rfl) | rfl | rfl | rfl <;> rfl

/-! ### Compact tokens -/

/-- What compacting does to tokens, when some preformatted elements are open; `inRun` is as for
texts. -/
def compactTokens (depth : Nat) (inRun : Bool) : List Token → List Token
  | [] => []
  | .char c :: rest =>
    if depth = 0 ∧ isBlank c then
      if inRun then compactTokens depth true rest else .char ' ' :: compactTokens depth true rest
    else .char c :: compactTokens depth false rest
  | .opening tag :: rest =>
    let depth := if tag.name = "pre" then depth + 1 else depth
    .opening (tag.mapValues (compactFrom depth false)) :: compactTokens depth false rest
  | .closing name :: rest =>
    .closing name :: compactTokens (if name = "pre" then depth - 1 else depth) false rest

theorem compactFrom_printAll {tokens : List Token} (h : ∀ token ∈ tokens, IsWritten token)
    (depth : Nat) (inRun : Bool) :
    compactFrom depth inRun (Token.printAll tokens) =
      Token.printAll (compactTokens depth inRun tokens) := by
  induction tokens generalizing depth inRun with
  | nil => rfl
  | cons token rest ih =>
    obtain ⟨htoken, hrest⟩ := List.forall_mem_cons.mp h
    have htail := ih hrest
    rw [Token.printAll_cons]
    cases token with
    | char c =>
      change compactFrom depth inRun (c :: Token.printAll rest) = _
      rw [compactFrom_cons htoken.1, compactTokens]
      split
      · cases inRun with
        | true => exact htail depth true
        | false => exact congrArg (' ' :: ·) (htail depth true)
      · exact congrArg (c :: ·) (htail depth false)
    | opening tag =>
      have hdepth := preDepth_opening (IsTag.name_mem htoken) depth (Token.printAll rest)
      change compactFrom depth inRun ('<' :: (tag.inside ++ Token.printAll rest)) = _
      rw [compactFrom_cons_of_not_blank (by decide)]
      change '<' :: compactFrom (preDepth depth (Token.print (.opening tag) ++ Token.printAll rest))
        false (tag.inside ++ Token.printAll rest) = _
      rw [hdepth, compactFrom_inside htoken, htail]
      rfl
    | closing name =>
      have hdepth := preDepth_closing (show name ∈ closedNames from htoken) depth
        (Token.printAll rest)
      have hall : ∀ name ∈ closedNames, IsSteady ('/' :: name.toList ++ ['>']) := by decide
      change compactFrom depth inRun ('<' :: ('/' :: name.toList ++ ['>'] ++ Token.printAll rest)) = _
      rw [compactFrom_cons_of_not_blank (by decide)]
      change '<' :: compactFrom (preDepth depth (Token.print (.closing name) ++ Token.printAll rest))
        false ('/' :: name.toList ++ ['>'] ++ Token.printAll rest) = _
      rw [hdepth, compactFrom_append_of_isSteady (hall name htoken), htail]
      rfl

theorem isWritten_compactTokens {tokens : List Token} (h : ∀ token ∈ tokens, IsWritten token)
    (depth : Nat) (inRun : Bool) : ∀ token ∈ compactTokens depth inRun tokens, IsWritten token := by
  induction tokens generalizing depth inRun with
  | nil => exact fun _ hmem => absurd hmem List.not_mem_nil
  | cons token rest ih =>
    obtain ⟨htoken, hrest⟩ := List.forall_mem_cons.mp h
    have htail := ih hrest
    have hspace : IsWritten (.char ' ') := by
      change ' ' ≠ '<' ∧ ' ' ≠ '>'
      decide
    cases token with
    | char c =>
      rw [compactTokens]
      split
      · split
        · exact htail depth true
        · exact List.forall_mem_cons.mpr ⟨hspace, htail depth true⟩
      · exact List.forall_mem_cons.mpr ⟨htoken, htail depth false⟩
    | opening tag =>
      exact List.forall_mem_cons.mpr ⟨((isThinning_compactFrom _).isTag htoken).1, htail _ false⟩
    | closing name => exact List.forall_mem_cons.mpr ⟨htoken, htail _ false⟩

theorem marks_compactTokens {tokens : List Token} (h : ∀ token ∈ tokens, IsWritten token)
    (depth : Nat) (inRun : Bool) : marks (compactTokens depth inRun tokens) = marks tokens := by
  induction tokens generalizing depth inRun with
  | nil => rfl
  | cons token rest ih =>
    obtain ⟨htoken, hrest⟩ := List.forall_mem_cons.mp h
    have htail := ih hrest
    cases token with
    | char c =>
      rw [compactTokens]
      split
      · split
        · exact htail depth true
        · exact htail depth true
      · exact htail depth false
    | opening tag =>
      have hmark := ((isThinning_compactFrom (if tag.name = "pre" then depth + 1 else depth)).isTag
        htoken).2
      simp only [compactTokens, marks, List.filterMap_cons, hmark]
      split
      · exact htail _ false
      · exact congrArg _ (htail _ false)
    | closing name => exact congrArg (Mark.closes name :: ·) (htail _ false)

theorem isFragment_compactTokens {tokens : List Token} (h : IsFragment tokens) (depth : Nat)
    (inRun : Bool) : IsFragment (compactTokens depth inRun tokens) :=
  ⟨isWritten_compactTokens h.written depth inRun,
    (marks_compactTokens h.written depth inRun).symm ▸ h.nested⟩

/-! ### Bodies -/

theorem prints_promote {tokens : List Token} (h : IsFragment tokens) :
    Prints (promote (Token.printAll tokens)) := by
  obtain ⟨promoted, hprint, hpromoted⟩ := prints_printAll_classifyAll h
  refine ⟨promoted.filterMap strip?, ?_, isFragment_strip hpromoted⟩
  rw [promote, ← hprint, stripSeparators_printAll hpromoted.written]

theorem prints_compact {tokens : List Token} (h : IsFragment tokens) :
    Prints (compact (Token.printAll tokens)) := by
  have hcompact := isFragment_compactTokens h 0 false
  refine ⟨_, ?_, (hcompact.dropWhile isBlank).dropTailTokens isBlank⟩
  rw [compact, compactFrom_printAll h.written, trim, trimStart, trimEnd,
    dropWhile_printAll (by decide), dropTail_printAll (by decide)]

theorem prints_render (resolver : Resolver) (nodes : List Node) :
    Prints (render resolver nodes) := by
  have hraw : IsFragment (rawTokens resolver nodes) := isFragment_htmlOfAll resolver nodes
  obtain ⟨promoted, hpromote, hpromoted⟩ := prints_promote hraw
  rw [render, ← printAll_rawTokens, ← hpromote]
  exact prints_compact hpromoted

/-- The body of every message, whatever its texts and the resolver are, reads as tags that a body
may have and characters between them, with no element left open, closed twice or closed out of
order, and no line break in a headline. -/
theorem exists_read_render (resolver : Resolver) (nodes : List Node) :
    ∃ tokens, Token.read? (render resolver nodes) = some tokens ∧
      (∀ token ∈ tokens, IsWritten token) ∧ nest? [] (marks tokens) = some [] := by
  obtain ⟨tokens, hprint, htokens⟩ := prints_render resolver nodes
  refine ⟨tokens, ?_, htokens.written, htokens.nested⟩
  rw [← hprint]
  exact Token.read?_printAll tokens fun token htoken => (htokens.written token htoken).isLexical

end Gazette.Body
