import Gazette.Index.Post
import Gazette.Proofs.Body.FirstHeading
import Gazette.Proofs.Node.PlainLines

/-!
# Titles and headings

The title of a post is taken from the plain text of its message, and the headings of its body from the
top-level lines of the markup. Both go over the same lines, but what makes a line a heading is not the
same for both: newlines and signs inside of elements count in the plain text only, and a sign with
another blank than a space behind it counts in the markup only. So a line is compared with itself: the
two give the same heading for it exactly if it is one in both and shows nothing else
(`ink_title?_eq_iff`). If that is so for the first line that is a heading in either, the title is what
is seen of the first `<h1>` of the body (`title_ofDocument`).
-/

namespace Gazette

namespace Body

open Markup (Escapes unescape unescape_cons lineBreakText separatorChar)
open Node (Agrees blankSeparators seenText)
open Text (after? behind? dropTail isBlank isPart trim trimEnd trimStart)

/-! ### The ink of lines -/

theorem ink_cons_of_shown {c : Char} (hc : isFiller c = false) (s : List Char) :
    ink (c :: s) = c :: ink s :=
  List.filter_cons_of_pos (by simp [hc])

theorem ink_eq_nil_iff {s : List Char} : ink s = [] ↔ ∀ c ∈ s, isFiller c = true := by
  simp [ink]

theorem ink_dropWhile {p : Char → Bool} (hp : ∀ c, p c = true → isFiller c = true)
    (s : List Char) : ink (s.dropWhile p) = ink s := by
  have hhead : ink (s.takeWhile p) = [] :=
    ink_eq_nil_iff.mpr fun c hc => hp c (List.all_eq_true.mp List.all_takeWhile c hc)
  rw [← List.nil_append (ink _), ← hhead, ← ink_append, List.takeWhile_append_dropWhile]

theorem ink_trim (s : List Char) : ink (trim s) = ink s := by
  have hblank : ∀ c, isBlank c = true → isFiller c = true := fun _ => isFiller_of_isBlank
  have hreverse : ∀ s, ink s.reverse = (ink s).reverse := fun s => List.filter_reverse
  rw [trim, trimEnd, dropTail, hreverse, ink_dropWhile hblank, hreverse, List.reverse_reverse,
    trimStart, ink_dropWhile hblank]

theorem ink_blankSeparators (s : List Char) : ink (blankSeparators s) = ink s := by
  induction s with
  | nil => rfl
  | cons c s ih =>
    have happend : ∀ c s, ink (c :: s) = ink [c] ++ ink s := fun c s => ink_append [c] s
    rw [blankSeparators, List.map_cons, ← blankSeparators, happend, ih, happend c]
    split
    · next hc =>
      rw [hc]
      rfl
    · rfl

theorem ink_eq_of_agrees {s t : List Char} (h : Agrees s t) : ink s = ink t := by
  rw [← ink_blankSeparators s, ← ink_blankSeparators t, h]

theorem ink_intercalate {c : Char} (hc : isFiller c = true) (texts : List (List Char)) :
    ink ([c].intercalate texts) = texts.flatMap ink := by
  induction texts with
  | nil => rfl
  | cons s rest ih =>
    cases rest with
    | nil => rw [List.intercalate_singleton, List.flatMap_singleton]
    | cons t rest =>
      rw [List.intercalate_cons_cons, ink_append, ink_append, ih,
        ink_eq_nil_iff.mpr (List.forall_mem_singleton.mpr hc), List.append_nil]
      rfl

theorem ink_eq_flatMap_splitOn (s : List Char) : ink s = (s.splitOn '\n').flatMap ink := by
  have hjoin := ink_intercalate (c := '\n') (by decide) (s.splitOn '\n')
  rwa [List.intercalate_splitOn] at hjoin

/-! ### Titles -/

theorem ink_eq_of_titleOf? {line title : List Char} (h : titleOf? line = some title) :
    ink line = '#' :: ink title := by
  unfold titleOf? at h
  cases hafter : after? ['#', ' '] (trimStart line) with
  | none =>
    rw [hafter] at h
    cases h
  | some rest =>
    rw [hafter] at h
    dsimp only at h
    split at h
    · cases h
    · cases h
      have hline : trimStart line = '#' :: ' ' :: rest := Text.after?_eq_some_iff.mp hafter
      rw [ink_trim, ← ink_dropWhile (p := isBlank) fun _ => isFiller_of_isBlank]
      change ink (trimStart line) = _
      rw [hline, ink_cons_of_shown (by decide), ink_cons_of_filler (by decide)]

theorem title?_intercalate {texts : List (List Char)} (h : texts ≠ []) :
    title? (['\n'].intercalate texts) = texts.findSome? title? := by
  rw [title?, Text.splitOn_intercalate_eq_flatMap h]
  induction texts with
  | nil => exact absurd rfl h
  | cons s rest ih =>
    rw [List.flatMap_cons, List.findSome?_append, List.findSome?_cons]
    cases rest with
    | nil =>
      change (title? s).or none = _
      cases title? s <;> rfl
    | cons t rest =>
      rw [ih (List.cons_ne_nil t rest)]
      change (title? s).or _ = _
      cases title? s <;> rfl

/-! ### Headings -/

/-- What is seen of the heading that a top-level line becomes. -/
def headingSeen? (row : List Token) : Option (List Char) :=
  (headingBody? row).map fun body => unescape (untag noSign body)

theorem signOf_newlineSign {token : Token} (h : IsWritten token) (hne : token ≠ .opening .lineBreak) :
    signOf newlineSign token = signOf noSign token := by
  have hsign : newlineSign token.print = [] := by
    refine if_neg fun heq => hne ?_
    have hlexical : (Token.opening .lineBreak).IsLexical := IsTag.lineBreak.isLexical
    exact print_injective h.isLexical hlexical (heq.trans Token.print_lineBreak.symm)
  cases token with
  | char c => rfl
  | opening tag => exact hsign
  | closing name => exact hsign

theorem ink_seenText_eq {row : List Token} {body s : List Char}
    (hwritten : ∀ token ∈ row, IsWritten token)
    (hescapes : Escapes (untag newlineSign (Token.printAll row)) (seenText row))
    (hbody : headingBody? row = some body) (hs : Thins (untag noSign body) s) :
    ink (seenText row) = '#' :: ink (unescape s) := by
  obtain ⟨blank, behind, hblank, hrow, rfl, hbehind, hinner⟩ := exists_behindSign? (by decide) hbody
  have hbreak : .opening .lineBreak ∉ row :=
    ((isSome_headingBody?_iff hwritten).mp (by rw [hbody]; rfl)).2
  have hread : untag newlineSign (Token.printAll row) = row.flatMap (signOf noSign) := by
    rw [untag_printAll fun token htoken => (hwritten token htoken).isLexical]
    exact List.flatMap_congr fun token htoken => signOf_newlineSign (hwritten token htoken)
      fun heq => hbreak (heq ▸ htoken)
  have hdrop : Thins (row.flatMap (signOf noSign)) _ :=
    (ThinsTokens.dropWhile (p := isFiller) (fun _ hc => hc) row).thins isStable_noSign hwritten
  have htail : Thins (behind.flatMap (signOf noSign)) _ :=
    (thinsTokens_dropTailTokens (p := isFiller) (fun _ hc => hc) behind).thins isStable_noSign
      fun token htoken => hwritten token (hbehind token htoken)
  rw [hrow, List.flatMap_append, flatMap_signOf_map_char] at hdrop
  rw [untag_printAll fun token htoken => (hwritten token (hinner token htoken)).isLexical] at hs
  rw [hread] at hescapes
  -- What is left of the line without fillers in front is the sign, the blank and the heading.
  have hthins : Thins (row.flatMap (signOf noSign)) ('#' :: s) :=
    hdrop.trans (((htail.trans hs).drop (isFiller_of_isBlank hblank)).keep '#')
  rw [← ink_unescape_eq hescapes hthins, unescape_cons (by decide), ink_cons_of_shown (by decide)]

/-! ### Lines that are headings -/

/-- Whether a line is no heading, neither in the markup nor in the plain text. -/
def IsNoHeading (row : List Token) (text : List Char) : Prop :=
  ¬ IsMarked ['#'] row ∧ title? text = none

/-- Whether a line is the same heading in the markup and in the plain text: it is promoted, and in
its plain text one line gives a title and the others show nothing. -/
structure IsOneHeading (row : List Token) (text : List Char) : Prop where
  marked : IsMarked ['#'] row
  line : ∃ before line after, text.splitOn '\n' = before ++ line :: after ∧
    (titleOf? line).isSome = true ∧ ∀ other ∈ before ++ after, ∀ c ∈ other, isFiller c = true

theorem IsOneHeading.exists_title? {row : List Token} {text : List Char}
    (h : IsOneHeading row text) :
    ∃ title, title? text = some title ∧ ink text = '#' :: ink title := by
  obtain ⟨before, line, after, hpieces, hline, hothers⟩ := h.line
  obtain ⟨title, htitle⟩ := Option.isSome_iff_exists.mp hline
  have hbefore : ∀ other ∈ before, ink other = [] := fun other hother =>
    ink_eq_nil_iff.mpr (hothers other (List.mem_append_left after hother))
  have hafter : ∀ other ∈ after, ink other = [] := fun other hother =>
    ink_eq_nil_iff.mpr (hothers other (List.mem_append_right before hother))
  have hnone : before.findSome? titleOf? = none := by
    refine List.findSome?_eq_none_iff.mpr fun other hother => ?_
    refine Option.eq_none_iff_forall_ne_some.mpr fun title htitle => ?_
    have hshown := ink_eq_of_titleOf? htitle
    rw [hbefore other hother] at hshown
    cases hshown
  refine ⟨title, ?_, ?_⟩
  · rw [title?, hpieces, List.findSome?_append, hnone, Option.none_or, List.findSome?_cons, htitle]
  · rw [ink_eq_flatMap_splitOn, hpieces, List.flatMap_append, List.flatMap_cons,
      List.flatMap_eq_nil_iff.mpr hbefore, List.flatMap_eq_nil_iff.mpr hafter, List.nil_append,
      List.append_nil, ink_eq_of_titleOf? htitle]

/-- If one line shows all that a text shows, nothing is left for the others. -/
theorem isFiller_of_ink_eq {text line : List Char} {before after : List (List Char)}
    (hpieces : text.splitOn '\n' = before ++ line :: after) (h : ink text = ink line) :
    ∀ other ∈ before ++ after, ∀ c ∈ other, isFiller c = true := by
  rw [ink_eq_flatMap_splitOn, hpieces, List.flatMap_append, List.flatMap_cons] at h
  have hlength := congrArg List.length h
  simp only [List.length_append] at hlength
  have hbefore : before.flatMap ink = [] := List.eq_nil_of_length_eq_zero (by omega)
  have hafter : after.flatMap ink = [] := List.eq_nil_of_length_eq_zero (by omega)
  intro other hother
  refine ink_eq_nil_iff.mp ?_
  rcases List.mem_append.mp hother with hother | hother
  · exact List.flatMap_eq_nil_iff.mp hbefore other hother
  · exact List.flatMap_eq_nil_iff.mp hafter other hother

section Row

variable {row : List Token} {text : List Char} (hwritten : ∀ token ∈ row, IsWritten token)
  (hescapes : Escapes (untag newlineSign (Token.printAll row)) (seenText row))
  (hagrees : Agrees (seenText row) text)

include hwritten

theorem headingSeen?_eq_none_iff : headingSeen? row = none ↔ ¬ IsMarked ['#'] row := by
  rw [← isSome_headingBody?_iff hwritten, headingSeen?, Option.map_eq_none_iff]
  cases headingBody? row <;> simp

include hescapes hagrees

theorem ink_eq_of_headingSeen? {seen : List Char} (h : headingSeen? row = some seen) :
    ink text = '#' :: ink seen := by
  obtain ⟨body, hbody, rfl⟩ := Option.map_eq_some_iff.mp h
  rw [← ink_eq_of_agrees hagrees, ink_seenText_eq hwritten hescapes hbody (.refl _)]

/-- A line has the same heading in the markup and in the plain text if and only if it is one heading
in both, or none. -/
theorem ink_title?_eq_iff : (title? text).map ink = (headingSeen? row).map ink ↔
    IsNoHeading row text ∨ IsOneHeading row text := by
  constructor
  · intro h
    cases hseen : headingSeen? row with
    | none =>
      rw [hseen, Option.map_none, Option.map_eq_none_iff] at h
      exact .inl ⟨(headingSeen?_eq_none_iff hwritten).mp hseen, h⟩
    | some seen =>
      rw [hseen, Option.map_some] at h
      obtain ⟨title, htitle, hink⟩ := Option.map_eq_some_iff.mp h
      obtain ⟨before, line, after, hpieces, hline, -⟩ := List.findSome?_eq_some_iff.mp htitle
      have hmarked : IsMarked ['#'] row := by
        by_contra hnone
        rw [(headingSeen?_eq_none_iff hwritten).mpr hnone] at hseen
        cases hseen
      -- The whole text shows what its heading does, and so does the one line that gives the title.
      have hwhole := ink_eq_of_headingSeen? hwritten hescapes hagrees hseen
      rw [← hink, ← ink_eq_of_titleOf? hline] at hwhole
      exact .inr ⟨hmarked, before, line, after, hpieces, by rw [hline]; rfl,
        isFiller_of_ink_eq hpieces hwhole⟩
  · rintro (⟨hnone, htitle⟩ | hone)
    · rw [htitle, (headingSeen?_eq_none_iff hwritten).mpr hnone, Option.map_none]
    · obtain ⟨title, htitle, hink⟩ := hone.exists_title?
      cases hseen : headingSeen? row with
      | none => exact absurd hone.marked ((headingSeen?_eq_none_iff hwritten).mp hseen)
      | some seen =>
        have hwhole := ink_eq_of_headingSeen? hwritten hescapes hagrees hseen
        rw [hink] at hwhole
        rw [htitle, Option.map_some, Option.map_some, (List.cons.inj hwhole).2]

end Row

/-! ### Messages -/

/-- The top-level lines of a message, each with its plain text. -/
def bothLines (resolver : Resolver) (nodes : List Node) : List (List Token × List Char) :=
  (topLines resolver nodes).zip (Node.plainLines resolver nodes)

/-- Whether the first of some lines that is a heading in either way is the same heading in both, if
there is one. -/
def BeginsAlike : List (List Token × List Char) → Prop
  | [] => True
  | (row, text) :: rest => IsOneHeading row text ∨ IsNoHeading row text ∧ BeginsAlike rest

variable {resolver : Resolver} {nodes : List Node}

theorem ink_title?_eq_iff_of_mem (h : Node.Resolves resolver (Node.mentionsOfAll nodes))
    {row : List Token} {text : List Char} (hmem : (row, text) ∈ bothLines resolver nodes) :
    (title? text).map ink = (headingSeen? row).map ink ↔
      IsNoHeading row text ∨ IsOneHeading row text := by
  have hrow : row ∈ topLines resolver nodes := (List.of_mem_zip hmem).1
  have hagrees := (List.forall₂_iff_zip.mp (Node.plainLines_spec h).2).2 hmem
  exact ink_title?_eq_iff (isFragment_of_mem_topLines hrow).written
    ((Node.seenAll_eq_intercalate resolver nodes).2 row hrow) hagrees

theorem ink_findSome?_eq {lines : List (List Token × List Char)}
    (h : ∀ row text, (row, text) ∈ lines → ((title? text).map ink = (headingSeen? row).map ink ↔
      IsNoHeading row text ∨ IsOneHeading row text)) (halike : BeginsAlike lines) :
    (lines.findSome? fun line => title? line.2).map ink =
      (lines.findSome? fun line => headingSeen? line.1).map ink := by
  induction lines with
  | nil => rfl
  | cons line rest ih =>
    obtain ⟨row, text⟩ := line
    have hline := (h row text List.mem_cons_self).mpr
    have hrest := ih fun row text hmem => h row text (List.mem_cons_of_mem _ hmem)
    rw [List.findSome?_cons, List.findSome?_cons]
    rcases halike with hone | ⟨hnone, halike⟩
    · obtain ⟨title, htitle, -⟩ := hone.exists_title?
      have hsame := hline (.inr hone)
      rw [htitle, Option.map_some] at hsame
      obtain ⟨seen, hseen, hink⟩ := Option.map_eq_some_iff.mp hsame.symm
      rw [htitle, hseen]
      exact congrArg some hink.symm
    · have hsame := hline (.inl hnone)
      rw [hnone.2, Option.map_none, eq_comm, Option.map_eq_none_iff] at hsame
      rw [hnone.2, hsame]
      exact hrest halike

theorem map_eq_of_rel {α β γ : Type} {r : α → β → Prop} {f : α → γ} {g : β → γ} {a : Option α}
    {b : Option β} (h : Option.Rel r a b) (hmap : ∀ x y, a = some x → r x y → f x = g y) :
    a.map f = b.map g := by
  cases h with
  | some h => exact congrArg some (hmap _ _ rfl h)
  | none => rfl

/-- What is seen of the first heading of a body is what is seen of the first line that becomes one. -/
theorem ink_firstHeading?_render (resolver : Resolver) (nodes : List Node) :
    (firstHeading? (render resolver nodes)).map ink =
      ((topLines resolver nodes).findSome? headingSeen?).map ink := by
  have hseen : (topLines resolver nodes).findSome? headingSeen? =
      ((topLines resolver nodes).findSome? headingBody?).map fun body =>
        unescape (untag noSign body) := List.map_findSome?.symm
  rw [hseen, firstHeading?, Option.map_map, Option.map_map]
  refine (map_eq_of_rel (rel_headingText?_render resolver nodes) fun body s hbody hthins => ?_).symm
  obtain ⟨before, row, after, hrows, hrow, -⟩ := List.findSome?_eq_some_iff.mp hbody
  have hmem : row ∈ topLines resolver nodes := by
    rw [hrows]
    exact List.mem_append_right before List.mem_cons_self
  have hwritten := (isFragment_of_mem_topLines hmem).written
  have hescapes := (Node.seenAll_eq_intercalate resolver nodes).2 row hmem
  have hwhole := ink_seenText_eq hwritten hescapes hrow (.refl _)
  rw [ink_seenText_eq hwritten hescapes hrow hthins] at hwhole
  exact (List.cons.inj hwhole).2.symm

end Body

namespace Post

open Body
open Node (Agrees Resolves mentionsOfAll plainLines plainOfAll seenText)
open Text (isPart)

/-- The plain text of a message is cut where its markup is, and the title is the first that one of its
lines gives, while the first `<h1>` of the body is that of the first line that is promoted. A line
gives the same for both exactly if it is one heading in both, or none. If the first line that is a
heading in either way is one heading in both, there is a title exactly if the body has an `<h1>`, and
blanks and separators apart the title is what is seen of the first one. -/
theorem title_ofDocument (resolver : Resolver) (options : PostOptions) (document : Document)
    (h : Resolves resolver (mentionsOfAll document.nodes)) :
    plainOfAll resolver document.nodes = ['\n'].intercalate (plainLines resolver document.nodes) ∧
      List.Forall₂ (fun row text => Agrees (seenText row) text) (topLines resolver document.nodes)
        (plainLines resolver document.nodes) ∧
      (ofDocument resolver options document).1.title.map String.toList =
        (plainLines resolver document.nodes).findSome? title? ∧
      (firstHeading? (ofDocument resolver options document).2.toList).map ink =
        ((topLines resolver document.nodes).findSome? headingSeen?).map ink ∧
      (∀ row text, (row, text) ∈ bothLines resolver document.nodes →
        ((title? text).map ink = (headingSeen? row).map ink ↔
          IsNoHeading row text ∨ IsOneHeading row text)) ∧
      (BeginsAlike (bothLines resolver document.nodes) →
        ((ofDocument resolver options document).1.title.isSome = true ↔
          isPart "<h1>".toList (ofDocument resolver options document).2.toList = true) ∧
        ∀ title, (ofDocument resolver options document).1.title = some title →
          ∃ heading, firstHeading? (ofDocument resolver options document).2.toList = some heading ∧
            ink title.toList = ink heading) := by
  obtain ⟨hplain, hagrees⟩ := Node.plainLines_spec h
  have hlines : ∀ row text, (row, text) ∈ bothLines resolver document.nodes →
      ((title? text).map ink = (headingSeen? row).map ink ↔
        IsNoHeading row text ∨ IsOneHeading row text) :=
    fun row text hmem => ink_title?_eq_iff_of_mem h hmem
  have hne : plainLines resolver document.nodes ≠ [] := by
    intro hnil
    rw [hnil] at hagrees
    exact Node.topLines_ne_nil _ _ (List.forall₂_nil_right_iff.mp hagrees)
  have htitle : (ofDocument resolver options document).1.title.map String.toList =
      (plainLines resolver document.nodes).findSome? title? := by
    have hofList : (ofDocument resolver options document).1.title =
        (title? (plainOfAll resolver document.nodes)).map String.ofList := rfl
    rw [hofList, Option.map_map, hplain, title?_intercalate hne]
    simp [Function.comp_def]
  have hbody : (ofDocument resolver options document).2.toList =
      render resolver document.nodes := String.toList_ofList
  have hheading := ink_firstHeading?_render resolver document.nodes
  rw [hbody]
  refine ⟨hplain, hagrees, htitle, hheading, hlines, fun halike => ?_⟩
  have hsame := ink_findSome?_eq hlines halike
  change (List.findSome? (title? ∘ Prod.snd) _).map ink =
    (List.findSome? (headingSeen? ∘ Prod.fst) _).map ink at hsame
  rw [← List.findSome?_map, ← List.findSome?_map, bothLines,
    List.map_snd_zip (Nat.le_of_eq hagrees.length_eq.symm),
    List.map_fst_zip (Nat.le_of_eq hagrees.length_eq), ← htitle, ← hheading] at hsame
  refine ⟨?_, fun title hsome => ?_⟩
  · have hissome := congrArg Option.isSome hsame
    rw [Option.isSome_map, Option.isSome_map, Option.isSome_map, isSome_firstHeading?] at hissome
    rw [hissome]
  · rw [hsome, Option.map_some, Option.map_some] at hsame
    obtain ⟨heading, hsomeHeading, hink⟩ := Option.map_eq_some_iff.mp hsame.symm
    exact ⟨heading, hsomeHeading, hink.symm⟩

/-- A heading that an element stands in. -/
def sampleHeading : Document :=
  { Document.blank with nodes := [.text "# Big", .styled .strong (.text "news")] }

theorem title_ofDocument_sample :
    Resolves Entities.empty.resolver (mentionsOfAll sampleHeading.nodes) ∧
      BeginsAlike (bothLines Entities.empty.resolver sampleHeading.nodes) ∧
      ∃ heading, firstHeading?
          (ofDocument Entities.empty.resolver ⟨.utc, []⟩ sampleHeading).2.toList = some heading ∧
        ink "Big news".toList = ink heading := by
  have hresolves : Resolves Entities.empty.resolver (mentionsOfAll sampleHeading.nodes) := by decide
  have halike : BeginsAlike (bothLines Entities.empty.resolver sampleHeading.nodes) := by
    refine .inl ⟨⟨⟨[], ' ', _, rfl, by simp, by decide, 'B', by decide, by decide⟩, by decide⟩, [],
      "# Big news".toList, [], by decide, by decide, by simp⟩
  obtain ⟨-, -, -, -, -, htitle⟩ :=
    title_ofDocument Entities.empty.resolver ⟨.utc, []⟩ sampleHeading hresolves
  exact ⟨hresolves, halike, (htitle halike).2 "Big news" (by decide)⟩

/-- A comment in a block of code gives a title, and no heading. A sign with a tab behind it makes a
heading, and gives no title. -/
theorem exists_title_without_heading :
    ∃ resolver options code tab,
      Resolves resolver (mentionsOfAll code.nodes) ∧ Resolves resolver (mentionsOfAll tab.nodes) ∧
      (ofDocument resolver options code).1.title = some "x" ∧
      isPart "<h1>".toList (ofDocument resolver options code).2.toList = false ∧
      (ofDocument resolver options tab).1.title = none ∧
      isPart "<h1>".toList (ofDocument resolver options tab).2.toList = true := by
  let code := { Document.blank with nodes := [.codeBlock none (.text "# x")] }
  let tab := { Document.blank with nodes := [.text "#\tNews"] }
  have hpart : ∀ document : Document,
      isPart "<h1>".toList (ofDocument Entities.empty.resolver ⟨.utc, []⟩ document).2.toList =
        ((topLines Entities.empty.resolver document.nodes).findSome? headingSeen?).isSome := by
    intro document
    have hsame := congrArg Option.isSome
      (ink_firstHeading?_render Entities.empty.resolver document.nodes)
    rw [Option.isSome_map, Option.isSome_map, isSome_firstHeading?] at hsame
    rw [← hsame]
    exact congrArg _ String.toList_ofList
  refine ⟨Entities.empty.resolver, ⟨.utc, []⟩, code, tab, by decide, by decide, by decide, ?_,
    by decide, ?_⟩
  · rw [hpart]
    decide
  · rw [hpart]
    decide

end Post

end Gazette
