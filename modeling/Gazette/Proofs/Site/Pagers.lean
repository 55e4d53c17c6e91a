import Gazette.Proofs.Body.Marked
import Gazette.Proofs.Markup.Skeleton
import Gazette.Proofs.Markup.Unescaping
import Gazette.Proofs.Site.Pages

/-!
# Links in pagers

Whoever turns the pages of a listing knows only the text of the page, in which the cards may hold
anything. The pager is the last of its kind in the text, and behind its beginning everything can be
read, since nothing is left there that was printed before. So its links are found in the text, and
unescaped they are those that the pager was made of (`pagerTarget?_shell`).
-/

namespace Gazette

open Text (after? isPart)

/-! ### The last place of a part -/

namespace Text

/-- The text behind the last place of a part. -/
def behindLast? (part : List Char) : List Char → Option (List Char)
  | [] => none
  | c :: rest => (behindLast? part rest).or (after? part (c :: rest))

theorem behindLast?_of_isPart {part s : List Char} (h : isPart part s = false) :
    behindLast? part s = none := by
  induction s with
  | nil => rfl
  | cons c s ih =>
    rw [isPart, Bool.or_eq_false_iff, Option.isSome_eq_false_iff, Option.isNone_iff_eq_none] at h
    rw [behindLast?, ih h.2, h.1, Option.none_or]

/-- A part whose first character does not occur in it again has no place that begins within it. -/
theorem behindLast?_append {c : Char} {part rest : List Char} (hpart : c ∉ part)
    (hrest : isPart (c :: part) rest = false) (before : List Char) :
    behindLast? (c :: part) (before ++ (c :: part ++ rest)) = some rest := by
  induction before with
  | nil =>
    have hwithin : isPart (c :: part) (part ++ rest) = false := by
      rw [Body.isPart_append_of_notMem hpart, hrest]
    have hafter : after? (c :: part) (c :: part ++ rest) = some rest :=
      after?_eq_some_iff.mpr rfl
    rw [List.nil_append, List.cons_append, behindLast?, behindLast?_of_isPart hwithin,
      Option.none_or]
    exact hafter
  | cons d before ih => rw [List.cons_append, behindLast?, ih, Option.some_or]

end Text

/-! ### Links among tokens -/

namespace Token

/-- The target of the first link that has a text, as it stands in the tag. -/
def linked? (label : List Char) : List Token → Option (List Char)
  | [] => none
  | opening tag :: rest =>
    if tag.name = "a" ∧ (label.map char ++ [closing "a"]) <+: rest then
      (tag.attributes.lookup "href").join
    else linked? label rest
  | char _ :: rest | closing _ :: rest => linked? label rest

end Token

namespace Page

def pagerTag : Tag := Markup.tag "nav" [.value "class" "pager"]

/-- The target of a link in the pager of a page, which is read from the text of the page. -/
def pagerTarget? (text label : String) : Option String := do
  let rest ← Text.behindLast? (Token.print (.opening pagerTag)) text.toList
  let tokens ← Token.read? rest
  let target ← Token.linked? label.toList (tokens.takeWhile (· ≠ .closing "nav"))
  return String.ofList (Markup.unescape target)

end Page

/-! ### What stands behind a pager -/

/-- Whether some tokens can be read where they are printed, and none of them begins a pager. -/
def Pagerless (tokens : List Token) : Prop :=
  ∀ token ∈ tokens, token.IsLexical ∧ token ≠ .opening Page.pagerTag

namespace Pagerless

variable {a b : List Token} {name : String} {attributes : List Attribute} {children : List Markup}

theorem nil : Pagerless [] := fun _ h => absurd h List.not_mem_nil

theorem append (ha : Pagerless a) (hb : Pagerless b) : Pagerless (a ++ b) :=
  List.forall_mem_append.mpr ⟨ha, hb⟩

theorem closing (hname : isName name = true) (h : Pagerless a) :
    Pagerless (.closing name :: a) :=
  List.forall_mem_cons.mpr ⟨⟨hname, Token.noConfusion⟩, h⟩

theorem text (content : String) : Pagerless (Markup.text content).tokens := by
  intro token htoken
  rw [Markup.tokens] at htoken
  obtain ⟨c, hc, rfl⟩ := List.mem_map.mp htoken
  exact ⟨fun heq => (Body.mem_escape hc).2.1 heq, Token.noConfusion⟩

theorem element (hname : Markup.isPlainTag name attributes = true) (hnav : name ≠ "nav")
    (h : Pagerless (Markup.tokensOfAll children)) :
    Pagerless (Markup.element name attributes children).tokens := by
  have htag := Markup.isLexical_tag hname
  have hopening : Token.opening (Markup.tag name attributes) ≠ .opening Page.pagerTag :=
    fun heq => hnav (congrArg Tag.name (Token.opening.inj heq))
  rw [Markup.tokens]
  exact List.forall_mem_cons.mpr ⟨⟨htag, hopening⟩, h.append (nil.closing htag.1)⟩

theorem link (target label : String) : Pagerless (Markup.link target [.text label]).tokens := by
  refine element (show Markup.arePlainNames "a" ["href"] = true by decide) (by decide) ?_
  rw [Markup.tokensOfAll, Markup.tokensOfAll, List.append_nil]
  exact text label

/-- Behind its beginning, the pager is not found again. -/
theorem behindLast?_printAll (h : Pagerless a) (before : List Char) :
    Text.behindLast? (Token.print (.opening Page.pagerTag))
        (before ++ (Token.print (.opening Page.pagerTag) ++ Token.printAll a)) =
      some (Token.printAll a) := by
  have hlexical : (Token.opening Page.pagerTag).IsLexical := Markup.isLexical_tag (by decide)
  have hpart := Body.isPart_printAll_append hlexical (fun _ => Token.noConfusion)
    (fun token htoken => (h token htoken).1) (fun hmem => (h _ hmem).2 rfl) []
  obtain ⟨s, hprint, hs⟩ := Body.print_tag_eq hlexical fun _ => Token.noConfusion
  have hopen : '<' ∉ s ++ ['>'] := by simpa using hs '<' (.inl rfl)
  rw [List.append_nil] at hpart
  rw [hprint] at hpart ⊢
  exact Text.behindLast?_append hopen hpart before

end Pagerless

/-! ### Pages with a pager -/

namespace Page

open Markup (printAll tokensOfAll)

/-- What stands in a pager. -/
def pagerLinks (base : String) (page : Int) (hasNext : Bool) : List Markup :=
  [.plain "span"
      (if 1 < page then [.link (pageAddress base (page - 1)) [.text "Previous Page"]] else []),
    .plain "span"
      (if hasNext then [.link (pageAddress base (page + 1)) [.text "Next Page"]] else [])]

/-- What stands behind the content of a page. -/
def footing (context : FeedContext) : List Token :=
  .closing "main" ::
    ((Markup.classed "footer" "footer"
        [.link (context.pathTo "/feed.rss") [.text "RSS Feed"]]).tokens ++
      [.closing "body", .closing "html"])

theorem pagerless_footing (context : FeedContext) : Pagerless (footing context) := by
  refine .closing (by decide) (.append (.element (by decide) (by decide) ?_) ?_)
  · rw [tokensOfAll, tokensOfAll, List.append_nil]
    exact .link _ _
  · exact .closing (by decide) (.closing (by decide) .nil)

theorem pagerless_pagerLinks (base : String) (page : Int) (hasNext : Bool) :
    Pagerless (tokensOfAll (pagerLinks base page hasNext)) := by
  have hlink (condition : Prop) [Decidable condition] (target label : String) :
      Pagerless (Markup.plain "span"
        (if condition then [.link target [.text label]] else [])).tokens := by
    refine .element (by decide) (by decide) ?_
    split
    · rw [tokensOfAll, tokensOfAll, List.append_nil]
      exact .link _ _
    · exact .nil
  rw [pagerLinks, tokensOfAll, tokensOfAll, tokensOfAll, List.append_nil]
  exact (hlink _ _ _).append (hlink _ _ _)

theorem exists_printAll_shell (context : FeedContext) (title canonical : String)
    (summary : PageSummary) (content : List Markup) (last : Markup) :
    ∃ front, printAll (shell context title canonical summary (content ++ [last])) =
      front ++ (last.print ++ Token.printAll (footing context)) := by
  refine ⟨"<!DOCTYPE html>".toList ++ Markup.openingTag "html" [.value "lang" "en"] ++
    (head context title canonical summary).print ++ Markup.openingTag "body" [] ++
    (masthead context).print ++ Markup.openingTag "main" [] ++ printAll content, ?_⟩
  have hclosing (name : String) : Token.print (.closing name) = Markup.closingTag name := rfl
  simp only [shell, footing, Markup.plain, printAll, Markup.print, Markup.printAll_append,
    Token.printAll_cons, Token.printAll_append, Token.printAll_nil, Markup.printAll_tokens,
    hclosing, List.append_assoc, List.append_nil]

/-- The links of a pager, each with the way it is found. -/
theorem linked?_pagerLinks (base : String) (page : Int) (hasNext : Bool) (rest : List Token) :
    let tokens := (tokensOfAll (pagerLinks base page hasNext) ++ .closing "nav" :: rest).takeWhile
      (· ≠ .closing "nav")
    Token.linked? "Previous Page".toList tokens =
        (if 1 < page then some (Markup.escape (pageAddress base (page - 1)).toList) else none) ∧
      Token.linked? "Next Page".toList tokens =
        (if hasNext then some (Markup.escape (pageAddress base (page + 1)).toList) else none) := by
  by_cases hpage : 1 < page
  · simp only [pagerLinks, if_pos hpage]
    cases hasNext <;> exact ⟨rfl, rfl⟩
  · simp only [pagerLinks, if_neg hpage]
    cases hasNext <;> exact ⟨rfl, rfl⟩

/-- The links of a page's pager are found in its text, whatever its content is. -/
theorem pagerTarget?_shell (context : FeedContext) (title canonical : String)
    (summary : PageSummary) (content : List Markup) (base : String) (page : Int) (hasNext : Bool) :
    let text := Markup.render (shell context title canonical summary
      (content ++ [pager base page hasNext]))
    pagerTarget? text "Previous Page" =
        (if 1 < page then some (pageAddress base (page - 1)) else none) ∧
      pagerTarget? text "Next Page" =
        (if hasNext then some (pageAddress base (page + 1)) else none) := by
  let behind := tokensOfAll (pagerLinks base page hasNext) ++ .closing "nav" :: footing context
  have hbehind : Pagerless behind := (pagerless_pagerLinks base page hasNext).append
    (.closing (by decide) (pagerless_footing context))
  obtain ⟨front, hfront⟩ := exists_printAll_shell context title canonical summary content
    (pager base page hasNext)
  have hpager : (pager base page hasNext).print ++ Token.printAll (footing context) =
      Token.print (.opening pagerTag) ++ Token.printAll behind := by
    rw [pagerTag, Markup.print_tag, Token.printAll_append, Token.printAll_cons,
      Markup.printAll_tokensOfAll, pager, Markup.classed, Markup.print, List.append_assoc,
      List.append_assoc]
    rfl
  have hread : Token.read? (Token.printAll behind) = some behind :=
    Token.read?_printAll behind fun token htoken => (hbehind token htoken).1
  have htarget : ∀ label, pagerTarget? (Markup.render (shell context title canonical summary
      (content ++ [pager base page hasNext]))) label =
        (Token.linked? label.toList (behind.takeWhile (· ≠ .closing "nav"))).map fun target =>
          String.ofList (Markup.unescape target) := by
    intro label
    rw [pagerTarget?, Markup.render, String.toList_ofList, hfront, hpager,
      hbehind.behindLast?_printAll]
    change (Token.read? (Token.printAll behind)).bind _ = _
    rw [hread]
    exact Option.map_eq_bind.symm
  obtain ⟨hprevious, hnext⟩ := linked?_pagerLinks base page hasNext (footing context)
  have hunescape : ∀ target : String,
      String.ofList (Markup.unescape (Markup.escape target.toList)) = target := by
    intro target
    rw [Markup.unescape_eq (Markup.escapes_escape target.toList), String.ofList_toList]
  dsimp only
  rw [htarget, htarget, hprevious, hnext]
  constructor
  · split
    · rw [Option.map_some, hunescape]
    · rfl
  · split
    · rw [Option.map_some, hunescape]
    · rfl

end Page

end Gazette
