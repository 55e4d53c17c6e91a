import Gazette.Proofs.Body.Compacting
import Gazette.Proofs.Index.Bylines
import Gazette.Proofs.Markup.Skeleton
import Gazette.Proofs.Site.Walks
import Gazette.Site.Fault
import Gazette.Site.Pages

/-!
# Skeletons of the pages of a feed

Cards are printed before they are put into pages, and bodies before they are put into cards. Both have
calm skeletons, and so have all pieces of a page but its script.
-/

namespace Gazette

open Markup (AreSound blankTag elementTags tagsOfAll)

/-! ### Bodies -/

namespace Body

theorem filterMap_mark?_sketch? (tokens : List Token) :
    (tokens.filterMap Token.sketch?).filterMap Token.mark? = tokens.filterMap Token.mark? := by
  rw [List.filterMap_filterMap]
  refine List.filterMap_congr fun token _ => ?_
  cases token with
  | char c | closing name => rfl
  | opening tag =>
    cases hscript : isScriptName tag.name <;> simp [Token.sketch?, hscript, Token.mark?, Tag.mapValues]

/-- A mark as a page sees it, which knows no headlines. -/
def pageMark? : Mark → Option Mark
  | .opens name _ => some (.opens name false)
  | .breaks => none
  | .closes name => some (.closes name)

def withoutHeadlines (stack : OpenElements) : OpenElements := stack.map fun top => (top.1, false)

/-- A page counts the open elements as a body does. -/
theorem nest?_pageMark? {stack next : OpenElements} {marks : List Mark}
    (h : nest? stack marks = some next) :
    nest? (withoutHeadlines stack) (marks.filterMap pageMark?) = some (withoutHeadlines next) := by
  induction marks generalizing stack with
  | nil =>
    cases h
    rfl
  | cons mark marks ih =>
    rw [nest?] at h
    obtain ⟨middle, hmark, hrest⟩ := Option.bind_eq_some_iff.mp h
    cases mark with
    | opens name isHeadline =>
      cases hmark
      exact ih hrest
    | breaks =>
      rw [Mark.step?] at hmark
      split at hmark
      · cases hmark
      · cases hmark
        exact ih hrest
    | closes name =>
      have hstep : Mark.step? (withoutHeadlines stack) (.closes name) =
          some (withoutHeadlines middle) := by
        cases stack with
        | nil => cases hmark
        | cons top stack =>
          by_cases htop : top.1 = name
          · simp only [Mark.step?, htop, if_true, Option.some.injEq] at hmark
            simp [withoutHeadlines, Mark.step?, htop, hmark]
          · simp [Mark.step?, htop] at hmark
      rw [List.filterMap_cons_some (show pageMark? (.closes name) = _ from rfl), nest?, hstep,
        Option.bind_some]
      exact ih hrest

theorem mark?_eq_pageMark? {token : Token} (h : IsWritten token) :
    Token.mark? token = (mark? token).bind pageMark? := by
  cases token with
  | char c | closing name => rfl
  | opening tag =>
    have hnames : ∀ name ∈ tagNames, name ∈ unclosedNames ↔ name = "br" ∨ name = "img" := by decide
    have hunclosed := hnames tag.name (IsTag.name_mem h)
    by_cases hbreak : tag.name = "br"
    · rw [Token.mark?, mark?, if_pos (hunclosed.mpr (.inl hbreak)), if_pos hbreak]
      rfl
    by_cases himage : tag.name = "img"
    · rw [Token.mark?, mark?, if_pos (hunclosed.mpr (.inr himage)), if_neg hbreak, if_pos himage]
      rfl
    · rw [Token.mark?, mark?, if_neg fun hmem => (hunclosed.mp hmem).elim hbreak himage,
        if_neg hbreak, if_neg himage]
      rfl

theorem nest?_mark? {tokens : List Token} (h : IsFragment tokens) :
    nest? [] (tokens.filterMap Token.mark?) = some [] := by
  have hmarks : tokens.filterMap Token.mark? = (marks tokens).filterMap pageMark? := by
    rw [marks, List.filterMap_filterMap]
    exact List.filterMap_congr fun token htoken => mark?_eq_pageMark? (h.written token htoken)
  rw [hmarks]
  exact nest?_pageMark? h.nested

/-- A fragment of a body has a calm skeleton. -/
theorem IsFragment.exists_skeleton {tokens : List Token} (h : IsFragment tokens) :
    ∃ tags, skeleton (Token.printAll tokens) = some tags ∧ IsCalm tags := by
  refine ⟨_, skeleton_printAll fun token htoken => (h.written token htoken).isLexical, ?_, ?_⟩
  · rw [filterMap_mark?_sketch?]
    exact nest?_mark? h
  · rw [List.filterMap_filterMap]
    refine List.filterMap_eq_nil_iff.mpr fun token htoken => ?_
    have hnames : ∀ name ∈ tagNames, isScriptName name = false := by decide
    cases token with
    | char c | closing name => rfl
    | opening tag =>
      have hname := hnames tag.name (IsTag.name_mem (h.written _ htoken))
      simp [Token.sketch?, hname, Token.script?, Tag.mapValues]

theorem exists_skeleton_render (resolver : Resolver) (nodes : List Node) :
    ∃ tags, skeleton (render resolver nodes) = some tags ∧ IsCalm tags := by
  obtain ⟨tokens, hprint, hfragment⟩ := prints_render resolver nodes
  rw [← hprint]
  exact hfragment.exists_skeleton

end Body

/-! ### Cards -/

namespace Post

/-- The tags of a byline. -/
def bylineTags : List Token := tagsOfAll [byline "" "", .lineBreak]

theorem tags_byline (author date : String) :
    tagsOfAll [byline author date, .lineBreak] = bylineTags := by
  simp [bylineTags, byline, Markup.plain, Markup.tagsOfAll, Markup.tags]

theorem areSound_byline (author date : String) : AreSound [byline author date, .lineBreak] := by
  simp [byline, Markup.plain, Markup.AreSound, Markup.IsSound]
  decide

theorem printAll_byline {author date : String}
    (hdate : Markup.escape date.toList = date.toList) :
    Markup.printAll [byline author date, .lineBreak] =
      bylineText author date ++ Markup.lineBreakText := by
  have hwritten : Markup.escape "Written by ".toList = "Written by ".toList := by decide
  have hon : Markup.escape " on ".toList = " on ".toList := by decide
  simp only [byline, Markup.plain, Markup.printAll, Markup.print, hwritten, hon, hdate]
  unfold bylineText Markup.openingTag Markup.closingTag
  simp

/-- The tags of a card are those of its byline and those of the body. -/
theorem skeleton_card (resolver : Resolver) (options : PostOptions) (document : Document)
    {tags : List Token} (h : skeleton (Body.render resolver document.nodes) = some tags) :
    skeleton (ofDocument resolver options document).1.card.toList =
      some (bylineTags ++ tags) := by
  let offset := options.zone.offset document.createdAt.seconds
  have hbyline := Markup.skeleton_eq_tagsOfAll _
    (areSound_byline document.author.name (dated resolver offset document).date)
  rw [printAll_byline (escape_date resolver offset document), tags_byline] at hbyline
  rw [ofDocument_eq_dated, card_dated, ← List.append_assoc]
  exact skeleton_append hbyline h

theorem isCalm_bylineTags : IsCalm bylineTags :=
  Markup.areCalm_tagsOfAll _ (areSound_byline "" "")

end Post

/-! ### Documents -/

/-- The script that pages load. -/
def mainScript : Tag :=
  ⟨"script", [("src", some "/static/main.js".toList), ("defer", none)], false⟩

def doctype : Tag := ⟨"!DOCTYPE", [("html", none)], false⟩

/-- Whether tags are those of a document with some scripts: behind the type stands one element, and
everything in it is well nested. -/
def IsDocument (tags : List Token) (scripts : List Tag) : Prop :=
  ∃ inner, tags = .opening doctype :: elementTags "html" [.value "lang" ""] inner ∧
    nest? [] (inner.filterMap Token.mark?) = some [] ∧ inner.filterMap Token.script? = scripts

/-- Whether some markup is rendered to a document of some tags. -/
def RendersTo (pieces : List Markup) (tags : List Token) (scripts : List Tag) : Prop :=
  skeleton (Markup.render pieces).toList = some tags ∧ IsDocument tags scripts

/-- A page of some front matter, its scripts and its content. -/
def pageMarkup (front scripts content : List Markup) : List Markup :=
  [.verbatim "<!DOCTYPE html>",
    .element "html" [.value "lang" "en"] [.plain "head" (front ++ scripts), .plain "body" content]]

def pageTags (front scripts content : List Token) : List Token :=
  .opening doctype :: elementTags "html" [.value "lang" ""]
    (elementTags "head" [] (front ++ scripts) ++ elementTags "body" [] content)

def scriptMarkup : Markup := .element "script" [.value "src" "/static/main.js", .flag "defer"] []

def scriptTags : List Token := [.opening mainScript, .closing "script"]

section PageMarkup

variable {front scripts content : List Markup} {tags : List Token}

theorem skeleton_pageMarkup (hfront : AreSound front)
    (hscripts : skeleton (Markup.printAll scripts) = some tags) (hcontent : AreSound content) :
    skeleton (Markup.printAll (pageMarkup front scripts content)) =
      some (pageTags (tagsOfAll front) tags (tagsOfAll content)) := by
  have hdoctype : skeleton "<!DOCTYPE html>".toList = some [.opening doctype] := by decide
  have hhead : skeleton (Markup.print (.plain "head" (front ++ scripts))) =
      some (elementTags "head" [] (tagsOfAll front ++ tags)) := by
    rw [Markup.plain, Markup.print, Markup.printAll_append]
    exact Markup.skeleton_element (by decide)
      (skeleton_append (Markup.skeleton_eq_tagsOfAll front hfront) hscripts)
  have hbody : skeleton (Markup.print (.plain "body" content)) =
      some (elementTags "body" [] (tagsOfAll content)) :=
    Markup.skeleton_element (by decide) (Markup.skeleton_eq_tagsOfAll content hcontent)
  have hinner : skeleton (Markup.printAll
      [.plain "head" (front ++ scripts), .plain "body" content]) =
        some (elementTags "head" [] (tagsOfAll front ++ tags) ++
          elementTags "body" [] (tagsOfAll content)) := by
    rw [Markup.printAll, Markup.printAll, Markup.printAll, List.append_nil]
    exact skeleton_append hhead hbody
  rw [pageMarkup, Markup.printAll, Markup.printAll, Markup.printAll, List.append_nil]
  have hplain : Markup.isPlainTag "html" [.value "lang" "en"] = true := by decide
  exact skeleton_append hdoctype (Markup.skeleton_element hplain hinner)

theorem isDocument_pageTags {front scripts content : List Token} (hfront : IsCalm front)
    (hscripts : nest? [] (scripts.filterMap Token.mark?) = some []) (hcontent : IsCalm content) :
    IsDocument (pageTags front scripts content) (scripts.filterMap Token.script?) := by
  refine ⟨_, rfl, ?_, ?_⟩
  · have hinner : nest? [] ((front ++ scripts).filterMap Token.mark?) = some [] := by
      rw [List.filterMap_append, nest?_append, hfront.nested]
      exact hscripts
    rw [List.filterMap_append, nest?_append,
      Markup.nest?_elementTags (by decide) hinner]
    exact Markup.nest?_elementTags (by decide) hcontent.nested
  · have htag : ∀ name ∈ ["head", "body"],
        Token.script? (.opening (blankTag name [])) = none ∧
          [Token.closing name].filterMap Token.script? = [] := by decide
    obtain ⟨hhead, hhead'⟩ := htag "head" (by simp)
    obtain ⟨hbody, hbody'⟩ := htag "body" (by simp)
    simp only [elementTags, List.filterMap_append, List.filterMap_cons_none hhead,
      List.filterMap_cons_none hbody, hhead', hbody', hfront.scriptless, hcontent.scriptless,
      List.append_nil, List.nil_append]

/-- A page of sound pieces is a document with the scripts that it is given. -/
theorem rendersTo_pageMarkup (hfront : AreSound front) (hcontent : AreSound content) :
    RendersTo (pageMarkup front [scriptMarkup] content)
        (pageTags (tagsOfAll front) scriptTags (tagsOfAll content)) [mainScript] ∧
      RendersTo (pageMarkup front [] content)
        (pageTags (tagsOfAll front) [] (tagsOfAll content)) [] := by
  have hscript : skeleton (Markup.printAll [scriptMarkup]) = some scriptTags := by decide
  have hcalm := Markup.areCalm_tagsOfAll front hfront
  have hcalm' := Markup.areCalm_tagsOfAll content hcontent
  unfold RendersTo Markup.render
  simp only [String.toList_ofList]
  exact ⟨⟨skeleton_pageMarkup hfront hscript hcontent,
      isDocument_pageTags hcalm (by decide) hcalm'⟩,
    ⟨skeleton_pageMarkup hfront rfl hcontent, isDocument_pageTags hcalm rfl hcalm'⟩⟩

end PageMarkup

/-! ### Indexes -/

namespace Index

/-- What a post adds to the tags of a page: the tags of its body, whether it has attachments, and how
many of them are shown. -/
structure Shape where
  body : List Token
  hasAttachments : Bool
  shown : Nat
  deriving DecidableEq

def bodyTags (index : Index) (id : String) : List Token :=
  ((index.body? id).bind fun body => skeleton body.toList).getD []

def shape (index : Index) (post : Post) : Shape where
  body := index.bodyTags post.sourceId
  hasAttachments := 0 < post.attachmentCount
  shown := post.attachments.length

/-- Whether the cards of an index have the tags of their bylines and bodies, and no others. -/
structure IsShaped (index : Index) : Prop where
  card : ∀ post ∈ index.posts, IsCalm (index.bodyTags post.sourceId) ∧
    skeleton post.card.toList = some (Post.bylineTags ++ index.bodyTags post.sourceId)
  nodup : (index.posts.map Post.sourceId).Nodup

theorem isShaped_ofDocuments {resolver : Resolver} {options : PostOptions}
    {documents : List Document} (h : (documents.map Document.id).Nodup) :
    IsShaped (ofDocuments resolver options documents) where
  card := by
    intro post hpost
    obtain ⟨document, -, body, hdocument, hbody⟩ := exists_body_ofDocuments h hpost
    obtain ⟨tags, htags, hcalm⟩ := Body.exists_skeleton_render resolver document.nodes
    have hcard := Post.skeleton_card resolver options document htags
    rw [hdocument] at hcard
    rw [Post.ofDocument_eq_dated] at hdocument
    obtain ⟨-, rfl⟩ := Prod.mk.inj hdocument
    have hbodyTags : (ofDocuments resolver options documents).bodyTags post.sourceId = tags := by
      rw [bodyTags, hbody, Option.bind_some, String.toList_ofList, htags]
      rfl
    rw [hbodyTags]
    exact ⟨hcalm, hcard⟩
  nodup := (isIndexOf_ofDocuments h).nodup

end Index

end Gazette
