import Gazette.Proofs.Site.Skeletons

/-!
# Frames and cards

What stands around the content of a page, and the cards of its posts, is sound, and its tags are
computed without the texts in it: those of a frame from whether the page is described for embedding,
and those of a card from the shape of its post.
-/

namespace Gazette

open Index (IsShaped Shape)
open Markup (AreSound IsSound arePlainNames elementTags tags tagsOfAll)

/-! ### Style sheets -/

namespace Assets

variable {c : Char} {lines : List String}

theorem notMem_intercalate (hbreak : c ≠ '\n') (h : ∀ line ∈ lines, c ∉ line.toList) :
    c ∉ (String.intercalate "\n" lines).toList := by
  have hnewline : "\n".toList = ['\n'] := by decide
  rw [String.toList_intercalate, hnewline]
  induction lines with
  | nil => exact List.not_mem_nil
  | cons line rest ih =>
    obtain ⟨hline, hrest⟩ := List.forall_mem_cons.mp h
    cases rest with
    | nil =>
      rw [List.map_singleton, List.intercalate_singleton]
      exact hline
    | cons next rest =>
      rw [List.map_cons, List.map_cons, List.intercalate_cons_cons, ← List.map_cons]
      simp only [List.mem_append, List.mem_singleton, not_or]
      exact ⟨⟨hline, hbreak⟩, ih hrest⟩

/-- The letters of a line are given apart from it, since deciding it on the line itself is slow. -/
theorem forall_notMem_cons {line : String} {letters : List Char} (hline : line = String.ofList letters)
    (h : c ∉ letters) (hlines : ∀ line ∈ lines, c ∉ line.toList) :
    ∀ other ∈ line :: lines, c ∉ other.toList := by
  refine List.forall_mem_cons.mpr ⟨?_, hlines⟩
  rw [hline, String.toList_ofList]
  exact h

set_option maxRecDepth 10000 in
theorem notMem_pageStyle : '<' ∉ pageStyle.toList := by
  refine notMem_intercalate (by decide) ?_
  repeat refine forall_notMem_cons rfl (by decide +kernel) ?_
  exact fun _ h => absurd h List.not_mem_nil

set_option maxRecDepth 10000 in
theorem notMem_errorStyle : '<' ∉ errorStyle.toList := by
  refine notMem_intercalate (by decide) ?_
  repeat refine forall_notMem_cons rfl (by decide +kernel) ?_
  exact fun _ h => absurd h List.not_mem_nil

end Assets

namespace Markup

theorem areSound_append {a b : List Markup} : AreSound (a ++ b) ↔ AreSound a ∧ AreSound b := by
  induction a with
  | nil => simp [AreSound]
  | cons piece a ih => rw [List.cons_append, AreSound, AreSound, ih, and_assoc]

theorem areSound_map {α : Type} {f : α → Markup} {items : List α}
    (h : ∀ item ∈ items, IsSound (f item)) : AreSound (items.map f) := by
  induction items with
  | nil => trivial
  | cons item items ih =>
    obtain ⟨hitem, hitems⟩ := List.forall_mem_cons.mp h
    exact ⟨hitem, ih hitems⟩

theorem tagsOfAll_append (a b : List Markup) : tagsOfAll (a ++ b) = tagsOfAll a ++ tagsOfAll b := by
  induction a with
  | nil => rfl
  | cons piece a ih => rw [List.cons_append, tagsOfAll, tagsOfAll, ih, List.append_assoc]

theorem tagsOfAll_map {α : Type} {f : α → Markup} {g : α → List Token} {items : List α}
    (h : ∀ item ∈ items, tags (f item) = g item) : tagsOfAll (items.map f) = items.flatMap g := by
  induction items with
  | nil => rfl
  | cons item items ih =>
    obtain ⟨hitem, hitems⟩ := List.forall_mem_cons.mp h
    rw [List.map_cons, tagsOfAll, hitem, ih hitems, List.flatMap_cons]

section Conditional

variable {condition : Prop} [Decidable condition] {pieces : List Markup}

theorem areSound_ite (h : AreSound pieces) : AreSound (if condition then pieces else []) := by
  split
  · exact h
  · trivial

theorem tagsOfAll_ite :
    tagsOfAll (if condition then pieces else []) = if condition then tagsOfAll pieces else [] := by
  split <;> rfl

end Conditional

section Names

variable {name : String} {children : List Markup}

theorem isSound_plain (h : arePlainNames name [] = true ∧ name ∉ unclosedNames)
    (hchildren : AreSound children) : IsSound (.plain name children) := ⟨h.1, h.2, hchildren⟩

theorem isSound_classed {className : String}
    (h : arePlainNames name ["class"] = true ∧ name ∉ unclosedNames)
    (hchildren : AreSound children) : IsSound (.classed name className children) :=
  ⟨h.1, h.2, hchildren⟩

theorem isSound_link {target : String} (hchildren : AreSound children) :
    IsSound (.link target children) :=
  ⟨show arePlainNames "a" ["href"] = true by decide, by decide, hchildren⟩

end Names

theorem isSound_verbatim {content : String} (h : '<' ∉ content.toList) :
    IsSound (.verbatim content) :=
  ⟨[], skeleton_of_notMem h, isCalm_nil⟩

theorem tags_verbatim {content : String} {found : List Token}
    (h : skeleton content.toList = some found) : tags (.verbatim content) = found := by
  rw [tags, h]
  rfl

end Markup

namespace Page

/-! ### The frame -/

def front (context : FeedContext) (title canonical : String) (summary : PageSummary) :
    List Markup :=
  [.void "meta" [.value "charset" "utf-8"],
    named "viewport" "width=device-width, initial-scale=1",
    .plain "title" [.text title, .text " - ", .text context.siteName],
    named "description" summary.description,
    .void "link" [.value "rel" "canonical", .value "href" canonical],
    .void "link"
      [.value "rel" "alternate", .value "type" "application/rss+xml",
        .value "title" (context.siteName ++ " RSS Feed"),
        .value "href" (context.baseUrl ++ "/feed.rss")],
    property "og:title" summary.title,
    property "og:description" summary.description,
    property "og:url" canonical,
    property "og:site_name" context.countedName,
    property "og:type" summary.type] ++
  (summary.embedding.toList.map fun address =>
    .void "link" [.value "type" "application/json+oembed", .value "href" address]) ++
  [.plain "style" [.verbatim Assets.pageStyle]]

def frame (context : FeedContext) (content : List Markup) : List Markup :=
  [masthead context, .plain "main" content,
    .classed "footer" "footer" [.link (context.pathTo "/feed.rss") [.text "RSS Feed"]]]

theorem shell_eq (context : FeedContext) (title canonical : String) (summary : PageSummary)
    (content : List Markup) :
    shell context title canonical summary content =
      pageMarkup (front context title canonical summary) [scriptMarkup] (frame context content) := by
  simp [shell, head, front, frame, pageMarkup, scriptMarkup, Markup.plain]

def unnamed : FeedContext := ⟨"", "", "", 0⟩

/-- The tags of a head, which only depend on whether the page is described for embedding. -/
def frontTags (embedded : Bool) : List Token :=
  tagsOfAll (front unnamed "" "" ⟨"", "", "", if embedded then some "" else none⟩)

def frameTags (content : List Token) : List Token :=
  tags (masthead unnamed) ++ elementTags "main" [] content ++
    elementTags "footer" [.value "class" ""] (elementTags "a" [.value "href" ""] [])

theorem tagsOfAll_front (context : FeedContext) (title canonical : String) (summary : PageSummary) :
    tagsOfAll (front context title canonical summary) = frontTags summary.embedding.isSome := by
  obtain ⟨title, description, type, embedding⟩ := summary
  cases embedding <;> rfl

theorem tagsOfAll_frame (context : FeedContext) (content : List Markup) :
    tagsOfAll (frame context content) = frameTags (tagsOfAll content) := by
  have hmasthead : tags (masthead context) = tags (masthead unnamed) := rfl
  rw [frame, tagsOfAll, tagsOfAll, hmasthead, frameTags, List.append_assoc]
  rfl

theorem isSound_named (name content : String) : IsSound (named name content) :=
  ⟨show arePlainNames "meta" ["name", "content"] = true by decide, by decide⟩

theorem isSound_property (name content : String) : IsSound (property name content) :=
  ⟨show arePlainNames "meta" ["property", "content"] = true by decide, by decide⟩

theorem areSound_front (context : FeedContext) (title canonical : String) (summary : PageSummary) :
    AreSound (front context title canonical summary) := by
  have hcharset : IsSound (.void "meta" [.value "charset" "utf-8"]) := ⟨by decide, by decide⟩
  have htitle : IsSound (.plain "title" [.text title, .text " - ", .text context.siteName]) :=
    Markup.isSound_plain (by decide) ⟨trivial, trivial, trivial, trivial⟩
  have hcanonical : IsSound (.void "link" [.value "rel" "canonical", .value "href" canonical]) :=
    ⟨show arePlainNames "link" ["rel", "href"] = true by decide, by decide⟩
  have hfeed (name address : String) : IsSound (.void "link" [.value "rel" "alternate",
      .value "type" "application/rss+xml", .value "title" name, .value "href" address]) :=
    ⟨show arePlainNames "link" ["rel", "type", "title", "href"] = true by decide, by decide⟩
  have hembedding : AreSound (summary.embedding.toList.map fun address =>
      .void "link" [.value "type" "application/json+oembed", .value "href" address]) :=
    Markup.areSound_map fun _ _ =>
      ⟨show arePlainNames "link" ["type", "href"] = true by decide, by decide⟩
  have hstyle : IsSound (.plain "style" [.verbatim Assets.pageStyle]) :=
    Markup.isSound_plain (by decide) ⟨Markup.isSound_verbatim Assets.notMem_pageStyle, trivial⟩
  unfold front
  rw [Markup.areSound_append, Markup.areSound_append]
  refine ⟨⟨?_, hembedding⟩, hstyle, trivial⟩
  exact ⟨hcharset, isSound_named _ _, htitle, isSound_named _ _, hcanonical, hfeed _ _,
    isSound_property _ _, isSound_property _ _, isSound_property _ _, isSound_property _ _,
    isSound_property _ _, trivial⟩

theorem isSound_masthead (context : FeedContext) : IsSound (masthead context) := by
  have htitle : IsSound (.element "a" [.value "class" "masthead-title", .value "href" context.root]
      [.text context.siteName]) :=
    ⟨show arePlainNames "a" ["class", "href"] = true by decide, by decide, trivial, trivial⟩
  refine Markup.isSound_classed (by decide) ⟨htitle, ?_, trivial⟩
  exact ⟨show arePlainNames "form" ["action", "method"] = true by decide, by decide,
    ⟨by decide, by decide⟩, ⟨by decide, by decide⟩, trivial⟩

theorem areSound_frame (context : FeedContext) {content : List Markup} (h : AreSound content) :
    AreSound (frame context content) := by
  have hfooter : IsSound (.classed "footer" "footer"
      [.link (context.pathTo "/feed.rss") [.text "RSS Feed"]]) :=
    Markup.isSound_classed (by decide) ⟨Markup.isSound_link ⟨trivial, trivial⟩, trivial⟩
  exact ⟨isSound_masthead context, Markup.isSound_plain (by decide) h, hfooter, trivial⟩

/-- A page is a document whose tags are those of its content, in a frame. -/
theorem rendersTo_shell (context : FeedContext) (title canonical : String) (summary : PageSummary)
    {content : List Markup} (h : AreSound content) :
    RendersTo (shell context title canonical summary content)
      (pageTags (frontTags summary.embedding.isSome) scriptTags (frameTags (tagsOfAll content)))
      [mainScript] := by
  have hpage := (rendersTo_pageMarkup (areSound_front context title canonical summary)
    (areSound_frame context h)).1
  rwa [← shell_eq, tagsOfAll_front, tagsOfAll_frame] at hpage

/-! ### Cards -/

def linkTags : List Token := elementTags "a" [.value "href" ""] []

def noteTags (inner : List Token) : List Token := elementTags "p" [.value "class" ""] inner

def cardTags (shape : Shape) : List Token :=
  elementTags "div" [.value "class" ""]
    (Post.bylineTags ++ shape.body ++ (if shape.hasAttachments then noteTags [] else []) ++
      noteTags linkTags)

section Cards

variable {index : Index} {post : Post}

theorem isSound_verbatim_card (h : index.IsShaped) (hpost : post ∈ index.posts) :
    IsSound (.verbatim post.card) := by
  obtain ⟨hcalm, hcard⟩ := h.card post hpost
  exact ⟨_, hcard, Post.isCalm_bylineTags.append hcalm⟩

theorem isSound_card (context : FeedContext) (h : index.IsShaped) (hpost : post ∈ index.posts) :
    IsSound (card context post) := by
  have hcard := isSound_verbatim_card h hpost
  have hnote : AreSound (if 0 < post.attachmentCount then
      [.classed "p" "post-meta" [.text (attachmentLabel post.attachmentCount)]] else []) :=
    Markup.areSound_ite ⟨Markup.isSound_classed (by decide) ⟨trivial, trivial⟩, trivial⟩
  have hlink : IsSound (.classed "p" "post-meta"
      [.link (context.pathTo ("/post/" ++ post.sourceId)) [.text "Link to post for sharing"]]) :=
    Markup.isSound_classed (by decide) ⟨Markup.isSound_link ⟨trivial, trivial⟩, trivial⟩
  exact Markup.isSound_classed (by decide)
    ⟨hcard, Markup.areSound_append.mpr ⟨hnote, hlink, trivial⟩⟩

theorem tags_card (context : FeedContext) (h : index.IsShaped) (hpost : post ∈ index.posts) :
    tags (card context post) = cardTags (index.shape post) := by
  have hcard := Markup.tags_verbatim (h.card post hpost).2
  have hnote : tagsOfAll (if 0 < post.attachmentCount then
      [.classed "p" "post-meta" [.text (attachmentLabel post.attachmentCount)]] else []) =
        if (index.shape post).hasAttachments then noteTags [] else [] := by
    simp only [Markup.tagsOfAll_ite, Index.shape, decide_eq_true_eq]
    rfl
  rw [card, Markup.classed, tags, List.cons_append, tagsOfAll, hcard, Markup.tagsOfAll_append, hnote]
  rw [cardTags, List.append_assoc, List.append_assoc, List.append_assoc]
  rfl

theorem areSound_cards (context : FeedContext) (h : index.IsShaped) {posts : List Post}
    (hposts : ∀ post ∈ posts, post ∈ index.posts) : AreSound (posts.map (card context)) :=
  Markup.areSound_map fun post hpost => isSound_card context h (hposts post hpost)

theorem tagsOfAll_cards (context : FeedContext) (h : index.IsShaped) {posts : List Post}
    (hposts : ∀ post ∈ posts, post ∈ index.posts) :
    tagsOfAll (posts.map (card context)) = (posts.map index.shape).flatMap cardTags := by
  rw [List.flatMap_map]
  exact Markup.tagsOfAll_map fun post hpost => tags_card context h (hposts post hpost)

end Cards

end Page

end Gazette
