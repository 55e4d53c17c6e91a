import Gazette.Proofs.Site.Framing

/-!
# Pages are well formed

Every page of a feed and every page of a fault is a document whose tags are well nested, with the one
script that pages load or with none (`rendersTo_pages`). Its tags are computed from the shapes of its
posts, without any of the texts in it, so that no text adds a tag or ends an attribute.
-/

namespace Gazette

open Index (IsShaped Shape)
open Markup (AreSound IsSound arePlainNames blankTag elementTags tags tagsOfAll)

namespace Paging

variable {α β : Type} {items : List α} {page : Int} {size : Nat}

theorem mem_of_mem_paginate {item : α} (h : item ∈ paginate items page size) : item ∈ items := by
  unfold paginate at h
  split at h
  · cases h
  · exact List.mem_of_mem_take (List.mem_of_mem_drop h)

theorem paginate_map (f : α → β) :
    paginate (items.map f) page size = (paginate items page size).map f := by
  unfold paginate
  rw [List.length_map]
  split
  · rfl
  · rw [List.map_drop, List.map_take]

end Paging

namespace Page

/-! ### Lists of posts -/

def pagerTags (previous next : Bool) : List Token :=
  elementTags "nav" [.value "class" ""]
    (elementTags "span" [] (if previous then linkTags else []) ++
      elementTags "span" [] (if next then linkTags else []))

def rowTags (shapes : List Shape) (page : Int) : List Token :=
  (Paging.paginate shapes page Index.pageSize).flatMap cardTags ++
    pagerTags (1 < page) (Paging.hasNext page shapes.length Index.pageSize)

def listingTags (shapes : List Shape) (page : Int) : List Token :=
  let page := max page 1
  pageTags (frontTags false) scriptTags (frameTags
    ((if (Paging.paginate shapes page Index.pageSize).isEmpty then noteTags [] else []) ++
      rowTags shapes page))

def searchTags (shapes : List Shape) (page : Int) : List Token :=
  pageTags (frontTags false) scriptTags (frameTags
    (elementTags "span" [.value "class" ""] [] ++ rowTags shapes (max page 1)))

theorem isSound_pager (base : String) (page : Int) (hasNext : Bool) :
    IsSound (pager base page hasNext) := by
  have hlink (condition : Prop) [Decidable condition] (target title : String) :
      AreSound (if condition then [.link target [.text title]] else []) :=
    Markup.areSound_ite ⟨Markup.isSound_link ⟨trivial, trivial⟩, trivial⟩
  exact Markup.isSound_classed (by decide) ⟨Markup.isSound_plain (by decide) (hlink _ _ _),
    Markup.isSound_plain (by decide) (hlink _ _ _), trivial⟩

theorem tags_pager (base : String) (page : Int) (hasNext : Bool) :
    tags (pager base page hasNext) = pagerTags (1 < page) hasNext := by
  by_cases hpage : 1 < page
  · rw [pager, if_pos hpage, decide_eq_true hpage]
    cases hasNext <;> rfl
  · rw [pager, if_neg hpage, decide_eq_false hpage]
    cases hasNext <;> rfl

section Pages

variable {index : Index} (context : FeedContext) (h : index.IsShaped)

include h

/-- The cards of a page of some posts, and the pager behind them. -/
theorem row_spec {posts : List Post} (hposts : ∀ post ∈ posts, post ∈ index.posts) (base : String)
    (page : Int) :
    let row := (Paging.paginate posts page Index.pageSize).map (card context) ++
      [pager base page (Paging.hasNext page posts.length Index.pageSize)]
    AreSound row ∧ tagsOfAll row = rowTags (posts.map index.shape) page := by
  have hshown : ∀ post ∈ Paging.paginate posts page Index.pageSize, post ∈ index.posts :=
    fun post hpost => hposts post (Paging.mem_of_mem_paginate hpost)
  refine ⟨Markup.areSound_append.mpr ⟨areSound_cards context h hshown, isSound_pager _ _ _, trivial⟩,
    ?_⟩
  rw [Markup.tagsOfAll_append, tagsOfAll_cards context h hshown, tagsOfAll, tagsOfAll, tags_pager,
    rowTags, Paging.paginate_map, List.length_map, List.append_nil]

theorem rendersTo_listing (page : Int) :
    RendersTo (listing context index page) (listingTags (index.posts.map index.shape) page)
      [mainScript] := by
  obtain ⟨hsound, htags⟩ := row_spec context h (fun _ hpost => hpost) context.root (max page 1)
  have hnotice : AreSound (if (index.page (max page 1)).isEmpty then
      [.classed "p" "results" [.text "No posts on this page."]] else []) :=
    Markup.areSound_ite ⟨Markup.isSound_classed (by decide) ⟨trivial, trivial⟩, trivial⟩
  have hnoticeTags : tagsOfAll (if (index.page (max page 1)).isEmpty then
      [.classed "p" "results" [.text "No posts on this page."]] else []) =
        if (Paging.paginate (index.posts.map index.shape) (max page 1) Index.pageSize).isEmpty then
          noteTags [] else [] := by
    rw [Markup.tagsOfAll_ite, Paging.paginate_map, List.isEmpty_map, Index.page]
    rfl
  have hshell := rendersTo_shell context "News List" (listingUrl context (max page 1))
    (listSummary "News List") (Markup.areSound_append.mpr ⟨hnotice, hsound⟩)
  rw [Markup.tagsOfAll_append, hnoticeTags, htags, ← List.append_assoc] at hshell
  exact hshell

theorem rendersTo_search (query : String) (page : Int) :
    RendersTo (search context index query page)
      (searchTags ((Search.hits index.posts query).map index.shape) page) [mainScript] := by
  have hhits : ∀ post ∈ Search.hits index.posts query, post ∈ index.posts :=
    fun post hpost => (Search.mem_hits_iff.mp hpost).1
  obtain ⟨hsound, htags⟩ :=
    row_spec context h hhits (context.pathTo (queryPart query)) (max page 1)
  let count := (Search.hits index.posts query).length
  have hcount : IsSound (.classed "span" "results" [.text (Text.decimal count),
      .text " results for “", .text query, .text "”"]) :=
    Markup.isSound_classed (by decide) ⟨trivial, trivial, trivial, trivial, trivial⟩
  have hcontent : AreSound (.classed "span" "results" [.text (Text.decimal count),
      .text " results for “", .text query, .text "”"] :: _) := ⟨hcount, hsound⟩
  have hshell := rendersTo_shell context ("Search: " ++ query)
    (context.baseUrl ++ queryPart query) (listSummary ("Search: " ++ query)) hcontent
  rw [tagsOfAll, htags] at hshell
  exact hshell

end Pages

/-! ### Posts -/

def imageTags : List Token :=
  elementTags "a" (Markup.external "")
    [.opening (blankTag "img"
      [.value "class" "", .value "src" "", .value "alt" "", .value "loading" ""])]

def attachmentTags (count : Nat) : List Token :=
  if count = 0 then []
  else elementTags "div" [.value "class" ""] (List.replicate count imageTags).flatten

def othersTags (others : List Shape) : List Token :=
  if others.isEmpty then []
  else
    elementTags "h2" [.value "class" ""] [] ++ (others.take recentCount).flatMap cardTags ++
      if recentCount < others.length then elementTags "p" [] linkTags else []

/-- The tags of the page of a post, from its shape and the shapes of the other posts. -/
def postTags (shape : Shape) (others : List Shape) : List Token :=
  pageTags (frontTags true) scriptTags (frameTags
    (elementTags "article" [.value "class" ""]
      (Post.bylineTags ++ shape.body ++ attachmentTags shape.shown) ++ othersTags others))

theorem areSound_attachments (addresses : List String) : AreSound (attachments addresses) := by
  have himages : AreSound (addresses.map fun address =>
      .element "a" (Markup.external address)
        [.void "img"
          [.value "class" "attachment", .value "src" address, .value "alt" "attachment",
            .value "loading" "lazy"]]) := by
    refine Markup.areSound_map fun address _ => ?_
    exact ⟨show arePlainNames "a" ["href", "target", "rel"] = true by decide, by decide,
      ⟨show arePlainNames "img" ["class", "src", "alt", "loading"] = true by decide, by decide⟩,
      trivial⟩
  unfold attachments
  split
  · trivial
  · exact ⟨Markup.isSound_classed (by decide) himages, trivial⟩

theorem tagsOfAll_attachments (addresses : List String) :
    tagsOfAll (attachments addresses) = attachmentTags addresses.length := by
  cases addresses with
  | nil => rfl
  | cons address rest =>
    have himages : tagsOfAll ((address :: rest).map fun address =>
        .element "a" (Markup.external address)
          [.void "img"
            [.value "class" "attachment", .value "src" address, .value "alt" "attachment",
              .value "loading" "lazy"]]) = (address :: rest).flatMap fun _ => imageTags :=
      Markup.tagsOfAll_map fun _ _ => rfl
    rw [List.flatMap_def, List.map_const'] at himages
    rw [attachments, if_neg (by simp), tagsOfAll, Markup.classed, tags, himages, attachmentTags,
      if_neg (by simp)]
    exact List.append_nil _

/-- The posts that are shown with a post. -/
def others (index : Index) (post : Post) : List Post :=
  index.posts.filter fun other => other.sourceId ≠ post.sourceId

section Post

variable {index : Index} (context : FeedContext) (h : index.IsShaped) {post : Post}
  (hpost : post ∈ index.posts)

include h hpost

theorem length_others : index.posts.length = (others index post).length + 1 := by
  have hnodup := h.nodup
  unfold others
  clear h
  generalize index.posts = posts at hpost hnodup
  induction posts with
  | nil => cases hpost
  | cons first posts ih =>
    rw [List.map_cons, List.nodup_cons] at hnodup
    obtain ⟨hfirst, hrest⟩ := hnodup
    by_cases hid : first.sourceId = post.sourceId
    · have hall : ∀ other ∈ posts, decide (other.sourceId ≠ post.sourceId) = true := by
        intro other hother
        rw [decide_eq_true_iff, ← hid]
        exact fun heq => hfirst (heq ▸ List.mem_map_of_mem hother)
      rw [List.filter_cons_of_neg (by simp [hid]), List.filter_eq_self.mpr hall, List.length_cons]
    · have hmem : post ∈ posts := by
        rcases List.mem_cons.mp hpost with rfl | hmem
        · exact absurd rfl hid
        · exact hmem
      rw [List.filter_cons_of_pos (by simp [hid]), List.length_cons, List.length_cons,
        ih hmem hrest]

theorem recentPosts_eq : recentPosts context index post =
    if (others index post).isEmpty then []
    else
      .classed "h2" "section-title" [.text "Other Recent Posts"] ::
        ((others index post).take recentCount).map (card context) ++
      if recentCount < (others index post).length then
        [.plain "p" [.link (context.root ++ "?page=2") [.text "See more"]]]
      else [] := by
  have hempty : ((others index post).take recentCount).isEmpty = (others index post).isEmpty := by
    cases others index post <;> rfl
  have hmore : recentCount + 1 < index.posts.length ↔
      recentCount < (others index post).length := by
    have hlength := length_others h hpost
    omega
  rw [← hempty, ← ite_congr (propext hmore) (fun _ => rfl) (fun _ => rfl)]
  rfl

theorem recentPosts_spec :
    AreSound (recentPosts context index post) ∧ tagsOfAll (recentPosts context index post) =
      othersTags ((others index post).map index.shape) := by
  have hshown : ∀ other ∈ (others index post).take recentCount, other ∈ index.posts :=
    fun other hother => List.mem_of_mem_filter (List.mem_of_mem_take hother)
  have hmore : AreSound (if recentCount < (others index post).length then
      [.plain "p" [.link (context.root ++ "?page=2") [.text "See more"]]] else []) :=
    Markup.areSound_ite ⟨Markup.isSound_plain (by decide)
      ⟨Markup.isSound_link ⟨trivial, trivial⟩, trivial⟩, trivial⟩
  have hmoreTags : tagsOfAll (if recentCount < (others index post).length then
      [.plain "p" [.link (context.root ++ "?page=2") [.text "See more"]]] else []) =
        if recentCount < (others index post).length then elementTags "p" [] linkTags else [] := by
    rw [Markup.tagsOfAll_ite]
    rfl
  rw [recentPosts_eq context h hpost, othersTags, List.isEmpty_map, List.length_map, ← List.map_take]
  by_cases hempty : (others index post).isEmpty
  · rw [if_pos hempty, if_pos hempty]
    exact ⟨trivial, rfl⟩
  · rw [if_neg hempty, if_neg hempty, List.cons_append, tagsOfAll, Markup.tagsOfAll_append,
      tagsOfAll_cards context h hshown, hmoreTags, List.append_assoc]
    exact ⟨⟨Markup.isSound_classed (by decide) ⟨trivial, trivial⟩,
      Markup.areSound_append.mpr ⟨areSound_cards context h hshown, hmore⟩⟩, rfl⟩

theorem rendersTo_post :
    RendersTo (Page.post context index post)
      (postTags (index.shape post) ((others index post).map index.shape)) [mainScript] := by
  obtain ⟨hsound, htags⟩ := recentPosts_spec context h hpost
  have hcard := Markup.tags_verbatim (h.card post hpost).2
  have harticle : IsSound (.classed "article" "newsPost"
      (.verbatim post.card :: attachments post.attachments)) :=
    Markup.isSound_classed (by decide)
      ⟨isSound_verbatim_card h hpost, areSound_attachments post.attachments⟩
  have harticleTags : tags (.classed "article" "newsPost"
      (.verbatim post.card :: attachments post.attachments)) =
        elementTags "article" [.value "class" ""] (Post.bylineTags ++ (index.shape post).body ++
          attachmentTags (index.shape post).shown) := by
    rw [Markup.classed, tags, tagsOfAll, hcard, tagsOfAll_attachments]
    rfl
  have hcontent : AreSound (.classed "article" "newsPost"
      (.verbatim post.card :: attachments post.attachments) :: recentPosts context index post) :=
    ⟨harticle, hsound⟩
  have hshell := rendersTo_shell context post.titleOrDate (postUrl context.baseUrl post.sourceId)
    ⟨post.titleOrDate, post.description, "article",
      some (postUrl context.baseUrl post.sourceId ++ "/oembed.json")⟩ hcontent
  rw [tagsOfAll, harticleTags, htags] at hshell
  exact hshell

end Post

end Page

/-! ### Faults -/

namespace SiteFault

def front (title : String) : List Markup :=
  [.void "meta" [.value "charset" "utf-8"],
    .void "meta" [.value "name" "viewport", .value "content" "width=device-width, initial-scale=1"],
    .plain "title" [.text title],
    .void "meta" [.value "name" "robots", .value "content" "noindex"],
    .plain "style" [.verbatim Assets.errorStyle]]

def content (title explanation : String) : List Markup :=
  [.classed "main" "error-page"
    [.plain "h1" [.text title], .plain "p" [.text explanation],
      .link "/" [.text "Back to the front page"]]]

def faultTags : List Token := pageTags (tagsOfAll (front "")) [] (tagsOfAll (content "" ""))

theorem rendersTo_page (fault : SiteFault) : RendersTo fault.page faultTags [] := by
  have hfront : AreSound (front fault.title) :=
    ⟨⟨by decide, by decide⟩, ⟨by decide, by decide⟩,
      Markup.isSound_plain (by decide) ⟨trivial, trivial⟩, ⟨by decide, by decide⟩,
      Markup.isSound_plain (by decide) ⟨Markup.isSound_verbatim Assets.notMem_errorStyle, trivial⟩,
      trivial⟩
  have hcontent : AreSound (content fault.title fault.explanation) :=
    ⟨Markup.isSound_classed (by decide) ⟨Markup.isSound_plain (by decide) ⟨trivial, trivial⟩,
      Markup.isSound_plain (by decide) ⟨trivial, trivial⟩, Markup.isSound_link ⟨trivial, trivial⟩,
      trivial⟩, trivial⟩
  exact (rendersTo_pageMarkup hfront hcontent).2

end SiteFault

/-! ### All pages -/

/-- Whatever documents an index is built from, whatever its feed is called and whatever is asked for,
its pages are documents whose only script is the one that pages load, and the tags of a page are a
function of the shapes of its posts. The page of a fault has no script, and always the same tags. -/
theorem rendersTo_pages (channel : String) (documents : List Document) (resolver : Resolver)
    (options : PostOptions) (context : FeedContext) (query : String) (page : Int) :
    (∃ index, Index.build (Archive.ofDocuments channel documents).source resolver options () =
        (.ok index, ()) ∧
      RendersTo (Page.listing context index page)
        (Page.listingTags (index.posts.map index.shape) page) [mainScript] ∧
      RendersTo (Page.search context index query page)
        (Page.searchTags ((Search.hits index.posts query).map index.shape) page) [mainScript] ∧
      ∀ post ∈ index.posts, RendersTo (Page.post context index post)
        (Page.postTags (index.shape post) ((Page.others index post).map index.shape))
        [mainScript]) ∧
    ∀ fault : SiteFault, RendersTo fault.page SiteFault.faultTags [] := by
  obtain ⟨hfetch, hnodup, -⟩ := Archive.fetchAll_ofDocuments channel documents
  have hshaped := @Index.isShaped_ofDocuments resolver options _ hnodup
  refine ⟨⟨_, ?_, Page.rendersTo_listing context hshaped page,
    Page.rendersTo_search context hshaped query page,
    fun post hpost => Page.rendersTo_post context hshaped hpost⟩, SiteFault.rendersTo_page⟩
  rw [Index.build, hfetch]
  rfl

/-- A document of which no text is what it should be. -/
def hostile : Document :=
  ⟨"7\"", none, ⟨"1", none, "</i><script>"⟩, ⟨0, 0⟩, none, "", [.text "# </title><img src=x"],
    [⟨"https://a.org/\" onerror=\"", none, some "a.png"⟩]⟩

theorem rendersTo_pages_hostile :
    let context : FeedContext := ⟨"</title><script>", "\"><br", "javascript:\">", 1⟩
    ∃ index post, Index.build (Archive.ofDocuments "news" [hostile]).source Entities.empty.resolver
        ⟨.utc, []⟩ () = (.ok index, ()) ∧
      post ∈ index.posts ∧ post.sourceId = "7\"" ∧
      RendersTo (Page.post context index post)
        (Page.postTags (index.shape post) ((Page.others index post).map index.shape)) [mainScript] := by
  intro context
  obtain ⟨⟨index, hbuild, -, -, hposts⟩, -⟩ := rendersTo_pages "news" [hostile]
    Entities.empty.resolver ⟨.utc, []⟩ context "<script>" 1
  obtain ⟨found, hfound, hpost⟩ := @Index.exists_build_singleton Entities.empty.resolver ⟨.utc, []⟩
    "news" hostile (by decide)
  obtain rfl : index = found := Except.ok.inj (Prod.mk.inj (hbuild.symm.trans hfound)).1
  exact ⟨index, _, hbuild, hpost, rfl, hposts _ hpost⟩

end Gazette
