import Gazette.Site.Feeds
import Gazette.Site.Pages

/-!
# Addresses in pages

The addresses that pages, sitemaps and feeds give are gathered from their trees: the one that a page
gives for itself, the targets of its links, the locations that a sitemap lists and those of the items
in a feed. Every page gives one address for itself, and a sitemap lists the feed before its posts.
-/

namespace Gazette

/-! ### Gathering -/

namespace Markup

mutual

/-- What is picked from some markup and from everything in it, in the order of their beginnings. -/
def gather (pick : Markup → Option String) : Markup → List String
  | element name attributes children =>
    (pick (element name attributes children)).toList ++ gatherAll pick children
  | piece => (pick piece).toList

def gatherAll (pick : Markup → Option String) : List Markup → List String
  | [] => []
  | piece :: rest => gather pick piece ++ gatherAll pick rest

end

@[simp] theorem gatherAll_nil (pick : Markup → Option String) : gatherAll pick [] = [] := by
  rw [gatherAll]

@[simp] theorem gatherAll_cons (pick : Markup → Option String) (piece : Markup)
    (rest : List Markup) :
    gatherAll pick (piece :: rest) = gather pick piece ++ gatherAll pick rest := by
  rw [gatherAll]

@[simp] theorem gatherAll_append (pick : Markup → Option String) (a b : List Markup) :
    gatherAll pick (a ++ b) = gatherAll pick a ++ gatherAll pick b := by
  induction a with
  | nil => simp
  | cons piece rest ih => simp [ih]

theorem gatherAll_map_eq_nil {α : Type} {pick : Markup → Option String} {f : α → Markup}
    (h : ∀ item, gather pick (f item) = []) (items : List α) :
    gatherAll pick (items.map f) = [] := by
  induction items with
  | nil => exact gatherAll_nil pick
  | cons item rest ih => rw [List.map_cons, gatherAll_cons, h, ih, List.append_nil]

theorem gatherAll_map {α : Type} {pick : Markup → Option String} {f : α → Markup}
    {value : α → String} (h : ∀ item, gather pick (f item) = [value item]) (items : List α) :
    gatherAll pick (items.map f) = items.map value := by
  induction items with
  | nil => exact gatherAll_nil pick
  | cons item rest ih => rw [List.map_cons, gatherAll_cons, h, ih, List.map_cons, List.singleton_append]

/-! ### Kinds of addresses -/

def textOf : List Markup → String
  | [] => ""
  | text content :: rest => content ++ textOf rest
  | _ :: rest => textOf rest

def target? : Attribute → Option String
  | .value name value => if name = "href" then some value else none
  | .flag _ => none

/-- The address that a page gives for itself. -/
def canonical? : Markup → Option String
  | void name attributes =>
    if name = "link" ∧ .value "rel" "canonical" ∈ attributes then attributes.findSome? target?
    else none
  | _ => none

/-- The target of a link. -/
def anchor? : Markup → Option String
  | element name attributes _ => if name = "a" then attributes.findSome? target? else none
  | _ => none

/-- An address in a feed. -/
def itemLink? : Markup → Option String
  | element name _ children => if name = "link" then some (textOf children) else none
  | _ => none

/-- An address in a sitemap. -/
def location? : Markup → Option String
  | element name _ children => if name = "loc" then some (textOf children) else none
  | _ => none

end Markup

/-! ### Pages -/

namespace Page

open Markup

theorem canonicals_shell (context : FeedContext) (title canonical : String) (summary : PageSummary)
    (content : List Markup) :
    gatherAll canonical? (shell context title canonical summary content) =
      canonical :: gatherAll canonical? content := by
  have hembedding : gatherAll canonical? (summary.embedding.toList.map fun address =>
      .void "link" [.value "type" "application/json+oembed", .value "href" address]) = [] :=
    gatherAll_map_eq_nil (fun address => by simp [gather, canonical?]) _
  simp [shell, head, masthead, named, property, plain, classed, Markup.link, gather, canonical?,
    target?, hembedding]

theorem canonicals_card (context : FeedContext) (post : Post) :
    gather canonical? (card context post) = [] := by
  unfold card
  split <;> simp [classed, Markup.link, gather, canonical?]

theorem canonicals_cards (context : FeedContext) (posts : List Post) :
    gatherAll canonical? (posts.map (card context)) = [] :=
  gatherAll_map_eq_nil (canonicals_card context) posts

theorem canonicals_pager (base : String) (page : Int) (hasNext : Bool) :
    gather canonical? (pager base page hasNext) = [] := by
  unfold pager
  split <;> cases hasNext <;> simp [plain, classed, Markup.link, gather, canonical?]

/-- A listing gives one address for itself. -/
theorem canonicals_listing (context : FeedContext) (index : Index) {page : Int} (hpage : 1 ≤ page) :
    gatherAll canonical? (listing context index page) = [listingUrl context page] := by
  have hnone : ∀ posts : List Post, gatherAll canonical? (if posts.isEmpty then
      [Markup.classed "p" "results" [.text "No posts on this page."]] else []) = [] := by
    intro posts
    split <;> simp [classed, gather, canonical?]
  unfold listing
  dsimp only
  rw [Int.max_eq_left hpage, canonicals_shell]
  simp [-List.isEmpty_iff, canonicals_cards, hnone, canonicals_pager]

theorem canonicals_attachments (addresses : List String) :
    gatherAll canonical? (attachments addresses) = [] := by
  have hlinks : gatherAll canonical? (addresses.map fun address =>
      .element "a" (Markup.external address)
        [.void "img"
          [.value "class" "attachment", .value "src" address, .value "alt" "attachment",
            .value "loading" "lazy"]]) = [] :=
    gatherAll_map_eq_nil (fun address => by simp [gather, canonical?]) addresses
  unfold attachments
  split
  · exact gatherAll_nil _
  · simp [classed, gather, canonical?, hlinks]

theorem canonicals_recentPosts (context : FeedContext) (index : Index) (post : Post) :
    gatherAll canonical? (recentPosts context index post) = [] := by
  unfold recentPosts
  dsimp only
  split
  · exact gatherAll_nil _
  · split <;> simp [-List.map_take, classed, plain, Markup.link, gather, canonical?, canonicals_cards]

/-- The page of a post gives one address for itself. -/
theorem canonicals_post (context : FeedContext) (index : Index) (post : Post) :
    gatherAll canonical? (Page.post context index post) =
      [postUrl context.baseUrl post.sourceId] := by
  unfold Page.post
  dsimp only
  rw [canonicals_shell]
  simp [classed, gather, canonical?, canonicals_attachments, canonicals_recentPosts]

/-- A card links to one place. -/
theorem anchors_card (context : FeedContext) (post : Post) :
    gather anchor? (card context post) = [context.pathTo ("/post/" ++ post.sourceId)] := by
  unfold card
  split <;> simp [classed, Markup.link, gather, anchor?, target?]

end Page

namespace FeedDocument

open Markup

/-- A sitemap lists the feed before everything else. -/
theorem head?_locations_sitemap (context : FeedContext) (index : Index) :
    (gatherAll location? (sitemap context index)).head? = some (context.baseUrl ++ "/") := by
  simp [sitemap, prolog, plain, gather, location?, textOf]

/-- A sitemap lists the feed and its posts. -/
theorem locations_sitemap (context : FeedContext) (index : Index) :
    gatherAll location? (sitemap context index) =
      (context.baseUrl ++ "/") ::
        index.posts.map fun post => postUrl context.baseUrl post.sourceId := by
  have hentry : ∀ entry : SitemapEntry, gather location? (.plain "url"
      [.plain "loc" [.text entry.location], .plain "lastmod" [.text entry.lastChange]]) =
      [entry.location] := by
    intro entry
    simp [plain, gather, location?, textOf]
  have hentries := gatherAll_map hentry (index.sitemapEntries context.baseUrl)
  have hlocations : (index.sitemapEntries context.baseUrl).map SitemapEntry.location =
      index.posts.map fun post => postUrl context.baseUrl post.sourceId := by
    rw [Index.sitemapEntries, List.map_map]
    rfl
  rw [hlocations] at hentries
  rw [sitemap, gatherAll_cons, gatherAll_cons, plain, gather, gatherAll_cons, hentries]
  simp [prolog, plain, gather, location?, textOf]

/-- A feed gives the addresses of the site's feed and of the posts in it. -/
theorem links_rss (context : FeedContext) (index : Index) (limit : Option Nat) (page : Option Int) :
    gatherAll itemLink? (rss context index limit page) =
      context.baseUrl ::
        (index.feedPosts limit page).map fun post => postUrl context.baseUrl post.sourceId := by
  have hitem : ∀ post : Post, gather itemLink? (index.feedItem context.baseUrl post) =
      [postUrl context.baseUrl post.sourceId] := by
    intro post
    simp [Index.feedItem, plain, gather, itemLink?, textOf]
  have hitems := gatherAll_map hitem (index.feedPosts limit page)
  simp [rss, prolog, selfLink, Index.feedItems, plain, gather, itemLink?, textOf, hitems]

end FeedDocument

end Gazette
