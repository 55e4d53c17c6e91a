import Gazette.Site.Context

/-!
# Pages

The pages of a feed: its posts page by page, the hits of a query, and each post on its own.
-/

namespace Gazette.Page

open Paging

def listDescription : String := "Latest news and announcements"

def listSummary (title : String) : PageSummary := ⟨title, listDescription, "website", none⟩

def listingUrl (context : FeedContext) (page : Int) : String :=
  if 1 < page then context.baseUrl ++ "/?page=" ++ Text.decimal page
  else context.baseUrl ++ "/"

def listing (context : FeedContext) (index : Index) (page : Int) : List Markup :=
  let page := max page 1
  let posts := index.page page
  let content : List Markup :=
    (if posts.isEmpty then [.classed "p" "results" [.text "No posts on this page."]]
      else []) ++
    posts.map (card context) ++
    [pager context.root page (hasNext page index.posts.length Index.pageSize)]
  shell context "News List" (listingUrl context page) (listSummary "News List") content

def queryPart (query : String) : String :=
  "/search?query=" ++ String.ofList (Text.Percent.encode query.toList)

def search (context : FeedContext) (index : Index) (query : String) (page : Int) : List Markup :=
  let page := max page 1
  let (total, posts) := index.search query page
  let title := "Search: " ++ query
  let content :=
    .classed "span" "results"
      [.text (Text.decimal total), .text " results for “", .text query, .text "”"] ::
    posts.map (card context) ++
    [pager (context.pathTo (queryPart query)) page (hasNext page total Index.pageSize)]
  shell context title (context.baseUrl ++ queryPart query) (listSummary title) content

def recentCount : Nat := 50

def attachments (addresses : List String) : List Markup :=
  if addresses.isEmpty then []
  else
    [.classed "div" "attachmentList"
      (addresses.map fun address =>
        .element "a" (Markup.external address)
          [.void "img"
            [.value "class" "attachment", .value "src" address, .value "alt" "attachment",
              .value "loading" "lazy"]])]

def recentPosts (context : FeedContext) (index : Index) (post : Post) : List Markup :=
  let others := (index.posts.filter fun other => other.sourceId ≠ post.sourceId).take recentCount
  if others.isEmpty then []
  else
    .classed "h2" "section-title" [.text "Other Recent Posts"] :: others.map (card context) ++
    if recentCount + 1 < index.posts.length then
      [.plain "p" [.link (context.root ++ "?page=2") [.text "See more"]]]
    else []

def post (context : FeedContext) (index : Index) (post : Post) : List Markup :=
  let canonical := postUrl context.baseUrl post.sourceId
  let summary : PageSummary :=
    ⟨post.titleOrDate, post.description, "article", some (canonical ++ "/oembed.json")⟩
  let content :=
    .classed "article" "newsPost" (.verbatim post.card :: attachments post.attachments) ::
    recentPosts context index post
  shell context post.titleOrDate canonical summary content

end Gazette.Page
