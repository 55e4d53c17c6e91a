import Gazette.Index.Syndication
import Gazette.Site.Assets
import Gazette.Text.Percent

/-!
# The frame of a page

Every page of a feed has the same head, masthead and footer, and lists posts as cards.
-/

namespace Gazette

structure FeedContext where
  siteName : String
  /-- The path below which the feed is served; empty at the root. -/
  path : String
  /-- Where the feed is found. -/
  baseUrl : String
  articleCount : Nat
  deriving Repr, DecidableEq

namespace FeedContext

def pathTo (context : FeedContext) (rest : String) : String := context.path ++ rest

def root (context : FeedContext) : String := if context.path = "" then "/" else context.path

def countedName (context : FeedContext) : String :=
  context.siteName ++ " • " ++ Text.decimal context.articleCount ++ " articles"

end FeedContext

structure PageSummary where
  title : String
  description : String
  /-- What the page is: a whole site or an article. -/
  type : String
  /-- Where the page is described for embedding. -/
  embedding : Option String
  deriving Repr, DecidableEq

namespace Page

def named (name content : String) : Markup :=
  .void "meta" [.value "name" name, .value "content" content]

def property (name content : String) : Markup :=
  .void "meta" [.value "property" name, .value "content" content]

def head (context : FeedContext) (title canonical : String) (summary : PageSummary) : Markup :=
  .plain "head"
    ([.void "meta" [.value "charset" "utf-8"],
      named "viewport" "width=device-width, initial-scale=1",
      .plain "title" [.text title, .text " - ", .text context.siteName],
      named "description" summary.description,
      .void "link" [.value "rel" "canonical", .value "href" canonical],
      .void "link"
        [.value "rel" "alternate", .value "type" "application/rss+xml",
          .value "title" (context.siteName ++ " RSS Feed"),
          .value "href" (context.baseUrl ++ "/feed.rss")],
      property "og:title" summary.title,
      property "og:description" summary.description,
      property "og:url" canonical,
      property "og:site_name" context.countedName,
      property "og:type" summary.type] ++
    (summary.embedding.toList.map fun address =>
      .void "link" [.value "type" "application/json+oembed", .value "href" address]) ++
    [.plain "style" [.verbatim Assets.pageStyle],
      .element "script" [.value "src" "/static/main.js", .flag "defer"] []])

def masthead (context : FeedContext) : Markup :=
  .classed "header" "masthead"
    [.element "a" [.value "class" "masthead-title", .value "href" context.root]
      [.text context.siteName],
    .element "form" [.value "action" (context.pathTo "/search"), .value "method" "get"]
      [.void "input"
        [.value "type" "text", .value "name" "query", .value "placeholder" "Search..."],
      .void "input" [.value "type" "submit", .value "value" "Search"]]]

def shell (context : FeedContext) (title canonical : String) (summary : PageSummary)
    (content : List Markup) : List Markup :=
  [.verbatim "<!DOCTYPE html>",
    .element "html" [.value "lang" "en"]
      [head context title canonical summary,
      .plain "body"
        [masthead context,
          .plain "main" content,
          .classed "footer" "footer"
            [.link (context.pathTo "/feed.rss") [.text "RSS Feed"]]]]]

def attachmentLabel (count : Nat) : String :=
  if count = 1 then "1 attachment" else Text.decimal count ++ " attachments"

def card (context : FeedContext) (post : Post) : Markup :=
  .classed "div" "newsPost"
    (.verbatim post.card ::
      (if 0 < post.attachmentCount then
        [.classed "p" "post-meta" [.text (attachmentLabel post.attachmentCount)]]
      else []) ++
      [.classed "p" "post-meta"
        [.link (context.pathTo ("/post/" ++ post.sourceId)) [.text "Link to post for sharing"]]])

def pageAddress (base : String) (page : Int) : String :=
  base ++ (if base.toList.contains '?' then "&" else "?") ++ "page=" ++ Text.decimal page

def pager (base : String) (page : Int) (hasNext : Bool) : Markup :=
  .classed "nav" "pager"
    [.plain "span"
      (if 1 < page then [.link (pageAddress base (page - 1)) [.text "Previous Page"]] else []),
    .plain "span"
      (if hasNext then [.link (pageAddress base (page + 1)) [.text "Next Page"]] else [])]

end Page

end Gazette
