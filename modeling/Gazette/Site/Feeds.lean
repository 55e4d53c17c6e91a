import Gazette.Site.Context

/-!
# Feeds and sitemaps

The posts of a feed for the programs that read them.
-/

namespace Gazette.FeedDocument

def prolog : Markup := .verbatim "<?xml version=\"1.0\" encoding=\"UTF-8\"?>"

def selfLink (address : String) : List Markup :=
  [.verbatim "<atom:link href=\"", .message address,
    .verbatim "\" rel=\"self\" type=\"application/rss+xml\" />"]

/-- The feed of an index: all posts, or those of a page of some size. -/
def rss (context : FeedContext) (index : Index) (limit : Option Nat) (page : Option Int) :
    List Markup :=
  [prolog,
    .element "rss"
      [.value "version" "2.0", .value "xmlns:atom" "http://www.w3.org/2005/Atom"]
      [.plain "channel"
        ([.plain "title" [.text context.siteName],
          .plain "description" [.text context.siteName, .text " RSS Feed"],
          .plain "link" [.text context.baseUrl],
          .plain "docs" [.text "https://www.rssboard.org/rss-specification"]] ++
        selfLink (context.baseUrl ++ "/feed.rss") ++
        index.feedItems context.baseUrl limit page)]]

/-- The sitemap of an index: the feed itself and all posts. -/
def sitemap (context : FeedContext) (index : Index) : List Markup :=
  [prolog,
    .element "urlset" [.value "xmlns" "http://www.sitemaps.org/schemas/sitemap/0.9"]
      (.plain "url" [.plain "loc" [.text context.baseUrl, .text "/"]] ::
      (index.sitemapEntries context.baseUrl).map fun entry =>
        .plain "url"
          [.plain "loc" [.text entry.location], .plain "lastmod" [.text entry.lastChange]])]

end Gazette.FeedDocument
