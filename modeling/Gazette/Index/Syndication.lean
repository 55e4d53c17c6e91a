import Gazette.Index.Search
import Gazette.Markup.Cdata

/-!
# Syndication

The entries under which the posts of an index stand in feeds and sitemaps.
-/

namespace Gazette

def postUrl (baseUrl id : String) : String := baseUrl ++ "/post/" ++ id

structure SitemapEntry where
  location : String
  lastChange : String
  deriving Repr, DecidableEq

namespace Index

def feedItem (index : Index) (baseUrl : String) (post : Post) : Markup :=
  let body := (index.body? post.sourceId).getD ""
  .plain "item"
    [.plain "title" [.text post.titleOrDate],
      .plain "link" [.text (postUrl baseUrl post.sourceId)],
      .plain "description" [.verbatim (String.ofList (Markup.cdata body.toList))],
      .plain "pubDate" [.text (String.ofList (Time.Pattern.mailDateTime.format post.createdAt))],
      .element "guid" [.value "isPermaLink" "false"] [.text post.sourceId]]

/-- The posts in a feed: all, or those of a page of some size. -/
def feedPosts (index : Index) (limit : Option Nat) (page : Option Int) : List Post :=
  match limit with
  | some size => Paging.paginate index.posts (page.getD 1) size
  | none => index.posts

def feedItems (index : Index) (baseUrl : String) (limit : Option Nat) (page : Option Int) :
    List Markup :=
  (index.feedPosts limit page).map (index.feedItem baseUrl)

def sitemapEntries (index : Index) (baseUrl : String) : List SitemapEntry :=
  index.posts.map fun post =>
    { location := postUrl baseUrl post.sourceId
      lastChange :=
        String.ofList (Time.Pattern.isoDate.format (post.editedAt.getD post.createdAt)) }

end Index

end Gazette
