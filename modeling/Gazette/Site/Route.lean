import Gazette.Text.Blank
import Gazette.Text.Percent

/-!
# Routes

The paths of a site, cut at slashes. Segments that stand for names are kept as they were sent, and
decoded later. Such a segment may be empty where others follow it; at the end of a path an empty
one is no name, so that a path with a slash too many at its end leads nowhere.
-/

namespace Gazette

inductive FeedRoute where
  | home
  | search
  | post (id : List Char)
  /-- The description of a post for embedding. -/
  | embedding (id : List Char)
  | rss
  | sitemap
  deriving Repr, DecidableEq

inductive Route where
  /-- Something of a feed: of the default one, if it is not named. -/
  | feed (name : Option (List Char)) (route : FeedRoute)
  | notify (feed : List Char)
  | health
  | robots
  | script
  deriving Repr, DecidableEq

namespace FeedRoute

def ofSegments? (segments : List (List Char)) : Option FeedRoute :=
  match segments with
  | [segment] =>
    if segment = "search".toList then some search
    else if segment = "feed.rss".toList then some rss
    else if segment = "sitemap.xml".toList then some sitemap
    else none
  | [first, id] => if first = "post".toList ∧ id ≠ [] then some (post id) else none
  | [first, id, last] =>
    if first = "post".toList ∧ last = "oembed.json".toList then some (embedding id) else none
  | _ => none

def id? : FeedRoute → Option (List Char)
  | post id | embedding id => some id
  | home | search | rss | sitemap => none

end FeedRoute

namespace Route

def siteRoute? (segments : List (List Char)) : Option Route :=
  match segments with
  | [segment] =>
    if segment = "health".toList then some health
    else if segment = "robots.txt".toList then some robots
    else none
  | [first, second] =>
    if first = "static".toList ∧ second = "main.js".toList then some script
    else if first = "notify".toList ∧ second ≠ [] then some (notify second)
    else none
  | _ => none

def rootRoute? (segments : List (List Char)) : Option Route :=
  if segments = [[]] then some (feed none .home)
  else (FeedRoute.ofSegments? segments).map (feed none)

def namedRoute? (segments : List (List Char)) : Option Route :=
  match segments with
  | [first, name] =>
    if first = "f".toList ∧ name ≠ [] then some (feed (some name) .home) else none
  | first :: name :: rest =>
    if first = "f".toList then (FeedRoute.ofSegments? rest).map (feed (some name)) else none
  | _ => none

def ofPath? (path : List Char) : Option Route :=
  match path with
  | '/' :: rest =>
    let segments := rest.splitOn '/'
    ((siteRoute? segments).orElse fun _ => rootRoute? segments).orElse fun _ =>
      namedRoute? segments
  | _ => none

def allows (method : String) : Route → Bool
  | notify _ => method == "POST"
  | _ => method == "GET" || method == "HEAD"

def methods : Route → String
  | notify _ => "POST"
  | _ => "GET,HEAD"

end Route

end Gazette
