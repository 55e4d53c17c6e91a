import Gazette.Site.Context
import Gazette.Site.Export
import Gazette.Site.Fault
import Gazette.Slot

/-!
# The state of a site

A site keeps a slot for each of its feeds, and the pages that it has rendered. Pages are kept under
the feed, the version of its index and the route, and are all forgotten when an index is rebuilt.
-/

namespace Gazette

inductive Look where
  | content (content : FileContent)
  /-- Reading the file does not come to an end. -/
  | endless
  deriving Repr, DecidableEq

abbrev Directory := String → Look

structure Feed where
  name : String
  slot : Slot
  /-- What was read last from the feed's export. -/
  snapshot : Archive
  deriving Inhabited

structure Site where
  config : Config
  entities : Entities
  feeds : List Feed
  /-- The pages that have been rendered, by key. -/
  pages : Table String

namespace Site

def new (config : Config) (entities : Entities) : Site where
  config := config
  entities := entities
  feeds := config.feeds.eraseDups.map fun name => ⟨name, .new name, .empty⟩
  pages := []

def feed? (site : Site) (name : String) : Option Feed := site.feeds.find? (·.name == name)

def putFeed (site : Site) (feed : Feed) : Site :=
  { site with feeds := site.feeds.map fun other => if other.name = feed.name then feed else other }

/-! ### Rendered pages -/

def pageKey (feed : String) (version : Nat) (route : String) : String :=
  feed ++ "@" ++ Text.decimal version ++ ":" ++ route

/-- The page under a key, which is rendered unless it has been before. -/
def rendered (site : Site) (key : String) (render : Unit → String) : Site × String :=
  match site.pages.lookup key with
  | some page => (site, page)
  | none =>
    let page := render ()
    ({ site with pages := Table.put key page site.pages }, page)

def forgetPages (site : Site) : Site := { site with pages := [] }

/-! ### Rebuilding -/

def walk (site : Site) (feed : Feed) (content : FileContent) : Feed × Slot.Result :=
  let source := Export.source site.config.exportDirectory feed.name fun _ => content
  let (result, snapshot, _) :=
    Index.build source site.entities.resolver site.config.postOptions (feed.snapshot, 0)
  ({ feed with snapshot }, result)

def request (site : Site) (feed : Feed) : Site × Feed :=
  let feed := { feed with slot := feed.slot.request }
  (site.putFeed feed, feed)

/-- The running call of a feed ends a walk over some content; the outcome, unless it goes on with
another walk. -/
def finish (site : Site) (feed : Feed) (content : FileContent) :
    Site × Option (Except SiteFault Slot.Outcome) :=
  let (feed, result) := site.walk feed content
  let (slot, outcome) := feed.slot.finish result
  let site := site.putFeed { feed with slot }
  match outcome with
  | some (.ok (.rebuilt version)) => (site.forgetPages, some (.ok (.rebuilt version)))
  | some (.ok .queued) => (site, some (.ok .queued))
  | some (.error fault) => (site, some (.error (.ofHistory fault)))
  | none => (site, none)

def timeOut (site : Site) (feed : Feed) : Site × Except SiteFault Slot.Outcome :=
  let fault := HistoryFault.timedOut feed.name site.config.timeoutSeconds
  (site.putFeed { feed with slot := feed.slot.drop }, .error (.ofHistory fault))

/-- Goes through walks of a feed's running call, one for each content, up to its outcome. -/
def serve (site : Site) (name : String) :
    List FileContent → Site × Option (Except SiteFault Slot.Outcome)
  | [] => (site, none)
  | content :: rest =>
    match site.feed? name with
    | none => (site, none)
    | some feed =>
      match site.finish feed content with
      | (site, some outcome) => (site, some outcome)
      | (site, none) => serve site name rest

def rebuild (site : Site) (directory : Directory) (feed : Feed) :
    Site × Except SiteFault Slot.Outcome :=
  let running := feed.slot.running
  let (site, feed) := site.request feed
  if running then (site, .ok .queued)
  else
    match directory (Config.exportName feed.name) with
    | .endless => site.timeOut feed
    | .content content =>
      match site.finish feed content with
      | (site, some outcome) => (site, outcome)
      | (site, none) => (site, .ok .queued)

def refresh (site : Site) (directory : Directory) : Site :=
  site.config.feeds.foldl
    (fun site name =>
      match site.feed? name with
      | some feed => (site.rebuild directory feed).1
      | none => site)
    site

/-! ### Pages -/

def context (site : Site) (feed : Feed) : FeedContext where
  siteName := site.config.siteName
  path := site.config.feedPath feed.name
  baseUrl := site.config.feedUrl feed.name
  articleCount := feed.slot.index.posts.length

end Site

end Gazette
