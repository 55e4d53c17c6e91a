import Gazette.Json.Writer
import Gazette.Site.Feeds
import Gazette.Site.Notice
import Gazette.Site.Pages
import Gazette.Site.Route
import Gazette.Site.State
import Gazette.Text.Number

/-!
# Serving

The answer of a site to a request. Everything is taken from the current indexes; only a notice of a
change rebuilds one.
-/

namespace Gazette.Site

/-! ### Names in paths -/

def undecodable (name : String) : Response :=
  .text 400 ("Invalid URL: Invalid UTF-8 in " ++ Text.ticked name)

/-- The first of the names in a path that is not text. -/
def undecodableName? (names : List (String × List Char)) : Option String :=
  (names.find? fun entry => (Text.Percent.decode? entry.2).isNone).map Prod.fst

def pathNames (name : Option (List Char)) (route : FeedRoute) : List (String × List Char) :=
  name.toList.map (("feed", ·)) ++ route.id?.toList.map (("id", ·))

/-- The feed that a route is about. It is the default one if the route does not name one, or if a
name in the path is not text. -/
def currentFeed (site : Site) (name : Option (List Char)) (route : FeedRoute) :
    Except SiteFault Feed :=
  let requested :=
    if (undecodableName? (pathNames name route)).isSome then none
    else (name.bind Text.Percent.decode?).map String.ofList
  let feed := requested.getD site.config.defaultFeed
  match site.feed? feed with
  | some feed => .ok feed
  | none => .error (.notFound ("feed " ++ feed))

/-! ### Fields of queries -/

def knownFields : FeedRoute → List String
  | .home => ["page"]
  | .search => ["query", "page"]
  | .rss => ["limit", "page"]
  | .post _ | .embedding _ | .sitemap => []

def repeatedField? (known : List String) : (seen : List String) → List (String × String) →
    Option String
  | _, [] => none
  | seen, (name, _) :: rest =>
    if name ∈ known then
      if name ∈ seen then some name else repeatedField? known (name :: seen) rest
    else repeatedField? known seen rest

/-- The number of a page; whatever is not a number above one is the first page. -/
def pageNumber (field : Option String) : Int :=
  max ((field.bind fun value => Text.readInt64? (Text.trim value.toList)).getD 1) 1

/-- The number of posts in a feed; none, unless it is a number above zero. -/
def feedLimit (field : Option String) : Option Nat :=
  (field.bind fun value => (Text.readNat64 (Text.trim value.toList)).toOption).filter (0 < ·)

/-! ### Answers -/

def document (site : Site) (contentType body : String) : Response :=
  ⟨200,
    [("content-type", contentType),
      ("content-security-policy", Assets.policy),
      ("x-content-type-options", "nosniff"),
      ("x-frame-options", "DENY"),
      ("etag", Response.tag site.config.fingerprint body),
      ("cache-control", "public, max-age=60, s-maxage=300, stale-while-revalidate=60")],
    body⟩

/-- Answers with the page of a feed's route, which is rendered unless it has been before. -/
def answerRendered (site : Site) (feed : Feed) (route contentType : String)
    (render : FeedContext → Index → List Markup) : Site × Response :=
  let (next, body) := site.rendered (pageKey feed.name feed.slot.version route) fun _ =>
    Markup.render (render (site.context feed) feed.slot.index)
  (next, site.document contentType body)

def answerHome (site : Site) (feed : Feed) (fields : List (String × String)) : Site × Response :=
  let page := pageNumber (fields.lookup "page")
  site.answerRendered feed ("home?page=" ++ Text.decimal page) Response.htmlType
    fun context index => Page.listing context index page

/-- The hits of a query. Without a query the reader is sent to the listing. -/
def answerSearch (site : Site) (feed : Feed) (fields : List (String × String)) :
    Site × Response :=
  let query := Text.trimmed ((fields.lookup "query").getD "")
  let page := pageNumber (fields.lookup "page")
  if query = "" then (site, .redirect (site.context feed).root)
  else
    let encoded := String.ofList (Text.Percent.encode query.toList)
    site.answerRendered feed ("search?query=" ++ encoded ++ "&page=" ++ Text.decimal page)
      Response.htmlType fun context index => Page.search context index query page

def answerRss (site : Site) (feed : Feed) (fields : List (String × String)) : Site × Response :=
  let limit := feedLimit (fields.lookup "limit")
  let page := limit.map fun _ => pageNumber (fields.lookup "page")
  let route :=
    match limit, page with
    | some limit, some page => "rss?limit=" ++ Text.decimal limit ++ "&page=" ++ Text.decimal page
    | _, _ => "rss"
  site.answerRendered feed route "application/rss+xml; charset=utf-8" fun context index =>
    FeedDocument.rss context index limit page

def answerSitemap (site : Site) (feed : Feed) : Site × Response :=
  site.answerRendered feed "sitemap" "application/xml; charset=utf-8" FeedDocument.sitemap

def noPost (id : String) : Response := (SiteFault.notFound ("post " ++ id)).response

def answerPost (site : Site) (feed : Feed) (id : String) : Site × Response :=
  match feed.slot.index.view? id with
  | none => (site, noPost id)
  | some (post, _) =>
    site.answerRendered feed ("post/" ++ id) Response.htmlType fun context index =>
      Page.post context index post

def embedding (context : FeedContext) (post : Post) : Json :=
  .object
    [("version", .string "1.0"),
      ("type", .string "link"),
      ("title", .string post.titleOrDate),
      ("author_name", .string (post.author ++ " • " ++ post.date)),
      ("author_url", .string (postUrl context.baseUrl post.sourceId)),
      ("provider_name", .string context.siteName),
      ("provider_url", .string context.baseUrl)]

def answerEmbedding (site : Site) (feed : Feed) (id : String) : Response :=
  match feed.slot.index.view? id with
  | none => noPost id
  | some (post, _) => .json (embedding (site.context feed) post).text

def answerFeed (site : Site) (name : Option (List Char)) (route : FeedRoute) (query : List Char) :
    Site × Response :=
  match site.currentFeed name route with
  | .error fault => (site, fault.response)
  | .ok feed =>
    let fields := Text.Query.parse query
    match repeatedField? (knownFields route) [] fields with
    | some field =>
      let detail := "duplicate field " ++ Text.ticked field
      (site, .text 400 ("Failed to deserialize query string: " ++ detail))
    | none =>
      match route with
      | .home => site.answerHome feed fields
      | .search => site.answerSearch feed fields
      | .rss => site.answerRss feed fields
      | .sitemap => site.answerSitemap feed
      | .post id | .embedding id =>
        match undecodableName? (pathNames name route), Text.Percent.decode? id with
        | none, some text =>
          match route with
          | .embedding _ => (site, site.answerEmbedding feed (String.ofList text))
          | _ => site.answerPost feed (String.ofList text)
        | some field, _ => (site, undecodable field)
        | none, none => (site, undecodable "id")

/-! ### Notices -/

def isHeaderText (value : String) : Bool :=
  value.toList.all fun c => (0x20 ≤ c.toNat && c.toNat < 0x7F) || c == '\t'

def token? (request : Request) : Option String :=
  match request.header? "authorization" with
  | none => none
  | some value =>
    if isHeaderText value then
      (Text.after? "Bearer ".toList value.toList).map fun token => String.ofList (Text.trim token)
    else none

def authorize (site : Site) (request : Request) : Except SiteFault Unit :=
  if site.config.tokens.isEmpty then .error (.notFound "notifications are disabled")
  else
    match token? request with
    | some token => if token ∈ site.config.tokens then .ok () else .error .unauthorized
    | none => .error .unauthorized

def receipt (feed : Feed) (outcome : Slot.Outcome) : Json :=
  let status := match outcome with
    | .rebuilt _ => "rebuilt"
    | .queued => "queued"
  .object
    [("feed", .string feed.name), ("status", .string status),
      ("version", .integer feed.slot.version)]

def tooLong : Response := .text 413 "Failed to buffer the request body: length limit exceeded"

def answerNotice (site : Site) (directory : Directory) (name : String) (body : List UInt8) :
    Site × Response :=
  match ChangeNotice.read body with
  | .error detail => (site, (SiteFault.badRequest ("invalid notification: " ++ detail)).response)
  | .ok _ =>
    match site.feed? name with
    | none => (site, (SiteFault.notFound ("feed " ++ name)).response)
    | some feed =>
      match site.rebuild directory feed with
      | (site, .error fault) => (site, fault.response)
      | (site, .ok outcome) => (site, .json (receipt ((site.feed? name).getD feed) outcome).text)

/-! ### The site itself -/

def feedHealth (feed : Feed) : Json :=
  .object
    [("name", .string feed.name),
      ("index_version", .integer feed.slot.version),
      ("posts", .integer feed.slot.index.posts.length),
      ("rebuilding", .bool feed.slot.running)]

def health (site : Site) : Json :=
  .object
    [("status", .string "ok"), ("service", .string "newsdesk"), ("version", .string "0.1.0"),
      ("feeds", .array ((site.config.feeds.filterMap site.feed?).map feedHealth))]

def robots : Response := .text 200 "User-agent: *\nAllow: /\n"

def script : Response :=
  (Response.typed 200 "text/javascript; charset=utf-8" Assets.script).withHeader
    "cache-control" "public, max-age=86400"

/-! ### Requests -/

def wrongMethod (route : Route) : Response := (Response.bare 405).withHeader "allow" route.methods

def answerRoute (site : Site) (directory : Directory) (request : Request) (route : Route) :
    Site × Response :=
  if !route.allows request.method then (site, wrongMethod route)
  else
    match route with
    | .feed name route => site.answerFeed name route request.query
    | .notify name =>
      match Text.Percent.decode? name with
      | none => (site, undecodable "feed")
      | some name =>
        if Request.bodyLimit < request.body.length then (site, tooLong)
        else site.answerNotice directory (String.ofList name) request.body
    | .health => (site, .json site.health.text)
    | .robots => (site, robots)
    | .script => (site, script)

/-- The answer to a route, for which a token may be needed whatever the method. -/
def answerAuthorized (site : Site) (directory : Directory) (request : Request) (route : Route) :
    Site × Response :=
  match route, site.authorize request with
  | .notify _, .error fault =>
    if route.allows request.method then (site, fault.response)
    else (site, fault.response.withHeader "allow" route.methods)
  | _, _ => site.answerRoute directory request route

def answer (site : Site) (directory : Directory) (request : Request) : Site × Response :=
  match Route.ofPath? request.path with
  | none => (site, .bare 404)
  | some route =>
    let (site, response) := site.answerAuthorized directory request route
    (site, if request.method = "HEAD" then { response with body := "" } else response)

end Gazette.Site
