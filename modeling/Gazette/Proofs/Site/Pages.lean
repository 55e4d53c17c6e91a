import Gazette.Proofs.Text.Encoding
import Gazette.Site.Serve

/-!
# Pages of a feed

The routes of a feed whose answers are rendered have five kinds of pages. A page is kept under a key
that is made of the feed's name, the version of its index and the page's route, and all three are
known from the key if the name is one that a feed may have (`pageKey_injective`).
-/

namespace Gazette

inductive FeedPage where
  | home (page : Int)
  | search (query : String) (page : Int)
  | post (id : String)
  /-- All posts, or those of one page of some size. -/
  | rss (limited : Option (Nat × Int))
  | sitemap
  deriving Repr, DecidableEq

namespace FeedPage

open Text (decimal decimal_injective)

def route : FeedPage → String
  | home page => "home?page=" ++ decimal page
  | search query page =>
    "search?query=" ++ String.ofList (Text.Percent.encode query.toList) ++ "&page=" ++ decimal page
  | post id => "post/" ++ id
  | rss none => "rss"
  | rss (some (limit, page)) => "rss?limit=" ++ decimal limit ++ "&page=" ++ decimal page
  | sitemap => "sitemap"

def contentType : FeedPage → String
  | home _ | search _ _ | post _ => Response.htmlType
  | rss _ => "application/rss+xml; charset=utf-8"
  | sitemap => "application/xml; charset=utf-8"

def markup (context : FeedContext) (index : Index) : FeedPage → List Markup
  | home page => Page.listing context index page
  | search query page => Page.search context index query page
  | post id => (index.view? id).elim [] fun view => Page.post context index view.1
  | rss limited =>
    FeedDocument.rss context index (limited.map Prod.fst) (limited.map Prod.snd)
  | sitemap => FeedDocument.sitemap context index

/-- The page as it is when nothing is kept. -/
def render (site : Site) (feed : Feed) (page : FeedPage) : String :=
  Markup.render (page.markup (site.context feed) feed.slot.index)

/-! ### Keys -/

theorem notMem_decimal {c : Char} (hdigit : c.isDigit = false) (hminus : c ≠ '-') (n : Int) :
    c ∉ (decimal n).toList := by
  rw [decimal, String.toList_ofList]
  exact Text.notMem_intDigits hdigit hminus n

theorem paged_injective {start x x' : String} {page page' : Int} (hx : '&' ∉ x.toList)
    (hx' : '&' ∉ x'.toList)
    (h : start ++ x ++ "&page=" ++ decimal page = start ++ x' ++ "&page=" ++ decimal page') :
    x = x' ∧ page = page' := by
  have hpart : "&page=".toList = '&' :: "page=".toList := by decide
  have hlist := congrArg String.toList h
  simp only [String.toList_append, hpart, List.append_assoc, List.append_cancel_left_eq,
    List.cons_append] at hlist
  obtain ⟨hpart, hpage⟩ := Text.append_cons_injective hx hx' hlist
  exact ⟨String.toList_inj.mp hpart,
    decimal_injective (String.toList_inj.mp (List.append_cancel_left hpage))⟩

theorem notMem_encode (query : String) :
    '&' ∉ (String.ofList (Text.Percent.encode query.toList)).toList := by
  rw [String.toList_ofList]
  intro hmem
  exact (Text.Percent.mem_encode hmem).elim (by decide) (by decide)

/-- The first two characters of a route tell the kind of the page. -/
def start : FeedPage → List Char
  | home _ => ['h', 'o']
  | search _ _ => ['s', 'e']
  | post _ => ['p', 'o']
  | rss _ => ['r', 's']
  | sitemap => ['s', 'i']

theorem take_route (page : FeedPage) : page.route.toList.take 2 = page.start := by
  rcases page with _ | _ | _ | (_ | _) | _ <;> simp [route, start]

theorem route_injective {a b : FeedPage} (h : a.route = b.route) : a = b := by
  have hstart : a.start = b.start := by rw [← take_route, h, take_route]
  have hlist := congrArg String.toList h
  cases a with
  | home page =>
    cases b with
    | home page' =>
      simp only [route, String.toList_append, List.append_cancel_left_eq] at hlist
      rw [decimal_injective (String.toList_inj.mp hlist)]
    | search | post | rss | sitemap => simp [start] at hstart
  | search query page =>
    cases b with
    | search query' page' =>
      obtain ⟨hquery, rfl⟩ := paged_injective (notMem_encode query) (notMem_encode query') h
      have hencode := Text.Percent.encode_injective (String.ofList_injective hquery)
      rw [String.toList_inj.mp hencode]
    | home | post | rss | sitemap => simp [start] at hstart
  | post id =>
    cases b with
    | post id' =>
      simp only [route, String.toList_append, List.append_cancel_left_eq] at hlist
      rw [String.toList_inj.mp hlist]
    | home | search | rss | sitemap => simp [start] at hstart
  | rss limited =>
    cases b with
    | rss limited' =>
      obtain _ | ⟨limit, page⟩ := limited <;> obtain _ | ⟨limit', page'⟩ := limited'
      · rfl
      · simp [route] at hlist
      · simp [route] at hlist
      · have hlimit : ∀ limit : Nat, '&' ∉ (decimal limit).toList := fun limit =>
          notMem_decimal (by decide) (by decide) limit
        obtain ⟨hlimits, rfl⟩ := paged_injective (hlimit limit) (hlimit limit') h
        rw [Int.ofNat.inj (decimal_injective hlimits)]
    | home | search | post | sitemap => simp [start] at hstart
  | sitemap =>
    cases b with
    | sitemap => rfl
    | home | search | post | rss => simp [start] at hstart

end FeedPage

theorem Config.notMem_of_isFeedName {name : String} (h : Config.isFeedName name = true) :
    '@' ∉ name.toList := by
  intro hmem
  exact absurd (List.all_eq_true.mp h '@' hmem) (by decide)

theorem Site.pageKey_injective {name name' : String} {version version' : Nat}
    {page page' : FeedPage} (hname : Config.isFeedName name = true)
    (hname' : Config.isFeedName name' = true)
    (h : Site.pageKey name version page.route = Site.pageKey name' version' page'.route) :
    name = name' ∧ version = version' ∧ page = page' := by
  have hversion : ∀ version : Nat, ':' ∉ (Text.decimal version).toList := fun version =>
    FeedPage.notMem_decimal (by decide) (by decide) version
  have hat : "@".toList = ['@'] := by decide
  have hcolon : ":".toList = [':'] := by decide
  have hlist := congrArg String.toList h
  simp only [pageKey, String.toList_append, hat, hcolon, List.append_assoc,
    List.singleton_append] at hlist
  obtain ⟨hnames, hlist⟩ := Text.append_cons_injective (Config.notMem_of_isFeedName hname)
    (Config.notMem_of_isFeedName hname') hlist
  obtain ⟨hversions, hroutes⟩ := Text.append_cons_injective (hversion version) (hversion version')
    hlist
  exact ⟨String.toList_inj.mp hnames,
    Int.ofNat.inj (Text.decimal_injective (String.toList_inj.mp hversions)),
    FeedPage.route_injective (String.toList_inj.mp hroutes)⟩

/-! ### Replies -/

/-- What a request for something of a feed is answered with: a response of its own, or a page. -/
inductive Reply where
  | own (response : Response)
  | page (page : FeedPage)

namespace Site

def searchReply (site : Site) (feed : Feed) (fields : List (String × String)) : Reply :=
  let query := Text.trimmed ((fields.lookup "query").getD "")
  if query = "" then .own (.redirect (site.context feed).root)
  else .page (.search query (pageNumber (fields.lookup "page")))

def rssReply (fields : List (String × String)) : Reply :=
  .page (.rss ((feedLimit (fields.lookup "limit")).map fun limit =>
    (limit, pageNumber (fields.lookup "page"))))

def postReply (feed : Feed) (id : String) : Reply :=
  if (feed.slot.index.view? id).isSome then .page (.post id) else .own (noPost id)

def routeReply (site : Site) (feed : Feed) (name : Option (List Char)) (route : FeedRoute)
    (fields : List (String × String)) : Reply :=
  match route with
  | .home => .page (.home (pageNumber (fields.lookup "page")))
  | .search => site.searchReply feed fields
  | .rss => rssReply fields
  | .sitemap => .page .sitemap
  | .post id | .embedding id =>
    match undecodableName? (pathNames name route), Text.Percent.decode? id with
    | none, some text =>
      match route with
      | .embedding _ => .own (site.answerEmbedding feed (String.ofList text))
      | _ => postReply feed (String.ofList text)
    | some field, _ => .own (undecodable field)
    | none, none => .own (undecodable "id")

def replyTo (site : Site) (feed : Feed) (name : Option (List Char)) (route : FeedRoute)
    (query : List Char) : Reply :=
  let fields := Text.Query.parse query
  match repeatedField? (knownFields route) [] fields with
  | some field =>
    .own (.text 400 ("Failed to deserialize query string: " ++
      ("duplicate field " ++ Text.ticked field)))
  | none => site.routeReply feed name route fields

/-- Answers with a reply, for which a page is rendered unless it is kept. -/
def give (site : Site) (feed : Feed) : Reply → Site × Response
  | .own response => (site, response)
  | .page page =>
    site.answerRendered feed page.route page.contentType fun context index =>
      page.markup context index

theorem answerSearch_eq (site : Site) (feed : Feed) (fields : List (String × String)) :
    site.answerSearch feed fields = site.give feed (site.searchReply feed fields) := by
  unfold answerSearch searchReply
  dsimp only
  split <;> rfl

theorem answerRss_eq (site : Site) (feed : Feed) (fields : List (String × String)) :
    site.answerRss feed fields = site.give feed (rssReply fields) := by
  unfold answerRss rssReply
  cases feedLimit (fields.lookup "limit") <;> rfl

theorem answerPost_eq (site : Site) (feed : Feed) (id : String) :
    site.answerPost feed id = site.give feed (postReply feed id) := by
  unfold answerPost postReply
  cases hview : feed.slot.index.view? id with
  | none => rfl
  | some view =>
    have hmarkup : ∀ context, (FeedPage.post id).markup context feed.slot.index =
        Page.post context feed.slot.index view.1 := by
      intro context
      rw [FeedPage.markup, hview]
      rfl
    rw [Option.isSome_some, if_pos rfl, give]
    dsimp only [answerRendered]
    rw [hmarkup]
    rfl

theorem answerFeed_eq {site : Site} {name : Option (List Char)} {route : FeedRoute} {feed : Feed}
    (hfeed : site.currentFeed name route = .ok feed) (query : List Char) :
    site.answerFeed name route query = site.give feed (site.replyTo feed name route query) := by
  unfold answerFeed replyTo
  rw [hfeed]
  dsimp only
  cases repeatedField? (knownFields route) [] (Text.Query.parse query) with
  | some field => rfl
  | none =>
    dsimp only
    cases route with
    | home => rfl
    | search => exact answerSearch_eq site feed _
    | rss => exact answerRss_eq site feed _
    | sitemap => rfl
    | post id =>
      dsimp only [routeReply]
      cases undecodableName? (pathNames name (.post id)) with
      | some field => rfl
      | none =>
        cases Text.Percent.decode? id with
        | none => rfl
        | some text => exact answerPost_eq site feed _
    | embedding id =>
      dsimp only [routeReply]
      cases undecodableName? (pathNames name (.embedding id)) with
      | some field => rfl
      | none => cases Text.Percent.decode? id <;> rfl

end Site

end Gazette
