import Gazette.Proofs.Site.Addresses
import Gazette.Proofs.Site.Walks

/-!
# Where posts are found

The page of a post is found below the path of its feed. That is where the link on its card leads,
and, behind the address of the site, what the sitemap, the feed, the page itself and its description
for embedding give as the address of the post (`answer_post_advertised`).
-/

namespace Gazette

open Markup (gather gatherAll)
open List (splitOn)
open Text.Percent (IsPlain)

/-! ### Paths of posts -/

namespace Route

variable {id : List Char}

theorem splitOn_post (hid : '/' ∉ id) : splitOn '/' ("post/".toList ++ id) = ["post".toList, id] := by
  change splitOn '/' ("post".toList ++ '/' :: id) = _
  rw [List.splitOn_append_cons_self_of_not_mem (by decide), List.splitOn_eq_singleton hid]

theorem ofSegments?_post (hne : id ≠ []) :
    FeedRoute.ofSegments? ["post".toList, id] = some (.post id) := by
  rw [FeedRoute.ofSegments?, if_pos ⟨rfl, hne⟩]

end Route

/-- Whether an id is made of letters and digits. -/
def IsWord (id : String) : Prop := id ≠ "" ∧ ∀ c ∈ id.toList, c.isAlphanum = true

theorem IsWord.isPlain {id : String} (h : IsWord id) : IsPlain id.toList := by
  intro c hc
  rw [Text.Percent.isUnreserved, h.2 c hc]
  rfl

theorem IsWord.toList_ne_nil {id : String} (h : IsWord id) : id.toList ≠ [] :=
  fun hnil => h.1 (String.toList_inj.mp hnil)

namespace Site

variable {site : Site} {request : Request} {feed : Feed}

/-- The page of a post, as it is answered. -/
def postPage (site : Site) (feed : Feed) (post : Post) : Response :=
  site.document Response.htmlType
    (Markup.render (Page.post (site.context feed) feed.slot.index post))

/-- A route without fields of its own has none twice. -/
theorem repeatedField?_nil (seen : List String) (fields : List (String × String)) :
    repeatedField? [] seen fields = none := by
  induction fields with
  | nil => rfl
  | cons field rest ih => rw [repeatedField?, if_neg List.not_mem_nil, ih]

theorem Sound.answer_post (h : Sound site) (hmethod : request.method = "GET")
    {name : Option (List Char)} {id body : String} {post : Post} (hid : IsPlain id.toList)
    (hpath : Route.ofPath? request.path = some (.feed name (.post id.toList)))
    (hnames : undecodableName? (pathNames name (.post id.toList)) = none)
    (hcurrent : site.currentFeed name (.post id.toList) = .ok feed)
    (hview : feed.slot.index.view? id = some (post, body)) (directory : Directory) :
    (site.answer directory request).2 = site.postPage feed post := by
  have hreply : site.replyTo feed name (.post id.toList) request.query = .page (.post id) := by
    rw [replyTo, knownFields, repeatedField?_nil]
    dsimp only [routeReply]
    rw [hnames, Text.Percent.decode?_of_isPlain hid]
    dsimp only
    rw [String.ofList_toList, postReply, hview]
    rfl
  rw [h.answer_feed hmethod hpath hcurrent, hreply, responseOf, FeedPage.render, FeedPage.markup,
    hview]
  rfl

/-- The path of a post in the site. -/
def postPath (site : Site) (feed : Feed) (id : String) : String :=
  (site.context feed).pathTo ("/post/" ++ id)

/-- At its path, a post is answered with its page. -/
theorem Reached.answer_post (h : Reached site) (hfeed : site.feed? feed.name = some feed)
    {id body : String} {post : Post} (hid : IsWord id)
    (hview : feed.slot.index.view? id = some (post, body)) (hmethod : request.method = "GET")
    (htarget : request.target = site.postPath feed id) (directory : Directory) :
    (site.answer directory request).2 = site.postPage feed post := by
  have hslash : '/' ∉ id.toList := hid.isPlain.notMem (by decide)
  have hquestion : '?' ∉ id.toList := hid.isPlain.notMem (by decide)
  have hhash : '#' ∉ id.toList := hid.isPlain.notMem (by decide)
  have hroute : FeedRoute.ofSegments? (splitOn '/' ("post/".toList ++ id.toList)) =
      some (.post id.toList) := by
    rw [Route.splitOn_post hslash, Route.ofSegments?_post hid.toList_ne_nil]
  have hdecoded : undecodableName? (pathNames none (.post id.toList)) = none := by
    simp [pathNames, FeedRoute.id?, undecodableName?, Text.Percent.decode?_of_isPlain hid.isPlain]
  have hlist : request.target.toList =
      (site.config.feedPath feed.name).toList ++ '/' :: ("post/".toList ++ id.toList) ++ [] := by
    rw [htarget, postPath, FeedContext.pathTo, context, String.toList_append, String.toList_append,
      List.append_nil]
    rfl
  obtain ⟨-, name, hpath, hnames, hcurrent⟩ := h.currentFeed_below hfeed hroute hdecoded hlist
    (by simp [hquestion]) (.inl rfl) (by simp [hhash])
  exact h.sound.answer_post hmethod hid.isPlain hpath hnames hcurrent hview directory

theorem postUrl_eq (site : Site) (feed : Feed) (id : String) :
    postUrl (site.context feed).baseUrl id = site.config.baseUrl ++ site.postPath feed id := by
  simp only [postUrl, postPath, FeedContext.pathTo, context, Config.feedUrl, String.append_assoc]

/-! ### Advertised posts -/

/-- The address that a description for embedding gives for its post. -/
def authorUrl? : Json → Option String
  | .object fields =>
    match fields.lookup "author_url" with
    | some (.string address) => some address
    | _ => none
  | _ => none

/-- Each feed of a site is found below its path behind the address of the site. The card of each of
its posts links to the post's path there; its sitemap, its feed, the post's page and the description
for embedding give that path behind the address of the site; and whoever asks for it gets the page of
this post in this feed. -/
theorem answer_post_advertised (h : Reached site) (directory : Directory) {name : String}
    (hname : name ∈ site.config.feeds) :
    ∃ feed, site.feed? name = some feed ∧
      (site.context feed).baseUrl = site.config.baseUrl ++ (site.context feed).path ∧
      ∃ address : Post → String,
        gatherAll Markup.location? (FeedDocument.sitemap (site.context feed) feed.slot.index) =
          ((site.context feed).baseUrl ++ "/") :: feed.slot.index.posts.map address ∧
        (∀ limit page, gatherAll Markup.itemLink?
            (FeedDocument.rss (site.context feed) feed.slot.index limit page) =
          (site.context feed).baseUrl :: (feed.slot.index.feedPosts limit page).map address) ∧
        ∀ post ∈ feed.slot.index.posts,
          gatherAll Markup.canonical? (Page.post (site.context feed) feed.slot.index post) =
            [address post] ∧
          authorUrl? (embedding (site.context feed) post) = some (address post) ∧
          ∃ href, gather Markup.anchor? (Page.card (site.context feed) post) = [href] ∧
            address post = site.config.baseUrl ++ href ∧
            (IsWord post.sourceId →
              ∀ request : Request, request.method = "GET" → request.target = href →
                (site.answer directory request).2 = site.postPage feed post) := by
  obtain ⟨feed, hfeed⟩ := h.exists_feed? hname
  obtain rfl := name_of_feed? hfeed
  obtain ⟨documents, hindex⟩ := h.exists_isIndexOf hfeed
  refine ⟨feed, hfeed, rfl, fun post => postUrl (site.context feed).baseUrl post.sourceId,
    FeedDocument.locations_sitemap _ _, FeedDocument.links_rss _ _, fun post hpost => ?_⟩
  obtain ⟨body, hview⟩ := hindex.exists_view? hpost
  refine ⟨Page.canonicals_post _ _ post, rfl, site.postPath feed post.sourceId,
    Page.anchors_card _ post, postUrl_eq site feed post.sourceId,
    fun hid request hmethod htarget => ?_⟩
  exact h.answer_post hfeed hid hview hmethod htarget directory

/-- An export with one message. -/
def sampleExport : FileContent :=
  .bytes ("\x7b\"messages\": [\x7b\"id\": \"7\", \"author\": \x7b\"id\": \"1\", \"username\": \"ada\"\x7d, " ++
    "\"created_at\": \"2021-04-20T12:00:00Z\", \"content\": \"x\"\x7d]\x7d").toUTF8.toList

theorem exists_load_sampleExport (directory feed : String) :
    ∃ document, document.id = "7" ∧ document.isTombstone = false ∧
      Export.load directory feed sampleExport = .ok (.ofDocuments feed [document]) := by
  have hdecode : (sampleExport.decode Export.decoder).toOption.map
      (·.map fun document => (document.id, document.isTombstone)) = some [("7", false)] := by
    decide +kernel
  obtain ⟨documents, hdocuments, hlist⟩ := Option.map_eq_some_iff.mp hdecode
  obtain ⟨document, rfl, hdocument⟩ := List.map_eq_singleton_iff.mp hlist
  obtain ⟨hid, htombstone⟩ := Prod.mk.inj hdocument
  refine ⟨document, hid, htombstone, ?_⟩
  cases hresult : sampleExport.decode Export.decoder with
  | error detail =>
    rw [hresult] at hdocuments
    cases hdocuments
  | ok documents =>
    rw [hresult] at hdocuments
    cases hdocuments
    rw [Export.load, hresult]

/-- The sample site comes to have a post in a feed that is not the default one. -/
theorem exists_reached_post :
    ∃ site feed post, Reached site ∧ site.config = sampleConfig ∧
      site.feed? "dev-log_2" = some feed ∧ post ∈ feed.slot.index.posts ∧
      post.sourceId = "7" := by
  let start := Site.new sampleConfig .empty
  let archive := Archive.ofDocuments "dev-log_2"
  obtain ⟨document, hid, htombstone, hload⟩ :=
    exists_load_sampleExport sampleConfig.exportDirectory "dev-log_2"
  let next := sampleFeed.renewed (archive [document]) (start.indexOf (archive [document]))
  have hstart : start.feed? "dev-log_2" = some sampleFeed := rfl
  have hbegin : (start.happen (fun _ => .endless) (.begin "dev-log_2")).1 =
      start.putFeed sampleFeed.begun := by
    rw [happen, onFeed, hstart]
    exact congrArg Prod.fst (request_of_idle rfl)
  have hbegun : (start.putFeed sampleFeed.begun).feed? "dev-log_2" = some sampleFeed.begun := rfl
  have hland : ((start.putFeed sampleFeed.begun).happen (fun _ => .endless)
      (.land "dev-log_2" sampleExport)).1 = (start.putFeed next).forgetPages := by
    have hfinish := @finish_begun start sampleFeed rfl sampleExport
    rw [show Export.load start.config.exportDirectory sampleFeed.name sampleExport =
      .ok (archive [document]) from hload] at hfinish
    rw [happen, onFeed, hbegun]
    exact congrArg Prod.fst hfinish
  have hreached := (reached_sample.happen (fun _ => .endless) (.begin "dev-log_2")).happen
    (fun _ => .endless) (.land "dev-log_2" sampleExport)
  rw [hbegin, hland] at hreached
  obtain ⟨-, -, hmem, hcover⟩ := Archive.fetchAll_ofDocuments "dev-log_2" [document]
  obtain ⟨kept, hkept, -⟩ := hcover document List.mem_cons_self
  obtain rfl := List.mem_singleton.mp (hmem kept hkept)
  refine ⟨_, next, (Post.ofDocument start.entities.resolver start.config.postOptions kept).1, hreached,
    rfl, rfl, Index.mem_posts_ofDocuments.mpr ⟨kept, hkept, ?_, rfl⟩, hid⟩
  exact Index.isShown_iff.mpr ⟨htombstone, List.not_mem_nil⟩

theorem answer_post_advertised_sample :
    ∃ site feed post href, Reached site ∧ "dev-log_2" ∈ site.config.feeds ∧
      site.feed? "dev-log_2" = some feed ∧ post ∈ feed.slot.index.posts ∧ IsWord post.sourceId ∧
      gather Markup.anchor? (Page.card (site.context feed) post) = [href] ∧
      (site.answer (fun _ => .endless) ⟨"GET", href, [], []⟩).2 = site.postPage feed post := by
  obtain ⟨site, feed, post, hreached, hconfig, hfeed, hpost, hid⟩ := exists_reached_post
  have hname : "dev-log_2" ∈ site.config.feeds := by
    rw [hconfig]
    decide
  have hword : IsWord post.sourceId := by
    rw [hid]
    exact ⟨by decide, List.all_eq_true.mp (by decide)⟩
  obtain ⟨found, hfound, -, address, -, -, hposts⟩ :=
    answer_post_advertised hreached (fun _ => .endless) hname
  obtain rfl : feed = found := Option.some.inj (hfeed.symm.trans hfound)
  obtain ⟨-, -, href, hcard, -, hanswer⟩ := hposts post hpost
  exact ⟨site, feed, post, href, hreached, hname, hfeed, hpost, hword, hcard,
    hanswer hword ⟨"GET", href, [], []⟩ rfl rfl⟩

end Site

end Gazette
