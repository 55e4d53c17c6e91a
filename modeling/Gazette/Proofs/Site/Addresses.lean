import Gazette.Proofs.Site.Links
import Gazette.Proofs.Site.Routing
import Gazette.Proofs.Text.Decoding
import Gazette.Proofs.Text.Reading

/-!
# Where listings are found

Every feed has a root, and its listing is answered there, page by page (`Reached.answer_root`). The
address that a listing gives for itself, and that a sitemap gives for its feed, is the root with a
slash behind it. For the default feed that is the same; below the path of any other feed there is
nothing under this address (`answer_advertised`).
-/

namespace Gazette

open Text.Percent (IsPlain)

/-! ### Names and numbers in targets -/

theorem Config.isPlain_of_isFeedName {name : String} (h : Config.isFeedName name = true) :
    IsPlain name.toList := by
  intro c hc
  have hchar := List.all_eq_true.mp h c hc
  simp only [Bool.or_eq_true] at hchar
  simp only [Text.Percent.isUnreserved, Bool.or_eq_true]
  exact .inl (.inl hchar)

theorem toList_decimal {n : Int} (h : 0 ≤ n) :
    (Text.decimal n).toList = Text.natDigits n.natAbs := by
  rw [Text.decimal, String.toList_ofList, Text.intDigits, if_neg (by omega)]

theorem Config.notMem_feedPath (config : Config) {name : String}
    (hname : Config.isFeedName name = true) {c : Char} (hslash : c ≠ '/')
    (hc : Text.Percent.isUnreserved c = false) : c ∉ (config.feedPath name).toList := by
  have hstart : c ∉ "/f/".toList := by
    intro hmem
    simp only [show "/f/".toList = ['/', 'f', '/'] from rfl, List.mem_cons, List.not_mem_nil,
      or_false, hslash, false_or] at hmem
    rw [hmem] at hc
    cases hc
  unfold Config.feedPath
  split
  · exact List.not_mem_nil
  · rw [String.toList_append, List.mem_append, not_or]
    exact ⟨hstart, (Config.isPlain_of_isFeedName hname).notMem hc⟩

namespace Site

/-- Numbers of pages are words of 64 bits. -/
def largestPage : Int := (Nat.pow 2 63 - 1 : Nat)

theorem pageNumber_decimal {page : Int} (hpage : 1 ≤ page) (hbound : page ≤ largestPage) :
    pageNumber (some (Text.decimal page)) = page := by
  have hblank : ∀ c ∈ Text.natDigits page.natAbs, Text.isBlank c = false := fun _ hc =>
    Text.isBlank_of_isDigit (Text.isDigit_of_mem_natDigits hc)
  have hread : Text.readInt64? (Text.natDigits page.natAbs) = some (page.natAbs : Int) := by
    apply Text.readInt?_natDigits
    unfold largestPage at hbound
    omega
  have hmax : max (page.natAbs : Int) 1 = page := by omega
  rw [pageNumber, Option.bind_some, toList_decimal (by omega), Text.trim_of_forall hblank, hread]
  exact hmax

/-- The query for a page of a listing, which is not needed for the first one. -/
def pageQuery (page : Int) : String := if 1 < page then "?page=" ++ Text.decimal page else ""

variable {site : Site} {request : Request} {feed : Feed} {page : Int}

theorem write_pageField (hpage : 0 ≤ page) :
    Text.Query.write [("page", Text.decimal page)] = "page=".toList ++ (Text.decimal page).toList := by
  have hname : IsPlain "page".toList := List.all_eq_true.mp (by decide)
  have hsign : "page=".toList = "page".toList ++ ['='] := by decide
  rw [Text.Query.write_singleton, Text.Query.writeField, hname.encode_eq, toList_decimal hpage,
    (Text.Percent.isPlain_natDigits _).encode_eq, hsign, List.append_assoc]
  rfl

theorem parse_pageQuery (page : Int) :
    Text.Query.parse ((pageQuery page).toList.drop 1) =
      if 1 < page then [("page", Text.decimal page)] else [] := by
  unfold pageQuery
  split
  · rw [String.toList_append, List.drop_append_of_le_length (by decide)]
    change Text.Query.parse ("page=".toList ++ (Text.decimal page).toList) = _
    rw [← write_pageField (by omega), Text.Query.parse_write]
  · rfl

theorem replyTo_home (site : Site) (feed : Feed) (name : Option (List Char)) (hpage : 1 ≤ page)
    (hbound : page ≤ largestPage) :
    site.replyTo feed name .home ((pageQuery page).toList.drop 1) = .page (.home page) := by
  unfold replyTo
  rw [parse_pageQuery]
  split
  · have hnumber := pageNumber_decimal hpage hbound
    have hrepeated : repeatedField? (knownFields .home) [] [("page", Text.decimal page)] = none := by
      simp [repeatedField?, knownFields]
    dsimp only
    rw [hrepeated]
    dsimp only [routeReply]
    rw [List.lookup_cons_self, hnumber]
  · have hone : page = 1 := by omega
    rw [hone]
    rfl

theorem target_page {path : String} (htarget : request.target = path ++ pageQuery page)
    (hslash : path.toList.head? = some '/') (hquestion : '?' ∉ path.toList)
    (hhash : '#' ∉ path.toList) :
    request.path = path.toList ∧ request.query = (pageQuery page).toList.drop 1 := by
  have hlist : request.target.toList = path.toList ++ (pageQuery page).toList := by
    rw [htarget, String.toList_append]
  have htail : ((pageQuery page).toList = [] ∨ (pageQuery page).toList.head? = some '?') ∧
      '#' ∉ (pageQuery page).toList := by
    unfold pageQuery
    split
    · have hdigits := (Text.Percent.isPlain_natDigits page.natAbs).notMem (c := '#') (by decide)
      rw [String.toList_append, toList_decimal (by omega)]
      refine ⟨.inr rfl, ?_⟩
      simp [hdigits]
    · exact ⟨.inl rfl, by decide⟩
  refine Request.path_and_query hlist hslash hquestion htail.1 ?_
  simp [hhash, htail.2]

theorem target_named {name path : String} (hname : IsPlain name.toList) {rest : List Char}
    (hpath : path.toList = "/f/".toList ++ name.toList ++ rest) (hquestion : '?' ∉ rest)
    (hhash : '#' ∉ rest) (htarget : request.target = path ++ pageQuery page) :
    request.path = "/f/".toList ++ name.toList ++ rest ∧
      request.query = (pageQuery page).toList.drop 1 := by
  have hquestion' : '?' ∉ name.toList := hname.notMem (by decide)
  have hhash' : '#' ∉ name.toList := hname.notMem (by decide)
  rw [← hpath]
  apply target_page htarget
  · rw [hpath]
    rfl
  · simp [hpath, hquestion, hquestion']
  · simp [hpath, hhash, hhash']

/-! ### Below the paths of feeds -/

/-- What stands behind the path of a feed leads to something of this feed. That path is empty for the
default feed, and the feed is the one of the route's name otherwise. -/
theorem Reached.currentFeed_below (h : Reached site) (hfeed : site.feed? feed.name = some feed)
    {route : FeedRoute} {rest tail : List Char}
    (hroute : FeedRoute.ofSegments? (List.splitOn '/' rest) = some route)
    (hnames : undecodableName? (pathNames none route) = none)
    (htarget : request.target.toList =
      (site.config.feedPath feed.name).toList ++ '/' :: rest ++ tail)
    (hquestion : '?' ∉ rest) (htail : tail = [] ∨ tail.head? = some '?')
    (hhash : '#' ∉ rest ++ tail) :
    request.query = tail.drop 1 ∧
      ∃ name, Route.ofPath? request.path = some (.feed name route) ∧
        undecodableName? (pathNames name route) = none ∧ site.currentFeed name route = .ok feed := by
  have hnamed := h.isFeedName (h.mem_feeds hfeed)
  have hslash : ((site.config.feedPath feed.name).toList ++ '/' :: rest).head? = some '/' := by
    unfold Config.feedPath
    split
    · rfl
    · rw [String.toList_append]
      rfl
  have hquestion' := site.config.notMem_feedPath hnamed (c := '?') (by decide) (by decide)
  have hhash' := site.config.notMem_feedPath hnamed (c := '#') (by decide) (by decide)
  obtain ⟨hpath, hquery⟩ := Request.path_and_query htarget hslash
    (by simp [hquestion, hquestion']) htail (by simpa [hhash'] using hhash)
  refine ⟨hquery, ?_⟩
  by_cases hdefault : feed.name = site.config.defaultFeed
  · refine ⟨none, ?_, hnames, ?_⟩
    · rw [hpath, Config.feedPath, if_pos hdefault]
      exact Route.ofPath?_own hroute
    · rw [currentFeed_eq, addressed_none, ← hdefault, hfeed]
  · have hplain := Config.isPlain_of_isFeedName hnamed
    have hdecode := Text.Percent.decode?_of_isPlain hplain
    have haddressed : addressed site.config (some feed.name.toList) route = feed.name := by
      rw [addressed_of_decode? _ hdecode, hnames, String.ofList_toList]
      rfl
    refine ⟨some feed.name.toList, ?_, (undecodableName?_of_decode? hdecode route).trans hnames, ?_⟩
    · rw [hpath, Config.feedPath, if_neg hdefault, String.toList_append,
        Route.ofPath?_below (hplain.notMem (by decide)), hroute]
      rfl
    · rw [currentFeed_eq, haddressed, hfeed]

/-! ### Roots -/

/-- The listing of a feed, as it is answered page by page. -/
def listed (site : Site) (feed : Feed) (page : Int) : Response :=
  site.document Response.htmlType ((FeedPage.home page).render site feed)

theorem Sound.answer_home (h : Sound site) (hpage : 1 ≤ page) (hbound : page ≤ largestPage)
    (hmethod : request.method = "GET") {name : Option (List Char)}
    (hpath : Route.ofPath? request.path = some (.feed name .home))
    (hquery : request.query = (pageQuery page).toList.drop 1)
    (haddressed : addressed site.config name .home = feed.name)
    (hfeed : site.feed? feed.name = some feed) (directory : Directory) :
    (site.answer directory request).2 = site.listed feed page := by
  have hcurrent : site.currentFeed name .home = .ok feed := by
    rw [currentFeed_eq, haddressed, hfeed]
  rw [h.answer_feed hmethod hpath hcurrent, hquery, replyTo_home site feed name hpage hbound]
  rfl

theorem root_of_default (h : feed.name = site.config.defaultFeed) :
    (site.context feed).root = "/" := by
  rw [FeedContext.root, context, Config.feedPath, if_pos h, if_pos rfl]

theorem root_of_ne (h : feed.name ≠ site.config.defaultFeed) :
    (site.context feed).root = "/f/" ++ feed.name := by
  have hpath : "/f/" ++ feed.name ≠ "" := by
    intro heq
    have hlist := congrArg String.toList heq
    rw [String.toList_append] at hlist
    cases hlist
  rw [FeedContext.root, context, Config.feedPath, if_neg h, if_neg hpath]

/-- At its root, a feed answers with its listing. -/
theorem Reached.answer_root (h : Reached site) (hpage : 1 ≤ page) (hbound : page ≤ largestPage)
    (hmethod : request.method = "GET") (hfeed : site.feed? feed.name = some feed)
    (htarget : request.target = (site.context feed).root ++ pageQuery page)
    (directory : Directory) :
    (site.answer directory request).2 = site.listed feed page := by
  have hmem := h.mem_feeds hfeed
  by_cases hdefault : feed.name = site.config.defaultFeed
  · rw [root_of_default hdefault] at htarget
    obtain ⟨hpath, hquery⟩ := target_page htarget (by decide) (by decide) (by decide)
    have hroute : Route.ofPath? request.path = some (.feed none .home) := by
      rw [hpath]
      decide
    exact h.sound.answer_home hpage hbound hmethod hroute hquery hdefault.symm hfeed directory
  · rw [root_of_ne hdefault] at htarget
    have hplain := Config.isPlain_of_isFeedName (h.isFeedName hmem)
    have hlist : ("/f/" ++ feed.name).toList = "/f/".toList ++ feed.name.toList ++ [] := by
      rw [String.toList_append, List.append_nil]
    obtain ⟨hpath, hquery⟩ := target_named hplain hlist (by decide) (by decide) htarget
    have hne : feed.name.toList ≠ [] := fun hnil => h.ne_empty hmem (String.toList_inj.mp hnil)
    have hroute : Route.ofPath? request.path = some (.feed (some feed.name.toList) .home) := by
      rw [hpath, List.append_nil, Route.ofPath?_named (hplain.notMem (by decide)), if_neg hne]
    have haddressed : addressed site.config (some feed.name.toList) .home = feed.name := by
      rw [addressed_of_decode? _ (Text.Percent.decode?_of_isPlain hplain), String.ofList_toList]
      rfl
    exact h.sound.answer_home hpage hbound hmethod hroute hquery haddressed hfeed directory

/-! ### Advertised addresses -/

/-- What is answered at the address that a listing gives for itself. -/
def advertised (site : Site) (feed : Feed) (page : Int) : Response :=
  if feed.name = site.config.defaultFeed then site.listed feed page else .bare 404

/-- Whether a response is given to every request for an address of the site. -/
def IsAnsweredAt (site : Site) (directory : Directory) (address : String) (response : Response) :
    Prop :=
  ∃ target, address = site.config.baseUrl ++ target ∧
    ∀ request : Request, request.method = "GET" → request.target = target →
      (site.answer directory request).2 = response

theorem listingUrl_eq (site : Site) (feed : Feed) (page : Int) :
    Page.listingUrl (site.context feed) page =
      site.config.baseUrl ++ (site.config.feedPath feed.name ++ "/" ++ pageQuery page) := by
  have hslash : "/?page=" = "/" ++ "?page=" := by decide
  rw [Page.listingUrl, pageQuery, context, Config.feedUrl]
  split
  · rw [hslash]
    simp only [String.append_assoc]
  · simp only [String.append_assoc, String.append_empty]

theorem Reached.isAnsweredAt_listingUrl (h : Reached site) (directory : Directory)
    (hpage : 1 ≤ page) (hbound : page ≤ largestPage) (hfeed : site.feed? feed.name = some feed)
    {shown : Feed} (hname : feed.name = shown.name) :
    IsAnsweredAt site directory (Page.listingUrl (site.context shown) page)
      (site.advertised feed page) := by
  have hmem := h.mem_feeds hfeed
  refine ⟨_, listingUrl_eq site shown page, fun request hmethod htarget => ?_⟩
  rw [← hname] at htarget
  unfold advertised
  split
  · next hdefault =>
    refine h.answer_root hpage hbound hmethod hfeed ?_ directory
    rw [htarget, root_of_default hdefault, Config.feedPath, if_pos hdefault]
    rfl
  · next hother =>
    have hplain := Config.isPlain_of_isFeedName (h.isFeedName hmem)
    have hlist : (site.config.feedPath feed.name ++ "/").toList =
        "/f/".toList ++ feed.name.toList ++ ['/'] := by
      rw [Config.feedPath, if_neg hother, String.toList_append, String.toList_append]
      rfl
    obtain ⟨hpath, -⟩ := target_named hplain hlist (by decide) (by decide) htarget
    apply answer_nowhere
    rw [hpath, Route.ofPath?_below (hplain.notMem (by decide))]
    rfl

/-- The addresses that the pages of a listing and the sitemap of a feed give for the listing. They
lead to it if the feed is the default one, and nowhere if it is not. -/
theorem answer_advertised (h : Reached site) (directory : Directory) {shown : Feed}
    (hshown : shown.name ∈ site.config.feeds) (hpage : 1 ≤ page) (hbound : page ≤ largestPage) :
    ∃ feed, site.feed? shown.name = some feed ∧
      (∃ address,
        Markup.gatherAll Markup.canonical?
          (Page.listing (site.context shown) shown.slot.index page) = [address] ∧
        IsAnsweredAt site directory address (site.advertised feed page)) ∧
      ∃ address,
        (Markup.gatherAll Markup.location?
          (FeedDocument.sitemap (site.context shown) shown.slot.index)).head? = some address ∧
        IsAnsweredAt site directory address (site.advertised feed 1) := by
  obtain ⟨feed, hfeed⟩ := h.exists_feed? hshown
  have hname := name_of_feed? hfeed
  have hcurrent : site.feed? feed.name = some feed := by rwa [hname]
  refine ⟨feed, hfeed, ⟨_, Page.canonicals_listing _ _ hpage, ?_⟩,
    ⟨_, FeedDocument.head?_locations_sitemap _ _, ?_⟩⟩
  · exact h.isAnsweredAt_listingUrl directory hpage hbound hcurrent hname
  · exact h.isAnsweredAt_listingUrl directory (Int.le_refl 1) (by decide) hcurrent hname

def sampleFeed : Feed := ⟨"dev-log_2", .new "dev-log_2", .empty⟩

def sampleDefault : Feed := ⟨"news", .new "news", .empty⟩

/-- The second page of each of two feeds: the address that it gives leads nowhere in one of them, and
to the listing in the other, which is the default feed. -/
theorem answer_advertised_sample :
    let site := Site.new sampleConfig .empty
    Reached site ∧ sampleFeed.name ∈ site.config.feeds ∧ sampleDefault.name ∈ site.config.feeds ∧
      (∃ feed, site.feed? sampleFeed.name = some feed ∧
        (∃ address,
          Markup.gatherAll Markup.canonical?
            (Page.listing (site.context sampleFeed) sampleFeed.slot.index 2) = [address] ∧
          IsAnsweredAt site (fun _ => .endless) address (.bare 404)) ∧
        ∃ address,
          (Markup.gatherAll Markup.location?
            (FeedDocument.sitemap (site.context sampleFeed) sampleFeed.slot.index)).head? =
              some address ∧
          IsAnsweredAt site (fun _ => .endless) address (.bare 404)) ∧
      ∃ feed, site.feed? sampleDefault.name = some feed ∧
        (∃ address,
          Markup.gatherAll Markup.canonical?
            (Page.listing (site.context sampleDefault) sampleDefault.slot.index 2) = [address] ∧
          IsAnsweredAt site (fun _ => .endless) address (site.listed feed 2)) ∧
        ∃ address,
          (Markup.gatherAll Markup.location?
            (FeedDocument.sitemap (site.context sampleDefault) sampleDefault.slot.index)).head? =
              some address ∧
          IsAnsweredAt site (fun _ => .endless) address (site.listed feed 1) := by
  have hshown : sampleFeed.name ∈ sampleConfig.feeds := by decide
  have hdefault : sampleDefault.name ∈ sampleConfig.feeds := by decide
  have hpage : (1 : Int) ≤ 2 := by decide
  obtain ⟨feed, hfeed, hlisting, hsitemap⟩ :=
    answer_advertised reached_sample (fun _ => .endless) hshown hpage (by decide)
  obtain ⟨front, hfront, hfrontListing, hfrontSitemap⟩ :=
    answer_advertised reached_sample (fun _ => .endless) hdefault hpage (by decide)
  have hother : feed.name ≠ sampleConfig.defaultFeed := by
    rw [name_of_feed? hfeed]
    decide
  have hown : front.name = sampleConfig.defaultFeed := name_of_feed? hfront
  have hnowhere : ∀ page, (Site.new sampleConfig .empty).advertised feed page = .bare 404 :=
    fun page => if_neg hother
  have hlisted : ∀ page, (Site.new sampleConfig .empty).advertised front page =
      (Site.new sampleConfig .empty).listed front page := fun page => if_pos hown
  rw [hnowhere] at hlisting hsitemap
  rw [hlisted] at hfrontListing hfrontSitemap
  exact ⟨reached_sample, hshown, hdefault, ⟨feed, hfeed, hlisting, hsitemap⟩,
    front, hfront, hfrontListing, hfrontSitemap⟩

/-- A listing of a feed that is not the default one gives an address at which it is not found. -/
theorem exists_advertised_nowhere :
    ∃ site directory, ∃ shown : Feed, ∃ request : Request, Reached site ∧
      shown.name ∈ site.config.feeds ∧
      Markup.gatherAll Markup.canonical?
        (Page.listing (site.context shown) shown.slot.index 1) =
          [site.config.baseUrl ++ request.target] ∧
      request.method = "GET" ∧ (site.answer directory request).2.status ≠ 200 := by
  have hnowhere : Route.ofPath? (Request.path ⟨"GET", "/f/dev-log_2/", [], []⟩) = none := by decide
  refine ⟨Site.new sampleConfig .empty, fun _ => .endless, sampleFeed,
    ⟨"GET", "/f/dev-log_2/", [], []⟩, reached_sample, by decide, ?_, rfl, ?_⟩
  · rw [Page.canonicals_listing _ _ (Int.le_refl 1), listingUrl_eq]
    decide
  · rw [answer_nowhere hnowhere]
    decide

end Site

end Gazette
