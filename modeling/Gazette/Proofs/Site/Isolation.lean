import Gazette.Proofs.Site.Routing
import Gazette.Proofs.Text.Splitting

/-!
# Feeds are kept apart

What is answered below the path of a feed that has a name comes from that feed alone: it is what a
site would answer that has no other feed and has rendered nothing before (`IsIsolated`). This holds
of every segment that can be decoded. One that cannot is taken for no name, and the pages below it
are those of the default feed (`answer_below_named`).
-/

namespace Gazette.Site

open List (splitOn)

variable {site : Site} {request : Request}

/-! ### A feed on its own -/

def aloneFeed (name : String) (index : Index) : Feed := ⟨name, { Slot.new name with index }, .empty⟩

/-- A site that has a single feed, with some index, and keeps no pages. -/
def alone (config : Config) (name : String) (index : Index) : Site :=
  ⟨config, .empty, [aloneFeed name index], []⟩

theorem feed?_alone (config : Config) (name : String) (index : Index) :
    (alone config name index).feed? name = some (aloneFeed name index) := by
  simp [alone, feed?, aloneFeed]

theorem sound_alone (config : Config) {name : String} (hname : Config.isFeedName name = true)
    (index : Index) : Sound (alone config name index) where
  names := by
    intro other feed hfeed
    have hmem := List.mem_of_find?_eq_some hfeed
    obtain rfl := List.mem_singleton.mp hmem
    rw [← name_of_feed? hfeed]
    exact hname
  pages := fun _ hmem => absurd hmem List.not_mem_nil

theorem replyTo_congr {site later : Site} {feed next : Feed}
    (hconfig : later.config = site.config) (hname : next.name = feed.name)
    (hindex : next.slot.index = feed.slot.index) (name : Option (List Char)) (route : FeedRoute)
    (query : List Char) :
    later.replyTo next name route query = site.replyTo feed name route query := by
  have hcontext := context_congr hconfig hname hindex
  simp only [replyTo, routeReply, searchReply, postReply, answerEmbedding, hcontext, hindex]

theorem document_congr {site later : Site} (hconfig : later.config = site.config) :
    later.document = site.document := by
  funext contentType body
  rw [document, document, hconfig]

theorem responseOf_replyTo_congr {site later : Site} {feed next : Feed}
    (hconfig : later.config = site.config) (hname : next.name = feed.name)
    (hindex : next.slot.index = feed.slot.index) (name : Option (List Char)) (route : FeedRoute)
    (query : List Char) :
    later.responseOf next (later.replyTo next name route query) =
      site.responseOf feed (site.replyTo feed name route query) := by
  rw [replyTo_congr hconfig hname hindex]
  cases site.replyTo feed name route query with
  | own response => rfl
  | page page =>
    change later.document page.contentType _ = site.document page.contentType _
    rw [document_congr hconfig, render_congr hconfig hname hindex page]

/-! ### The feed that is addressed -/

theorem name_of_currentFeed {name : Option (List Char)} {route : FeedRoute} {feed : Feed}
    (h : site.currentFeed name route = .ok feed) :
    feed.name = addressed site.config name route := by
  rw [currentFeed_eq] at h
  split at h
  · next current hfeed =>
    cases h
    exact name_of_feed? hfeed
  · cases h

theorem currentFeed_alone {name : Option (List Char)} {route : FeedRoute} {feed : Feed}
    (h : site.currentFeed name route = .ok feed) (index : Index) :
    (alone site.config feed.name index).currentFeed name route =
      .ok (aloneFeed feed.name index) := by
  have hname : addressed (alone site.config feed.name index).config name route = feed.name :=
    (name_of_currentFeed h).symm
  rw [currentFeed_eq, hname, feed?_alone]

/-! ### Answers -/

theorem le_status_fault (fault : SiteFault) : 400 ≤ fault.response.status := by
  cases fault <;>
    simp [SiteFault.response, Response.page, Response.typed, Response.withHeader, SiteFault.status]

variable {name : Option (List Char)} {route : FeedRoute}

theorem le_status_of_error (hmethod : request.method = "GET")
    (hpath : Route.ofPath? request.path = some (.feed name route)) {fault : SiteFault}
    (hfault : site.currentFeed name route = .error fault) (directory : Directory) :
    400 ≤ (site.answer directory request).2.status := by
  rw [answer_get hmethod hpath, answerFeed, hfault]
  exact le_status_fault fault

theorem status_replyTo_of_undecodable (site : Site) (feed : Feed) {field : String}
    (hfield : undecodableName? (pathNames name route) = some field) (hid : route.id? ≠ none)
    (query : List Char) :
    (site.responseOf feed (site.replyTo feed name route query)).status = 400 := by
  have hstatus : ∀ body, (Response.text 400 body).status = 400 := fun _ => rfl
  unfold replyTo
  dsimp only
  split
  · exact hstatus _
  · cases route with
    | post id | embedding id =>
      rw [routeReply, hfield]
      exact hstatus _
    | home | search | rss | sitemap => exact absurd rfl hid

/-- What cannot be decoded in the path of a post is a fault, whichever feed is taken then. -/
theorem Sound.le_status_of_undecodable (h : Sound site) (hmethod : request.method = "GET")
    (hpath : Route.ofPath? request.path = some (.feed name route)) {field : String}
    (hfield : undecodableName? (pathNames name route) = some field) (hid : route.id? ≠ none)
    (directory : Directory) : 400 ≤ (site.answer directory request).2.status := by
  cases hfeed : site.currentFeed name route with
  | error fault => exact le_status_of_error hmethod hpath hfeed directory
  | ok feed =>
    rw [h.answer_feed hmethod hpath hfeed]
    exact Nat.le_of_eq (status_replyTo_of_undecodable site feed hfield hid request.query).symm

/-- What is answered about a feed is what would be answered if there were no other feed. -/
theorem Sound.answer_alone (h : Sound site) (hmethod : request.method = "GET")
    (hpath : Route.ofPath? request.path = some (.feed name route)) {feed : Feed}
    (hfeed : site.currentFeed name route = .ok feed) (directory : Directory) :
    (site.answer directory request).2 =
      ((alone site.config feed.name feed.slot.index).answer directory request).2 := by
  have hname := h.names feed.name feed (feed?_of_currentFeed hfeed)
  have halone := sound_alone site.config hname feed.slot.index
  have hcongr := @responseOf_replyTo_congr site (alone site.config feed.name feed.slot.index) feed
    (aloneFeed feed.name feed.slot.index) rfl rfl rfl name route request.query
  rw [h.answer_feed hmethod hpath hfeed, ← hcongr]
  exact (halone.answer_feed hmethod hpath (currentFeed_alone hfeed feed.slot.index) directory).symm

/-! ### Segments that are names -/

/-- Whether a request below the path of a feed is answered with a fault, or with what the feed that
the segment names would answer if it were the only one. -/
def IsIsolated (site : Site) (directory : Directory) (request : Request) (segment : List Char) :
    Prop :=
  400 ≤ (site.answer directory request).2.status ∨
    ∃ name feed, Text.Percent.decode? segment = some name ∧
      String.ofList name ∈ site.config.feeds ∧ site.feed? (String.ofList name) = some feed ∧
      (site.answer directory request).2 =
        ((alone site.config (String.ofList name) feed.slot.index).answer directory request).2

theorem Reached.isIsolated (h : Reached site) (hmethod : request.method = "GET")
    {segment : List Char} {route : FeedRoute}
    (hpath : Route.ofPath? request.path = some (.feed (some segment) route)) {text : List Char}
    (htext : Text.Percent.decode? segment = some text) (directory : Directory) :
    IsIsolated site directory request segment := by
  cases hfield : undecodableName? (pathNames (some segment) route) with
  | some field =>
    -- This is the id of a post. It sends the lookup to the default feed, but nothing is read there.
    refine .inl (h.sound.le_status_of_undecodable hmethod hpath hfield ?_ directory)
    intro hid
    simp [pathNames, hid, undecodableName?, htext] at hfield
  | none =>
    have haddressed : addressed site.config (some segment) route = String.ofList text := by
      simp [addressed, hfield, htext]
    cases hfeed : site.currentFeed (some segment) route with
    | error fault => exact .inl (le_status_of_error hmethod hpath hfeed directory)
    | ok feed =>
      have hname : feed.name = String.ofList text := (name_of_currentFeed hfeed).trans haddressed
      have hfound : site.feed? (String.ofList text) = some feed := by
        rw [← hname]
        exact feed?_of_currentFeed hfeed
      refine .inr ⟨text, feed, htext, h.mem_feeds hfound, hfound, ?_⟩
      rw [← hname]
      exact h.sound.answer_alone hmethod hpath hfeed directory

/-! ### Segments that are not text -/

/-- What stands behind the path of a feed in those of its pages that no post is named in. -/
def pagePaths : List (List Char) :=
  [[], "/search".toList, "/feed.rss".toList, "/sitemap.xml".toList]

/-- The path of the default feed's own page. -/
def rootPath (below : List Char) : List Char := if below = [] then ['/'] else below

theorem exists_page_route {segment below : List Char} (hsegment : '/' ∉ segment)
    (hne : segment ≠ []) (hmem : below ∈ pagePaths) :
    ∃ route, FeedRoute.id? route = none ∧
      Route.ofPath? ("/f/".toList ++ segment ++ below) = some (.feed (some segment) route) ∧
      Route.ofPath? (rootPath below) = some (.feed none route) := by
  have hbelow : ∀ (rest : List Char) (route : FeedRoute),
      FeedRoute.ofSegments? (splitOn '/' rest) = some route →
      Route.ofPath? ("/f/".toList ++ segment ++ '/' :: rest) =
        some (.feed (some segment) route) := by
    intro rest route hroute
    rw [Route.ofPath?_below hsegment, hroute]
    rfl
  simp only [pagePaths, List.mem_cons, List.not_mem_nil, or_false] at hmem
  rcases hmem with rfl | rfl | rfl | rfl
  · refine ⟨.home, rfl, ?_, by decide⟩
    rw [List.append_nil, Route.ofPath?_named hsegment, if_neg hne]
  · exact ⟨.search, rfl, hbelow "search".toList .search (by decide), by decide⟩
  · exact ⟨.rss, rfl, hbelow "feed.rss".toList .rss (by decide), by decide⟩
  · exact ⟨.sitemap, rfl, hbelow "sitemap.xml".toList .sitemap (by decide), by decide⟩

theorem mem_pagePaths_of_ofSegments? {rest : List Char} {route : FeedRoute}
    (hroute : FeedRoute.ofSegments? (splitOn '/' rest) = some route) (hid : route.id? = none) :
    '/' :: rest ∈ pagePaths := by
  generalize hpieces : splitOn '/' rest = segments at hroute
  unfold FeedRoute.ofSegments? at hroute
  split at hroute
  · next segment =>
    obtain rfl := Text.eq_of_splitOn_eq_singleton hpieces
    split at hroute
    · next hsearch => simp [pagePaths, hsearch]
    · split at hroute
      · next hrss => simp [pagePaths, hrss]
      · split at hroute
        · next hsitemap => simp [pagePaths, hsitemap]
        · cases hroute
  · split at hroute
    · cases hroute
      cases hid
    · cases hroute
  · split at hroute
    · cases hroute
      cases hid
    · cases hroute
  · cases hroute

/-- Below the path of a feed there is nothing, or something of a feed that the segment names. -/
theorem ofPath?_under {segment below : List Char} (hsegment : '/' ∉ segment)
    (hbelow : below = [] ∨ below.head? = some '/') :
    Route.ofPath? ("/f/".toList ++ segment ++ below) = none ∨
      ∃ route, Route.ofPath? ("/f/".toList ++ segment ++ below) =
          some (.feed (some segment) route) ∧
        (FeedRoute.id? route = none → below ∈ pagePaths) := by
  rcases hbelow with rfl | hhead
  · rw [List.append_nil, Route.ofPath?_named hsegment]
    split
    · exact .inl rfl
    · exact .inr ⟨.home, rfl, fun _ => List.mem_cons_self⟩
  · obtain ⟨rest, rfl⟩ := List.head?_eq_some_iff.mp hhead
    rw [Route.ofPath?_below hsegment]
    cases hroute : FeedRoute.ofSegments? (splitOn '/' rest) with
    | none => exact .inl rfl
    | some route => exact .inr ⟨route, rfl, mem_pagePaths_of_ofSegments? hroute⟩

theorem replyTo_eq_of_id?_eq_none (site : Site) (feed : Feed) (name name' : Option (List Char))
    (hid : route.id? = none) (query : List Char) :
    site.replyTo feed name route query = site.replyTo feed name' route query := by
  have hroute : ∀ fields,
      site.routeReply feed name route fields = site.routeReply feed name' route fields := by
    intro fields
    cases route with
    | home | search | rss | sitemap => rfl
    | post id | embedding id => cases hid
  simp only [replyTo, hroute]

/-- A page below a segment that is not text is the default feed's. -/
theorem Sound.answer_undecodable (h : Sound site) (hmethod : request.method = "GET")
    {segment : List Char} {route : FeedRoute}
    (hpath : Route.ofPath? request.path = some (.feed (some segment) route))
    (hsegment : Text.Percent.decode? segment = none) (hid : route.id? = none) {other : Request}
    (hother : other.method = "GET")
    (hroot : Route.ofPath? other.path = some (.feed none route))
    (hquery : other.query = request.query) (directory : Directory) :
    (site.answer directory request).2 = (site.answer directory other).2 := by
  have hcurrent : site.currentFeed (some segment) route = site.currentFeed none route := by
    rw [currentFeed_eq, currentFeed_eq, addressed_of_decode?_eq_none _ hsegment]
  cases hfeed : site.currentFeed none route with
  | error fault =>
    rw [answer_get hmethod hpath, answer_get hother hroot, answerFeed, answerFeed, hcurrent, hfeed]
  | ok feed =>
    rw [h.answer_feed hmethod hpath (hcurrent.trans hfeed), h.answer_feed hother hroot hfeed,
      hquery, replyTo_eq_of_id?_eq_none site feed (some segment) none hid]

/-- Below the path of a feed, a segment that is text stands for the feed it names, and nothing of
another feed is answered. If the segment is not text, the pages below it are the default feed's. -/
theorem answer_below_named (h : Reached site) (directory : Directory)
    (hmethod : request.method = "GET") {segment below : List Char}
    (hpath : request.path = "/f/".toList ++ segment ++ below) (hsegment : '/' ∉ segment)
    (hbelow : below = [] ∨ below.head? = some '/') :
    ((Text.Percent.decode? segment).isSome = true → IsIsolated site directory request segment) ∧
      (Text.Percent.decode? segment = none →
        if below ∈ pagePaths then
          ∀ other : Request, other.method = "GET" → other.path = rootPath below →
            other.query = request.query →
            (site.answer directory request).2 = (site.answer directory other).2
        else 400 ≤ (site.answer directory request).2.status) := by
  have hnowhere : Route.ofPath? request.path = none →
      400 ≤ (site.answer directory request).2.status := by
    intro hnone
    rw [answer_nowhere hnone]
    decide
  have hunder := ofPath?_under hsegment hbelow
  rw [← hpath] at hunder
  constructor
  · intro hsome
    obtain ⟨text, htext⟩ := Option.isSome_iff_exists.mp hsome
    rcases hunder with hnone | ⟨route, hroute, -⟩
    · exact .inl (hnowhere hnone)
    · exact h.isIsolated hmethod hroute htext directory
  · intro hnone
    split
    · next hmem =>
      intro other hother hroot hquery
      have hne : segment ≠ [] := by
        rintro rfl
        cases hnone
      obtain ⟨route, hid, hroute, hdefault⟩ := exists_page_route hsegment hne hmem
      rw [← hpath] at hroute
      rw [← hroot] at hdefault
      exact h.sound.answer_undecodable hmethod hroute hnone hid hother hdefault hquery directory
    · next hmem =>
      rcases hunder with hnone | ⟨route, hroute, hpage⟩
      · exact hnowhere hnone
      · have hfield := undecodableName?_of_decode?_eq_none hnone route
        exact h.sound.le_status_of_undecodable hmethod hroute hfield (fun hid => hmem (hpage hid))
          directory

theorem answer_below_named_sample :
    Reached (Site.new sampleConfig .empty) ∧
      IsIsolated (Site.new sampleConfig .empty) (fun _ => .endless)
        ⟨"GET", "/f/dev%2Dlog_2/feed.rss?limit=1", [], []⟩ "dev%2Dlog_2".toList ∧
      ((Site.new sampleConfig .empty).answer (fun _ => .endless)
          ⟨"GET", "/f/%FF/search?query=a", [], []⟩).2 =
        ((Site.new sampleConfig .empty).answer (fun _ => .endless)
          ⟨"GET", "/search?query=a", [], []⟩).2 := by
  refine ⟨reached_sample, ?_, ?_⟩
  · have hpath : Request.path ⟨"GET", "/f/dev%2Dlog_2/feed.rss?limit=1", [], []⟩ =
        "/f/".toList ++ "dev%2Dlog_2".toList ++ "/feed.rss".toList := by decide
    exact (answer_below_named reached_sample _ rfl hpath (by decide) (by decide)).1 (by decide)
  · have hpath : Request.path ⟨"GET", "/f/%FF/search?query=a", [], []⟩ =
        "/f/".toList ++ "%FF".toList ++ "/search".toList := by decide
    have hdefault := (answer_below_named reached_sample (fun _ => .endless) rfl hpath (by decide)
      (by decide)).2 (by decide)
    rw [if_pos (by decide)] at hdefault
    exact hdefault ⟨"GET", "/search?query=a", [], []⟩ rfl (by decide) (by decide)

/-- The path of a feed whose segment is not text is answered, and not with a fault. -/
theorem exists_not_isolated :
    ∃ site directory, ∃ request : Request, ∃ segment, Reached site ∧ request.method = "GET" ∧
      request.path = "/f/".toList ++ segment ∧ '/' ∉ segment ∧
      ¬ IsIsolated site directory request segment := by
  have hcurrent : (Site.new sampleConfig .empty).currentFeed (some "%FF".toList) .home =
      .ok ⟨"news", .new "news", .empty⟩ := by rfl
  have hpath : Route.ofPath? (Request.path ⟨"GET", "/f/%FF", [], []⟩) =
      some (.feed (some "%FF".toList) .home) := by decide
  have hanswer := reached_sample.sound.answer_feed rfl hpath hcurrent fun _ => .endless
  have hundecodable : Text.Percent.decode? "%FF".toList = none := by decide
  refine ⟨Site.new sampleConfig .empty, fun _ => .endless, ⟨"GET", "/f/%FF", [], []⟩, "%FF".toList,
    reached_sample, rfl, by decide, by decide, ?_⟩
  rintro (hstatus | ⟨name, feed, hname, -⟩)
  · rw [hanswer] at hstatus
    exact absurd hstatus (by decide)
  · rw [hundecodable] at hname
    cases hname

end Gazette.Site
