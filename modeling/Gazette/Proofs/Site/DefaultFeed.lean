import Gazette.Proofs.Site.Addresses
import Gazette.Proofs.Site.Isolation

/-!
# The two addresses of the default feed

What the default feed has at the root of the site it also has below the path that it has as a feed
with a name. Both addresses lead to the same route (`Route.ofPath?_aliasPath`) and the same feed, and
so they are answered alike, be it with a page, with the way to another address or with a fault, and
whatever pages are kept (`answer_alias`).
-/

namespace Gazette

open List (splitOn)

/-! ### Paths -/

/-- The path that stands for `path` below the name of the default feed. -/
def Config.aliasPath (config : Config) (path : List Char) : List Char :=
  "/f/".toList ++ config.defaultFeed.toList ++ if path = ['/'] then [] else path

namespace Route

/-- Whether a path leads to something of the default feed, or nowhere. -/
def IsOwn (path : List Char) : Prop :=
  ∀ route, ofPath? path = some route → ∃ below, route = .feed none below

theorem siteRoute?_ne_feed {segments : List (List Char)} {name : Option (List Char)}
    {below : FeedRoute} : siteRoute? segments ≠ some (.feed name below) := by
  intro h
  unfold siteRoute? at h
  split at h
  · split at h
    · cases h
    · split at h <;> cases h
  · split at h
    · cases h
    · split at h <;> cases h
  · cases h

theorem namedRoute?_ne_own {segments : List (List Char)} {below : FeedRoute} :
    namedRoute? segments ≠ some (.feed none below) := by
  intro h
  unfold namedRoute? at h
  split at h
  · split at h <;> cases h
  · split at h
    · obtain ⟨route, -, hroute⟩ := Option.map_eq_some_iff.mp h
      cases hroute
    · cases h
  · cases h

/-- Behind the root, such a path leads where its segments lead below a feed. -/
theorem IsOwn.ofPath?_eq {rest : List Char} (h : IsOwn ('/' :: rest)) (hrest : rest ≠ []) :
    ofPath? ('/' :: rest) = (FeedRoute.ofSegments? (splitOn '/' rest)).map (.feed none) := by
  have hroot : rootRoute? (splitOn '/' rest) =
      (FeedRoute.ofSegments? (splitOn '/' rest)).map (.feed none) :=
    if_neg fun hnil => hrest (Text.eq_of_splitOn_eq_singleton hnil)
  unfold IsOwn at h
  rw [ofPath?] at h ⊢
  rw [hroot] at h ⊢
  cases hsite : siteRoute? (splitOn '/' rest) with
  | some route =>
    obtain ⟨below, rfl⟩ := h route (by rw [hsite]; rfl)
    exact absurd hsite siteRoute?_ne_feed
  | none =>
    cases hbelow : FeedRoute.ofSegments? (splitOn '/' rest) with
    | some below => rfl
    | none =>
      cases hnamed : namedRoute? (splitOn '/' rest) with
      | none => rfl
      | some route =>
        obtain ⟨below, rfl⟩ := h route (by rw [hsite, hbelow, hnamed]; rfl)
        exact absurd hnamed namedRoute?_ne_own

theorem ofPath?_aliasPath {config : Config} {path : List Char}
    (hname : Text.Percent.IsPlain config.defaultFeed.toList) (hne : config.defaultFeed ≠ "")
    (hslash : path.head? = some '/') (h : IsOwn path) :
    (ofPath? path = none ∧ ofPath? (config.aliasPath path) = none) ∨
      ∃ below, ofPath? path = some (.feed none below) ∧
        ofPath? (config.aliasPath path) =
          some (.feed (some config.defaultFeed.toList) below) := by
  have hsegment : '/' ∉ config.defaultFeed.toList := hname.notMem (by decide)
  obtain ⟨rest, rfl⟩ := List.head?_eq_some_iff.mp hslash
  unfold Config.aliasPath
  by_cases hrest : rest = []
  · subst hrest
    have hnil : config.defaultFeed.toList ≠ [] := fun hnil => hne (String.toList_inj.mp hnil)
    refine .inr ⟨.home, by decide, ?_⟩
    rw [if_pos rfl, List.append_nil, ofPath?_named hsegment, if_neg hnil]
  · have hpath : '/' :: rest ≠ ['/'] := fun heq => hrest (List.cons.inj heq).2
    rw [if_neg hpath, ofPath?_below hsegment, h.ofPath?_eq hrest]
    cases FeedRoute.ofSegments? (splitOn '/' rest) with
    | none => exact .inl ⟨rfl, rfl⟩
    | some below => exact .inr ⟨below, rfl, rfl⟩

end Route

namespace Site

variable {site later : Site} {request other : Request}

theorem forgetPages_answer {name : Option (List Char)} {route : FeedRoute}
    (hpath : Route.ofPath? request.path = some (.feed name route)) (directory : Directory) :
    (site.answer directory request).1.forgetPages = site.forgetPages := by
  rw [answer, hpath]
  dsimp only [answerAuthorized, answerRoute]
  cases (Route.feed name route).allows request.method with
  | true => exact forgetPages_answerFeed site name route request.query
  | false => rfl

/-! ### The default feed -/

theorem Reached.defaultFeed_mem (h : Reached site) :
    site.config.defaultFeed ∈ site.config.feeds := by
  obtain ⟨value, hfeeds⟩ := h.exists_feedsOf
  have hne := Config.ne_nil_of_feedsOf hfeeds
  obtain ⟨first, rest, hcons⟩ := List.exists_cons_of_ne_nil hne
  rw [Config.defaultFeed, hcons]
  exact List.mem_cons_self

/-- Where a name is text, it is the feed that decides about the reply. -/
theorem replyTo_of_decode? {segment text : List Char}
    (htext : Text.Percent.decode? segment = some text) (site : Site) (feed : Feed)
    (route : FeedRoute) (query : List Char) :
    site.replyTo feed (some segment) route query = site.replyTo feed none route query := by
  have hroute : ∀ fields, site.routeReply feed (some segment) route fields =
      site.routeReply feed none route fields := by
    intro fields
    cases route with
    | home | search | rss | sitemap => rfl
    | post id | embedding id => simp only [routeReply, undecodableName?_of_decode? htext]
  simp only [replyTo, hroute]

theorem Sound.answerFeed_alias (hsite : Sound site) (hlater : Sound later)
    (hpages : later.forgetPages = site.forgetPages) {segment : List Char}
    (htext : Text.Percent.decode? segment = some site.config.defaultFeed.toList)
    (route : FeedRoute) (query : List Char) :
    (later.answerFeed (some segment) route query).2 = (site.answerFeed none route query).2 := by
  have hconfig : later.forgetPages.config = site.forgetPages.config := by rw [hpages]
  have hfeeds : ∀ name, later.forgetPages.feed? name = site.forgetPages.feed? name := by
    intro name
    rw [hpages]
  change later.config = site.config at hconfig
  change ∀ name, later.feed? name = site.feed? name at hfeeds
  have hcurrent : later.currentFeed (some segment) route = site.currentFeed none route := by
    have haddressed : addressed later.config (some segment) route = site.config.defaultFeed := by
      rw [hconfig, addressed_of_decode? _ htext, String.ofList_toList, ite_self]
    rw [currentFeed_eq, currentFeed_eq, haddressed, addressed_none, hfeeds]
  cases hfeed : site.currentFeed none route with
  | error fault =>
    rw [hfeed] at hcurrent
    rw [answerFeed, answerFeed, hcurrent, hfeed]
  | ok feed =>
    rw [hfeed] at hcurrent
    rw [answerFeed_eq hcurrent, answerFeed_eq hfeed,
      hlater.give_eq (feed?_of_currentFeed hcurrent), hsite.give_eq (feed?_of_currentFeed hfeed),
      replyTo_of_decode? htext, responseOf_replyTo_congr hconfig rfl rfl]

/-- Below the path of the default feed as a feed with a name, there is what is at the root of the
site. Neither the method nor the query makes a difference, nor do the pages that are kept. -/
theorem answer_alias (hsite : Reached site) (hlater : Reached later)
    (hpages : later.forgetPages = site.forgetPages) (hslash : request.path.head? = some '/')
    (hown : Route.IsOwn request.path) (hother : other.path = site.config.aliasPath request.path)
    (hmethod : other.method = request.method) (hquery : other.query = request.query)
    (directory : Directory) :
    (later.answer directory other).2 = (site.answer directory request).2 := by
  have hmem := hsite.defaultFeed_mem
  have hname := Config.isPlain_of_isFeedName (hsite.isFeedName hmem)
  have hroutes := Route.ofPath?_aliasPath hname (hsite.ne_empty hmem) hslash hown
  rw [← hother] at hroutes
  obtain ⟨hnowhere, hnowhere'⟩ | ⟨below, hpath, hpath'⟩ := hroutes
  · rw [answer_nowhere hnowhere, answer_nowhere hnowhere']
  · have htext := Text.Percent.decode?_of_isPlain hname
    have hanswer := hsite.sound.answerFeed_alias hlater.sound hpages htext below request.query
    rw [answer_feedRoute hpath, answer_feedRoute hpath', hmethod, hquery, hanswer]
    rfl

/-- Hits are asked for at the root, and then below the name of the feed, when their page is kept. -/
theorem answer_alias_kept :
    ∃ (site later : Site) (request other : Request) (directory : Directory),
      Reached site ∧ Reached later ∧ later = (site.answer directory request).1 ∧
      request.target = "/search?query=a%2Bb&page=2" ∧
      other.target = "/f/news/search?query=a%2Bb&page=2" ∧
      request.path.head? = some '/' ∧ Route.IsOwn request.path ∧
      other.path = site.config.aliasPath request.path ∧ other.method = request.method ∧
      other.query = request.query ∧
      (later.answer directory other).2 = (site.answer directory request).2 := by
  let site := Site.new sampleConfig .empty
  let directory : Directory := fun _ => .endless
  let request : Request := ⟨"GET", "/search?query=a%2Bb&page=2", [], []⟩
  let other : Request := ⟨"GET", "/f/news/search?query=a%2Bb&page=2", [], []⟩
  have hroute : Route.ofPath? request.path = some (.feed none .search) := by decide
  have hown : Route.IsOwn request.path := by
    intro route hfound
    rw [hroute] at hfound
    exact ⟨.search, (Option.some.inj hfound).symm⟩
  have hpages : (site.answer directory request).1.forgetPages = site.forgetPages :=
    forgetPages_answer hroute directory
  have hlater : Reached (site.answer directory request).1 :=
    reached_sample.happen directory (.ask request)
  have hpath : other.path = site.config.aliasPath request.path := by decide
  have hquery : other.query = request.query := by decide
  exact ⟨site, _, request, other, directory, reached_sample, hlater, rfl, rfl, rfl, by decide, hown,
    hpath, rfl, hquery,
    answer_alias reached_sample hlater hpages (by decide) hown hpath rfl hquery directory⟩

end Site

end Gazette
