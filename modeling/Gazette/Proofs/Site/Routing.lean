import Gazette.Proofs.Site.Reaching

/-!
# Paths and where they lead

It is shown which routes the paths below that of a feed lead to, and that a request for something of
a feed is answered with what is rendered for it, whatever has been kept (`Sound.answer_feed`).
-/

namespace Gazette

/-! ### Routes -/

namespace Route

open List (splitOn)

/-- The segment that begins the paths of named feeds begins no other path. -/
theorem ofPath?_named {segment : List Char} (hsegment : '/' ∉ segment) :
    ofPath? ("/f/".toList ++ segment) =
      if segment = [] then none else some (.feed (some segment) .home) := by
  have hpieces : splitOn '/' ('f' :: '/' :: segment) = [['f'], segment] := by
    change splitOn '/' (['f'] ++ '/' :: segment) = _
    rw [List.splitOn_append_cons_self_of_not_mem (by decide), List.splitOn_eq_singleton hsegment]
  change ofPath? ('/' :: 'f' :: '/' :: segment) = _
  rw [ofPath?, hpieces]
  by_cases hnil : segment = []
  · subst hnil
    decide
  · simp [siteRoute?, rootRoute?, namedRoute?, FeedRoute.ofSegments?, hnil]

theorem ofPath?_below {segment : List Char} (hsegment : '/' ∉ segment) (rest : List Char) :
    ofPath? ("/f/".toList ++ segment ++ '/' :: rest) =
      (FeedRoute.ofSegments? (splitOn '/' rest)).map (.feed (some segment)) := by
  have hpieces : splitOn '/' ('f' :: '/' :: (segment ++ '/' :: rest)) =
      ['f'] :: segment :: splitOn '/' rest := by
    change splitOn '/' (['f'] ++ '/' :: (segment ++ '/' :: rest)) = _
    rw [List.splitOn_append_cons_self_of_not_mem (by decide),
      List.splitOn_append_cons_self_of_not_mem hsegment]
  change ofPath? ('/' :: 'f' :: '/' :: (segment ++ '/' :: rest)) = _
  rw [ofPath?, hpieces]
  cases hrest : splitOn '/' rest with
  | nil => exact absurd hrest (List.splitOn_ne_nil '/' rest)
  | cons piece more =>
    have hsite : siteRoute? (['f'] :: segment :: piece :: more) = none := rfl
    have hroot : rootRoute? (['f'] :: segment :: piece :: more) = none := by
      cases more with
      | nil => simp [rootRoute?, FeedRoute.ofSegments?]
      | cons next more => rfl
    simp [hsite, hroot, namedRoute?]

theorem siteRoute?_eq_none {segments : List (List Char)} {route : FeedRoute}
    (h : FeedRoute.ofSegments? segments = some route) : siteRoute? segments = none := by
  unfold FeedRoute.ofSegments? at h
  split at h
  · split at h
    · next hsearch => simp [siteRoute?, hsearch]
    · split at h
      · next hrss => simp [siteRoute?, hrss]
      · split at h
        · next hsitemap => simp [siteRoute?, hsitemap]
        · cases h
  · split at h
    · next hpost => simp [siteRoute?, hpost.1]
    · cases h
  · rfl
  · cases h

/-- What a feed has below its path, the default one has at the root. -/
theorem ofPath?_own {rest : List Char} {route : FeedRoute}
    (h : FeedRoute.ofSegments? (splitOn '/' rest) = some route) :
    ofPath? ('/' :: rest) = some (.feed none route) := by
  have hroot : splitOn '/' rest ≠ [[]] := by
    intro hnil
    rw [hnil] at h
    cases h
  rw [ofPath?, siteRoute?_eq_none h, rootRoute?, if_neg hroot, h]
  rfl

end Route

/-! ### Targets -/

/-- The path of a target without a host ends at the question mark, and the query follows it. -/
theorem Request.path_and_query {request : Request} {path tail : List Char}
    (htarget : request.target.toList = path ++ tail) (hslash : path.head? = some '/')
    (hpath : '?' ∉ path) (htail : tail = [] ∨ tail.head? = some '?')
    (hfragment : '#' ∉ path ++ tail) :
    request.path = path ∧ request.query = tail.drop 1 := by
  obtain ⟨rest, rfl⟩ := List.head?_eq_some_iff.mp hslash
  have hwithout : request.withoutFragment = '/' :: (rest ++ tail) := by
    have hwhole : ∀ c ∈ '/' :: rest ++ tail, (c != '#') = true := by
      intro c hc
      rw [bne_iff_ne]
      rintro rfl
      exact hfragment hc
    have htake := @List.takeWhile_append_of_pos _ (· != '#') _ [] hwhole
    rw [List.append_nil, List.takeWhile_nil, List.append_nil, ← htarget] at htake
    exact htake.trans htarget
  have hhost : request.withoutHost = '/' :: rest ++ tail := withoutHost_of_slash hwithout
  have hall : ∀ c ∈ '/' :: rest, (c != '?') = true := by
    intro c hc
    rw [bne_iff_ne]
    rintro rfl
    exact hpath hc
  have hends : tail.takeWhile (· != '?') = [] ∧ tail.dropWhile (· != '?') = tail := by
    rcases htail with rfl | htail
    · exact ⟨rfl, rfl⟩
    · obtain ⟨query, rfl⟩ := List.head?_eq_some_iff.mp htail
      exact ⟨rfl, rfl⟩
  constructor
  · rw [Request.path, hhost, List.takeWhile_append_of_pos hall, hends.1, List.append_nil]
  · rw [query, hhost, List.dropWhile_append_of_pos hall, hends.2]

namespace Site

/-! ### Names in paths -/

theorem undecodableName?_cons (entry : String × List Char) (names : List (String × List Char)) :
    undecodableName? (entry :: names) =
      if (Text.Percent.decode? entry.2).isNone then some entry.1 else undecodableName? names := by
  unfold undecodableName?
  rw [List.find?_cons]
  cases (Text.Percent.decode? entry.2).isNone <;> rfl

theorem undecodableName?_of_decode? {segment text : List Char}
    (h : Text.Percent.decode? segment = some text) (route : FeedRoute) :
    undecodableName? (pathNames (some segment) route) =
      undecodableName? (pathNames none route) := by
  have hnames : pathNames (some segment) route = ("feed", segment) :: pathNames none route := rfl
  rw [hnames, undecodableName?_cons, h]
  rfl

theorem undecodableName?_of_decode?_eq_none {segment : List Char}
    (h : Text.Percent.decode? segment = none) (route : FeedRoute) :
    undecodableName? (pathNames (some segment) route) = some "feed" := by
  have hnames : pathNames (some segment) route = ("feed", segment) :: pathNames none route := rfl
  rw [hnames, undecodableName?_cons, h]
  rfl

/-- The name of the feed that a route is about. -/
def addressed (config : Config) (name : Option (List Char)) (route : FeedRoute) : String :=
  (if (undecodableName? (pathNames name route)).isSome then none
    else (name.bind Text.Percent.decode?).map String.ofList).getD config.defaultFeed

theorem addressed_none (config : Config) (route : FeedRoute) :
    addressed config none route = config.defaultFeed := by
  unfold addressed
  split <;> rfl

theorem addressed_of_decode? (config : Config) {segment text : List Char}
    (h : Text.Percent.decode? segment = some text) (route : FeedRoute) :
    addressed config (some segment) route =
      if (undecodableName? (pathNames none route)).isSome then config.defaultFeed
      else String.ofList text := by
  rw [addressed, undecodableName?_of_decode? h, Option.bind_some, h]
  split <;> rfl

theorem addressed_of_decode?_eq_none (config : Config) {segment : List Char}
    (h : Text.Percent.decode? segment = none) (route : FeedRoute) :
    addressed config (some segment) route = addressed config none route := by
  unfold addressed
  rw [undecodableName?_of_decode?_eq_none h]
  cases (undecodableName? (pathNames none route)).isSome <;> rfl

/-! ### Answers -/

theorem currentFeed_eq (site : Site) (name : Option (List Char)) (route : FeedRoute) :
    site.currentFeed name route =
      match site.feed? (addressed site.config name route) with
      | some feed => .ok feed
      | none => .error (.notFound ("feed " ++ addressed site.config name route)) := rfl

/-- The response that is sent as a reply, if its page is rendered for it. -/
def responseOf (site : Site) (feed : Feed) : Reply → Response
  | .own response => response
  | .page page => site.document page.contentType (page.render site feed)

variable {site : Site} {request : Request} {name : Option (List Char)} {route : FeedRoute}

theorem answer_nowhere (hpath : Route.ofPath? request.path = none) (directory : Directory) :
    (site.answer directory request).2 = .bare 404 := by
  rw [answer, hpath]

/-- What is sent of a response: a request for its headers gets no body. -/
def sent (method : String) (response : Response) : Response :=
  if method = "HEAD" then { response with body := "" } else response

theorem answer_feedRoute (hpath : Route.ofPath? request.path = some (.feed name route))
    (directory : Directory) :
    (site.answer directory request).2 =
      sent request.method
        (if (Route.feed name route).allows request.method then
          (site.answerFeed name route request.query).2
        else wrongMethod (.feed name route)) := by
  rw [answer, hpath]
  dsimp only [answerAuthorized, answerRoute]
  cases (Route.feed name route).allows request.method <;> rfl

theorem answer_get (hmethod : request.method = "GET")
    (hpath : Route.ofPath? request.path = some (.feed name route)) (directory : Directory) :
    (site.answer directory request).2 = (site.answerFeed name route request.query).2 := by
  rw [answer_feedRoute hpath, hmethod]
  rfl

theorem Sound.give_eq (h : Sound site) {feed : Feed}
    (hfeed : site.feed? feed.name = some feed) (reply : Reply) :
    (site.give feed reply).2 = site.responseOf feed reply := by
  cases reply with
  | own response => rfl
  | page page => exact congrArg (site.document page.contentType) (h.rendered hfeed page).1

theorem Sound.answer_feed (h : Sound site) (hmethod : request.method = "GET")
    (hpath : Route.ofPath? request.path = some (.feed name route)) {feed : Feed}
    (hfeed : site.currentFeed name route = .ok feed) (directory : Directory) :
    (site.answer directory request).2 =
      site.responseOf feed (site.replyTo feed name route request.query) := by
  rw [answer_get hmethod hpath, answerFeed_eq hfeed]
  exact h.give_eq (feed?_of_currentFeed hfeed) _

end Site

end Gazette
