import Gazette.Proofs.Site.Growth

/-!
# Keeping pages does not show

A site may keep the pages that it has rendered and forget any of them at any time; its responses are
those of a site that forgets all of them before everything it does, and so renders each page when it
is asked for (`responses_eq_responsesAfresh`). Each thing that can happen is shown to be answered in
the same way with pages as without, and to leave a sound site.
-/

namespace Gazette.Site

variable {site : Site}

/-! ### Rebuilding does not look at pages -/

theorem finish_forgetPages (site : Site) (feed : Feed) (content : FileContent) :
    site.forgetPages.finish feed content =
      ((site.finish feed content).1.forgetPages, (site.finish feed content).2) := by
  have hwalk : site.forgetPages.walk feed content = site.walk feed content := rfl
  unfold finish
  rw [hwalk]
  dsimp only
  split <;> rfl

theorem rebuild_forgetPages (site : Site) (directory : Directory) (feed : Feed) :
    site.forgetPages.rebuild directory feed =
      ((site.rebuild directory feed).1.forgetPages, (site.rebuild directory feed).2) := by
  have hrequest : site.forgetPages.request feed =
      ((site.request feed).1.forgetPages, (site.request feed).2) := rfl
  unfold rebuild
  rw [hrequest]
  dsimp only
  split
  · rfl
  · cases directory (Config.exportName (site.request feed).2.name) with
    | endless => rfl
    | content content =>
      dsimp only
      rw [finish_forgetPages]
      cases (site.request feed).1.finish (site.request feed).2 content with
      | mk later outcome => cases outcome <;> rfl

theorem refresh_forgetPages (site : Site) (directory : Directory) :
    site.forgetPages.refresh directory = (site.refresh directory).forgetPages := by
  refine List.foldl_hom forgetPages fun site name => ?_
  have hfeed : site.forgetPages.feed? name = site.feed? name := rfl
  rw [hfeed]
  cases site.feed? name with
  | none => rfl
  | some feed => exact congrArg Prod.fst (rebuild_forgetPages site directory feed)

/-! ### Answers -/

/-- Whether something that is done to a site has the same answer without the site's pages, changes
nothing else in another way, and leaves a sound site. -/
structure IsTransparent {α : Type} (site : Site) (op : Site → Site × α) : Prop where
  answer : (op site.forgetPages).2 = (op site).2
  rest : (op site.forgetPages).1.forgetPages = (op site).1.forgetPages
  sound : Sound (op site).1

namespace IsTransparent

variable {α β : Type} {op op' : Site → Site × α}

/-- It is enough to know what is done to a site of which something holds that pages do not matter
for. -/
theorem of_eq {P : Site → Prop} (h : IsTransparent site op') (hsite : P site)
    (hforget : P site.forgetPages) (heq : ∀ other, P other → op other = op' other) :
    IsTransparent site op := by
  refine ⟨?_, ?_, ?_⟩
  · rw [heq site hsite, heq site.forgetPages hforget, h.answer]
  · rw [heq site hsite, heq site.forgetPages hforget, h.rest]
  · rw [heq site hsite]
    exact h.sound

theorem fixed (h : Sound site) (answer : α) : IsTransparent site fun site => (site, answer) :=
  ⟨rfl, rfl, h⟩

/-- What does not look at pages is transparent. -/
theorem of_grows (h : Sound site) (hgrows : Grows site (op site).1)
    (hop : op site.forgetPages = ((op site).1.forgetPages, (op site).2)) :
    IsTransparent site op := by
  refine ⟨?_, ?_, h.grows hgrows⟩
  · rw [hop]
  · rw [hop]
    rfl

theorem map (h : IsTransparent site op) (f : α → β) :
    IsTransparent site fun site => ((op site).1, f (op site).2) :=
  ⟨congrArg f h.answer, h.rest, h.sound⟩

end IsTransparent

theorem rendered_forgetPages (site : Site) (key : String) (render : Unit → String) :
    (site.rendered key render).1.forgetPages = site.forgetPages := by
  unfold rendered
  split <;> rfl

theorem forgetPages_give (site : Site) (feed : Feed) (reply : Reply) :
    (site.give feed reply).1.forgetPages = site.forgetPages := by
  cases reply with
  | own response => rfl
  | page page =>
    exact rendered_forgetPages site (pageKey feed.name feed.slot.version page.route) fun _ =>
      page.render site feed

/-- A site without pages renders each page that it answers with. -/
theorem give_forgetPages (site : Site) (feed : Feed) (page : FeedPage) :
    (site.forgetPages.give feed (.page page)).2 =
      site.document page.contentType (page.render site feed) := rfl

theorem transparent_give (h : Sound site) {feed : Feed} (hfeed : site.feed? feed.name = some feed)
    (reply : Reply) : IsTransparent site fun site => site.give feed reply := by
  cases reply with
  | own response => exact .fixed h response
  | page page =>
    have hpage := h.rendered hfeed page
    refine ⟨?_, ?_, hpage.2⟩
    · rw [give_forgetPages]
      exact congrArg (site.document page.contentType) hpage.1.symm
    · rw [forgetPages_give, forgetPages_give]
      rfl

theorem feed?_of_currentFeed {name : Option (List Char)} {route : FeedRoute} {feed : Feed}
    (h : site.currentFeed name route = .ok feed) : site.feed? feed.name = some feed := by
  unfold currentFeed at h
  dsimp only at h
  split at h
  · next current hfeed =>
    cases h
    rw [name_of_feed? hfeed]
    exact hfeed
  · cases h

theorem transparent_answerFeed (h : Sound site) (name : Option (List Char)) (route : FeedRoute)
    (query : List Char) : IsTransparent site fun site => site.answerFeed name route query := by
  cases hfeed : site.currentFeed name route with
  | error fault =>
    refine (IsTransparent.fixed h fault.response).of_eq
      (P := fun other => other.currentFeed name route = .error fault) hfeed hfeed
      fun other hother => ?_
    rw [answerFeed, hother]
  | ok feed =>
    have hgive := transparent_give h (feed?_of_currentFeed hfeed)
      (site.replyTo feed name route query)
    exact hgive.of_eq (P := fun other => other.currentFeed name route = .ok feed ∧
        other.replyTo feed name route query = site.replyTo feed name route query)
      ⟨hfeed, rfl⟩ ⟨hfeed, rfl⟩ fun other hother => hother.2 ▸ answerFeed_eq hother.1 query

/-- The response to a notice whose call has come to its outcome. -/
def noticeReply (site : Site) (feed : Feed) : Except SiteFault Slot.Outcome → Response
  | .error fault => fault.response
  | .ok outcome => .json (receipt ((site.feed? feed.name).getD feed) outcome).text

theorem answerNotice_eq {name : String} {feed : Feed} (hfeed : site.feed? name = some feed)
    {body : List UInt8} {notice : ChangeNotice} (hread : ChangeNotice.read body = .ok notice)
    (directory : Directory) :
    site.answerNotice directory name body =
      ((site.rebuild directory feed).1,
        noticeReply (site.rebuild directory feed).1 feed (site.rebuild directory feed).2) := by
  unfold answerNotice
  rw [hread, hfeed, ← name_of_feed? hfeed]
  dsimp only
  cases site.rebuild directory feed with
  | mk later outcome => cases outcome <;> rfl

theorem transparent_answerNotice (h : Sound site) (directory : Directory) (name : String)
    (body : List UInt8) :
    IsTransparent site fun site => site.answerNotice directory name body := by
  cases hread : ChangeNotice.read body with
  | error detail =>
    unfold answerNotice
    rw [hread]
    exact .fixed h _
  | ok notice =>
    cases hfeed : site.feed? name with
    | none =>
      refine (IsTransparent.fixed h (SiteFault.notFound ("feed " ++ name)).response).of_eq
        (P := fun other => other.feed? name = none) hfeed hfeed fun other hother => ?_
      rw [answerNotice, hread, hother]
    | some feed =>
      have hcurrent : site.feed? feed.name = some feed := by rwa [name_of_feed? hfeed]
      have hrebuild : IsTransparent site fun site =>
          ((site.rebuild directory feed).1, noticeReply (site.rebuild directory feed).1 feed
            (site.rebuild directory feed).2) := by
        refine .of_grows h (grows_rebuild directory hcurrent) ?_
        rw [rebuild_forgetPages]
        rfl
      exact hrebuild.of_eq (P := fun other => other.feed? name = some feed) hfeed hfeed
        fun other hother => answerNotice_eq hother hread directory

theorem transparent_answerRoute (h : Sound site) (directory : Directory) (request : Request)
    (route : Route) : IsTransparent site fun site => site.answerRoute directory request route := by
  unfold answerRoute
  cases route.allows request.method with
  | false => exact .fixed h (wrongMethod route)
  | true =>
    simp only [Bool.not_true, Bool.false_eq_true, if_false]
    cases route with
    | feed name route => exact transparent_answerFeed h name route request.query
    | notify name =>
      dsimp only
      cases Text.Percent.decode? name with
      | none => exact .fixed h (undecodable "feed")
      | some name =>
        dsimp only
        split
        · exact .fixed h tooLong
        · exact transparent_answerNotice h directory (String.ofList name) request.body
    | health => exact ⟨rfl, rfl, h⟩
    | robots => exact .fixed h robots
    | script => exact .fixed h script

theorem transparent_answerAuthorized (h : Sound site) (directory : Directory) (request : Request)
    (route : Route) :
    IsTransparent site fun site => site.answerAuthorized directory request route := by
  have hroute := transparent_answerRoute h directory request route
  cases route with
  | notify name =>
    cases hauthorize : site.authorize request with
    | ok =>
      refine hroute.of_eq (P := fun other => other.authorize request = .ok ()) hauthorize hauthorize
        fun other hother => ?_
      unfold answerAuthorized
      rw [hother]
    | error fault =>
      refine (IsTransparent.fixed h (if (Route.notify name).allows request.method
          then fault.response
          else fault.response.withHeader "allow" (Route.notify name).methods)).of_eq
        (P := fun other => other.authorize request = .error fault) hauthorize hauthorize
        fun other hother => ?_
      unfold answerAuthorized
      rw [hother]
      dsimp only
      split <;> rfl
  | feed | health | robots | script => exact hroute

theorem transparent_answer (h : Sound site) (directory : Directory) (request : Request) :
    IsTransparent site fun site => site.answer directory request := by
  unfold answer
  cases Route.ofPath? request.path with
  | none => exact .fixed h (Response.bare 404)
  | some route =>
    exact (transparent_answerAuthorized h directory request route).map fun response =>
      if request.method = "HEAD" then { response with body := "" } else response

/-! ### Runs -/

/-- What can happen to a site. A notice whose walks take their time begins a call, which lands or
times out later; other things happen in between. -/
inductive Event where
  /-- A file among the exports changes. -/
  | write (name : String) (look : Look)
  | refresh
  | ask (request : Request)
  /-- A notice for a feed begins a call. -/
  | begin (feed : String)
  /-- A walk of a feed's running call ends, having read this. -/
  | land (feed : String) (content : FileContent)
  | timeOut (feed : String)
  /-- Of the kept pages only these are not forgotten. -/
  | forget (keep : String → Bool)

def onFeed (site : Site) (name : String) (op : Site → Feed → Site × Option Response) :
    Site × Option Response :=
  match site.feed? name with
  | none => (site, none)
  | some feed => op site feed

def beginCall (site : Site) (feed : Feed) : Site × Option Response :=
  ((site.request feed).1,
    if feed.slot.running then some (noticeReply (site.request feed).1 feed (.ok .queued)) else none)

def landCall (content : FileContent) (site : Site) (feed : Feed) : Site × Option Response :=
  if feed.slot.running then
    ((site.finish feed content).1,
      (site.finish feed content).2.map (noticeReply (site.finish feed content).1 feed))
  else (site, none)

def timeOutCall (site : Site) (feed : Feed) : Site × Option Response :=
  if feed.slot.running then
    ((site.timeOut feed).1, some (noticeReply (site.timeOut feed).1 feed (site.timeOut feed).2))
  else (site, none)

/-- What an event does to a site, and the response that is sent then, if one is. -/
def happen (directory : Directory) (event : Event) (site : Site) : Site × Option Response :=
  match event with
  | .write _ _ => (site, none)
  | .refresh => (site.refresh directory, none)
  | .ask request => ((site.answer directory request).1, some (site.answer directory request).2)
  | .begin name => site.onFeed name beginCall
  | .land name content => site.onFeed name (landCall content)
  | .timeOut name => site.onFeed name timeOutCall
  | .forget keep => ({ site with pages := site.pages.filter fun entry => keep entry.1 }, none)

def Event.directory : Event → Directory → Directory
  | .write name look, directory => fun other => if other = name then look else directory other
  | _, directory => directory

/-- The responses that a site sends while some events happen, one place for each event. -/
def responses (directory : Directory) (site : Site) : List Event → List (Option Response)
  | [] => []
  | event :: rest =>
    (site.happen directory event).2 ::
      (site.happen directory event).1.responses (event.directory directory) rest

/-- The responses of a site that never finds a page it has kept, since it forgets all of them before
every event. -/
def responsesAfresh (directory : Directory) (site : Site) : List Event → List (Option Response)
  | [] => []
  | event :: rest =>
    (site.forgetPages.happen directory event).2 ::
      (site.forgetPages.happen directory event).1.responsesAfresh (event.directory directory) rest

theorem transparent_onFeed (h : Sound site) (name : String)
    {op : Site → Feed → Site × Option Response}
    (hop : ∀ feed, site.feed? feed.name = some feed → IsTransparent site fun site => op site feed) :
    IsTransparent site fun site => site.onFeed name op := by
  cases hfeed : site.feed? name with
  | none =>
    refine (IsTransparent.fixed h none).of_eq (P := fun other => other.feed? name = none)
      hfeed hfeed fun other hother => ?_
    rw [onFeed, hother]
  | some feed =>
    have hcurrent : site.feed? feed.name = some feed := by rwa [name_of_feed? hfeed]
    refine (hop feed hcurrent).of_eq (P := fun other => other.feed? name = some feed)
      hfeed hfeed fun other hother => ?_
    rw [onFeed, hother]

theorem transparent_landCall (h : Sound site) (content : FileContent) {feed : Feed}
    (hfeed : site.feed? feed.name = some feed) :
    IsTransparent site fun site => landCall content site feed := by
  unfold landCall
  split
  · refine .of_grows h (grows_finish hfeed content) ?_
    rw [finish_forgetPages]
    rfl
  · exact .fixed h none

theorem transparent_timeOutCall (h : Sound site) {feed : Feed}
    (hfeed : site.feed? feed.name = some feed) :
    IsTransparent site fun site => timeOutCall site feed := by
  unfold timeOutCall
  split
  · exact .of_grows h (grows_timeOut hfeed) rfl
  · exact .fixed h none

theorem transparent_happen (h : Sound site) (directory : Directory) (event : Event) :
    IsTransparent site fun site => site.happen directory event := by
  cases event with
  | write name look => exact .fixed h none
  | refresh =>
    refine .of_grows h (grows_refresh site directory) ?_
    exact congrArg (·, none) (refresh_forgetPages site directory)
  | ask request => exact (transparent_answer h directory request).map some
  | begin name =>
    exact transparent_onFeed h name fun feed hfeed => .of_grows h (grows_request hfeed) rfl
  | land name content =>
    exact transparent_onFeed h name fun feed hfeed => transparent_landCall h content hfeed
  | timeOut name =>
    exact transparent_onFeed h name fun feed hfeed => transparent_timeOutCall h hfeed
  | forget keep =>
    have hgrows : Grows site { site with pages := site.pages.filter fun entry => keep entry.1 } :=
      ⟨rfl, (Grows.refl site).feeds, fun _ hentry => (List.mem_filter.mp hentry).1⟩
    exact .of_grows h hgrows rfl

theorem responsesAfresh_congr {site other : Site} (h : other.forgetPages = site.forgetPages)
    (directory : Directory) (events : List Event) :
    other.responsesAfresh directory events = site.responsesAfresh directory events := by
  cases events with
  | nil => rfl
  | cons event rest => rw [responsesAfresh, responsesAfresh, h]

theorem Sound.responses_eq {site : Site} (h : Sound site) (directory : Directory)
    (events : List Event) :
    site.responses directory events = site.responsesAfresh directory events := by
  induction events generalizing site directory with
  | nil => rfl
  | cons event rest ih =>
    -- From here on the two sites differ in their pages, of which the second one makes no use.
    have hevent := transparent_happen h directory event
    rw [responses, responsesAfresh, hevent.answer, ih hevent.sound,
      responsesAfresh_congr hevent.rest]

/-- Whatever happens to a new site whose feeds have names that a feed may have, and whichever pages
are forgotten in between, its responses are those it gives when every page is rendered afresh. -/
theorem responses_eq_responsesAfresh (config : Config) (entities : Entities)
    (h : ∀ name ∈ config.feeds, Config.isFeedName name = true) (directory : Directory)
    (events : List Event) :
    (Site.new config entities).responses directory events =
      (Site.new config entities).responsesAfresh directory events :=
  (Sound.new h).responses_eq directory events

def sampleConfig : Config where
  bindAddress := "0.0.0.0:3000"
  baseUrl := "https://news.example"
  siteName := "News"
  exportDirectory := "./export"
  feeds := ["news", "dev-log_2"]
  blacklist := []
  zone := .utc
  tokens := ["secret"]
  refreshSeconds := 0
  timeoutSeconds := 30

/-- A page is asked for before, during and after a call that rebuilds its feed. -/
def sampleEvents : List Event :=
  [.ask ⟨"GET", "/", [], []⟩, .begin "news", .ask ⟨"GET", "/", [], []⟩,
    .ask ⟨"POST", "/notify/news", [("authorization", "Bearer secret")], []⟩,
    .land "news" (.bytes "\x7b\"messages\": []\x7d".toUTF8.toList), .forget (· == "news@0:rss"),
    .land "news" .missing, .ask ⟨"GET", "/?page=1", [], []⟩]

theorem responses_eq_responsesAfresh_sample :
    (∀ name ∈ sampleConfig.feeds, Config.isFeedName name = true) ∧
      (Site.new sampleConfig .empty).responses (fun _ => .endless) sampleEvents =
        (Site.new sampleConfig .empty).responsesAfresh (fun _ => .endless) sampleEvents := by
  have hnames : ∀ name ∈ sampleConfig.feeds, Config.isFeedName name = true := by decide
  exact ⟨hnames, responses_eq_responsesAfresh sampleConfig .empty hnames _ sampleEvents⟩

end Gazette.Site
