import Gazette.Proofs.Site.Isolation
import Gazette.Proofs.Site.Walks

/-!
# Marks on idle slots

A mark that is left on the slot of a feed is of no consequence while no call is running there: the
next call begins by taking it away. So two states that differ in such marks only have the same
responses, whatever happens (`responses_eq_of_calm_eq`).
-/

namespace Gazette

namespace Feed

theorem calm_of_running {feed : Feed} (h : feed.slot.running = true) : feed.calm = feed := if_pos h

@[simp] theorem name_calm (feed : Feed) : feed.calm.name = feed.name := by
  unfold calm
  split <;> rfl

@[simp] theorem index_calm (feed : Feed) : feed.calm.slot.index = feed.slot.index := by
  unfold calm
  split <;> rfl

@[simp] theorem running_calm (feed : Feed) : feed.calm.slot.running = feed.slot.running := by
  unfold calm
  split <;> rfl

@[simp] theorem version_calm (feed : Feed) : feed.calm.slot.version = feed.slot.version :=
  congrArg Index.version feed.index_calm

@[simp] theorem calm_calm (feed : Feed) : feed.calm.calm = feed.calm := by
  unfold calm
  split <;> rfl

/-- A call takes the mark away. -/
theorem request_calm (feed : Feed) :
    { feed.calm with slot := feed.calm.slot.request } = { feed with slot := feed.slot.request } := by
  cases hrunning : feed.slot.running with
  | true => rw [calm_of_running hrunning]
  | false => simp [calm, hrunning, Slot.request]

end Feed

namespace Site

variable {site : Site}

/-- The site without marks on the slots of feeds where no call is running. -/
def calm (site : Site) : Site := { site with feeds := site.feeds.map Feed.calm }

theorem feed?_calm (site : Site) (name : String) :
    site.calm.feed? name = (site.feed? name).map Feed.calm := by
  unfold calm feed?
  rw [List.find?_map]
  congr 2
  funext feed
  simp

theorem calm_putFeed (site : Site) (feed : Feed) :
    (site.putFeed feed).calm = site.calm.putFeed feed.calm := by
  unfold calm putFeed
  simp only [List.map_map]
  congr 1
  refine List.map_congr_left fun other _ => ?_
  by_cases h : other.name = feed.name
  · simp [h]
  · simp [h]

@[simp] theorem calm_calm (site : Site) : site.calm.calm = site.calm := by
  unfold calm
  simp only [List.map_map]
  congr 1
  exact List.map_congr_left fun feed _ => feed.calm_calm

theorem calm_putFeed_calm (site : Site) (feed : Feed) :
    (site.calm.putFeed feed).calm = (site.putFeed feed).calm := by
  rw [calm_putFeed, calm_putFeed, calm_calm]

/-- A feed that takes the place of itself changes nothing, nor does it if it comes without its mark. -/
theorem calm_putFeed_of_feed? (hnames : (site.feeds.map Feed.name).Nodup) {feed : Feed}
    (hfeed : site.feed? feed.name = some feed) : (site.putFeed feed.calm).calm = site.calm := by
  have hself : site.putFeed feed = site := by
    have hmap : site.feeds.map (fun other => if other.name = feed.name then feed else other) =
        site.feeds := by
      refine (List.map_congr_left fun other hother => ?_).trans (List.map_id _)
      split
      · next hname =>
        exact (List.inj_on_of_nodup_map hnames hother (List.mem_of_find?_eq_some hfeed) hname).symm
      · rfl
    rw [putFeed, hmap]
  rw [calm_putFeed, feed.calm_calm, ← calm_putFeed, hself]

/-! ### What does not look at marks -/

/-- Whether something that is done to a site has the same answer, and changes nothing but marks in
another way, when the site is calm. -/
structure IsIndifferent {α : Type} (site : Site) (op : Site → Site × α) : Prop where
  answer : (op site.calm).2 = (op site).2
  rest : (op site.calm).1.calm = (op site).1.calm

namespace IsIndifferent

variable {α β : Type} {op op' : Site → Site × α}

theorem of_eq (h : op site.calm = ((op site).1.calm, (op site).2)) : IsIndifferent site op :=
  ⟨by rw [h], by rw [h, calm_calm]⟩

theorem fixed (site : Site) (answer : α) : IsIndifferent site fun site => (site, answer) :=
  .of_eq rfl

theorem map (h : IsIndifferent site op) (f : α → β) :
    IsIndifferent site fun site => ((op site).1, f (op site).2) :=
  ⟨congrArg f h.answer, h.rest⟩

end IsIndifferent

/-! ### Calls -/

theorem request_calm (site : Site) (feed : Feed) :
    site.calm.request feed.calm = ((site.request feed).1.calm, (site.request feed).2) := by
  have hrunning : ({ feed with slot := feed.slot.request } : Feed).slot.running = true := by
    unfold Slot.request
    split
    · assumption
    · rfl
  unfold request
  dsimp only
  rw [feed.request_calm, calm_putFeed, Feed.calm_of_running hrunning]

theorem indifferent_finish (site : Site) (feed : Feed) (content : FileContent) :
    IsIndifferent site fun site => site.finish feed content := by
  have hwalk : site.calm.walk feed content = site.walk feed content := rfl
  have hput : ∀ feed, (site.calm.putFeed feed).calm = (site.putFeed feed).calm :=
    site.calm_putFeed_calm
  have hforget : ∀ feed, (site.calm.putFeed feed).forgetPages.calm =
      (site.putFeed feed).forgetPages.calm := fun feed => congrArg forgetPages (hput feed)
  constructor
  · unfold finish
    rw [hwalk]
    dsimp only
    split <;> rfl
  · unfold finish
    rw [hwalk]
    dsimp only
    split
    · exact hforget _
    · exact hput _
    · exact hput _
    · exact hput _

theorem indifferent_timeOut (site : Site) (feed : Feed) :
    IsIndifferent site fun site => site.timeOut feed :=
  ⟨rfl, site.calm_putFeed_calm _⟩

theorem indifferent_rebuild (site : Site) (directory : Directory) (feed : Feed) :
    (site.calm.rebuild directory feed.calm).2 = (site.rebuild directory feed).2 ∧
      (site.calm.rebuild directory feed.calm).1.calm = (site.rebuild directory feed).1.calm := by
  unfold rebuild
  rw [request_calm, feed.running_calm]
  dsimp only
  split
  · exact ⟨rfl, calm_calm _⟩
  · cases directory (Config.exportName (site.request feed).2.name) with
    | endless =>
      have h := indifferent_timeOut (site.request feed).1 (site.request feed).2
      exact ⟨h.answer, h.rest⟩
    | content content =>
      obtain ⟨hanswer, hrest⟩ :=
        indifferent_finish (site.request feed).1 (site.request feed).2 content
      dsimp only at hanswer hrest ⊢
      generalize (site.request feed).1.calm.finish (site.request feed).2 content = calm at *
      generalize (site.request feed).1.finish (site.request feed).2 content = plain at *
      obtain ⟨later, outcome⟩ := plain
      obtain ⟨later', outcome'⟩ := calm
      obtain rfl : outcome' = outcome := hanswer
      cases outcome' with
      | none => exact ⟨rfl, hrest⟩
      | some outcome => exact ⟨rfl, hrest⟩

/-- If each step comes to the same from a state and its normal form, so do all steps together. -/
theorem foldl_normal {σ α : Type} {normal : σ → σ} {step : σ → α → σ}
    (hnormal : ∀ state, normal (normal state) = normal state)
    (hstep : ∀ state item, normal (step (normal state) item) = normal (step state item))
    (state : σ) (items : List α) :
    normal (items.foldl step (normal state)) = normal (items.foldl step state) := by
  induction items generalizing state with
  | nil => exact hnormal state
  | cons item rest ih => rw [List.foldl_cons, List.foldl_cons, ← ih, hstep, ih]

theorem calm_refresh (site : Site) (directory : Directory) :
    (site.calm.refresh directory).calm = (site.refresh directory).calm := by
  refine foldl_normal calm_calm (fun site name => ?_) site site.config.feeds
  rw [feed?_calm]
  cases site.feed? name with
  | none => exact calm_calm site
  | some feed => exact (indifferent_rebuild site directory feed).2

/-! ### Answers -/

theorem give_calm (site : Site) (feed : Feed) (reply : Reply) :
    site.calm.give feed.calm reply = ((site.give feed reply).1.calm, (site.give feed reply).2) := by
  cases reply with
  | own response => rfl
  | page page =>
    have hcontext : site.calm.context feed.calm = site.context feed :=
      context_congr rfl feed.name_calm feed.index_calm
    simp only [give, answerRendered, hcontext, Feed.name_calm, Feed.version_calm, Feed.index_calm]
    have hrendered : ∀ key render, site.calm.rendered key render =
        ((site.rendered key render).1.calm, (site.rendered key render).2) := by
      intro key render
      have hpages : site.calm.pages = site.pages := rfl
      unfold rendered
      rw [hpages]
      split <;> rfl
    have hdocument : site.calm.document = site.document := document_congr rfl
    rw [hrendered, hdocument]

theorem indifferent_answerFeed (site : Site) (name : Option (List Char)) (route : FeedRoute)
    (query : List Char) : IsIndifferent site fun site => site.answerFeed name route query := by
  have hcurrent : site.calm.currentFeed name route =
      (site.currentFeed name route).map Feed.calm := by
    have hconfig : site.calm.config = site.config := rfl
    rw [currentFeed_eq, currentFeed_eq, feed?_calm, hconfig]
    cases site.feed? (addressed site.config name route) <;> rfl
  cases hfeed : site.currentFeed name route with
  | error fault =>
    rw [hfeed] at hcurrent
    refine .of_eq ?_
    rw [answerFeed, answerFeed, hcurrent, hfeed]
    rfl
  | ok feed =>
    rw [hfeed] at hcurrent
    have hreply : site.calm.replyTo feed.calm name route query = site.replyTo feed name route query :=
      replyTo_congr rfl feed.name_calm feed.index_calm name route query
    refine .of_eq ?_
    rw [answerFeed_eq hcurrent, answerFeed_eq hfeed, hreply, give_calm]

theorem noticeReply_calm (site : Site) (feed : Feed) (outcome : Except SiteFault Slot.Outcome) :
    noticeReply site.calm feed.calm outcome = noticeReply site feed outcome := by
  cases outcome with
  | error fault => rfl
  | ok outcome =>
    have hreceipt : receipt ((site.calm.feed? feed.calm.name).getD feed.calm) outcome =
        receipt ((site.feed? feed.name).getD feed) outcome := by
      rw [feed.name_calm, feed?_calm]
      cases site.feed? feed.name <;> simp [receipt]
    rw [noticeReply, noticeReply, hreceipt]

theorem noticeReply_congr {site other : Site} (h : other.calm = site.calm) (feed : Feed) :
    noticeReply other feed = noticeReply site feed := by
  funext outcome
  rw [← noticeReply_calm, h, noticeReply_calm]

theorem indifferent_answerNotice (site : Site) (directory : Directory) (name : String)
    (body : List UInt8) :
    IsIndifferent site fun site => site.answerNotice directory name body := by
  cases hread : ChangeNotice.read body with
  | error detail =>
    simp only [answerNotice, hread]
    exact .fixed site _
  | ok notice =>
    have hcalm := feed?_calm site name
    cases hfeed : site.feed? name with
    | none =>
      rw [hfeed] at hcalm
      refine .of_eq ?_
      simp only [answerNotice, hread, hfeed, hcalm, Option.map_none]
    | some feed =>
      rw [hfeed] at hcalm
      obtain ⟨hanswer, hrest⟩ := indifferent_rebuild site directory feed
      constructor
      · rw [answerNotice_eq hcalm hread, answerNotice_eq hfeed hread, hanswer,
          noticeReply_congr hrest, ← noticeReply_calm, feed.calm_calm, noticeReply_calm]
      · rw [answerNotice_eq hcalm hread, answerNotice_eq hfeed hread]
        exact hrest

theorem health_calm (site : Site) : site.calm.health = site.health := by
  have hfeeds : (site.config.feeds.filterMap site.calm.feed?).map feedHealth =
      (site.config.feeds.filterMap site.feed?).map feedHealth := by
    rw [List.map_filterMap, List.map_filterMap]
    congr 1
    funext name
    rw [feed?_calm]
    cases site.feed? name <;> simp [feedHealth]
  rw [health, health, ← hfeeds]
  rfl

theorem indifferent_answerRoute (site : Site) (directory : Directory) (request : Request)
    (route : Route) : IsIndifferent site fun site => site.answerRoute directory request route := by
  unfold answerRoute
  cases route.allows request.method with
  | false => exact .fixed site (wrongMethod route)
  | true =>
    simp only [Bool.not_true, Bool.false_eq_true, if_false]
    cases route with
    | feed name route => exact indifferent_answerFeed site name route request.query
    | notify name =>
      dsimp only
      cases Text.Percent.decode? name with
      | none => exact .fixed site (undecodable "feed")
      | some name =>
        dsimp only
        split
        · exact .fixed site tooLong
        · exact indifferent_answerNotice site directory (String.ofList name) request.body
    | health =>
      refine .of_eq ?_
      rw [health_calm]
    | robots => exact .fixed site robots
    | script => exact .fixed site script

theorem indifferent_answer (site : Site) (directory : Directory) (request : Request) :
    IsIndifferent site fun site => site.answer directory request := by
  unfold answer
  cases Route.ofPath? request.path with
  | none => exact .fixed site (Response.bare 404)
  | some route =>
    have hroute := indifferent_answerRoute site directory request route
    have hauthorized : IsIndifferent site fun site =>
        site.answerAuthorized directory request route := by
      have hauthorize : site.calm.authorize request = site.authorize request := rfl
      unfold answerAuthorized
      cases route with
      | notify name =>
        constructor
        · rw [hauthorize]
          split
          · split <;> rfl
          · exact hroute.answer
        · rw [hauthorize]
          split
          · split <;> exact calm_calm site
          · exact hroute.rest
      | feed | health | robots | script => exact hroute
    exact hauthorized.map fun response =>
      if request.method = "HEAD" then { response with body := "" } else response

/-! ### Runs -/

theorem indifferent_onFeed (site : Site) (name : String)
    {op : Site → Feed → Site × Option Response}
    (hop : ∀ feed, (op site.calm feed.calm).2 = (op site feed).2 ∧
      (op site.calm feed.calm).1.calm = (op site feed).1.calm) :
    IsIndifferent site fun site => site.onFeed name op := by
  have hcalm := feed?_calm site name
  cases hfeed : site.feed? name with
  | none =>
    rw [hfeed] at hcalm
    refine .of_eq ?_
    simp only [onFeed, hfeed, hcalm, Option.map_none]
  | some feed =>
    rw [hfeed] at hcalm
    constructor
    · simp only [onFeed, hfeed, hcalm, Option.map_some]
      exact (hop feed).1
    · simp only [onFeed, hfeed, hcalm, Option.map_some]
      exact (hop feed).2

theorem indifferent_happen (site : Site) (directory : Directory) (event : Event) :
    IsIndifferent site fun site => site.happen directory event := by
  cases event with
  | write name look => exact .fixed site none
  | refresh => exact ⟨rfl, calm_refresh site directory⟩
  | ask request => exact (indifferent_answer site directory request).map some
  | begin name =>
    refine indifferent_onFeed site name fun feed => ?_
    unfold beginCall
    rw [request_calm, feed.running_calm, noticeReply_calm]
    exact ⟨rfl, calm_calm _⟩
  | land name content =>
    refine indifferent_onFeed site name fun feed => ?_
    unfold landCall
    rw [feed.running_calm]
    split
    · next hrunning =>
      have h := indifferent_finish site feed content
      rw [Feed.calm_of_running hrunning]
      refine ⟨?_, h.rest⟩
      dsimp only
      rw [h.answer, noticeReply_congr h.rest]
    · exact ⟨rfl, calm_calm site⟩
  | timeOut name =>
    refine indifferent_onFeed site name fun feed => ?_
    unfold timeOutCall
    rw [feed.running_calm]
    split
    · next hrunning =>
      have h := indifferent_timeOut site feed
      rw [Feed.calm_of_running hrunning]
      refine ⟨?_, h.rest⟩
      dsimp only
      rw [h.answer, noticeReply_congr h.rest]
    · exact ⟨rfl, calm_calm site⟩
  | forget keep => exact .of_eq rfl

/-- States that differ in marks on idle slots only have the same responses, whatever happens. -/
theorem responses_eq_of_calm_eq {site other : Site} (h : other.calm = site.calm)
    (directory : Directory) (events : List Event) :
    other.responses directory events = site.responses directory events := by
  induction events generalizing site other directory with
  | nil => rfl
  | cons event rest ih =>
    have hsite := indifferent_happen site directory event
    have hother := indifferent_happen other directory event
    rw [responses, responses, ← hsite.answer, ← hother.answer, h]
    refine congrArg _ (ih ?_ _)
    rw [← hsite.rest, ← hother.rest, h]

end Site

end Gazette
