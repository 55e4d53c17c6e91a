import Gazette.Proofs.Site.Transparency

/-!
# The steps of a site

Whatever happens to a site is made of two kinds of steps (`Steps.happen`): something becomes of one of
its feeds, because a call comes to it, a walk of its call ends or its call times out, and pages are
kept or forgotten. What all of these preserve is preserved by everything that happens.
-/

namespace Gazette.Site

theorem forgetPages_answerFeed (site : Site) (name : Option (List Char)) (route : FeedRoute)
    (query : List Char) : (site.answerFeed name route query).1.forgetPages = site.forgetPages := by
  cases hfeed : site.currentFeed name route with
  | error fault => rw [answerFeed, hfeed]
  | ok feed =>
    rw [answerFeed_eq hfeed]
    exact forgetPages_give site feed _

/-- What becomes of a feed when a call comes to it, a walk of its call ends, or its call times out. -/
inductive Turns (site : Site) (feed : Feed) : Feed → Prop where
  | request : Turns site feed { feed with slot := feed.slot.request }
  | finish (content : FileContent) :
    Turns site feed
      { (site.walk feed content).1 with slot := (feed.slot.finish (site.walk feed content).2).1 }
  | timeOut : Turns site feed { feed with slot := feed.slot.drop }

/-- Whether a site comes to a state by steps that are taken for feeds as they are at the time. -/
inductive Steps (site : Site) : Site → Prop where
  | refl : Steps site site
  | put {later : Site} {feed next : Feed} (before : Steps site later)
    (hfeed : later.feed? feed.name = some feed) (hnext : later.Turns feed next) :
    Steps site (later.putFeed next)
  | keep {later : Site} (before : Steps site later) (pages : Table String) :
    Steps site { later with pages }

theorem Turns.name {site : Site} {feed next : Feed} (h : site.Turns feed next) :
    next.name = feed.name := by
  cases h <;> rfl

namespace Steps

variable {site later : Site} {feed : Feed}

theorem config (h : Steps site later) : later.config = site.config := by
  induction h with
  | refl => rfl
  | put _ _ _ ih => exact ih
  | keep _ _ ih => exact ih

theorem entities (h : Steps site later) : later.entities = site.entities := by
  induction h with
  | refl => rfl
  | put _ _ _ ih => exact ih
  | keep _ _ ih => exact ih

theorem names_putFeed (site : Site) (feed : Feed) :
    (site.putFeed feed).feeds.map Feed.name = site.feeds.map Feed.name := by
  rw [putFeed, List.map_map]
  refine List.map_congr_left fun other _ => ?_
  by_cases hname : other.name = feed.name
  · simp [hname]
  · simp [hname]

theorem names (h : Steps site later) : later.feeds.map Feed.name = site.feeds.map Feed.name := by
  induction h with
  | refl => rfl
  | put _ _ _ ih => rw [names_putFeed, ih]
  | keep _ _ ih => exact ih

/-- Walks of both states come to the same. -/
theorem walk_eq (h : Steps site later) : later.walk = site.walk := by
  funext feed content
  rw [walk, walk, h.config, h.entities]

theorem turns (h : Steps site later) {next : Feed} (hnext : later.Turns feed next) :
    site.Turns feed next := by
  cases hnext with
  | request => exact .request
  | finish content => exact h.walk_eq ▸ .finish content
  | timeOut => exact .timeOut

/-- What holds of the feeds of a site, and goes on to hold whatever becomes of them, holds of the
feeds of its later states. -/
theorem forall_feeds {P : Feed → Prop} (h : Steps site later)
    (hsite : ∀ name feed, site.feed? name = some feed → P feed)
    (hturns : ∀ feed next, P feed → site.Turns feed next → P next) :
    ∀ name feed, later.feed? name = some feed → P feed := by
  induction h with
  | refl => exact hsite
  | put before hfeed hnext ih =>
    intro name feed hname
    rw [feed?_putFeed] at hname
    split at hname
    · obtain ⟨-, -, rfl⟩ := Option.map_eq_some_iff.mp hname
      exact hturns _ _ (ih _ _ hfeed) (before.turns hnext)
    · exact ih name feed hname
  | keep _ _ ih => exact ih

theorem trans {middle : Site} (h : Steps site middle) (h' : Steps middle later) :
    Steps site later := by
  induction h' with
  | refl => exact h
  | put _ hfeed hnext ih => exact ih.put hfeed hnext
  | keep _ pages ih => exact ih.keep pages

/-- States that differ in their pages only are a step apart. -/
theorem of_forgetPages (h : later.forgetPages = site.forgetPages) : Steps site later := by
  have hlater : later = { site with pages := later.pages } := by
    cases site
    cases later
    cases h
    rfl
  rw [hlater]
  exact .keep .refl later.pages

theorem request (h : site.feed? feed.name = some feed) : Steps site (site.request feed).1 :=
  .put .refl h .request

theorem finish (h : site.feed? feed.name = some feed) (content : FileContent) :
    Steps site (site.finish feed content).1 := by
  have hput := Steps.put .refl h (.finish content)
  unfold Site.finish
  dsimp only
  split
  · exact hput.keep []
  · exact hput
  · exact hput
  · exact hput

theorem timeOut (h : site.feed? feed.name = some feed) : Steps site (site.timeOut feed).1 :=
  .put .refl h .timeOut

theorem rebuild (directory : Directory) (h : site.feed? feed.name = some feed) :
    Steps site (site.rebuild directory feed).1 := by
  have hrequest := request h
  have hfeed := feed?_request h
  unfold Site.rebuild
  dsimp only
  split
  · exact hrequest
  · split
    · exact hrequest.trans (timeOut hfeed)
    · next content _ =>
      have hfinish := hrequest.trans (finish hfeed content)
      split
      · next heq =>
        rw [heq] at hfinish
        exact hfinish
      · next heq =>
        rw [heq] at hfinish
        exact hfinish

theorem refresh (site : Site) (directory : Directory) : Steps site (site.refresh directory) := by
  unfold Site.refresh
  induction site.config.feeds generalizing site with
  | nil => exact .refl
  | cons name rest ih =>
    rw [List.foldl_cons]
    refine trans ?_ (ih _)
    split
    · next feed hfeed =>
      have hname := name_of_feed? hfeed
      exact rebuild directory (hname ▸ hfeed)
    · exact .refl

theorem answerNotice (site : Site) (directory : Directory) (name : String) (body : List UInt8) :
    Steps site (site.answerNotice directory name body).1 := by
  cases hread : ChangeNotice.read body with
  | error detail =>
    rw [Site.answerNotice, hread]
    exact .refl
  | ok notice =>
    cases hfeed : site.feed? name with
    | none =>
      rw [Site.answerNotice, hread, hfeed]
      exact .refl
    | some feed =>
      rw [answerNotice_eq hfeed hread]
      have hcurrent : site.feed? feed.name = some feed := by rwa [name_of_feed? hfeed]
      exact rebuild directory hcurrent

theorem answerRoute (site : Site) (directory : Directory) (request : Request) (route : Route) :
    Steps site (site.answerRoute directory request route).1 := by
  unfold Site.answerRoute
  cases route.allows request.method with
  | false => exact .refl
  | true =>
    cases route with
    | feed name route => exact of_forgetPages (forgetPages_answerFeed site name route request.query)
    | notify name =>
      dsimp only
      cases Text.Percent.decode? name with
      | none => exact .refl
      | some name =>
        dsimp only
        by_cases hlong : Request.bodyLimit < request.body.length
        · rw [if_pos hlong]
          exact .refl
        · rw [if_neg hlong]
          exact answerNotice site directory (String.ofList name) request.body
    | health | robots | script => exact .refl

theorem answer (site : Site) (directory : Directory) (request : Request) :
    Steps site (site.answer directory request).1 := by
  unfold Site.answer
  cases Route.ofPath? request.path with
  | none => exact .refl
  | some route =>
    have hroute := answerRoute site directory request route
    dsimp only
    unfold answerAuthorized
    split
    · split <;> exact .refl
    · exact hroute

theorem onFeed (site : Site) (name : String) {op : Site → Feed → Site × Option Response}
    (hop : ∀ feed, site.feed? feed.name = some feed → Steps site (op site feed).1) :
    Steps site (site.onFeed name op).1 := by
  unfold Site.onFeed
  split
  · exact .refl
  · next feed hfeed =>
    have hname := name_of_feed? hfeed
    exact hop feed (hname ▸ hfeed)

theorem happen (site : Site) (directory : Directory) (event : Event) :
    Steps site (site.happen directory event).1 := by
  cases event with
  | write name look => exact .refl
  | refresh => exact refresh site directory
  | ask request => exact answer site directory request
  | begin name => exact onFeed site name fun feed hfeed => request hfeed
  | land name content =>
    refine onFeed site name fun feed hfeed => ?_
    unfold landCall
    split
    · exact finish hfeed content
    · exact .refl
  | timeOut name =>
    refine onFeed site name fun feed hfeed => ?_
    unfold timeOutCall
    split
    · exact timeOut hfeed
    · exact .refl
  | forget keep => exact .keep .refl _

end Steps

end Gazette.Site
