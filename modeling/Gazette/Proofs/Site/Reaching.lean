import Gazette.Proofs.Site.Accepting
import Gazette.Proofs.Site.Steps

/-!
# The states of a site

A site starts without posts, under a configuration that was read from an environment, and then
things happen to it. In every state it comes to (`Reached`) its configuration is still one that was
accepted, it has the feeds of its configuration and no others, and the pages it keeps are sound.
-/

namespace Gazette

namespace Site

/-! ### Events -/

theorem Grows.without {site later : Site} (h : Grows site later) :
    Grows site.forgetPages later.forgetPages :=
  ⟨h.config, h.feeds, List.Subset.refl []⟩

theorem Grows.isSome_feed? {site later : Site} (h : Grows site later) (name : String) :
    (later.feed? name).isSome = (site.feed? name).isSome := by
  have hrel := h.feeds name
  generalize site.feed? name = before at hrel ⊢
  generalize later.feed? name = behind at hrel ⊢
  cases hrel <;> rfl

theorem Turns.precedes {site : Site} {feed next : Feed} (h : site.Turns feed next) :
    feed.slot.Precedes next.slot := by
  cases h with
  | request => exact feed.slot.precedes_request
  | finish content => exact feed.slot.precedes_finish _
  | timeOut => exact .inr rfl

theorem Steps.grows {site later : Site} (h : Steps site later) :
    Grows site.forgetPages later.forgetPages := by
  induction h with
  | refl => exact .refl _
  | put _ hfeed hnext ih => exact ih.trans (Grows.putFeed (hnext.name ▸ hfeed) hnext.precedes).without
  | keep _ _ ih => exact ih

/-- Whatever happens to a site, apart from the pages it keeps it only grows. -/
theorem grows_happen (site : Site) (directory : Directory) (event : Event) :
    Grows site.forgetPages (site.happen directory event).1.forgetPages :=
  (Steps.happen site directory event).grows

/-! ### Reached states -/

/-- Whether a site can come to a state: things happen to it one after the other, whatever its
exports hold at the time. -/
inductive Reached : Site → Prop where
  | new {environment : String → Option String} {platform : Platform} {config : Config}
    (accepted : Config.ofEnvironment environment platform = .ok config) (entities : Entities) :
    Reached (Site.new config entities)
  | happen {site : Site} (before : Reached site) (directory : Directory) (event : Event) :
    Reached (site.happen directory event).1

def sampleEnvironment : String → Option String
  | "NEWS_BASE_URL" => some "https://news.example/"
  | "NEWS_SITE_NAME" => some "News"
  | "NEWS_FEEDS" => some "news, dev-log_2"
  | "NEWS_TIMEZONE" => some "UTC"
  | "NEWS_NOTIFY_TOKENS" => some "secret"
  | "NEWS_REBUILD_TIMEOUT_SECS" => some "30"
  | _ => none

theorem reached_sample : Reached (Site.new sampleConfig .empty) := by
  have haccepted : Config.ofEnvironment sampleEnvironment .builtIn = .ok sampleConfig := rfl
  exact .new haccepted .empty

namespace Reached

variable {site : Site}

theorem exists_feedsOf (h : Reached site) :
    ∃ value, Config.feedsOf (Config.commaList value) = .ok site.config.feeds := by
  induction h with
  | new accepted entities => exact ⟨_, (Config.isReadFrom_of_ofEnvironment accepted).feeds⟩
  | @happen site before directory event ih =>
    have hconfig : (site.happen directory event).1.config = site.config :=
      (grows_happen site directory event).config
    rwa [hconfig]

theorem isFeedName (h : Reached site) {name : String} (hname : name ∈ site.config.feeds) :
    Config.isFeedName name = true := by
  obtain ⟨value, hfeeds⟩ := h.exists_feedsOf
  exact Config.isFeedName_of_feedsOf hfeeds hname

theorem ne_empty (h : Reached site) {name : String} (hname : name ∈ site.config.feeds) :
    name ≠ "" := by
  obtain ⟨value, hfeeds⟩ := h.exists_feedsOf
  exact Config.ne_empty_of_feedsOf hfeeds hname

theorem sound (h : Reached site) : Sound site := by
  induction h with
  | new accepted entities =>
    exact .new fun name hname => (new accepted entities).isFeedName hname
  | happen before directory event ih => exact (transparent_happen ih directory event).sound

/-- A site has the feeds of its configuration, and no others. -/
theorem isSome_feed? (h : Reached site) (name : String) :
    (site.feed? name).isSome = true ↔ name ∈ site.config.feeds := by
  induction h with
  | new accepted entities => simp [Site.new, feed?, List.mem_eraseDups]
  | @happen site before directory event ih =>
    have hgrows := grows_happen site directory event
    have hconfig : (site.happen directory event).1.config = site.config := hgrows.config
    have hsome : ((site.happen directory event).1.feed? name).isSome =
        (site.feed? name).isSome := hgrows.isSome_feed? name
    rwa [hconfig, hsome]

theorem mem_feeds (h : Reached site) {name : String} {feed : Feed}
    (hfeed : site.feed? name = some feed) : name ∈ site.config.feeds := by
  rw [← h.isSome_feed?, hfeed]
  rfl

theorem exists_feed? (h : Reached site) {name : String} (hname : name ∈ site.config.feeds) :
    ∃ feed, site.feed? name = some feed :=
  Option.isSome_iff_exists.mp ((h.isSome_feed? name).mpr hname)

/-- A site comes to its states by steps from the one in which it started. -/
theorem exists_steps (h : Reached site) :
    ∃ environment platform config entities,
      Config.ofEnvironment environment platform = .ok config ∧
        Steps (Site.new config entities) site := by
  induction h with
  | new accepted entities => exact ⟨_, _, _, entities, accepted, .refl⟩
  | @happen site before directory event ih =>
    obtain ⟨_, _, _, entities, accepted, hsteps⟩ := ih
    exact ⟨_, _, _, entities, accepted, hsteps.trans (.happen site directory event)⟩

/-- No two feeds of a site have one name. -/
theorem nodup_names (h : Reached site) : (site.feeds.map Feed.name).Nodup := by
  obtain ⟨_, _, config, entities, -, hsteps⟩ := h.exists_steps
  have hnames : (Site.new config entities).feeds.map Feed.name = config.feeds.eraseDups := by
    rw [Site.new, List.map_map]
    exact List.map_id _
  rw [hsteps.names, hnames]
  exact nodup_eraseDups config.feeds

end Reached

end Site

end Gazette
