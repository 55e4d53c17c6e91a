import Gazette.Proofs.Site.Calm
import Gazette.Proofs.Site.Posts

/-!
# Refreshing all feeds

A refresh goes through the feeds of the configuration and rebuilds each of them from its own export.
Where that cannot be read the feed keeps its index, and the others are refreshed all the same. What
becomes of a feed depends on the feed itself and its export only (`feed?_refresh`), so the order in
which the feeds are configured does not matter (`refresh_feeds`).
-/

namespace Gazette.Site

variable {site : Site} {directory : Directory}

/-! ### Exports of feeds -/

/-- The documents in the export of a feed, if it is read to its end and holds some. -/
def exported? (directory : Directory) (name : String) : Option (List Document) :=
  match directory (Config.exportName name) with
  | .endless => none
  | .content content => (content.decode Export.decoder).toOption

theorem exported?_of_content {name : String} {content : FileContent}
    (h : directory (Config.exportName name) = .content content) :
    exported? directory name = (content.decode Export.decoder).toOption := by
  rw [exported?, h]

theorem toOption_read (site : Site) (directory : Directory) (name : String) :
    (site.read directory name).toOption =
      (exported? directory name).map (Archive.ofDocuments name) := by
  unfold read
  cases hlook : directory (Config.exportName name) with
  | endless =>
    rw [exported?, hlook]
    rfl
  | content content =>
    rw [exported?_of_content hlook]
    dsimp only
    rw [Export.load]
    cases content.decode Export.decoder <;> rfl

/-- The index of an archive is built by a walk over it. -/
theorem build_ofDocuments (site : Site) (name : String) (documents : List Document) :
    Index.build (Archive.ofDocuments name documents).source site.entities.resolver
        site.config.postOptions () =
      (.ok (site.indexOf (.ofDocuments name documents)), ()) := by
  rw [Index.build, (Archive.fetchAll_ofDocuments name documents).1]
  rfl

/-! ### One feed -/

/-- What a call makes of a feed in which none is running. -/
def refreshed (site : Site) (directory : Directory) (feed : Feed) : Feed :=
  match exported? directory feed.name with
  | none => feed.calm
  | some documents =>
    let archive := Archive.ofDocuments feed.name documents
    feed.renewed archive (site.indexOf archive)

theorem name_refreshed (site : Site) (directory : Directory) (feed : Feed) :
    (site.refreshed directory feed).name = feed.name := by
  unfold refreshed
  split
  · exact feed.name_calm
  · rfl

theorem refreshed_congr {later : Site} (hentities : later.entities = site.entities)
    (hoptions : later.config.postOptions = site.config.postOptions) :
    later.refreshed directory = site.refreshed directory := by
  funext feed
  simp only [refreshed, indexOf, hentities, hoptions]

theorem feed?_rebuild_of_idle {feed : Feed} (hidle : feed.slot.running = false)
    (hfeed : site.feed? feed.name = some feed) (name : String) :
    (site.rebuild directory feed).1.feed? name =
      if feed.name = name then some (site.refreshed directory feed) else site.feed? name := by
  have hput : ∀ next : Feed, next.name = feed.name → (site.putFeed next).feed? name =
      if feed.name = name then some next else site.feed? name := by
    intro next hnext
    rw [feed?_putFeed, hnext]
    split
    · next hname => rw [← hname, hfeed, Option.map_some]
    · rfl
  have hread := site.toOption_read directory feed.name
  rw [rebuild_of_idle hidle, ← hput _ (site.name_refreshed directory feed), refreshed]
  cases hexported : exported? directory feed.name with
  | none =>
    rw [hexported] at hread
    cases harchive : site.read directory feed.name with
    | error fault => rfl
    | ok archive =>
      rw [harchive] at hread
      cases hread
  | some documents =>
    rw [hexported] at hread
    cases harchive : site.read directory feed.name with
    | error fault =>
      rw [harchive] at hread
      cases hread
    | ok archive =>
      rw [harchive] at hread
      obtain rfl : archive = .ofDocuments feed.name documents := Option.some.inj hread
      rfl

/-! ### All feeds -/

theorem feed?_new (config : Config) (entities : Entities) (name : String) :
    (Site.new config entities).feed? name =
      if name ∈ config.feeds then some ⟨name, .new name, .empty⟩ else none := by
  have hmem : name ∈ config.feeds ↔ name ∈ config.feeds.eraseDups := List.mem_eraseDups.symm
  unfold Site.new feed?
  rw [List.find?_map]
  cases hfound : config.feeds.eraseDups.find? _ with
  | none =>
    have hnone := List.find?_eq_none.mp hfound
    rw [if_neg fun hname => hnone name (hmem.mp hname) (beq_self_eq_true name), Option.map_none]
  | some other =>
    have hmatch : (other == name) = true := List.find?_some (p := (· == name)) hfound
    obtain rfl : other = name := beq_iff_eq.mp hmatch
    rw [if_pos (hmem.mpr (List.mem_of_find?_eq_some hfound)), Option.map_some]

/-- One step of a refresh. -/
def refreshFeed (directory : Directory) (site : Site) (name : String) : Site :=
  match site.feed? name with
  | some feed => (site.rebuild directory feed).1
  | none => site

theorem refresh_eq_foldl (site : Site) (directory : Directory) :
    site.refresh directory = site.config.feeds.foldl (refreshFeed directory) site := rfl

theorem steps_refreshFeed (site : Site) (directory : Directory) (name : String) :
    Steps site (refreshFeed directory site name) := by
  unfold refreshFeed
  split
  · next feed hfeed =>
    have hname := name_of_feed? hfeed
    exact .rebuild directory (hname ▸ hfeed)
  · exact .refl

theorem feed?_refreshFeed {name : String}
    (hidle : ∀ feed, site.feed? name = some feed → feed.slot.running = false) (other : String) :
    (refreshFeed directory site name).feed? other =
      if name = other then (site.feed? other).map (site.refreshed directory)
      else site.feed? other := by
  unfold refreshFeed
  cases hfeed : site.feed? name with
  | none =>
    dsimp only
    split
    · next hname => rw [← hname, hfeed, Option.map_none]
    · rfl
  | some feed =>
    have hname := name_of_feed? hfeed
    have hcurrent : site.feed? feed.name = some feed := by rwa [hname]
    dsimp only
    rw [feed?_rebuild_of_idle (hidle feed hfeed) hcurrent, hname]
    split
    · next hother => rw [← hother, hfeed, Option.map_some]
    · rfl

/-- The feeds of some names are refreshed one after the other, and nothing becomes of any other feed.
The induction is on the names; those that are still to come have not been touched, as no name comes
twice. -/
theorem feed?_foldl_refreshFeed {names : List String} (hnodup : names.Nodup)
    (hidle : ∀ name ∈ names, ∀ feed, site.feed? name = some feed → feed.slot.running = false)
    (name : String) :
    (names.foldl (refreshFeed directory) site).feed? name =
      if name ∈ names then (site.feed? name).map (site.refreshed directory)
      else site.feed? name := by
  induction names generalizing site with
  | nil => simp
  | cons first rest ih =>
    obtain ⟨hfirst, hrest⟩ := List.nodup_cons.mp hnodup
    have hstep : ∀ other, (refreshFeed directory site first).feed? other =
        if first = other then (site.feed? other).map (site.refreshed directory)
        else site.feed? other :=
      feed?_refreshFeed (hidle first List.mem_cons_self)
    have hsteps := steps_refreshFeed site directory first
    have hsame : (refreshFeed directory site first).refreshed directory =
        site.refreshed directory :=
      refreshed_congr hsteps.entities (congrArg Config.postOptions hsteps.config)
    have huntouched : ∀ other ∈ rest,
        (refreshFeed directory site first).feed? other = site.feed? other := by
      intro other hother
      rw [hstep, if_neg]
      rintro rfl
      exact hfirst hother
    rw [List.foldl_cons, ih hrest, hsame]
    · by_cases hname : name ∈ rest
      · rw [if_pos hname, if_pos (List.mem_cons_of_mem first hname), huntouched name hname]
      · rw [if_neg hname, hstep]
        simp only [List.mem_cons, hname, or_false, eq_comm]
    · intro other hother feed hfeed
      rw [huntouched other hother] at hfeed
      exact hidle other (List.mem_cons_of_mem first hother) feed hfeed

theorem feed?_refresh (hnodup : site.config.feeds.Nodup)
    (hidle : ∀ name feed, site.feed? name = some feed → feed.slot.running = false)
    (directory : Directory) (name : String) :
    (site.refresh directory).feed? name =
      if name ∈ site.config.feeds then (site.feed? name).map (site.refreshed directory)
      else site.feed? name := by
  rw [refresh_eq_foldl]
  exact feed?_foldl_refreshFeed hnodup (fun name _ feed hfeed => hidle name feed hfeed) name

/-- Whether a feed has come to the next version of its index, which is the one that is built from
its own export, or has kept its index if there is nothing in the export to build one from. -/
def IsRefreshed (site : Site) (directory : Directory) (feed later : Feed) : Prop :=
  match exported? directory feed.name with
  | none => later.slot.index = feed.slot.index
  | some documents =>
    ∃ index, Index.build (Archive.ofDocuments feed.name documents).source
        site.entities.resolver site.config.postOptions () = (.ok index, ()) ∧
      later.slot.index = { index with version := feed.slot.version + 1 }

theorem isRefreshed_refreshed (site : Site) (directory : Directory) (feed : Feed) :
    site.IsRefreshed directory feed (site.refreshed directory feed) := by
  unfold IsRefreshed refreshed
  cases exported? directory feed.name with
  | none => exact feed.index_calm
  | some documents => exact ⟨_, site.build_ofDocuments feed.name documents, rfl⟩

theorem IsRefreshed.version_eq {feed later : Feed} (h : site.IsRefreshed directory feed later) :
    later.slot.version =
      feed.slot.version + if (exported? directory feed.name).isSome then 1 else 0 := by
  unfold IsRefreshed at h
  cases hexported : exported? directory feed.name with
  | none =>
    rw [hexported] at h
    exact congrArg Index.version h
  | some documents =>
    rw [hexported] at h
    obtain ⟨index, -, hindex⟩ := h
    exact congrArg Index.version hindex

/-- When no call is running, a refresh gives each feed the next version of its index, built from its
own export, or leaves it its index if the export cannot be read. A site with the same feeds that are
configured in another order comes to the same. -/
theorem refresh_feeds {config : Config} (hnodup : config.feeds.Nodup) {entities : Entities}
    (hsteps : Steps (Site.new config entities) site)
    (hidle : ∀ name feed, site.feed? name = some feed → feed.slot.running = false)
    (directory : Directory) :
    (∀ name ∈ config.feeds, ∃ feed later, site.feed? name = some feed ∧
        (site.refresh directory).feed? name = some later ∧
        site.IsRefreshed directory feed later) ∧
      ∀ order other, order.Perm config.feeds →
        Steps (Site.new { config with feeds := order } entities) other →
        (∀ name, other.feed? name = site.feed? name) →
        ∀ name, (other.refresh directory).feed? name = (site.refresh directory).feed? name := by
  have hconfig : site.config = config := hsteps.config
  have hnames : site.config.feeds.Nodup := by rwa [hconfig]
  have hrefresh := feed?_refresh hnames hidle directory
  constructor
  · intro name hname
    have hsome : (site.feed? name).isSome = true := by
      have hnew : ((Site.new config entities).feed? name).isSome = true := by
        rw [feed?_new, if_pos hname]
        rfl
      exact (hsteps.grows.isSome_feed? name).trans hnew
    obtain ⟨feed, hfeed⟩ := Option.isSome_iff_exists.mp hsome
    refine ⟨feed, site.refreshed directory feed, hfeed, ?_,
      site.isRefreshed_refreshed directory feed⟩
    rw [hrefresh, hconfig, if_pos hname, hfeed, Option.map_some]
  · intro order other hperm hother hfeeds name
    have hconfig' : other.config = { config with feeds := order } := hother.config
    have hnames' : other.config.feeds.Nodup := by
      rw [hconfig']
      exact hperm.nodup_iff.mpr hnodup
    have hidle' : ∀ name feed, other.feed? name = some feed → feed.slot.running = false :=
      fun name feed hfeed => hidle name feed ((hfeeds name).symm.trans hfeed)
    have hentities : other.entities = site.entities :=
      hother.entities.trans hsteps.entities.symm
    have hoptions : other.config.postOptions = site.config.postOptions := by
      rw [hconfig', hconfig]
      rfl
    have hmem : name ∈ other.config.feeds ↔ name ∈ site.config.feeds := by
      rw [hconfig', hconfig]
      exact hperm.mem_iff
    rw [feed?_refresh hnames' hidle' directory, hrefresh, hfeeds,
      refreshed_congr hentities hoptions]
    simp only [hmem]

/-- Two new feeds, one of which has an export, in either order. -/
theorem refresh_feeds_sample :
    ∃ (site other : Site) (directory : Directory) (news devLog : Feed),
      Steps (Site.new sampleConfig .empty) site ∧ sampleConfig.feeds.Nodup ∧
      (∀ name feed, site.feed? name = some feed → feed.slot.running = false) ∧
      (site.refresh directory).feed? "news" = some news ∧ news.slot.version = 1 ∧
      (site.refresh directory).feed? "dev-log_2" = some devLog ∧ devLog.slot.version = 0 ∧
      other.config.feeds = sampleConfig.feeds.reverse ∧
      ∀ name, (other.refresh directory).feed? name = (site.refresh directory).feed? name := by
  let order := sampleConfig.feeds.reverse
  let site := Site.new sampleConfig .empty
  let other := Site.new { sampleConfig with feeds := order } .empty
  let directory : Directory := fun name =>
    .content (if name = "news.json" then sampleExport else .missing)
  have hnodup : sampleConfig.feeds.Nodup := by decide
  have hperm : order.Perm sampleConfig.feeds := List.reverse_perm sampleConfig.feeds
  have hidle : ∀ name feed, site.feed? name = some feed → feed.slot.running = false := by
    intro name feed hfeed
    rw [feed?_new] at hfeed
    split at hfeed
    · cases hfeed
      rfl
    · cases hfeed
  have hsame : ∀ name, other.feed? name = site.feed? name := by
    intro name
    rw [feed?_new, feed?_new]
    simp only [hperm.mem_iff]
  obtain ⟨heach, hother⟩ := refresh_feeds hnodup .refl hidle directory
  obtain ⟨feed, news, hfeed, hlater, hnews⟩ := heach "news" (by decide)
  obtain ⟨feed', devLog, hfeed', hlater', hdevLog⟩ := heach "dev-log_2" (by decide)
  rw [feed?_new, if_pos (by decide)] at hfeed hfeed'
  obtain rfl : feed = ⟨"news", .new "news", .empty⟩ := (Option.some.inj hfeed).symm
  obtain rfl : feed' = ⟨"dev-log_2", .new "dev-log_2", .empty⟩ := (Option.some.inj hfeed').symm
  refine ⟨site, other, directory, news, devLog, .refl, hnodup, hidle, hlater, ?_, hlater', ?_, rfl,
    hother order other hperm .refl hsame⟩
  · obtain ⟨document, -, -, hload⟩ := exists_load_sampleExport "" "news"
    obtain ⟨documents, hdecode, -⟩ := Export.exists_of_load hload
    have hlook : directory (Config.exportName "news") = .content sampleExport :=
      congrArg Look.content (if_pos (by decide))
    rw [hnews.version_eq, exported?_of_content hlook, hdecode]
    rfl
  · have hlook : directory (Config.exportName "dev-log_2") = .content .missing :=
      congrArg Look.content (if_neg (by decide))
    rw [hdevLog.version_eq, exported?_of_content hlook]
    rfl

end Gazette.Site
