import Gazette.Proofs.Site.Pages
import Mathlib.Data.List.Basic

/-!
# Versions only grow

Whatever is done to a site, the index of each of its feeds stays or gives way to one with a higher
version (`Grows`), so a page that was rendered for a version is never out of date under the key of
that version: all pages that are kept are those of the current indexes, or are never asked for again
(`Sound`).
-/

namespace Gazette

/-! ### Slots -/

namespace Slot

/-- Whether the index of a slot is still there, or one with a higher version took its place. -/
def Precedes (slot later : Slot) : Prop :=
  slot.version < later.version ∨ later.index = slot.index

theorem Precedes.refl (slot : Slot) : slot.Precedes slot := .inr rfl

theorem Precedes.le {slot later : Slot} (h : slot.Precedes later) :
    slot.version ≤ later.version := by
  rcases h with h | h
  · exact Nat.le_of_lt h
  · exact Nat.le_of_eq (congrArg Index.version h.symm)

theorem Precedes.trans {slot middle later : Slot} (h : slot.Precedes middle)
    (h' : middle.Precedes later) : slot.Precedes later := by
  rcases h with h | h
  · exact .inl (Nat.lt_of_lt_of_le h h'.le)
  · rcases h' with h' | h'
    · refine .inl ?_
      rwa [version, ← h]
    · exact .inr (h'.trans h)

theorem precedes_request (slot : Slot) : slot.Precedes slot.request := by
  unfold request
  split <;> exact .inr rfl

theorem precedes_finish (slot : Slot) (result : Result) :
    slot.Precedes (slot.finish result).1 := by
  have hsettle : slot.Precedes (slot.settle result) := by
    cases result with
    | ok index => exact .inl (Nat.lt_succ_self _)
    | error fault => exact .refl slot
  unfold finish
  dsimp only
  split <;> exact hsettle

end Slot

namespace Site

/-! ### Feeds of a site -/

theorem name_of_feed? {site : Site} {name : String} {feed : Feed}
    (h : site.feed? name = some feed) : feed.name = name := by
  have hfound := List.find?_some h
  exact beq_iff_eq.mp hfound

theorem feed?_putFeed (site : Site) (feed : Feed) (name : String) :
    (site.putFeed feed).feed? name =
      if feed.name = name then (site.feed? name).map fun _ => feed else site.feed? name := by
  unfold putFeed feed?
  induction site.feeds with
  | nil => simp
  | cons other rest ih =>
    by_cases hname : feed.name = name
    · rw [if_pos hname] at ih ⊢
      subst hname
      by_cases hother : other.name = feed.name
      · simp [hother]
      · simp only [List.map_cons, if_neg hother, List.find?_cons,
          beq_eq_false_iff_ne.mpr hother]
        exact ih
    · rw [if_neg hname] at ih ⊢
      by_cases hother : other.name = feed.name
      · have hne : other.name ≠ name := fun heq => hname (hother.symm.trans heq)
        simp only [List.map_cons, if_pos hother, List.find?_cons,
          beq_eq_false_iff_ne.mpr hname, beq_eq_false_iff_ne.mpr hne]
        exact ih
      · simp only [List.map_cons, if_neg hother, List.find?_cons]
        rw [ih]

/-! ### Growing sites -/

/-- Whether a site came from another one by rebuilding feeds and forgetting pages. -/
structure Grows (site later : Site) : Prop where
  config : later.config = site.config
  feeds : ∀ name, Option.Rel (fun feed later : Feed => feed.slot.Precedes later.slot)
    (site.feed? name) (later.feed? name)
  pages : later.pages ⊆ site.pages

namespace Grows

theorem refl (site : Site) : Grows site site where
  config := rfl
  feeds := fun name => by
    cases site.feed? name with
    | none => exact .none
    | some feed => exact .some (.refl feed.slot)
  pages := fun _ h => h

theorem trans {site middle later : Site} (h : Grows site middle) (h' : Grows middle later) :
    Grows site later where
  config := h'.config.trans h.config
  feeds := fun name => by
    have hfirst := h.feeds name
    have hsecond := h'.feeds name
    generalize site.feed? name = before at hfirst ⊢
    generalize middle.feed? name = between at hfirst hsecond
    generalize later.feed? name = behind at hsecond ⊢
    cases hfirst with
    | none => exact hsecond
    | some hfirst =>
      cases hsecond with
      | some hsecond => exact .some (hfirst.trans hsecond)
  pages := fun _ hmem => h.pages (h'.pages hmem)

theorem putFeed {site : Site} {feed later : Feed} (hfeed : site.feed? later.name = some feed)
    (h : feed.slot.Precedes later.slot) : Grows site (site.putFeed later) where
  config := rfl
  feeds := fun name => by
    rw [feed?_putFeed]
    split
    · next hname =>
      rw [← hname, hfeed]
      exact .some h
    · exact (refl site).feeds name
  pages := fun _ hmem => hmem

theorem forgetPages (site : Site) : Grows site site.forgetPages where
  config := rfl
  feeds := (refl site).feeds
  pages := fun _ hmem => absurd hmem List.not_mem_nil

end Grows

/-! ### Rebuilding -/

variable {site : Site} {feed : Feed}

theorem grows_request (h : site.feed? feed.name = some feed) :
    Grows site (site.request feed).1 :=
  .putFeed h feed.slot.precedes_request

theorem feed?_request (h : site.feed? feed.name = some feed) :
    (site.request feed).1.feed? (site.request feed).2.name = some (site.request feed).2 := by
  rw [request, feed?_putFeed, if_pos rfl, h]
  rfl

theorem grows_finish (h : site.feed? feed.name = some feed) (content : FileContent) :
    Grows site (site.finish feed content).1 := by
  have hput : Grows site (site.putFeed { (site.walk feed content).1 with
      slot := (feed.slot.finish (site.walk feed content).2).1 }) :=
    .putFeed h (feed.slot.precedes_finish _)
  unfold finish
  dsimp only
  split
  · exact hput.trans (.forgetPages _)
  · exact hput
  · exact hput
  · exact hput

theorem grows_timeOut (h : site.feed? feed.name = some feed) :
    Grows site (site.timeOut feed).1 :=
  .putFeed h (.inr rfl)

theorem grows_rebuild (directory : Directory) (h : site.feed? feed.name = some feed) :
    Grows site (site.rebuild directory feed).1 := by
  have hrequest := grows_request h
  have hfeed := feed?_request h
  unfold rebuild
  dsimp only
  split
  · exact hrequest
  · split
    · exact hrequest.trans (grows_timeOut hfeed)
    · next content _ =>
      have hfinish := hrequest.trans (grows_finish hfeed content)
      split
      · next heq =>
        rw [heq] at hfinish
        exact hfinish
      · next heq =>
        rw [heq] at hfinish
        exact hfinish

theorem grows_refresh (site : Site) (directory : Directory) : Grows site (site.refresh directory) := by
  unfold refresh
  induction site.config.feeds generalizing site with
  | nil => exact .refl site
  | cons name rest ih =>
    rw [List.foldl_cons]
    refine Grows.trans ?_ (ih _)
    split
    · next feed hfeed =>
      have hname := name_of_feed? hfeed
      exact grows_rebuild directory (hname ▸ hfeed)
    · exact .refl site

/-! ### Kept pages -/

/-- Whether a page is kept for some version of a feed, and if this is the current one is what would
be rendered now. -/
def IsKept (site : Site) (key page : String) : Prop :=
  ∃ name version route feed, key = pageKey name version (FeedPage.route route) ∧
    site.feed? name = some feed ∧ version ≤ feed.slot.version ∧
    (version = feed.slot.version → page = route.render site feed)

structure Sound (site : Site) : Prop where
  names : ∀ name feed, site.feed? name = some feed → Config.isFeedName name = true
  pages : ∀ entry ∈ site.pages, site.IsKept entry.1 entry.2

theorem context_congr {site later : Site} {feed next : Feed} (hconfig : later.config = site.config)
    (hname : next.name = feed.name) (hindex : next.slot.index = feed.slot.index) :
    later.context next = site.context feed := by
  rw [context, context, hconfig, hname, hindex]

theorem render_congr {site later : Site} {feed next : Feed} (hconfig : later.config = site.config)
    (hname : next.name = feed.name) (hindex : next.slot.index = feed.slot.index)
    (page : FeedPage) : page.render later next = page.render site feed := by
  rw [FeedPage.render, FeedPage.render, context_congr hconfig hname hindex, hindex]

namespace Sound

theorem grows {site later : Site} (h : Sound site) (hgrows : Grows site later) : Sound later where
  names := by
    intro name feed hfeed
    have hrel := hgrows.feeds name
    rw [hfeed] at hrel
    cases hsite : site.feed? name with
    | none =>
      rw [hsite] at hrel
      cases hrel
    | some before => exact h.names name before hsite
  pages := by
    intro entry hentry
    obtain ⟨name, version, route, feed, hkey, hfeed, hle, hpage⟩ :=
      h.pages entry (hgrows.pages hentry)
    have hrel := hgrows.feeds name
    rw [hfeed] at hrel
    cases hlater : later.feed? name with
    | none =>
      rw [hlater] at hrel
      cases hrel
    | some next =>
      rw [hlater] at hrel
      cases hrel with
      | some hprecedes =>
        refine ⟨name, version, route, next, hkey, hlater, Nat.le_trans hle hprecedes.le, fun hversion => ?_⟩
        -- A higher version would be above the one that the page was rendered for.
        have hindex := hprecedes.resolve_left (by omega)
        have hcurrent : version = feed.slot.version := by
          rw [hversion, Slot.version, hindex, Slot.version]
        have hnames := (name_of_feed? hlater).trans (name_of_feed? hfeed).symm
        rw [hpage hcurrent, render_congr hgrows.config hnames hindex]

theorem new {config : Config} {entities : Entities}
    (h : ∀ name ∈ config.feeds, Config.isFeedName name = true) :
    Sound (Site.new config entities) where
  names := by
    intro name feed hfeed
    have hmem := List.mem_of_find?_eq_some hfeed
    obtain ⟨other, hother, rfl⟩ := List.mem_map.mp hmem
    rw [← name_of_feed? hfeed]
    exact h other (List.mem_eraseDups.mp hother)
  pages := fun _ hmem => absurd hmem List.not_mem_nil

end Sound

theorem mem_put {name : String} {value : String} {table : Table String} {entry : String × String}
    (h : entry ∈ Table.put name value table) : entry = (name, value) ∨ entry ∈ table := by
  induction table with
  | nil => exact .inl (List.mem_singleton.mp h)
  | cons first rest ih =>
    obtain ⟨other, old⟩ := first
    rw [Table.put] at h
    split at h
    · exact (List.mem_cons.mp h).imp_right (List.mem_cons_of_mem _)
    · rcases List.mem_cons.mp h with rfl | h
      · exact .inr List.mem_cons_self
      · exact (ih h).imp_right (List.mem_cons_of_mem _)

/-- A kept page under the key of a feed's current version is what would be rendered now. -/
theorem Sound.eq_render {site : Site} (h : Sound site) {feed : Feed}
    (hfeed : site.feed? feed.name = some feed) {page : FeedPage} {kept : String}
    (hkept : site.pages.lookup (pageKey feed.name feed.slot.version page.route) = some kept) :
    kept = page.render site feed := by
  have hentry : (pageKey feed.name feed.slot.version page.route, kept) ∈ site.pages := by
    obtain ⟨before, behind, hpages, -⟩ := List.lookup_eq_some_iff.mp hkept
    rw [hpages]
    exact List.mem_append_right _ List.mem_cons_self
  obtain ⟨name, version, route, other, hkey, hother, -, hcurrent⟩ := h.pages _ hentry
  obtain ⟨hname, hversion, rfl⟩ :=
    pageKey_injective (h.names _ _ hfeed) (h.names _ _ hother) hkey
  rw [← hname, hfeed] at hother
  obtain rfl := Option.some.inj hother
  exact hcurrent hversion.symm

/-- Whatever is kept, a page is what would be rendered now. -/
theorem Sound.rendered {site : Site} (h : Sound site) {feed : Feed}
    (hfeed : site.feed? feed.name = some feed) (page : FeedPage) :
    (site.rendered (pageKey feed.name feed.slot.version page.route)
        fun _ => page.render site feed).2 = page.render site feed ∧
      Sound (site.rendered (pageKey feed.name feed.slot.version page.route)
        fun _ => page.render site feed).1 := by
  unfold Site.rendered
  split
  · next kept hkept => exact ⟨h.eq_render hfeed hkept, h⟩
  · refine ⟨rfl, h.names, fun entry hentry => ?_⟩
    rcases mem_put hentry with rfl | hentry
    · exact ⟨feed.name, feed.slot.version, page, feed, rfl, hfeed, Nat.le_refl _, fun _ => rfl⟩
    · exact h.pages entry hentry

end Site

end Gazette
