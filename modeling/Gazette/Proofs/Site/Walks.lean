import Gazette.Proofs.Document.Alike
import Gazette.Proofs.Index.Building
import Gazette.Proofs.Site.Reaching

/-!
# Walks over exports

A walk over a feed's export reads the file once, when it asks for its first page, and sees nothing of
what becomes of the file later. If the file cannot be read the walk fails there and changes nothing;
if it can, the walk is one over the archive of the documents in the file (`Export.fetchAll_source`).
So the index of each feed of a site is at any time the index of some documents
(`Reached.exists_isIndexOf`).
-/

namespace Gazette

open History

/-! ### Archives -/

/-- The documents that a walk over an archive comes to. -/
def Archive.history (archive : Archive) : List Document :=
  (fetchAll archive.source ()).1.toOption.getD []

/-- A walk over the archive of some documents comes to one document of each id. -/
theorem Archive.fetchAll_ofDocuments (channel : String) (documents : List Document) :
    fetchAll (ofDocuments channel documents).source () =
        (.ok (ofDocuments channel documents).history, ()) ∧
      ((ofDocuments channel documents).history.map Document.id).Nodup ∧
      (∀ document ∈ (ofDocuments channel documents).history, document ∈ documents) ∧
      ∀ document ∈ documents,
        ∃ kept ∈ (ofDocuments channel documents).history, kept.id = document.id := by
  obtain ⟨history, hfetch, hordered, hmem, hcover⟩ :=
    exists_fetchAll (descends_ofDocuments channel documents)
  have hhistory : (ofDocuments channel documents).history = history := by
    rw [Archive.history, hfetch]
    rfl
  have hnodup : (history.map Document.id).Nodup := by
    refine List.pairwise_map.mpr (hordered.imp fun {a b} hlt heq => ?_)
    rw [heq, compareIds_eq_lt_iff] at hlt
    exact Nat.lt_irrefl _ hlt
  rw [hhistory]
  exact ⟨hfetch, hnodup, fun document h => (mem_ofDocuments channel documents).mp (hmem document h),
    fun document h => hcover document ((mem_ofDocuments channel documents).mpr h)⟩

/-! ### Exports -/

namespace Export

variable (directory feed : String) (files : Nat → FileContent)

/-- Whether a walk over an export is where one over an archive is: it takes its pages from there, and
has made the same requests since request `n`. -/
def Follows (archive : Archive) (n : Nat) (state : (Archive × Nat) × List Exchange)
    (other : Unit × List Exchange) : Prop :=
  state = ((archive, n + other.2.length), other.2)

/-- Whatever there is in the file later, the archive that was read at first goes on to answer. -/
theorem goAlike (archive : Archive) (n : Nat) :
    GoAlike (Follows archive n) (source directory feed files).logged archive.source.logged := by
  rintro before _ ⟨_, log⟩ rfl
  refine ⟨rfl, ?_⟩
  change ((archive, n + log.length + 1), log ++ [_]) = ((archive, n + (log ++ [_]).length), log ++ [_])
  rw [List.length_append, List.length_singleton, Nat.add_assoc]
  rfl

variable {directory feed files}

theorem exists_of_load {content : FileContent} {archive : Archive}
    (h : load directory feed content = .ok archive) :
    ∃ documents, content.decode decoder = .ok documents ∧
      archive = .ofDocuments feed documents := by
  unfold load at h
  split at h
  · next documents hdecode =>
    cases h
    exact ⟨documents, hdecode, rfl⟩
  · cases h

theorem fetchAll_of_error {snapshot : Archive} {n : Nat} {fault : HistoryFault}
    (h : load directory feed (files n) = .error fault) :
    fetchAll (source directory feed files) (snapshot, n) = (.error fault, snapshot, n + 1) := by
  have hfetch : (source directory feed files).fetch none pageLimit (snapshot, n) =
      (.error fault, snapshot, n + 1) := by
    simp only [source, h]
  rw [fetchAll, pages, pagesFrom_of_error hfetch]
  rfl

/-- A walk over an export makes the requests of one over the archive that is read at the first of
them, and comes to the same. -/
theorem exists_fetchAll {snapshot archive : Archive} {n : Nat}
    (h : load directory feed (files n) = .ok archive) :
    ∃ log,
      fetchAll (source directory feed files) (snapshot, n) =
          ((fetchAll archive.source ()).1, archive, n + log.length) ∧
        fetchAll (source directory feed files).logged ((snapshot, n), []) =
          ((fetchAll archive.source ()).1, (archive, n + log.length), log) ∧
        fetchAll archive.source.logged ((), []) = ((fetchAll archive.source ()).1, (), log) := by
  have hfetch : (source directory feed files).fetch none pageLimit (snapshot, n) =
      (.ok (archive.page none pageLimit), archive, n + 1) := by
    simp only [source, h]
  have hlogged := Source.fetch_logged hfetch []
  have hfirst : Alike (Follows archive n) (source directory feed files).logged
      archive.source.logged none ((snapshot, n), []) ((), []) := by
    constructor <;> rw [hlogged] <;> rfl
  obtain ⟨hresult, hstate⟩ := fetchAll_alike (goAlike directory feed files archive n) hfirst
  obtain ⟨log', hsource⟩ := exists_fetchAll_logged (source directory feed files) (snapshot, n) []
  obtain ⟨log, harchive⟩ := exists_fetchAll_logged archive.source () []
  rw [hsource, harchive] at hresult hstate
  obtain ⟨hstate, rfl⟩ := Prod.mk.inj hstate
  have hplain : fetchAll (source directory feed files) (snapshot, n) =
      ((fetchAll archive.source ()).1, archive, n + log'.length) := Prod.ext hresult hstate
  refine ⟨log', hplain, ?_, harchive⟩
  rw [hsource, hplain]

/-- A walk over an export sees one file, the one that is there at its first request. If that holds
documents, the walk makes the requests of one over their archive and comes to the same, and the
archive is kept. Otherwise the walk fails with a fault of the feed, and what was kept before stays. -/
theorem fetchAll_source (directory feed : String) (files : Nat → FileContent) (snapshot : Archive)
    (n : Nat) :
    match (files n).decode decoder with
    | .error detail =>
      fetchAll (source directory feed files) (snapshot, n) =
        (.error ⟨feed, pathIn directory (Config.exportName feed) ++ ": " ++ detail⟩, snapshot, n + 1)
    | .ok documents =>
      let archive := Archive.ofDocuments feed documents
      ∃ history log,
        fetchAll archive.source () = (.ok history, ()) ∧
        fetchAll archive.source.logged ((), []) = (.ok history, (), log) ∧
        fetchAll (source directory feed files) (snapshot, n) =
          (.ok history, archive, n + log.length) ∧
        fetchAll (source directory feed files).logged ((snapshot, n), []) =
          (.ok history, (archive, n + log.length), log) := by
  cases hdecode : (files n).decode decoder with
  | error detail =>
    have hload : load directory feed (files n) =
        .error ⟨feed, pathIn directory (Config.exportName feed) ++ ": " ++ detail⟩ := by
      rw [load, hdecode]
    exact fetchAll_of_error hload
  | ok documents =>
    have hload : load directory feed (files n) = .ok (.ofDocuments feed documents) := by
      rw [load, hdecode]
    have hhistory := (Archive.fetchAll_ofDocuments feed documents).1
    obtain ⟨log, hsource, hlogged, harchive⟩ := @exists_fetchAll _ _ _ snapshot _ _ hload
    rw [hhistory] at hsource hlogged harchive
    exact ⟨_, log, hhistory, harchive, hsource, hlogged⟩

end Export

/-! ### Indexes -/

namespace Index

variable {resolver : Resolver} {options : PostOptions} {documents : List Document} {index : Index}

theorem isIndexOf_empty : IsIndexOf resolver options [] .empty := by
  have hnodup : (([] : List Document).map Document.id).Nodup := List.nodup_nil
  have hnone : ofDocuments resolver options [] = .empty := by
    rw [ofDocuments, List.filter_nil, sortNewestFirst, List.mergeSort_nil]
    rfl
  exact hnone ▸ isIndexOf_ofDocuments hnodup

theorem IsIndexOf.withVersion (h : IsIndexOf resolver options documents index) (version : Nat) :
    IsIndexOf resolver options documents { index with version } :=
  ⟨h.mem_iff, h.nodup, h.ordered, h.keys, h.view⟩

/-- Each post is found under its id, and has a body. -/
theorem IsIndexOf.exists_view? (h : IsIndexOf resolver options documents index) {post : Post}
    (hpost : post ∈ index.posts) : ∃ body, index.view? post.sourceId = some (post, body) := by
  have hfound : index.post? post.sourceId = some post := by
    obtain ⟨found, hfound⟩ : ∃ found, index.post? post.sourceId = some found :=
      Option.isSome_iff_exists.mp (List.find?_isSome.mpr ⟨post, hpost, beq_self_eq_true _⟩)
    have hid : found.sourceId = post.sourceId := by
      have hmatch := List.find?_some hfound
      exact beq_iff_eq.mp hmatch
    rw [hfound, List.inj_on_of_nodup_map h.nodup (List.mem_of_find?_eq_some hfound) hpost hid]
  have hkey : post.sourceId ∈ index.bodies.map Prod.fst := by
    rw [h.keys]
    exact List.mem_map_of_mem hpost
  cases hbody : index.body? post.sourceId with
  | none =>
    obtain ⟨entry, hentry, hname⟩ := List.mem_map.mp hkey
    have hne := List.lookup_eq_none_iff.mp hbody entry hentry
    rw [hname, bne_self_eq_false] at hne
    cases hne
  | some body => exact ⟨body, by rw [view?, hfound, hbody]; rfl⟩

end Index

/-! ### Slots -/

namespace Slot

theorem index_request (slot : Slot) : slot.request.index = slot.index := by
  unfold request
  split <;> rfl

theorem index_finish (slot : Slot) (result : Result) :
    (slot.finish result).1.index = (slot.settle result).index := by
  unfold finish
  dsimp only
  split <;> rfl

end Slot

/-! ### Feeds -/

namespace Feed

/-- The feed without the mark on its slot, if no call is running that would look at it. -/
def calm (feed : Feed) : Feed :=
  if feed.slot.running then feed else { feed with slot := { feed.slot with pending := false } }

/-- The feed when a call has begun a walk. -/
def begun (feed : Feed) : Feed :=
  { feed with slot := { feed.slot with pending := false, running := true } }

/-- The feed after a call that read an archive and came to an index. -/
def renewed (feed : Feed) (archive : Archive) (index : Index) : Feed :=
  { feed with
    slot := { feed.slot.install index with pending := false, running := false }
    snapshot := archive }

end Feed

/-! ### Sites -/

namespace Site

variable {site : Site}

/-- What a feed's index is when its archive is this. -/
def indexOf (site : Site) (archive : Archive) : Index :=
  .ofDocuments site.entities.resolver site.config.postOptions archive.history

theorem walk_eq (site : Site) (feed : Feed) (content : FileContent) :
    site.walk feed content =
      match Export.load site.config.exportDirectory feed.name content with
      | .error fault => (feed, .error fault)
      | .ok archive => ({ feed with snapshot := archive }, .ok (site.indexOf archive)) := by
  cases hload : Export.load site.config.exportDirectory feed.name content with
  | error fault =>
    have hfetch := @Export.fetchAll_of_error site.config.exportDirectory feed.name (fun _ => content)
      feed.snapshot 0 fault hload
    rw [walk, Index.build, hfetch]
    rfl
  | ok archive =>
    obtain ⟨log, hfetch, -⟩ := @Export.exists_fetchAll site.config.exportDirectory feed.name
      (fun _ => content) feed.snapshot archive 0 hload
    obtain ⟨documents, -, rfl⟩ := Export.exists_of_load hload
    rw [walk, Index.build, hfetch, (Archive.fetchAll_ofDocuments feed.name documents).1]
    rfl

theorem exists_isIndexOf_indexOf {directory name : String} {content : FileContent}
    {archive : Archive} (h : Export.load directory name content = .ok archive) :
    ∃ documents, Index.IsIndexOf site.entities.resolver site.config.postOptions documents
      (site.indexOf archive) := by
  obtain ⟨documents, -, rfl⟩ := Export.exists_of_load h
  exact ⟨_, Index.isIndexOf_ofDocuments (Archive.fetchAll_ofDocuments name documents).2.1⟩

/-- The index of a feed is one of some documents, of which no two share an id. -/
theorem Reached.exists_isIndexOf (h : Reached site) {name : String} {feed : Feed}
    (hfeed : site.feed? name = some feed) :
    ∃ documents, Index.IsIndexOf site.entities.resolver site.config.postOptions documents
      feed.slot.index := by
  obtain ⟨_, _, config, entities, -, hsteps⟩ := h.exists_steps
  rw [hsteps.entities, hsteps.config]
  refine hsteps.forall_feeds (P := fun feed => ∃ documents, Index.IsIndexOf entities.resolver
    config.postOptions documents feed.slot.index) ?_ ?_ name feed hfeed
  · intro name feed hfeed
    obtain ⟨other, -, rfl⟩ := List.mem_map.mp (List.mem_of_find?_eq_some hfeed)
    exact ⟨[], Index.isIndexOf_empty⟩
  · intro feed next hindex hturns
    cases hturns with
    | request => rwa [Slot.index_request]
    | finish content =>
      rw [Slot.index_finish, walk_eq]
      cases hload : Export.load (Site.new config entities).config.exportDirectory feed.name content with
      | error fault => exact hindex
      | ok archive =>
        obtain ⟨documents, hindex⟩ :=
          @exists_isIndexOf_indexOf (Site.new config entities) _ _ _ _ hload
        exact ⟨documents, hindex.withVersion _⟩
    | timeOut => exact hindex

/-! ### Whole calls -/

/-- What a call reads for a feed: its archive, unless the file cannot be read or is not read to its
end in time. -/
def read (site : Site) (directory : Directory) (name : String) : Except HistoryFault Archive :=
  match directory (Config.exportName name) with
  | .endless => .error (.timedOut name site.config.timeoutSeconds)
  | .content content => Export.load site.config.exportDirectory name content

theorem putFeed_putFeed {a b : Feed} (h : a.name = b.name) :
    (site.putFeed a).putFeed b = site.putFeed b := by
  unfold putFeed
  simp only [List.map_map]
  congr 1
  refine List.map_congr_left fun other _ => ?_
  by_cases hname : other.name = a.name
  · simp [hname, h]
  · simp [hname]

section Idle

variable {feed : Feed} (hidle : feed.slot.running = false)

include hidle

theorem calm_of_idle :
    feed.calm = { feed with slot := { feed.slot with pending := false, running := false } } := by
  rw [Feed.calm, hidle, if_neg Bool.false_ne_true, ← hidle]

theorem request_of_idle : site.request feed = (site.putFeed feed.begun, feed.begun) := by
  rw [request, Slot.request, hidle]
  rfl

theorem timeOut_begun : (site.putFeed feed.begun).timeOut feed.begun =
    (site.putFeed feed.calm,
      .error (.ofHistory (.timedOut feed.name site.config.timeoutSeconds))) := by
  rw [timeOut, calm_of_idle hidle]
  exact congrArg (·, _) (putFeed_putFeed rfl)

theorem finish_begun (content : FileContent) :
    (site.putFeed feed.begun).finish feed.begun content =
      match Export.load site.config.exportDirectory feed.name content with
      | .error fault => (site.putFeed feed.calm, some (.error (.ofHistory fault)))
      | .ok archive =>
        ((site.putFeed (feed.renewed archive (site.indexOf archive))).forgetPages,
          some (.ok (.rebuilt (feed.slot.version + 1)))) := by
  have hwalk := (site.putFeed feed.begun).walk_eq feed.begun content
  cases hload : Export.load site.config.exportDirectory feed.name content with
  | error fault =>
    rw [show Export.load (site.putFeed feed.begun).config.exportDirectory feed.begun.name content =
      .error fault from hload] at hwalk
    rw [finish, hwalk, calm_of_idle hidle]
    exact congrArg (·, _) (putFeed_putFeed rfl)
  | ok archive =>
    rw [show Export.load (site.putFeed feed.begun).config.exportDirectory feed.begun.name content =
      .ok archive from hload] at hwalk
    rw [finish, hwalk]
    exact congrArg (fun site : Site => (site.forgetPages, _)) (putFeed_putFeed rfl)

/-- What a call comes to for a feed without a running one. If its archive cannot be read, nothing but
a mark is lost; otherwise the feed gets the next version of its index, and pages are forgotten. -/
theorem rebuild_of_idle (directory : Directory) :
    site.rebuild directory feed =
      match site.read directory feed.name with
      | .error fault => (site.putFeed feed.calm, .error (.ofHistory fault))
      | .ok archive =>
        ((site.putFeed (feed.renewed archive (site.indexOf archive))).forgetPages,
          .ok (.rebuilt (feed.slot.version + 1))) := by
  have hname : feed.begun.name = feed.name := rfl
  rw [rebuild, request_of_idle hidle, hidle, read]
  dsimp only
  rw [if_neg Bool.false_ne_true, hname]
  cases directory (Config.exportName feed.name) with
  | endless => exact timeOut_begun hidle
  | content content =>
    dsimp only
    rw [finish_begun hidle]
    cases Export.load site.config.exportDirectory feed.name content <;> rfl

end Idle

end Site

end Gazette
