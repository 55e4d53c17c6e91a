import Gazette.Proofs.Body.Settled
import Gazette.Site.Export
import Mathlib.Data.List.Nodup

/-!
# Configurations that are accepted

A configuration that was read from an environment has feeds of different names, in the order in which
the names come up there, and each of them has an address of its own, and as its export a file of the
export directory. Nothing is said about the name of the file in which the entities are, so that a
feed of that name has them as its export; all others have a file of their own
(`isWellFormed_of_ofEnvironment`).
-/

namespace Gazette

/-! ### First appearances -/

section

variable {α : Type} [BEq α] {items : List α} {a b : α}

theorem nodup_of_pairwise_idxOf {order : List α}
    (h : items.Pairwise fun a b => order.idxOf a < order.idxOf b) : items.Nodup := by
  refine h.imp fun {a b} hlt heq => ?_
  subst heq
  exact Nat.lt_irrefl _ hlt

variable [LawfulBEq α]

theorem idxOf_cons_lt_cons {item : α} (ha : a ≠ item) (hb : b ≠ item)
    (h : items.idxOf a < items.idxOf b) : (item :: items).idxOf a < (item :: items).idxOf b := by
  rw [List.idxOf_cons_ne _ ha.symm, List.idxOf_cons_ne _ hb.symm]
  exact Nat.succ_lt_succ h

/-- What is left when items are taken out comes up in the order in which it did before. -/
theorem idxOf_lt_of_filter {p : α → Bool} (hb : p b = true)
    (h : (items.filter p).idxOf a < (items.filter p).idxOf b) : items.idxOf a < items.idxOf b := by
  induction items with
  | nil => exact absurd h (Nat.lt_irrefl _)
  | cons item rest ih =>
    by_cases hb' : b = item
    · subst hb'
      rw [List.filter_cons_of_pos hb, List.idxOf_cons_self] at h
      exact absurd h (Nat.not_lt_zero _)
    · by_cases ha' : a = item
      · subst ha'
        rw [List.idxOf_cons_self, List.idxOf_cons_ne _ (Ne.symm hb')]
        exact Nat.succ_pos _
      · refine idxOf_cons_lt_cons ha' hb' (ih ?_)
        by_cases hitem : p item = true
        · rw [List.filter_cons_of_pos hitem, List.idxOf_cons_ne _ (Ne.symm ha'),
            List.idxOf_cons_ne _ (Ne.symm hb')] at h
          exact Nat.lt_of_succ_lt_succ h
        · rwa [List.filter_cons_of_neg hitem] at h

/-- Without its repeats, a list has its items in the order in which they first come up. -/
theorem pairwise_idxOf_eraseDups (items : List α) :
    items.eraseDups.Pairwise fun a b => items.idxOf a < items.idxOf b := by
  cases items with
  | nil => exact .nil
  | cons item rest =>
    rw [List.eraseDups_cons, List.pairwise_cons]
    have hkept : ∀ a ∈ (rest.filter fun a => !a == item).eraseDups, (!a == item) = true :=
      fun a ha => (List.mem_filter.mp (List.mem_eraseDups.mp ha)).2
    have hother : ∀ a ∈ (rest.filter fun a => !a == item).eraseDups, a ≠ item :=
      fun a ha => by simpa using hkept a ha
    refine ⟨fun a ha => ?_, ?_⟩
    · rw [List.idxOf_cons_self, List.idxOf_cons_ne _ (hother a ha).symm]
      exact Nat.succ_pos _
    -- The filter takes out `item` only, which is in front and neither of the two.
    · refine (pairwise_idxOf_eraseDups _).imp_of_mem fun ha hb h => ?_
      exact idxOf_cons_lt_cons (hother _ ha) (hother _ hb) (idxOf_lt_of_filter (hkept _ hb) h)
termination_by items.length
decreasing_by exact Nat.lt_succ_of_le (List.length_filter_le _ rest)

theorem nodup_eraseDups (items : List α) : items.eraseDups.Nodup :=
  nodup_of_pairwise_idxOf (pairwise_idxOf_eraseDups items)

end

/-! ### Files in a directory -/

namespace Export

/-- Whether a name is that of something in a directory, and not a path. -/
structure IsFileName (name : String) : Prop where
  ne_empty : name ≠ ""
  ne_here : name ≠ "."
  ne_above : name ≠ ".."
  noSlash : '/' ∉ name.toList

/-- What the paths of everything in a directory begin with. -/
def inside (directory : String) : String :=
  if directory = "" ∨ directory.toList.getLast? = some '/' then directory else directory ++ "/"

/-- Whether a path leads to something in a directory itself, and not further down or elsewhere. -/
def IsDirectlyIn (directory path : String) : Prop :=
  ∃ name, IsFileName name ∧ path = inside directory ++ name

theorem pathIn_of_noSlash {name : String} (h : '/' ∉ name.toList) (directory : String) :
    pathIn directory name = inside directory ++ name := by
  have hhead : name.toList.head? ≠ some '/' := fun hslash => h (List.mem_of_head? hslash)
  rw [pathIn, if_neg hhead, inside]
  split <;> rfl

end Export

namespace Config

/-! ### Reading variables -/

/-- Whether something can stand in a list between commas. -/
structure IsEntry (entry : String) : Prop where
  ne_empty : entry ≠ ""
  trimmed : Text.trimmed entry = entry

theorem isEntry_of_mem_commaList {value entry : String} (h : entry ∈ commaList value) :
    IsEntry entry := by
  obtain ⟨piece, hpiece, rfl⟩ := List.mem_map.mp h
  obtain ⟨hmap, hne⟩ := List.mem_filter.mp hpiece
  obtain ⟨source, -, rfl⟩ := List.mem_map.mp hmap
  refine ⟨fun hempty => ?_, ?_⟩
  · have hnil : Text.trim source = [] := String.ofList_injective hempty
    rw [hnil] at hne
    cases hne
  · rw [Text.trimmed, String.toList_ofList, (Body.isTrimmed_trim source).trim_eq]

def IsFeedChar (c : Char) : Prop :=
  ('A' ≤ c ∧ c ≤ 'Z') ∨ ('a' ≤ c ∧ c ≤ 'z') ∨ ('0' ≤ c ∧ c ≤ '9') ∨ c = '-' ∨ c = '_'

theorem isFeedChar_iff {c : Char} :
    (c.isAlphanum || c == '-' || c == '_') = true ↔ IsFeedChar c := by
  have hbetween : ∀ first last : Char,
      (decide (first ≤ c) && decide (c ≤ last)) = true ↔ first ≤ c ∧ c ≤ last := by
    intro first last
    rw [Bool.and_eq_true, decide_eq_true_iff, decide_eq_true_iff]
  have hupper : c.isUpper = true ↔ 'A' ≤ c ∧ c ≤ 'Z' := decide_eq_true_iff
  have hlower : c.isLower = true ↔ 'a' ≤ c ∧ c ≤ 'z' := hbetween 'a' 'z'
  have hdigit : c.isDigit = true ↔ '0' ≤ c ∧ c ≤ '9' := hbetween '0' '9'
  have halphanum : c.isAlphanum = (c.isUpper || c.isLower || c.isDigit) := rfl
  simp only [halphanum, Bool.or_eq_true, hupper, hlower, hdigit, beq_iff_eq, IsFeedChar, or_assoc]

theorem isFeedName_iff {name : String} :
    isFeedName name = true ↔ ∀ c ∈ name.toList, IsFeedChar c := by
  rw [isFeedName, List.all_eq_true]
  exact forall₂_congr fun c _ => isFeedChar_iff

theorem noSlash_of_isFeedName {name : String} (h : isFeedName name = true) :
    '/' ∉ name.toList := by
  have hslash : ¬IsFeedChar '/' := by
    unfold IsFeedChar
    decide
  exact fun hmem => hslash (isFeedName_iff.mp h '/' hmem)

theorem feedsOf_eq_ok {names feeds : List String} (h : feedsOf names = .ok feeds) :
    (∀ name ∈ names, isFeedName name = true) ∧
      feeds = if names.isEmpty then ["news"] else names.eraseDups := by
  unfold feedsOf at h
  split at h
  · cases h
  · next hnone =>
    cases h
    exact ⟨fun name hname => by simpa using List.find?_eq_none.mp hnone name hname, rfl⟩

section

variable {names feeds : List String} {name : String}

theorem mem_of_feedsOf (h : feedsOf names = .ok feeds) :
    name ∈ feeds ↔ name ∈ names ∨ names = [] ∧ name = "news" := by
  obtain ⟨-, rfl⟩ := feedsOf_eq_ok h
  cases names with
  | nil => simp
  | cons first rest => simp [List.mem_eraseDups]

theorem ne_nil_of_feedsOf (h : feedsOf names = .ok feeds) : feeds ≠ [] := by
  cases names with
  | nil => exact List.ne_nil_of_mem ((mem_of_feedsOf h).mpr (.inr ⟨rfl, rfl⟩))
  | cons first rest => exact List.ne_nil_of_mem ((mem_of_feedsOf h).mpr (.inl List.mem_cons_self))

theorem pairwise_idxOf_of_feedsOf (h : feedsOf names = .ok feeds) :
    feeds.Pairwise fun a b => names.idxOf a < names.idxOf b := by
  obtain ⟨-, rfl⟩ := feedsOf_eq_ok h
  cases names with
  | nil => exact List.pairwise_singleton _ _
  | cons first rest => exact pairwise_idxOf_eraseDups (first :: rest)

theorem isFeedName_of_feedsOf (h : feedsOf names = .ok feeds) (hname : name ∈ feeds) :
    isFeedName name = true := by
  obtain hgiven | ⟨-, rfl⟩ := (mem_of_feedsOf h).mp hname
  · exact (feedsOf_eq_ok h).1 name hgiven
  · decide

theorem ne_empty_of_feedsOf {value : String} (h : feedsOf (commaList value) = .ok feeds)
    (hname : name ∈ feeds) : name ≠ "" := by
  obtain hgiven | ⟨-, rfl⟩ := (mem_of_feedsOf h).mp hname
  · exact (isEntry_of_mem_commaList hgiven).ne_empty
  · decide

end

/-- The names that an environment gives for feeds, with repeats. -/
def givenFeeds (environment : String → Option String) : List String :=
  commaList ((environment "NEWS_FEEDS").getD "")

/-- What a configuration has from the variables of an environment. -/
structure IsReadFrom (environment : String → Option String) (config : Config) : Prop where
  baseUrl : config.baseUrl = String.ofList (Text.dropTail (· == '/')
    ((environment "NEWS_BASE_URL").getD "http://localhost:3000").toList)
  feeds : feedsOf (givenFeeds environment) = .ok config.feeds
  blacklist : config.blacklist = (commaList ((environment "NEWS_BLACKLIST").getD "")).eraseDups
  tokens : config.tokens = (commaList ((environment "NEWS_NOTIFY_TOKENS").getD "")).eraseDups

theorem isReadFrom_of_ofEnvironment {environment : String → Option String} {platform : Platform}
    {config : Config} (h : ofEnvironment environment platform = .ok config) :
    IsReadFrom environment config := by
  unfold ofEnvironment at h
  cases hfeeds : feedsOf (givenFeeds environment) with
  | error fault =>
    rw [givenFeeds] at hfeeds
    simp only [hfeeds] at h
    cases h
  | ok feeds =>
    rw [givenFeeds] at hfeeds
    simp only [hfeeds, bind, Except.bind] at h
    -- Besides the feeds, the zone and two numbers are checked.
    split at h
    · cases h
    · split at h
      · cases h
      · split at h
        · cases h
        · cases h
          exact ⟨rfl, hfeeds, rfl, rfl⟩

/-! ### Addresses and exports -/

theorem feedUrl_injective (config : Config) : Function.Injective config.feedUrl := by
  intro a b h
  have hpath : config.feedPath a = config.feedPath b := (String.append_right_inj _).mp h
  have hne : ∀ name, "/f/" ++ name ≠ "" := by
    intro name hempty
    have hlength := congrArg String.length hempty
    rw [String.length_append] at hlength
    exact absurd hlength (Nat.ne_of_gt (Nat.add_pos_left (by decide) _))
  unfold feedPath at hpath
  split at hpath
  · next ha =>
    split at hpath
    · next hb => rw [ha, hb]
    · exact absurd hpath.symm (hne b)
  · split at hpath
    · exact absurd hpath (hne a)
    · exact (String.append_right_inj _).mp hpath

def exportPath (config : Config) (feed : String) : String :=
  Export.pathIn config.exportDirectory (exportName feed)

def entitiesPath (config : Config) : String := Export.pathIn config.exportDirectory entitiesName

theorem isFileName_exportName {name : String} (h : isFeedName name = true) :
    Export.IsFileName (exportName name) := by
  have hlength : (exportName name).length = name.length + 5 := String.length_append _ _
  have hlong : ∀ short : String, short.length < 5 → exportName name ≠ short := by
    rintro short hshort rfl
    omega
  refine ⟨hlong _ (by decide), hlong _ (by decide), hlong _ (by decide), ?_⟩
  rw [exportName, String.toList_append, List.mem_append]
  exact fun hslash => hslash.elim (noSlash_of_isFeedName h) (by decide)

theorem exportPath_eq {name : String} (h : isFeedName name = true) (config : Config) :
    config.exportPath name = Export.inside config.exportDirectory ++ exportName name :=
  Export.pathIn_of_noSlash (isFileName_exportName h).noSlash _

theorem exportPath_inj {a b : String} (ha : isFeedName a = true) (hb : isFeedName b = true)
    (config : Config) : config.exportPath a = config.exportPath b ↔ a = b := by
  rw [exportPath_eq ha, exportPath_eq hb, String.append_right_inj, exportName, exportName,
    String.append_left_inj]

theorem exportPath_eq_entitiesPath {name : String} (h : isFeedName name = true)
    (config : Config) : config.exportPath name = config.entitiesPath ↔ name = "entities" := by
  have hentities : config.entitiesPath = config.exportPath "entities" := rfl
  rw [hentities, exportPath_inj h (by decide)]

/-- What holds of a configuration that was read from an environment. -/
structure IsWellFormed (environment : String → Option String) (config : Config) : Prop where
  feeds_ne_nil : config.feeds ≠ []
  nodup_feeds : config.feeds.Nodup
  mem_feeds : ∀ name, name ∈ config.feeds ↔
    name ∈ givenFeeds environment ∨ givenFeeds environment = [] ∧ name = "news"
  /-- Feeds stand in the order in which they are first given. -/
  pairwise_feeds : config.feeds.Pairwise fun a b =>
    (givenFeeds environment).idxOf a < (givenFeeds environment).idxOf b
  feedNames : ∀ name ∈ config.feeds, name ≠ "" ∧ ∀ c ∈ name.toList, IsFeedChar c
  baseUrl : config.baseUrl.toList.getLast? ≠ some '/'
  blacklist : ∀ id ∈ config.blacklist, IsEntry id
  tokens : ∀ token ∈ config.tokens, IsEntry token
  nodup_feedUrls : (config.feeds.map config.feedUrl).Nodup
  nodup_exportPaths : (config.feeds.map config.exportPath).Nodup
  exportPaths : ∀ name ∈ config.feeds,
    Export.IsDirectlyIn config.exportDirectory (config.exportPath name)
  /-- One feed has the entities as its export, if there is a feed of this name. -/
  entitiesPath : ∀ name ∈ config.feeds,
    (config.exportPath name = config.entitiesPath ↔ name = "entities")

/-- An environment whose variables can be read has a configuration of this kind. Its feeds are told
apart by their names, and everything that is made of the names is told apart by these. -/
theorem isWellFormed_of_ofEnvironment {environment : String → Option String} {platform : Platform}
    {config : Config} (h : ofEnvironment environment platform = .ok config) :
    IsWellFormed environment config := by
  obtain ⟨hurl, hfeeds, hids, htokens⟩ := isReadFrom_of_ofEnvironment h
  have horder := pairwise_idxOf_of_feedsOf hfeeds
  have hnodup : config.feeds.Nodup := nodup_of_pairwise_idxOf horder
  have hnames : ∀ name ∈ config.feeds, isFeedName name = true :=
    fun name hname => isFeedName_of_feedsOf hfeeds hname
  exact {
    feeds_ne_nil := ne_nil_of_feedsOf hfeeds
    nodup_feeds := hnodup
    mem_feeds := fun name => mem_of_feedsOf hfeeds
    pairwise_feeds := horder
    feedNames := fun name hname =>
      ⟨ne_empty_of_feedsOf hfeeds hname, isFeedName_iff.mp (hnames name hname)⟩
    baseUrl := by
      rw [hurl, String.toList_ofList]
      intro hslash
      exact absurd (Body.last_dropTail _ _ '/' hslash) (by decide)
    blacklist := by
      rw [hids]
      exact fun id hid => isEntry_of_mem_commaList (List.mem_eraseDups.mp hid)
    tokens := by
      rw [htokens]
      exact fun token htoken => isEntry_of_mem_commaList (List.mem_eraseDups.mp htoken)
    nodup_feedUrls := hnodup.map config.feedUrl_injective
    nodup_exportPaths := hnodup.map_on fun a ha b hb heq =>
      (exportPath_inj (hnames a ha) (hnames b hb) config).mp heq
    exportPaths := fun name hname =>
      ⟨_, isFileName_exportName (hnames name hname), exportPath_eq (hnames name hname) config⟩
    entitiesPath := fun name hname => exportPath_eq_entitiesPath (hnames name hname) config }

def crowdedEnvironment : String → Option String
  | "NEWS_BASE_URL" => some "https://news.example//"
  | "NEWS_FEEDS" => some "dev-log_2, news,,dev-log_2 ,entities"
  | "NEWS_BLACKLIST" => some "7, 8 ,,7"
  | "NEWS_TIMEZONE" => some "UTC"
  | _ => none

def crowdedConfig : Config where
  bindAddress := "0.0.0.0:3000"
  baseUrl := "https://news.example"
  siteName := "Newsdesk"
  exportDirectory := "./export"
  feeds := ["dev-log_2", "news", "entities"]
  blacklist := ["7", "8"]
  zone := .utc
  tokens := []
  refreshSeconds := 0
  timeoutSeconds := 120

theorem isWellFormed_crowded :
    ofEnvironment crowdedEnvironment .builtIn = .ok crowdedConfig ∧
      IsWellFormed crowdedEnvironment crowdedConfig := by
  have haccepted : ofEnvironment crowdedEnvironment .builtIn = .ok crowdedConfig := rfl
  exact ⟨haccepted, isWellFormed_of_ofEnvironment haccepted⟩

/-- A feed may be named after the entities, and then it has their file as its export. -/
theorem exists_entities_as_export :
    ∃ (environment : String → Option String) (platform : Platform) (config : Config),
      ofEnvironment environment platform = .ok config ∧
        ∃ name ∈ config.feeds, config.exportPath name = config.entitiesPath := by
  have haccepted : ofEnvironment crowdedEnvironment .builtIn = .ok crowdedConfig := rfl
  exact ⟨crowdedEnvironment, .builtIn, crowdedConfig, haccepted, "entities", by decide, rfl⟩

end Config

end Gazette
