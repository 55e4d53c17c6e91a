import Gazette.Document.History
import Gazette.Proofs.Document.Order
import Mathlib.Data.List.Nodup

/-!
# Walks over archives

An archive hands out its documents from the largest id down, a page at a time, and each page ends
where the next one begins. A walk over it never fails and meets every id; of documents that share
an id it may skip all but one. `exists_fetchAll` says what is left in the end: documents of the
archive, one for each id, in the order of their ids.
-/

namespace Gazette

open History

/-! ### The oldest document of a page -/

theorem smallest_mem (id : String) (ids : List String) : smallest id ids ∈ id :: ids := by
  induction ids generalizing id with
  | nil => exact List.mem_cons_self
  | cons other rest ih =>
    rw [smallest]
    rcases List.mem_cons.mp (ih (if compareIds other id = .lt then other else id)) with heq | hmem
    · rw [heq]
      split
      · exact List.mem_cons_of_mem id List.mem_cons_self
      · exact List.mem_cons_self
    · exact List.mem_cons_of_mem id (List.mem_cons_of_mem other hmem)

theorem rank_smallest_le (id : String) (ids : List String) :
    ∀ other ∈ id :: ids, rank (smallest id ids) ≤ rank other := by
  induction ids generalizing id with
  | nil =>
    intro other hother
    rw [List.mem_singleton.mp hother]
    exact Nat.le_refl _
  | cons next rest ih =>
    intro other hother
    have hbest : rank (if compareIds next id = .lt then next else id) ≤ rank id ∧
        rank (if compareIds next id = .lt then next else id) ≤ rank next := by
      split
      · next hlt => exact ⟨Nat.le_of_lt (compareIds_eq_lt_iff.mp hlt), Nat.le_refl _⟩
      · next hge => exact ⟨Nat.le_refl _, Nat.le_of_not_lt fun hlt => hge (compareIds_eq_lt_iff.mpr hlt)⟩
    have hrest := ih (if compareIds next id = .lt then next else id)
    rw [smallest]
    simp only [List.mem_cons] at hother
    rcases hother with rfl | rfl | hother
    · exact Nat.le_trans (hrest _ List.mem_cons_self) hbest.1
    · exact Nat.le_trans (hrest _ List.mem_cons_self) hbest.2
    · exact hrest other (List.mem_cons_of_mem _ hother)

theorem oldest?_eq_none_iff {page : List Document} : oldest? page = none ↔ page = [] := by
  cases page with
  | nil => exact ⟨fun _ => rfl, fun _ => rfl⟩
  | cons document rest => simp [oldest?]

/-- The oldest id of a page is that of one of its documents, and no id of the page is smaller. -/
theorem oldest?_eq_some {page : List Document} {oldest : String} (h : oldest? page = some oldest) :
    (∃ document ∈ page, document.id = oldest) ∧ ∀ document ∈ page, rank oldest ≤ rank document.id := by
  cases page with
  | nil => cases h
  | cons document rest =>
    cases h
    refine ⟨List.mem_map.mp (smallest_mem document.id (rest.map Document.id)), fun other hother => ?_⟩
    exact rank_smallest_le document.id (rest.map Document.id) other.id (List.mem_map_of_mem hother)

/-! ### Leaving out repeats -/

theorem dropRepeats_go_sublist (id : String) (documents : List Document) :
    (dropRepeats.go id documents).Sublist documents := by
  induction documents generalizing id with
  | nil => exact List.Sublist.refl []
  | cons document rest ih =>
    rw [dropRepeats.go]
    split
    · exact (ih id).cons document
    · exact (ih document.id).cons_cons document

theorem dropRepeats_sublist (documents : List Document) :
    (dropRepeats documents).Sublist documents := by
  cases documents with
  | nil => exact List.Sublist.refl []
  | cons document rest => exact (dropRepeats_go_sublist document.id rest).cons_cons document

/-- No id is lost. -/
theorem exists_mem_dropRepeats_go (id : String) (documents : List Document) :
    ∀ document ∈ documents, document.id = id ∨
      ∃ kept ∈ dropRepeats.go id documents, kept.id = document.id := by
  induction documents generalizing id with
  | nil => exact fun _ hmem => absurd hmem List.not_mem_nil
  | cons first rest ih =>
    intro document hdocument
    rw [dropRepeats.go]
    rcases List.mem_cons.mp hdocument with rfl | hdocument
    · split
      · next heq => exact .inl heq
      · exact .inr ⟨document, List.mem_cons_self, rfl⟩
    · split
      · exact ih id document hdocument
      · rcases ih first.id document hdocument with heq | ⟨kept, hkept, heq⟩
        · exact .inr ⟨first, List.mem_cons_self, heq.symm⟩
        · exact .inr ⟨kept, List.mem_cons_of_mem first hkept, heq⟩

theorem exists_mem_dropRepeats {documents : List Document} {document : Document}
    (h : document ∈ documents) : ∃ kept ∈ dropRepeats documents, kept.id = document.id := by
  cases documents with
  | nil => cases h
  | cons first rest =>
    have hfirst : first ∈ dropRepeats (first :: rest) := List.mem_cons_self
    rcases List.mem_cons.mp h with rfl | h
    · exact ⟨document, hfirst, rfl⟩
    · rcases exists_mem_dropRepeats_go first.id rest document h with heq | ⟨kept, hkept, heq⟩
      · exact ⟨first, hfirst, heq.symm⟩
      · exact ⟨kept, List.mem_cons_of_mem first hkept, heq⟩

/-- What is left of documents in the order of their ids has no id twice. -/
theorem pairwise_dropRepeats_go {id : String} {documents : List Document}
    (hid : ∀ document ∈ documents, rank id ≤ rank document.id)
    (h : documents.Pairwise fun a b => rank a.id ≤ rank b.id) :
    (∀ kept ∈ dropRepeats.go id documents, rank id < rank kept.id) ∧
      (dropRepeats.go id documents).Pairwise fun a b => rank a.id < rank b.id := by
  induction documents generalizing id with
  | nil => exact ⟨fun _ hmem => absurd hmem List.not_mem_nil, .nil⟩
  | cons first rest ih =>
    obtain ⟨hfirst, hrest⟩ := List.pairwise_cons.mp h
    rw [dropRepeats.go]
    split
    · exact ih (fun document hdocument => hid document (List.mem_cons_of_mem first hdocument)) hrest
    · next hne =>
      obtain ⟨hlater, hpairwise⟩ := ih hfirst hrest
      have hlt : rank id < rank first.id :=
        Nat.lt_of_le_of_ne (hid first List.mem_cons_self) fun heq => hne (rank_injective heq.symm)
      refine ⟨fun kept hkept => ?_, List.pairwise_cons.mpr ⟨hlater, hpairwise⟩⟩
      rcases List.mem_cons.mp hkept with rfl | hkept
      · exact hlt
      · exact Nat.lt_trans hlt (hlater kept hkept)

theorem pairwise_dropRepeats {documents : List Document}
    (h : documents.Pairwise fun a b => rank a.id ≤ rank b.id) :
    (dropRepeats documents).Pairwise fun a b => rank a.id < rank b.id := by
  cases documents with
  | nil => exact .nil
  | cons first rest =>
    obtain ⟨hfirst, hrest⟩ := List.pairwise_cons.mp h
    obtain ⟨hlater, hpairwise⟩ := pairwise_dropRepeats_go hfirst hrest
    exact List.pairwise_cons.mpr ⟨hlater, hpairwise⟩

theorem assemble_eq (pages : List (List Document)) :
    assemble pages = dropRepeats pages.flatten.reverse := by
  rw [assemble, List.reverse_flatten, List.flatMap_def, List.map_reverse]

namespace History

/-- A walk goes on behind a page that goes back. -/
theorem pagesFrom_of_advances {σ : Type} {source : Source σ} {before : Option String}
    {state later : σ} {page : List Document} {oldest : String}
    (h : source.fetch before pageLimit state = (.ok page, later))
    (holdest : oldest? page = some oldest) (hadvances : Advances oldest before) :
    pagesFrom source before state =
      ((pagesFrom source (some oldest) later).1.map (page :: ·),
        (pagesFrom source (some oldest) later).2) := by
  rw [pagesFrom, h]
  simp only [holdest, dif_pos hadvances]
  cases pagesFrom source (some oldest) later with
  | mk result last => cases result <;> rfl

end History

/-! ### Archives -/

namespace Archive

/-- From the largest id to the smallest. -/
def Descends (documents : List Document) : Prop :=
  documents.Pairwise fun a b => rank b.id ≤ rank a.id

/-- The documents of an archive that a request for what is older than `before` is about. -/
def older (archive : Archive) (before : Option String) : List Document :=
  archive.documents.filter fun document => Advances document.id before

theorem page_eq_take_older (archive : Archive) (before : Option String) (limit : Nat) :
    archive.page before limit = (archive.older before).take limit := by
  cases before with
  | none => rfl
  | some before => rfl

theorem older_none (archive : Archive) : archive.older none = archive.documents :=
  List.filter_eq_self.mpr fun _ _ => decide_eq_true trivial

/-- What is older than a document is among what is older than a younger one. -/
theorem older_eq_filter_older (archive : Archive) {oldest : String} {before : Option String}
    (h : Advances oldest before) :
    archive.older (some oldest) =
      (archive.older before).filter fun document => compareIds document.id oldest = .lt := by
  rw [older, older, List.filter_filter]
  refine List.filter_congr fun document _ => ?_
  have himp : compareIds document.id oldest = .lt → Advances document.id before := by
    intro hlt
    cases before with
    | none => trivial
    | some before =>
      exact compareIds_eq_lt_iff.mpr
        (Nat.lt_trans (compareIds_eq_lt_iff.mp hlt) (compareIds_eq_lt_iff.mp h))
  by_cases hlt : compareIds document.id oldest = .lt
  · rw [decide_eq_true (himp hlt), decide_eq_true hlt]
    exact decide_eq_true hlt
  · rw [decide_eq_false hlt, Bool.false_and]
    exact decide_eq_false hlt

/-- What is behind the first page of an archive and older than the page. -/
theorem older_eq_filter_drop {archive : Archive} {before : Option String} {oldest : String}
    (hadvances : Advances oldest before)
    (hleast : ∀ document ∈ (archive.older before).take pageLimit, rank oldest ≤ rank document.id) :
    archive.older (some oldest) =
      ((archive.older before).drop pageLimit).filter
        fun document => compareIds document.id oldest = .lt := by
  have hpage : ((archive.older before).take pageLimit).filter
      (fun document => compareIds document.id oldest = .lt) = [] := by
    refine List.filter_eq_nil_iff.mpr fun document hdocument => ?_
    have hge := hleast document hdocument
    simp only [decide_eq_true_eq, compareIds_eq_lt_iff]
    omega
  have hsplit := congrArg (List.filter fun document => decide (compareIds document.id oldest = .lt))
    (List.take_append_drop pageLimit (archive.older before))
  rw [List.filter_append, hpage, List.nil_append] at hsplit
  rw [older_eq_filter_older archive hadvances, hsplit]

/-- A walk over an archive ends where nothing is older, or it reads the next page and goes on behind
the last document there, which is the oldest one of the page. -/
theorem pagesFrom_source {archive : Archive} (h : Descends archive.documents)
    (before : Option String) :
    (archive.older before = [] ∧ pagesFrom archive.source before () = (.ok [], ())) ∨
      ∃ last, ((archive.older before).take pageLimit).getLast? = some last ∧
        Advances last.id before ∧
        (∀ document ∈ (archive.older before).take pageLimit, rank last.id ≤ rank document.id) ∧
        pagesFrom archive.source before () =
          ((pagesFrom archive.source (some last.id) ()).1.map
              ((archive.older before).take pageLimit :: ·),
            (pagesFrom archive.source (some last.id) ()).2) := by
  have hfetch : archive.source.fetch before pageLimit () =
      (.ok ((archive.older before).take pageLimit), ()) := by
    rw [← page_eq_take_older]
    rfl
  cases holdest : oldest? ((archive.older before).take pageLimit) with
  | none =>
    refine .inl ⟨?_, ?_⟩
    · obtain hlimit | hnil := List.take_eq_nil_iff.mp (oldest?_eq_none_iff.mp holdest)
      · cases hlimit
      · exact hnil
    · rw [pagesFrom, hfetch]
      simp only [holdest]
  | some oldest =>
    obtain ⟨⟨least, hleast, hleastId⟩, hall⟩ := oldest?_eq_some holdest
    obtain ⟨front, last, hpage⟩ :=
      (List.eq_nil_or_concat' _).resolve_left (List.ne_nil_of_mem hleast)
    have hsorted : Descends ((archive.older before).take pageLimit) :=
      List.Pairwise.sublist ((List.take_sublist _ _).trans List.filter_sublist) h
    have hlast : last ∈ (archive.older before).take pageLimit := by
      rw [hpage]
      exact List.mem_concat_self
    have hleLeast : rank last.id ≤ rank least.id := by
      rw [hpage] at hsorted hleast
      obtain hfront | hself := List.mem_append.mp hleast
      · exact (List.pairwise_append.mp hsorted).2.2 least hfront last (List.mem_singleton_self _)
      · obtain rfl := List.mem_singleton.mp hself
        exact Nat.le_refl _
    have hid : last.id = oldest :=
      rank_injective (Nat.le_antisymm (hleastId ▸ hleLeast) (hall last hlast))
    have hadvances : Advances last.id before :=
      of_decide_eq_true (List.mem_filter.mp (List.mem_of_mem_take hlast)).2
    subst hid
    refine .inr ⟨last, by rw [hpage, List.getLast?_concat], hadvances, hall, ?_⟩
    exact pagesFrom_of_advances hfetch holdest hadvances

/-- What is cut off a page and is not older than it has the id of its last document. -/
theorem id_eq_of_mem_drop {archive : Archive} (h : Descends archive.documents)
    {before : Option String} {last document : Document}
    (hlast : last ∈ (archive.older before).take pageLimit)
    (hdocument : document ∈ (archive.older before).drop pageLimit)
    (hlt : compareIds document.id last.id ≠ .lt) : document.id = last.id := by
  have hsorted : Descends (archive.older before) := List.Pairwise.sublist List.filter_sublist h
  rw [← List.take_append_drop pageLimit (archive.older before)] at hsorted
  have hle := (List.pairwise_append.mp hsorted).2.2 last hlast document hdocument
  rw [Ne, compareIds_eq_lt_iff] at hlt
  exact rank_injective (Nat.le_antisymm hle (Nat.le_of_not_lt hlt))

/-- The pages of a walk are what is older than `before`, perhaps without some documents whose ids
others have. The induction is that of the walk: the next pages come from behind the first one. -/
theorem exists_pagesFrom {archive : Archive} (h : Descends archive.documents)
    (before : Option String) :
    ∃ pages, pagesFrom archive.source before () = (.ok pages, ()) ∧
      pages.flatten.Sublist (archive.older before) ∧
      ∀ document ∈ archive.older before, ∃ kept ∈ pages.flatten, kept.id = document.id := by
  obtain ⟨hnil, hpages⟩ | ⟨last, hgetLast, hadvances, hall, hpages⟩ := pagesFrom_source h before
  · rw [hnil]
    exact ⟨[], hpages, List.nil_sublist _, List.forall_mem_nil _⟩
  · obtain ⟨pages, hrest, hsublist, hcover⟩ := exists_pagesFrom h (some last.id)
    rw [older_eq_filter_drop hadvances hall] at hsublist hcover
    have hsplit := List.take_append_drop pageLimit (archive.older before)
    refine ⟨(archive.older before).take pageLimit :: pages, ?_, ?_, fun document hdocument => ?_⟩
    · rw [hpages, hrest]
      rfl
    · have happend := (List.Sublist.refl ((archive.older before).take pageLimit)).append
        (hsublist.trans List.filter_sublist)
      rw [hsplit] at happend
      rw [List.flatten_cons]
      exact happend
    · rw [List.flatten_cons]
      obtain hfront | hback := List.mem_append.mp (hsplit ▸ hdocument)
      · exact ⟨document, List.mem_append_left _ hfront, rfl⟩
      · by_cases hlt : compareIds document.id last.id = .lt
        · obtain ⟨kept, hkept, heq⟩ :=
            hcover document (List.mem_filter.mpr ⟨hback, decide_eq_true hlt⟩)
          exact ⟨kept, List.mem_append_right _ hkept, heq⟩
        · -- It was cut off the page, but shares its id with the last document there.
          have hlast := List.mem_of_getLast? hgetLast
          exact ⟨last, List.mem_append_left _ hlast, (id_eq_of_mem_drop h hlast hback hlt).symm⟩
termination_by remaining before
decreasing_by exact remaining_lt hadvances

/-- A walk over an archive comes to documents of the archive, one for each id, in the order of
their ids. -/
theorem exists_fetchAll {archive : Archive} (h : Descends archive.documents) :
    ∃ history, fetchAll archive.source () = (.ok history, ()) ∧
      (history.Pairwise fun a b => compareIds a.id b.id = .lt) ∧
      (∀ document ∈ history, document ∈ archive.documents) ∧
      ∀ document ∈ archive.documents, ∃ kept ∈ history, kept.id = document.id := by
  obtain ⟨pages, hpages, hsublist, hcover⟩ := exists_pagesFrom h none
  rw [older_none] at hsublist hcover
  refine ⟨assemble pages, ?_, ?_, fun document hdocument => ?_, fun document hdocument => ?_⟩
  · rw [fetchAll, History.pages, hpages]
    rfl
  · have hascends : pages.flatten.reverse.Pairwise fun a b => rank a.id ≤ rank b.id :=
      List.pairwise_reverse.mpr (List.Pairwise.sublist hsublist h)
    rw [assemble_eq]
    exact (pairwise_dropRepeats hascends).imp fun hlt => compareIds_eq_lt_iff.mpr hlt
  · rw [assemble_eq] at hdocument
    exact hsublist.mem (List.mem_reverse.mp ((dropRepeats_sublist _).mem hdocument))
  · obtain ⟨met, hmet, hmetId⟩ := hcover document hdocument
    obtain ⟨kept, hkept, hkeptId⟩ := exists_mem_dropRepeats (List.mem_reverse.mpr hmet)
    rw [← assemble_eq] at hkept
    exact ⟨kept, hkept, hkeptId.trans hmetId⟩

/-! ### Archives of given documents -/

variable (channel : String) (documents : List Document)

theorem mem_ofDocuments {document : Document} :
    document ∈ (ofDocuments channel documents).documents ↔ document ∈ documents :=
  List.mem_mergeSort

theorem sorts_trans (a b c : Document) (hab : decide (compareIds b.id a.id ≠ .gt) = true)
    (hbc : decide (compareIds c.id b.id ≠ .gt) = true) :
    decide (compareIds c.id a.id ≠ .gt) = true := by
  simp only [decide_eq_true_eq, compareIds_ne_gt_iff] at hab hbc ⊢
  exact Nat.le_trans hbc hab

theorem sorts_total (a b : Document) :
    (decide (compareIds b.id a.id ≠ .gt) || decide (compareIds a.id b.id ≠ .gt)) = true := by
  simp only [Bool.or_eq_true, decide_eq_true_eq, compareIds_ne_gt_iff]
  exact Nat.le_total _ _

theorem descends_ofDocuments : Descends (ofDocuments channel documents).documents := by
  have hsorted : (ofDocuments channel documents).documents.Pairwise
      fun a b => decide (compareIds b.id a.id ≠ .gt) = true :=
    List.pairwise_mergeSort sorts_trans sorts_total documents
  exact hsorted.imp fun hle => compareIds_ne_gt_iff.mp (of_decide_eq_true hle)

/-- Where no id occurs twice, the order in which the documents are given does not matter. -/
theorem ofDocuments_eq_of_perm {documents other : List Document} (hperm : documents.Perm other)
    (hids : (documents.map Document.id).Nodup) :
    ofDocuments channel documents = ofDocuments channel other := by
  have hunique : ∀ a b : Document, a ∈ (ofDocuments channel documents).documents →
      b ∈ (ofDocuments channel other).documents → rank b.id ≤ rank a.id → rank a.id ≤ rank b.id →
        a = b := by
    intro a b ha hb hab hba
    have hb' : b ∈ documents := hperm.mem_iff.mpr ((mem_ofDocuments channel other).mp hb)
    exact List.inj_on_of_nodup_map hids ((mem_ofDocuments channel documents).mp ha) hb'
      (rank_injective (Nat.le_antisymm hba hab))
  have hsame : (ofDocuments channel documents).documents.Perm
      (ofDocuments channel other).documents :=
    ((List.mergeSort_perm documents _).trans hperm).trans (List.mergeSort_perm other _).symm
  exact congrArg (Archive.mk channel) (List.Perm.eq_of_pairwise hunique
    (descends_ofDocuments channel documents) (descends_ofDocuments channel other) hsame)

end Archive

end Gazette
