import Gazette.Proofs.Document.Orderly

/-!
# Which document of an id stays

Documents of one id stand next to each other in an archive, in the order in which they were given. A
walk reads some of them on one page, from the first one on, and skips those that are cut off at the end
of the page, since it asks next for what is older. Of those on the page the last one stays, so it is
the one given last, unless the end of a full page stands among the documents of its id
(`fetchAll_keeps`).
-/

namespace Gazette

open Archive (Descends)
open History

/-- The documents of one id, in their order. -/
def withId (id : String) (documents : List Document) : List Document :=
  documents.filter (·.id == id)

theorem mem_withId {id : String} {documents : List Document} {document : Document} :
    document ∈ withId id documents ↔ document ∈ documents ∧ document.id = id := by
  rw [withId, List.mem_filter, beq_iff_eq]

theorem withId_cons_of_eq {id : String} {first : Document} (h : first.id = id)
    (rest : List Document) : withId id (first :: rest) = first :: withId id rest :=
  List.filter_cons_of_pos (beq_iff_eq.mpr h)

theorem withId_cons_of_ne {id : String} {first : Document} (h : first.id ≠ id)
    (rest : List Document) : withId id (first :: rest) = withId id rest :=
  List.filter_cons_of_neg fun heq => h (beq_iff_eq.mp heq)

theorem withId_append (id : String) (a b : List Document) :
    withId id (a ++ b) = withId id a ++ withId id b :=
  List.filter_append ..

theorem withId_eq_nil_iff {id : String} {documents : List Document} :
    withId id documents = [] ↔ ∀ document ∈ documents, document.id ≠ id := by
  rw [withId, List.filter_eq_nil_iff]
  exact forall₂_congr fun document _ => not_congr beq_iff_eq

/-! ### Leaving out repeats -/

namespace History

/-- Behind a document, the first one of each greater id is kept. -/
theorem withId_dropRepeats_go {id : String} {documents : List Document}
    (hid : ∀ document ∈ documents, rank id ≤ rank document.id)
    (h : documents.Pairwise fun a b => rank a.id ≤ rank b.id) (other : String) :
    withId other (dropRepeats.go id documents) =
      if other = id then [] else (withId other documents).head?.toList := by
  induction documents generalizing id with
  | nil => simp [dropRepeats.go, withId]
  | cons first rest ih =>
    obtain ⟨hfirst, hrest⟩ := List.pairwise_cons.mp h
    obtain ⟨hle, hids⟩ := List.forall_mem_cons.mp hid
    rw [dropRepeats.go]
    by_cases hsame : first.id = id
    · rw [if_pos hsame, ih hids hrest]
      by_cases hother : other = id
      · rw [if_pos hother, if_pos hother]
      · have hskip : first.id ≠ other := fun heq => hother (heq.symm.trans hsame)
        rw [if_neg hother, if_neg hother, withId_cons_of_ne hskip]
    · have hlt : rank id < rank first.id :=
        Nat.lt_of_le_of_ne hle fun heq => hsame (rank_injective heq.symm)
      rw [if_neg hsame]
      by_cases hself : first.id = other
      · have hother : other ≠ id := fun heq => hsame (hself.trans heq)
        rw [withId_cons_of_eq hself, withId_cons_of_eq hself, ih hfirst hrest, if_pos hself.symm,
          if_neg hother]
        rfl
      · rw [withId_cons_of_ne hself, withId_cons_of_ne hself, ih hfirst hrest,
          if_neg (Ne.symm hself)]
        split
        · next hother =>
          -- The id was met before, and all that follows is greater.
          have hnone : withId other rest = [] := by
            refine withId_eq_nil_iff.mpr fun document hdocument heq => ?_
            have hge := hfirst document hdocument
            rw [heq, hother] at hge
            exact absurd hlt (Nat.not_lt.mpr hge)
          rw [hnone]
          rfl
        · rfl

theorem withId_dropRepeats {documents : List Document}
    (h : documents.Pairwise fun a b => rank a.id ≤ rank b.id) (id : String) :
    withId id (dropRepeats documents) = (withId id documents).head?.toList := by
  cases documents with
  | nil => rfl
  | cons first rest =>
    obtain ⟨hfirst, hrest⟩ := List.pairwise_cons.mp h
    have hgo := withId_dropRepeats_go hfirst hrest id
    rw [dropRepeats]
    by_cases hid : first.id = id
    · rw [if_pos hid.symm] at hgo
      rw [withId_cons_of_eq hid, withId_cons_of_eq hid, hgo]
      rfl
    · rw [if_neg (Ne.symm hid)] at hgo
      rw [withId_cons_of_ne hid, withId_cons_of_ne hid, hgo]

/-- Of the documents of an id on the pages of a walk the last one is kept. -/
theorem withId_assemble {pages : List (List Document)} (h : Descends pages.flatten) (id : String) :
    withId id (assemble pages) = (withId id pages.flatten).getLast?.toList := by
  rw [assemble_eq, withId_dropRepeats (List.pairwise_reverse.mpr h), withId, List.filter_reverse,
    List.head?_reverse]
  rfl

end History

/-! ### Pages of an archive -/

/-- How the documents of one id are shared out: one page of the walk has the first of them, other pages
have none, and the rest is cut off at the end of this page. -/
structure IsShared (id : String) (documents : List Document) (pages : List (List Document))
    (page cut : List Document) : Prop where
  mem : page ∈ pages
  length_le : page.length ≤ pageLimit
  ne_nil : withId id page ≠ []
  eq : withId id documents = withId id page ++ cut
  only : withId id pages.flatten = withId id page
  full : cut ≠ [] → page.length = pageLimit ∧ ∃ last, page.getLast? = some last ∧ last.id = id

namespace Archive

/-- Each id that a walk meets is shared out to one page. The recursion is that of the walk: an id below
the last one of the page stands on a later page, and any other one on this page. -/
theorem exists_isShared {archive : Archive} (h : Descends archive.documents)
    (before : Option String) {pages : List (List Document)}
    (hpages : pagesFrom archive.source before () = (.ok pages, ())) {document : Document}
    (hdocument : document ∈ archive.older before) :
    ∃ page cut, IsShared document.id (archive.older before) pages page cut := by
  obtain ⟨hnil, -⟩ | ⟨last, hgetLast, hadvances, hall, hfirst⟩ := pagesFrom_source h before
  · rw [hnil] at hdocument
    cases hdocument
  · obtain ⟨rest, hrest, hsublist, -⟩ := exists_pagesFrom h (some last.id)
    rw [hfirst, hrest] at hpages
    cases hpages
    have hlater : ∀ later ∈ rest.flatten, compareIds later.id last.id = .lt := fun later hmem =>
      of_decide_eq_true (List.mem_filter.mp (hsublist.mem hmem)).2
    have hsplit := List.take_append_drop pageLimit (archive.older before)
    by_cases hlt : compareIds document.id last.id = .lt
    · have hmem : document ∈ archive.older (some last.id) := by
        rw [older_eq_filter_older archive hadvances]
        exact List.mem_filter.mpr ⟨hdocument, decide_eq_true hlt⟩
      obtain ⟨page, cut, hshared⟩ := exists_isShared h (some last.id) hrest hmem
      have hsame : withId document.id (archive.older (some last.id)) =
          withId document.id (archive.older before) := by
        rw [older_eq_filter_older archive hadvances, withId, withId, List.filter_filter]
        refine List.filter_congr fun other _ => ?_
        cases hid : other.id == document.id with
        | false => rfl
        | true => rw [beq_iff_eq.mp hid, decide_eq_true hlt]; rfl
      have hnone : withId document.id ((archive.older before).take pageLimit) = [] := by
        refine withId_eq_nil_iff.mpr fun other hother heq => ?_
        have hge := hall other hother
        rw [heq] at hge
        exact absurd (compareIds_eq_lt_iff.mp hlt) (Nat.not_lt.mpr hge)
      refine ⟨page, cut, { hshared with mem := List.mem_cons_of_mem _ hshared.mem, eq := ?_, only := ?_ }⟩
      · rw [← hsame, hshared.eq]
      · rw [List.flatten_cons, withId_append, hnone, hshared.only]
        rfl
    · have hlast := List.mem_of_getLast? hgetLast
      have hcut : ∀ other ∈ (archive.older before).drop pageLimit, other.id = document.id →
          document.id = last.id := fun other hother heq =>
        heq ▸ id_eq_of_mem_drop h hlast hother (heq.symm ▸ hlt)
      refine ⟨(archive.older before).take pageLimit,
        withId document.id ((archive.older before).drop pageLimit), List.mem_cons_self,
        List.length_take_le _ _, fun hnone => ?_, ?_, ?_, fun hne => ?_⟩
      · have hnot := withId_eq_nil_iff.mp hnone
        obtain hfront | hback := List.mem_append.mp (hsplit ▸ hdocument)
        · exact hnot document hfront rfl
        · exact hnot last hlast (hcut document hback rfl).symm
      · rw [← withId_append, hsplit]
      · have hnone : withId document.id rest.flatten = [] :=
          withId_eq_nil_iff.mpr fun later hmem heq => hlt (heq ▸ hlater later hmem)
        rw [List.flatten_cons, withId_append, hnone, List.append_nil]
      · obtain ⟨other, hother⟩ := List.exists_mem_of_ne_nil _ hne
        obtain ⟨hback, heq⟩ := mem_withId.mp hother
        refine ⟨?_, last, hgetLast, (hcut other hback heq).symm⟩
        have hlength := List.length_pos_of_mem hback
        rw [List.length_drop] at hlength
        rw [List.length_take]
        omega
termination_by remaining before
decreasing_by exact remaining_lt hadvances

/-! ### Archives of given documents -/

variable (channel : String) (documents : List Document)

/-- Documents of one id stay in the order in which they were given. -/
theorem withId_ofDocuments (id : String) :
    withId id (ofDocuments channel documents).documents = withId id documents := by
  have hpairwise : (withId id documents).Pairwise
      fun a b => decide (compareIds b.id a.id ≠ .gt) = true := by
    refine List.pairwise_of_forall_mem_list fun a ha b hb => ?_
    rw [(mem_withId.mp ha).2, (mem_withId.mp hb).2]
    exact decide_eq_true (compareIds_ne_gt_iff.mpr (Nat.le_refl _))
  have hsublist : (withId id documents).Sublist (ofDocuments channel documents).documents :=
    List.sublist_mergeSort sorts_trans sorts_total hpairwise List.filter_sublist
  have hfilter := hsublist.filter (·.id == id)
  rw [withId, List.filter_filter] at hfilter
  simp only [Bool.and_self] at hfilter
  have hlength : (withId id documents).length =
      (withId id (ofDocuments channel documents).documents).length :=
    ((List.mergeSort_perm documents _).symm.filter _).length_eq
  exact (hfilter.eq_of_length hlength).symm

theorem exists_kept :
    ∃ pages history, History.pages (ofDocuments channel documents).source () = (.ok pages, ()) ∧
      fetchAll (ofDocuments channel documents).source () = (.ok history, ()) ∧
      ∀ document ∈ documents, ∃ page cut, IsShared document.id documents pages page cut ∧
        withId document.id history = (withId document.id page).getLast?.toList := by
  have hdescends := descends_ofDocuments channel documents
  obtain ⟨pages, hpages, hsublist, -⟩ := exists_pagesFrom hdescends none
  have hflat : Descends pages.flatten :=
    List.Pairwise.sublist (hsublist.trans List.filter_sublist) hdescends
  refine ⟨pages, assemble pages, hpages, ?_, fun document hdocument => ?_⟩
  · rw [fetchAll, History.pages, hpages]
    rfl
  · have hmem : document ∈ (ofDocuments channel documents).older none := by
      rw [older_none]
      exact (mem_ofDocuments channel documents).mpr hdocument
    obtain ⟨page, cut, hshared⟩ := exists_isShared hdescends none hpages hmem
    have heq := hshared.eq
    rw [older_none, withId_ofDocuments] at heq
    exact ⟨page, cut, { hshared with eq := heq }, by rw [withId_assemble hflat, hshared.only]⟩

/-- A walk over an archive reads of each id the documents that were given first, on one page, and keeps
the last of them. It is the one given last with the id, unless the page is full, ends with it, and cuts
off the rest. -/
theorem fetchAll_keeps :
    ∃ pages history, History.pages (ofDocuments channel documents).source () = (.ok pages, ()) ∧
      fetchAll (ofDocuments channel documents).source () = (.ok history, ()) ∧
      ∀ document ∈ documents, ∃ page ∈ pages, ∃ shown kept cut,
        withId document.id documents = shown ++ kept :: cut ∧
          withId document.id page = shown ++ [kept] ∧
          withId document.id pages.flatten = withId document.id page ∧
          withId document.id history = [kept] ∧
          (cut ≠ [] → page.length = pageLimit ∧ page.getLast? = some kept) := by
  obtain ⟨pages, history, hpages, hfetch, hall⟩ := exists_kept channel documents
  refine ⟨pages, history, hpages, hfetch, fun document hdocument => ?_⟩
  obtain ⟨page, cut, hshared, hhistory⟩ := hall document hdocument
  obtain ⟨shown, kept, hkept⟩ := (List.eq_nil_or_concat' _).resolve_left hshared.ne_nil
  refine ⟨page, hshared.mem, shown, kept, cut, ?_, hkept, hshared.only, ?_, fun hcut => ?_⟩
  · rw [hshared.eq, hkept, List.append_assoc]
    rfl
  · rw [hhistory, hkept, List.getLast?_concat]
    rfl
  · obtain ⟨hlength, last, hgetLast, hid⟩ := hshared.full hcut
    obtain ⟨front, hpage⟩ := List.getLast?_eq_some_iff.mp hgetLast
    rw [hpage, withId_append, withId_cons_of_eq hid] at hkept
    obtain ⟨-, hlast⟩ := List.append_inj' hkept rfl
    exact ⟨hlength, hgetLast.trans (congrArg some (List.cons.inj hlast).1)⟩

/-- Whether a walk keeps, of the documents of an id, the one that was given last. -/
def KeepsLastGiven : Prop :=
  ∀ history, (fetchAll (ofDocuments channel documents).source ()).1 = .ok history →
    ∀ kept ∈ history, (withId kept.id documents).getLast? = some kept

/-- One document more of an id than there is room for on a page. -/
def crowd : List Document := List.replicate pageLimit (note "1" "early") ++ [note "1" "late"]

theorem withId_crowd : withId "1" crowd = crowd := by
  refine List.filter_eq_self.mpr fun document hdocument => beq_iff_eq.mpr ?_
  obtain hearly | hlate := List.mem_append.mp hdocument
  · rw [List.eq_of_mem_replicate hearly]
    rfl
  · rw [List.mem_singleton.mp hlate]
    rfl

/-- The last document of a crowd is cut off, and the one before it stays. -/
theorem not_keepsLastGiven_crowd : ¬KeepsLastGiven "news" crowd := by
  intro h
  obtain ⟨pages, history, -, hfetch, hall⟩ := exists_kept "news" crowd
  obtain ⟨page, cut, hshared, hhistory⟩ : ∃ page cut, IsShared "1" crowd pages page cut ∧
      withId "1" history = (withId "1" page).getLast?.toList :=
    hall (note "1" "late") List.mem_concat_self
  have hstarts : withId "1" page <+: List.replicate pageLimit (note "1" "early") := by
    have hlength := Nat.le_trans (List.length_filter_le (·.id == "1") page) hshared.length_le
    refine List.prefix_of_prefix_length_le ⟨cut, ?_⟩ (List.prefix_append _ [note "1" "late"]) ?_
    · exact hshared.eq.symm.trans withId_crowd
    · rw [List.length_replicate]
      exact hlength
  obtain ⟨shown, kept, hkept⟩ := (List.eq_nil_or_concat' _).resolve_left hshared.ne_nil
  have hearly : kept = note "1" "early" :=
    List.eq_of_mem_replicate (hstarts.mem (hkept ▸ List.mem_concat_self))
  have hmem : kept ∈ withId "1" history := by
    rw [hhistory, hkept, List.getLast?_concat]
    exact List.mem_singleton_self kept
  obtain ⟨hmem, hid⟩ := mem_withId.mp hmem
  have hlast := h history (congrArg Prod.fst hfetch) kept hmem
  rw [hid, withId_crowd, crowd, List.getLast?_concat, hearly] at hlast
  exact absurd (congrArg Document.content (Option.some.inj hlast)) (by decide)

end Archive

end Gazette
