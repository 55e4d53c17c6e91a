import Gazette.Proofs.Document.Requests

/-!
# Sources that keep to the order

A source is orderly if each of its pages holds only what was asked for, from the largest id down; one
id may stand on a page more than once. A walk over such a source ends at an empty page or at a fault,
and its pages in a row descend, so what is left of them without repeats next to each other has no id
twice (`fetchAll_orderly`).
-/

namespace Gazette

open Archive (Descends)
open History (Advances Stops pageLimit)

/-- Whether a page is an answer to the request for what is older than `before`, from the largest id
to the smallest. -/
structure IsOrderlyPage (before : Option String) (page : List Document) : Prop where
  older : ∀ document ∈ page, Advances document.id before
  descends : page.Pairwise fun a b => compareIds b.id a.id ≠ .gt

/-- Whether all pages of a source are orderly, whatever state it is in. -/
def Source.IsOrderly {σ : Type} (source : Source σ) : Prop :=
  ∀ before state page, (source.fetch before pageLimit state).1 = .ok page → IsOrderlyPage before page

/-- Whether an exchange is a request to the source, and what it answers in some state. -/
def Exchange.IsOf {σ : Type} (source : Source σ) (exchange : Exchange) : Prop :=
  ∃ state, exchange.answer = (source.fetch exchange.before pageLimit state).1

/-- Whether an exchange was answered with an orderly page, if with any. -/
def Exchange.IsOrderly (exchange : Exchange) : Prop :=
  ∀ page, exchange.answer = .ok page → IsOrderlyPage exchange.before page

theorem Archive.isOrderly_source {archive : Archive} (h : Descends archive.documents) :
    archive.source.IsOrderly := by
  rintro before state page ⟨⟩
  rw [page_eq_take_older]
  have hsublist := List.take_sublist pageLimit (archive.older before)
  refine ⟨fun document hdocument => ?_, ?_⟩
  · exact of_decide_eq_true (List.mem_filter.mp (hsublist.mem hdocument)).2
  · exact (List.Pairwise.sublist (hsublist.trans List.filter_sublist) h).imp
      compareIds_ne_gt_iff.mpr

namespace History

variable {σ : Type}

/-! ### What a source keeps -/

/-- What every request to a source keeps of its state, a walk keeps. -/
theorem pagesFrom_keeps {source : Source σ} {P : σ → Prop}
    (hstep : ∀ before state, P state → P (source.fetch before pageLimit state).2)
    (before : Option String) {state : σ} (h : P state) : P (pagesFrom source before state).2 := by
  have hlater := hstep before state h
  cases hfetch : source.fetch before pageLimit state with
  | mk answer later =>
    rw [hfetch] at hlater
    cases answer with
    | error fault =>
      rw [pagesFrom_of_error hfetch]
      exact hlater
    | ok page =>
      by_cases hadvances : ∃ oldest, oldest? page = some oldest ∧ Advances oldest before
      · obtain ⟨oldest, holdest, hadvances⟩ := hadvances
        rw [pagesFrom_of_advances hfetch holdest hadvances]
        exact pagesFrom_keeps hstep (some oldest) hlater
      · have hstops : Stops before page := fun oldest holdest h => hadvances ⟨oldest, holdest, h⟩
        rw [pagesFrom_of_stops hfetch hstops]
        exact hlater
termination_by remaining before
decreasing_by exact remaining_lt ‹_›

/-- What is written down of a walk are answers of its source. -/
theorem isOf_of_mem_log {source : Source σ} {state later : σ} {log : List Exchange}
    {result : Except HistoryFault (List (List Document))}
    (h : pagesFrom source.logged none (state, []) = (result, later, log)) :
    ∀ exchange ∈ log, exchange.IsOf source := by
  let P (logged : σ × List Exchange) : Prop := ∀ exchange ∈ logged.2, exchange.IsOf source
  have hstep : ∀ before logged, P logged → P (source.logged.fetch before pageLimit logged).2 := by
    intro before logged hlog exchange hexchange
    obtain hearlier | hlast := List.mem_append.mp hexchange
    · exact hlog exchange hearlier
    · obtain rfl := List.mem_singleton.mp hlast
      exact ⟨logged.1, rfl⟩
  have hwalk : P (pagesFrom source.logged none (state, [])).2 :=
    pagesFrom_keeps hstep none (List.forall_mem_nil _)
  rwa [h] at hwalk

/-! ### Walks over orderly pages -/

/-- An orderly page that ends a walk is empty. -/
theorem eq_nil_of_stops {before : Option String} {page : List Document}
    (h : IsOrderlyPage before page) (hstops : Stops before page) : page = [] := by
  cases holdest : oldest? page with
  | none => exact oldest?_eq_none_iff.mp holdest
  | some oldest =>
    obtain ⟨⟨document, hdocument, rfl⟩, -⟩ := oldest?_eq_some holdest
    exact absurd (h.older document hdocument) (hstops _ holdest)

/-- The pages of a walk over orderly ones are not empty, and descend in a row. The induction goes from
the oldest page back: all of the later pages is below the oldest id of a page. -/
theorem IsWalk.descends_flatten {before : Option String} {log : List Exchange}
    {result : Except HistoryFault (List (List Document))} (h : IsWalk before log result)
    (horderly : ∀ exchange ∈ log, exchange.IsOrderly) {pages : List (List Document)}
    (hresult : result = .ok pages) :
    (∀ page ∈ pages, page ≠ []) ∧ (∀ document ∈ pages.flatten, Advances document.id before) ∧
      Descends pages.flatten := by
  induction h generalizing pages with
  | failed before fault => cases hresult
  | stopped h =>
    cases hresult
    exact ⟨List.forall_mem_nil _, List.forall_mem_nil _, .nil⟩
  | @further before page oldest log result holdest hadvances hrest ih =>
    cases result with
    | error fault => cases hresult
    | ok rest =>
      cases hresult
      obtain ⟨hfirst, hlog⟩ := List.forall_mem_cons.mp horderly
      obtain ⟨holder, hpage⟩ := hfirst page rfl
      obtain ⟨hne, hbelow, hdescends⟩ := ih hlog rfl
      obtain ⟨⟨least, hleast, hleastId⟩, hall⟩ := oldest?_eq_some holdest
      have hlt : ∀ document ∈ rest.flatten, rank document.id < rank oldest :=
        fun document hdocument => compareIds_eq_lt_iff.mp (hbelow document hdocument)
      refine ⟨List.forall_mem_cons.mpr ⟨List.ne_nil_of_mem hleast, hne⟩, fun document hdocument => ?_,
        List.pairwise_append.mpr ⟨hpage.imp compareIds_ne_gt_iff.mp, hdescends, ?_⟩⟩
      · obtain hdocument | hdocument := List.mem_append.mp hdocument
        · exact holder document hdocument
        · cases before with
          | none => trivial
          | some before =>
            have hold : rank oldest < rank before := compareIds_eq_lt_iff.mp hadvances
            exact compareIds_eq_lt_iff.mpr (Nat.lt_trans (hlt document hdocument) hold)
      · intro document hdocument later hlater
        exact Nat.le_of_lt (Nat.lt_of_lt_of_le (hlt later hlater) (hall document hdocument))

theorem ascends_assemble {pages : List (List Document)} (h : Descends pages.flatten) :
    (assemble pages).Pairwise fun a b => compareIds a.id b.id = .lt := by
  rw [assemble_eq]
  exact (pairwise_dropRepeats (List.pairwise_reverse.mpr h)).imp compareIds_eq_lt_iff.mpr

theorem nodup_of_ascends {documents : List Document}
    (h : documents.Pairwise fun a b => compareIds a.id b.id = .lt) :
    (documents.map Document.id).Nodup := by
  refine List.pairwise_map.mpr (h.imp fun hlt heq => ?_)
  rw [compareIds_eq_lt_iff, heq] at hlt
  exact Nat.lt_irrefl _ hlt

theorem mem_map_id_assemble {pages : List (List Document)} {id : String} :
    id ∈ (assemble pages).map Document.id ↔ ∃ page ∈ pages, id ∈ page.map Document.id := by
  constructor
  · intro h
    obtain ⟨document, hdocument, rfl⟩ := List.mem_map.mp h
    obtain ⟨page, hpage, hmem⟩ := exists_page_of_mem_assemble hdocument
    exact ⟨page, hpage, List.mem_map_of_mem hmem⟩
  · rintro ⟨page, hpage, h⟩
    obtain ⟨document, hdocument, rfl⟩ := List.mem_map.mp h
    obtain ⟨kept, hkept, hid⟩ := exists_mem_assemble hpage hdocument
    exact List.mem_map.mpr ⟨kept, hkept, hid⟩

/-- A walk over an orderly source ends at a request that fails, with its fault, or at an empty page.
In the latter case no page before is empty, and the walk comes to documents whose ids increase, so that
none occurs twice, and are the ids of the pages before the empty one. -/
theorem fetchAll_orderly {source : Source σ} (h : source.IsOrderly) (state : σ) :
    ∃ (front : List Exchange) (last : Exchange) (later : σ),
      fetchAll source.logged (state, []) =
          ((fetchAll source state).1, later, front ++ [last]) ∧
        (∀ exchange ∈ front, ∃ page, exchange.answer = .ok page) ∧
        ((∃ fault, last.answer = .error fault ∧ (fetchAll source state).1 = .error fault) ∨
          last.answer = .ok [] ∧ (∀ page ∈ Exchange.pages front, page ≠ []) ∧
            ∃ documents, (fetchAll source state).1 = .ok documents ∧
              (documents.Pairwise fun a b => compareIds a.id b.id = .lt) ∧
              (documents.map Document.id).Nodup ∧
              ∀ id, id ∈ documents.map Document.id ↔
                ∃ page ∈ Exchange.pages front, id ∈ page.map Document.id) := by
  obtain ⟨log, result, later, hwalked⟩ := exists_walked source none state
  have horderly : ∀ exchange ∈ log, exchange.IsOrderly := by
    intro exchange hexchange page hpage
    obtain ⟨met, hmet⟩ := isOf_of_mem_log (hwalked.logged []) exchange hexchange
    exact h exchange.before met page (hmet ▸ hpage)
  obtain ⟨front, last, rfl, hfront, hfault, hpage⟩ := hwalked.isWalk.exists_last
  have hfetch : (fetchAll source state).1 = result.map assemble := by
    rw [fetchAll, pages, hwalked.plain]
  have hlogged : fetchAll source.logged (state, []) =
      (result.map assemble, later, front ++ [last]) := by
    rw [fetchAll, pages, hwalked.logged]
    rfl
  rw [hfetch, hlogged]
  refine ⟨front, last, later, rfl, hfront, ?_⟩
  cases hanswer : last.answer with
  | error fault => exact .inl ⟨fault, rfl, by rw [hfault fault hanswer]; rfl⟩
  | ok page =>
    obtain ⟨hstops, rfl⟩ := hpage page hanswer
    obtain ⟨hne, -, hdescends⟩ := hwalked.isWalk.descends_flatten horderly rfl
    have hlast := horderly last List.mem_concat_self page hanswer
    have hascends := ascends_assemble hdescends
    exact .inr ⟨congrArg Except.ok (eq_nil_of_stops hlast hstops), hne, _, rfl, hascends,
      nodup_of_ascends hascends, fun id => mem_map_id_assemble⟩

end History

/-- A document of which only the id and the content matter. -/
def note (id content : String) : Document :=
  ⟨id, none, ⟨"1", none, "ada"⟩, ⟨0, 0⟩, none, content, [], []⟩

namespace History

/-- Two documents share an id, and the walk comes to one of them. -/
theorem fetchAll_orderly_notes :
    let source := (Archive.ofDocuments "news" [note "9" "a", note "10" "b", note "9" "c"]).source
    source.IsOrderly ∧ ∃ front last documents,
      (fetchAll source.logged ((), [])).2.2 = front ++ [last] ∧ last.answer = .ok [] ∧
        (fetchAll source ()).1 = .ok documents ∧
        (documents.Pairwise fun a b => compareIds a.id b.id = .lt) ∧
        (documents.map Document.id).Nodup ∧
        ∀ id, id ∈ documents.map Document.id ↔
          ∃ page ∈ Exchange.pages front, id ∈ page.map Document.id := by
  intro source
  have hdescends := Archive.descends_ofDocuments "news" [note "9" "a", note "10" "b", note "9" "c"]
  have hsource : source.IsOrderly := Archive.isOrderly_source hdescends
  obtain ⟨front, last, later, hlog, -, hends⟩ := fetchAll_orderly hsource ()
  obtain ⟨history, hhistory, -⟩ := Archive.exists_fetchAll hdescends
  obtain ⟨fault, -, hfault⟩ | ⟨hlast, -, documents, hdocuments, hascends, hnodup, hids⟩ := hends
  · rw [show fetchAll source () = _ from hhistory] at hfault
    cases hfault
  · exact ⟨hsource, front, last, documents, by rw [hlog], hlast, hdocuments, hascends, hnodup, hids⟩

end History

end Gazette
