import Gazette.Proofs.Document.Walk
import Mathlib.Logic.Function.Iterate

/-!
# Requests of a walk

A walk ends whatever its source answers, and be it something else each time. What it asks for is seen
by writing down every request to the source with its answer; `IsWalk` says which exchanges a walk can
have, and `exists_walked` that every walk has such ones, as many as it has rounds. Since each request
is for what is older than the one before, in an order without infinite descent, there is a last one.
-/

namespace Gazette

/-- A request for a page, and what the source answered. -/
structure Exchange where
  before : Option String
  answer : Except HistoryFault (List Document)

/-- The pages that were answered. -/
def Exchange.pages (log : List Exchange) : List (List Document) :=
  log.filterMap fun exchange => exchange.answer.toOption

/-- The source, with every request to it written down behind the earlier ones. -/
def Source.logged {σ : Type} (source : Source σ) : Source (σ × List Exchange) where
  fetch before limit state :=
    let answered := source.fetch before limit state.1
    (answered.1, answered.2, state.2 ++ [⟨before, answered.1⟩])

theorem Source.fetch_logged {σ : Type} {source : Source σ} {before : Option String} {limit : Nat}
    {state later : σ} {answer : Except HistoryFault (List Document)}
    (h : source.fetch before limit state = (answer, later)) (earlier : List Exchange) :
    source.logged.fetch before limit (state, earlier) =
      (answer, later, earlier ++ [⟨before, answer⟩]) := by
  change ((source.fetch before limit state).1, (source.fetch before limit state).2,
    earlier ++ [⟨before, (source.fetch before limit state).1⟩]) = _
  rw [h]

namespace History

variable {σ : Type}

/-! ### Rounds -/

/-- Where a walk stands: it asks for what is older than `before`, with some pages read so far, or it
has ended. -/
inductive Stage (σ : Type) where
  | asks (before : Option String) (pages : List (List Document)) (state : σ)
  | ended (result : Except HistoryFault (List Document)) (state : σ)

/-- One round of a walk: a request, and what is made of its answer. -/
def Stage.next (source : Source σ) : Stage σ → Stage σ
  | ended result state => ended result state
  | asks before pages state =>
    match source.fetch before pageLimit state with
    | (.error fault, later) => ended (.error fault) later
    | (.ok page, later) =>
      match oldest? page with
      | none => ended (.ok (assemble pages)) later
      | some oldest =>
        if Advances oldest before then asks (some oldest) (pages ++ [page]) later
        else ended (.ok (assemble pages)) later

/-- Whether a page ends the walk that asked for what is older than `before`: it is empty, or does not
go back. -/
def Stops (before : Option String) (page : List Document) : Prop :=
  ∀ oldest, oldest? page = some oldest → ¬Advances oldest before

section

variable {source : Source σ} {before : Option String} {state later : σ} {fault : HistoryFault}
  {page : List Document} {oldest : String}

theorem pagesFrom_of_error (h : source.fetch before pageLimit state = (.error fault, later)) :
    pagesFrom source before state = (.error fault, later) := by
  rw [pagesFrom, h]

theorem pagesFrom_of_stops (h : source.fetch before pageLimit state = (.ok page, later))
    (hstops : Stops before page) : pagesFrom source before state = (.ok [], later) := by
  rw [pagesFrom, h]
  cases holdest : oldest? page with
  | none => simp only [holdest]
  | some oldest => simp only [holdest, dif_neg (hstops oldest holdest)]

theorem Stage.next_of_error (h : source.fetch before pageLimit state = (.error fault, later))
    (pages : List (List Document)) :
    next source (asks before pages state) = ended (.error fault) later := by
  rw [next, h]

theorem Stage.next_of_stops (h : source.fetch before pageLimit state = (.ok page, later))
    (hstops : Stops before page) (pages : List (List Document)) :
    next source (asks before pages state) = ended (.ok (assemble pages)) later := by
  rw [next, h]
  cases holdest : oldest? page with
  | none => simp only [holdest]
  | some oldest => simp only [holdest, if_neg (hstops oldest holdest)]

theorem Stage.next_of_advances (h : source.fetch before pageLimit state = (.ok page, later))
    (holdest : oldest? page = some oldest) (hadvances : Advances oldest before)
    (pages : List (List Document)) :
    next source (asks before pages state) = asks (some oldest) (pages ++ [page]) later := by
  rw [next, h]
  simp only [holdest, if_pos hadvances]

end

/-! ### Exchanges -/

/-- The exchanges of a walk that goes on from `before`, and the pages it comes to. -/
inductive IsWalk : Option String → List Exchange → Except HistoryFault (List (List Document)) → Prop
    where
  | failed (before : Option String) (fault : HistoryFault) :
    IsWalk before [⟨before, .error fault⟩] (.error fault)
  | stopped {before : Option String} {page : List Document} (h : Stops before page) :
    IsWalk before [⟨before, .ok page⟩] (.ok [])
  | further {before : Option String} {page : List Document} {oldest : String}
      {log : List Exchange} {result : Except HistoryFault (List (List Document))}
      (holdest : oldest? page = some oldest) (hadvances : Advances oldest before)
      (hrest : IsWalk (some oldest) log result) :
    IsWalk before (⟨before, .ok page⟩ :: log) (result.map (page :: ·))

/-- What is known of a walk from some place on: its exchanges are written down by the source that
logs them, and the rounds that it takes are as many. -/
structure Walked (source : Source σ) (before : Option String) (state : σ) (log : List Exchange)
    (result : Except HistoryFault (List (List Document))) (later : σ) : Prop where
  isWalk : IsWalk before log result
  plain : pagesFrom source before state = (result, later)
  logged : ∀ earlier, pagesFrom source.logged before (state, earlier) =
    (result, later, earlier ++ log)
  rounds : ∀ pages earlier, (Stage.next source.logged)^[log.length]
      (.asks before pages (state, earlier)) =
    .ended (result.map fun rest => assemble (pages ++ rest)) (later, earlier ++ log)

/-- Every walk has its exchanges. The recursion is that of the walk. -/
theorem exists_walked (source : Source σ) (before : Option String) (state : σ) :
    ∃ log result later, Walked source before state log result later := by
  cases hfetch : source.fetch before pageLimit state with
  | mk answer later =>
    have hlogged := fun earlier => Source.fetch_logged hfetch earlier
    cases answer with
    | error fault =>
      exact ⟨[⟨before, .error fault⟩], .error fault, later,
        { isWalk := .failed before fault
          plain := pagesFrom_of_error hfetch
          logged := fun earlier => pagesFrom_of_error (hlogged earlier)
          rounds := fun pages earlier => Stage.next_of_error (hlogged earlier) pages }⟩
    | ok page =>
      by_cases hadvances : ∃ oldest, oldest? page = some oldest ∧ Advances oldest before
      · obtain ⟨oldest, holdest, hadvances⟩ := hadvances
        obtain ⟨log, result, last, hrest⟩ := exists_walked source (some oldest) later
        refine ⟨⟨before, .ok page⟩ :: log, result.map (page :: ·), last, ?_, ?_, fun earlier => ?_,
          fun pages earlier => ?_⟩
        · exact .further holdest hadvances hrest.isWalk
        · rw [pagesFrom_of_advances hfetch holdest hadvances, hrest.plain]
        · rw [pagesFrom_of_advances (hlogged earlier) holdest hadvances, hrest.logged,
            List.append_assoc]
          rfl
        · rw [List.length_cons, Function.iterate_succ_apply,
            Stage.next_of_advances (hlogged earlier) holdest hadvances, hrest.rounds,
            List.append_assoc]
          cases result with
          | error fault => rfl
          | ok rest => simp [Except.map]
      · have hstops : Stops before page := fun oldest holdest h => hadvances ⟨oldest, holdest, h⟩
        exact ⟨[⟨before, .ok page⟩], .ok [], later,
          { isWalk := .stopped hstops
            plain := pagesFrom_of_stops hfetch hstops
            logged := fun earlier => pagesFrom_of_stops (hlogged earlier) hstops
            rounds := fun pages earlier => by
              rw [Except.map, List.append_nil]
              exact Stage.next_of_stops (hlogged earlier) hstops pages }⟩
termination_by remaining before
decreasing_by exact remaining_lt ‹_›

/-! ### What the exchanges of a walk are -/

namespace IsWalk

variable {before : Option String} {log : List Exchange}
  {result : Except HistoryFault (List (List Document))}

/-- Each request is for what is older than the one before. -/
theorem descends (h : IsWalk before log result) :
    ∃ ids : List String, log.map Exchange.before = before :: ids.map some ∧
      (∀ id ∈ ids, Advances id before) ∧ ids.Pairwise fun a b => compareIds b a = .lt := by
  induction h with
  | failed before fault | stopped h =>
    exact ⟨[], rfl, fun _ hmem => absurd hmem List.not_mem_nil, .nil⟩
  | @further before page oldest log result holdest hadvances hrest ih =>
    obtain ⟨ids, hids, hold, hpairwise⟩ := ih
    refine ⟨oldest :: ids, by rw [List.map_cons, hids]; rfl, ?_, .cons hold hpairwise⟩
    refine List.forall_mem_cons.mpr ⟨hadvances, fun id hid => ?_⟩
    cases before with
    | none => trivial
    | some before =>
      exact compareIds_eq_lt_iff.mpr (Nat.lt_trans (compareIds_eq_lt_iff.mp (hold id hid))
        (compareIds_eq_lt_iff.mp hadvances))

/-- All exchanges but the last have been answered with a page, and the last decides how the walk
ends. -/
theorem exists_last (h : IsWalk before log result) :
    ∃ front last, log = front ++ [last] ∧ (∀ exchange ∈ front, ∃ page, exchange.answer = .ok page) ∧
      (∀ fault, last.answer = .error fault → result = .error fault) ∧
      ∀ page, last.answer = .ok page → Stops last.before page ∧ result = .ok (Exchange.pages front) := by
  induction h with
  | failed before fault =>
    refine ⟨[], _, rfl, fun _ hmem => absurd hmem List.not_mem_nil, ?_, fun page hpage => ?_⟩
    · rintro fault ⟨⟩
      rfl
    · cases hpage
  | @stopped before page h =>
    refine ⟨[], _, rfl, fun _ hmem => absurd hmem List.not_mem_nil, fun fault hfault => ?_, ?_⟩
    · cases hfault
    · rintro page ⟨⟩
      exact ⟨h, rfl⟩
  | @further before page oldest log result holdest hadvances hrest ih =>
    obtain ⟨front, last, rfl, hfront, hfault, hpage⟩ := ih
    refine ⟨⟨before, .ok page⟩ :: front, last, rfl, ?_, fun fault h => ?_, fun answer h => ?_⟩
    · exact List.forall_mem_cons.mpr ⟨⟨page, rfl⟩, hfront⟩
    · rw [hfault fault h]
      rfl
    · obtain ⟨hstops, hresult⟩ := hpage answer h
      rw [hresult]
      exact ⟨hstops, rfl⟩

end IsWalk

/-- A page that ends a walk is empty, or its oldest id is not below the one that was asked for. -/
theorem stops_iff {before : Option String} {page : List Document} :
    Stops before page ↔ page = [] ∨ ∃ previous oldest, before = some previous ∧
      oldest? page = some oldest ∧ compareIds oldest previous ≠ .lt := by
  constructor
  · intro h
    cases holdest : oldest? page with
    | none => exact .inl (oldest?_eq_none_iff.mp holdest)
    | some oldest =>
      cases before with
      | none => exact absurd trivial (h oldest holdest)
      | some previous => exact .inr ⟨previous, oldest, rfl, rfl, h oldest holdest⟩
  · rintro (rfl | ⟨previous, oldest, rfl, holdest, hge⟩) other hother
    · cases hother
    · rw [holdest] at hother
      cases hother
      exact hge

theorem exists_mem_assemble {pages : List (List Document)} {page : List Document}
    (hpage : page ∈ pages) {document : Document} (h : document ∈ page) :
    ∃ kept ∈ assemble pages, kept.id = document.id := by
  rw [assemble_eq]
  exact exists_mem_dropRepeats (List.mem_reverse.mpr (List.mem_flatten.mpr ⟨page, hpage, h⟩))

theorem exists_page_of_mem_assemble {pages : List (List Document)} {document : Document}
    (h : document ∈ assemble pages) : ∃ page ∈ pages, document ∈ page := by
  rw [assemble_eq] at h
  exact List.mem_flatten.mp (List.mem_reverse.mp ((dropRepeats_sublist _).mem h))

/-- Whatever a source answers, a walk over it ends after some number of rounds, each of which makes
one request. The first request is for the newest documents, and each later one for what is older than
the one before. All but the last are answered with a page. If the last one fails, the walk fails with
its fault; else its page is empty or does not go back, and the walk comes to documents of the pages
before it, among which is one for each id in them. -/
theorem fetchAll_stops (source : Source σ) (state : σ) :
    ∃ (front : List Exchange) (last : Exchange) (later : σ),
      fetchAll source.logged (state, []) =
          ((fetchAll source state).1, later, front ++ [last]) ∧
        (fetchAll source state).2 = later ∧
        (Stage.next source.logged)^[front.length + 1] (.asks none [] (state, [])) =
          .ended (fetchAll source state).1 (later, front ++ [last]) ∧
        (∃ ids : List String, (front ++ [last]).map Exchange.before = none :: ids.map some ∧
          ids.Pairwise fun a b => compareIds b a = .lt) ∧
        (∀ exchange ∈ front, ∃ page, exchange.answer = .ok page) ∧
        (∀ fault, last.answer = .error fault → (fetchAll source state).1 = .error fault) ∧
        ∀ page, last.answer = .ok page →
          (page = [] ∨ ∃ previous oldest, last.before = some previous ∧
            oldest? page = some oldest ∧ compareIds oldest previous ≠ .lt) ∧
          ∃ documents, (fetchAll source state).1 = .ok documents ∧
            (∀ met ∈ Exchange.pages front, ∀ document ∈ met,
              ∃ kept ∈ documents, kept.id = document.id) ∧
            ∀ document ∈ documents, ∃ met ∈ Exchange.pages front, document ∈ met := by
  obtain ⟨log, result, later, hwalked⟩ := exists_walked source none state
  obtain ⟨ids, hids, -, hpairwise⟩ := hwalked.isWalk.descends
  obtain ⟨front, last, rfl, hfront, hfault, hpage⟩ := hwalked.isWalk.exists_last
  have hfetch : fetchAll source state = (result.map assemble, later) := by
    rw [fetchAll, pages, hwalked.plain]
  have hlogged : fetchAll source.logged (state, []) =
      (result.map assemble, later, front ++ [last]) := by
    rw [fetchAll, pages, hwalked.logged]
    rfl
  have hrounds := hwalked.rounds [] []
  rw [List.length_append, List.length_singleton] at hrounds
  rw [hfetch, hlogged]
  refine ⟨front, last, later, rfl, rfl, hrounds, ⟨ids, hids, hpairwise⟩, hfront,
    fun fault h => ?_, fun page h => ?_⟩
  · rw [hfault fault h]
    rfl
  · obtain ⟨hstops, hresult⟩ := hpage page h
    refine ⟨stops_iff.mp hstops, assemble (Exchange.pages front), by rw [hresult]; rfl, ?_, ?_⟩
    · exact fun met hmet document hdocument => exists_mem_assemble hmet hdocument
    · exact fun document hdocument => exists_page_of_mem_assemble hdocument

end History

end Gazette
