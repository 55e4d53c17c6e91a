import Gazette.Proofs.Document.Requests

/-!
# Sources that answer alike

A walk knows of its source what the source answers, and nothing else. If two sources answer alike in
states that correspond to each other, and come to such states again, then walks over them come to the
same (`fetchAll_alike`). So it makes no difference to a walk that its requests are written down
(`exists_fetchAll_logged`).
-/

namespace Gazette.History

variable {σ τ : Type}

/-- Whether two sources answer a request in the same way, and are in related states behind it. -/
structure Alike (R : σ → τ → Prop) (a : Source σ) (b : Source τ) (before : Option String) (s : σ)
    (t : τ) : Prop where
  answer : (a.fetch before pageLimit s).1 = (b.fetch before pageLimit t).1
  states : R (a.fetch before pageLimit s).2 (b.fetch before pageLimit t).2

/-- Whether two sources answer alike, once a walk has read its first page. -/
def GoAlike (R : σ → τ → Prop) (a : Source σ) (b : Source τ) : Prop :=
  ∀ before s t, R s t → Alike R a b (some before) s t

variable {R : σ → τ → Prop} {a : Source σ} {b : Source τ}

/-- The recursion is that of the walks, which ask for the same all the time. -/
theorem pagesFrom_alike (hgo : GoAlike R a b) {before : Option String} {s : σ} {t : τ}
    (hfirst : Alike R a b before s t) :
    (pagesFrom a before s).1 = (pagesFrom b before t).1 ∧
      R (pagesFrom a before s).2 (pagesFrom b before t).2 := by
  obtain ⟨hanswer, hstates⟩ := hfirst
  cases ha : a.fetch before pageLimit s with
  | mk answer s' =>
    cases hb : b.fetch before pageLimit t with
    | mk answer' t' =>
      rw [ha, hb] at hanswer hstates
      obtain rfl : answer = answer' := hanswer
      cases answer with
      | error fault =>
        rw [pagesFrom_of_error ha, pagesFrom_of_error hb]
        exact ⟨rfl, hstates⟩
      | ok page =>
        by_cases hadvances : ∃ oldest, oldest? page = some oldest ∧ Advances oldest before
        · obtain ⟨oldest, holdest, hadvances⟩ := hadvances
          obtain ⟨hresult, hlater⟩ := pagesFrom_alike hgo (hgo oldest s' t' hstates)
          rw [pagesFrom_of_advances ha holdest hadvances,
            pagesFrom_of_advances hb holdest hadvances, hresult]
          exact ⟨rfl, hlater⟩
        · have hstops : Stops before page := fun oldest holdest h => hadvances ⟨oldest, holdest, h⟩
          rw [pagesFrom_of_stops ha hstops, pagesFrom_of_stops hb hstops]
          exact ⟨rfl, hstates⟩
termination_by remaining before
decreasing_by exact remaining_lt ‹_›

theorem fetchAll_alike (hgo : GoAlike R a b) {s : σ} {t : τ} (hfirst : Alike R a b none s t) :
    (fetchAll a s).1 = (fetchAll b t).1 ∧ R (fetchAll a s).2 (fetchAll b t).2 := by
  obtain ⟨hresult, hlater⟩ := pagesFrom_alike hgo hfirst
  exact ⟨congrArg (Except.map assemble) hresult, hlater⟩

/-! ### Requests written down -/

/-- A walk over a source that writes down its requests is one over the source. -/
theorem exists_fetchAll_logged (source : Source σ) (state : σ) (earlier : List Exchange) :
    ∃ log, fetchAll source.logged (state, earlier) =
      ((fetchAll source state).1, (fetchAll source state).2, log) := by
  have halike : ∀ before (s : σ × List Exchange) t, s.1 = t →
      Alike (fun (s : σ × List Exchange) t => s.1 = t) source.logged source before s t := by
    rintro before s t rfl
    exact ⟨rfl, rfl⟩
  obtain ⟨hresult, hlater⟩ :=
    fetchAll_alike (fun before => halike (some before)) (halike none (state, earlier) state rfl)
  exact ⟨_, Prod.ext hresult (Prod.ext hlater rfl)⟩

end Gazette.History
