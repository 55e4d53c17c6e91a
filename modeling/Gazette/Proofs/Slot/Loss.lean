import Gazette.Proofs.Slot.Coalescing

/-!
# Calls that are lost

A queued call counts on the running one, which may be dropped. Then the mark stays and nobody goes
around: the call is served only if another one comes. `waiting_iff_isLost` says that this is the
only way in which a call can wait while none is running.
-/

namespace Gazette.Slot

/-- The call was waiting when the running call was dropped, and no walk has begun since. -/
def Log.IsLost (id : Nat) (log : Log) : Prop :=
  ∃ later runner earlier, log = later ++ .dropped runner :: earlier ∧
    (∀ walker, .started walker ∉ later) ∧ id ∈ waiting earlier

namespace World

variable {channel : String} {world : World}

theorem mem_waiting_of_isLost {id : Nat} {log : Log} (h : Log.IsLost id log) :
    id ∈ Log.waiting log := by
  obtain ⟨later, runner, earlier, rfl, hlater, hid⟩ := h
  obtain ⟨between, before, rfl, hbetween⟩ := Log.mem_waiting_iff.mp hid
  refine Log.mem_waiting_iff.mpr ⟨later ++ .dropped runner :: between, before, by simp, ?_⟩
  intro walker hmem
  rcases List.mem_append.mp hmem with hmem | hmem
  · exact hlater walker hmem
  · rcases List.mem_cons.mp hmem with heq | hmem
    · cases heq
    · exact hbetween walker hmem

theorem isLost_looked {id : Nat} {log : Log} (h : Log.IsLost id log) (index : Index) :
    Log.IsLost id (.looked index :: log) := by
  obtain ⟨later, runner, earlier, rfl, hlater, hid⟩ := h
  refine ⟨.looked index :: later, runner, earlier, rfl, fun walker hmem => ?_, hid⟩
  rcases List.mem_cons.mp hmem with heq | hmem
  · cases heq
  · exact hlater walker hmem

/-- While no walk is in flight, a waiting call has been lost. -/
theorem Reachable.isLost (h : Reachable channel world) (hidle : world.inFlight = []) {id : Nat}
    (hid : id ∈ Log.waiting world.log) : Log.IsLost id world.log := by
  induction h using Reachable.rec_steps with
  | new => cases hid
  | queue h _ hrunning _ => exact absurd hidle (h.running_iff.mp hrunning)
  | begin | again => exact absurd hidle (List.cons_ne_nil _ _)
  | @stop world _ _ h _ _ _ hpending _ =>
    have hserved : Log.waiting world.log = [] :=
      Log.waiting_eq_nil_iff.mpr (h.pending_eq_false_iff.mp hpending)
    have hmem : id ∈ Log.waiting world.log := hid
    rw [hserved] at hmem
    cases hmem
  | drop _ _ _ _ => exact ⟨[], _, _, rfl, fun _ => List.not_mem_nil, hid⟩
  | look _ ih _ => exact isLost_looked (ih hidle hid) _

/-- A call that waits has been told that it is queued. -/
theorem Reachable.answered_of_waiting (h : Reachable channel world) {id : Nat}
    (hid : id ∈ Log.waiting world.log) : .answered id (.ok .queued) ∈ world.log := by
  induction h using Reachable.rec_steps with
  | new => cases hid
  | queue _ ih _ _ =>
    rcases List.mem_cons.mp hid with rfl | hid
    · exact List.mem_cons_self
    · exact List.mem_cons_of_mem _ (List.mem_cons_of_mem _ (ih hid))
  | begin | again => cases hid
  | stop _ ih _ _ _ _ => exact List.mem_cons_of_mem _ (List.mem_cons_of_mem _ (ih hid))
  | drop _ ih _ _ => exact List.mem_cons_of_mem _ (ih hid)
  | look _ ih _ => exact List.mem_cons_of_mem _ (ih hid)

/-- While no call is running, the mark is clear exactly if each call has had a walk begun after it.
The calls that have not are those that were waiting when the running call was dropped, with no walk
begun since, and they all have been told that they are queued. -/
theorem waiting_iff_isLost (h : Reachable channel world) (hidle : world.slot.running = false) :
    (world.slot.pending = false ↔ Log.AllServed world.log) ∧
      (Log.AllServed world.log ↔ ∀ id, ¬Log.IsLost id world.log) ∧
      ∀ id, (id ∈ Log.waiting world.log ↔ Log.IsLost id world.log) ∧
        (Log.IsLost id world.log → .answered id (.ok .queued) ∈ world.log) := by
  have hflight : world.inFlight = [] := by
    rcases h.inFlight_eq with ⟨hnone, -⟩ | ⟨id, -, hrunning⟩
    · exact hnone
    · rw [hidle] at hrunning
      cases hrunning
  have hlost : ∀ id, id ∈ Log.waiting world.log ↔ Log.IsLost id world.log :=
    fun id => ⟨h.isLost hflight, mem_waiting_of_isLost⟩
  refine ⟨h.pending_eq_false_iff, ?_, fun id => ⟨hlost id, fun hid => ?_⟩⟩
  · rw [← Log.waiting_eq_nil_iff, List.eq_nil_iff_forall_not_mem]
    exact forall_congr' fun id => not_congr (hlost id)
  · exact h.answered_of_waiting ((hlost id).mpr hid)

/-- One call walks, another one is queued, and the first is dropped. -/
theorem drop_call_call_new :
    (new "news").call.call.drop 0 = ⟨⟨"news", .empty, true, false⟩, 2, [],
      [.dropped 0, .answered 1 (.ok .queued), .called 1, .started 0, .called 0]⟩ := by
  rw [call_new, call_eq]
  rfl

theorem reachable_drop_call_call_new : Reachable "news" ((new "news").call.call.drop 0) := by
  refine .drop (.call (.call .new)) ?_
  rw [call_new, call_eq]
  exact List.mem_singleton.mpr rfl

theorem waiting_iff_isLost_dropped :
    ((new "news").call.call.drop 0).slot.running = false ∧
      Log.IsLost 1 ((new "news").call.call.drop 0).log := by
  have hidle : ((new "news").call.call.drop 0).slot.running = false := by
    rw [drop_call_call_new]
  have hwaiting : 1 ∈ Log.waiting ((new "news").call.call.drop 0).log := by
    rw [drop_call_call_new]
    exact List.mem_singleton.mpr rfl
  have hlost := ((waiting_iff_isLost reachable_drop_call_call_new hidle).2.2 1).1
  exact ⟨hidle, hlost.mp hwaiting⟩

/-- No call is running, but one that was queued has had no walk begun after it. -/
theorem exists_queued_not_served :
    ∃ world, Reachable "news" world ∧ world.slot.running = false ∧ world.slot.pending = true ∧
      .answered 1 (.ok .queued) ∈ world.log ∧ ¬Log.AllServed world.log := by
  refine ⟨_, reachable_drop_call_call_new, ?_⟩
  rw [drop_call_call_new]
  refine ⟨rfl, rfl, by simp, fun hserved => ?_⟩
  have hwaiting := Log.waiting_eq_nil_iff.mpr hserved
  cases hwaiting

end World

end Gazette.Slot
