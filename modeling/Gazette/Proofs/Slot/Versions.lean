import Gazette.Proofs.Index.Words
import Gazette.Proofs.Slot.Coalescing

/-!
# Versions of an index

The version of a slot counts the successful walks, and its index is that of the latest one. Nothing
but a successful walk changes either, and snapshots stay what the index was when they were taken. A
word that is counted up with the walks is the version as long as this fits in a word
(`Reachable.version?_eq`).
-/

namespace Gazette.Slot

/-- Every snapshot is the index of the latest successful walk before it. -/
def Log.SnapshotsHold (log : Log) : Prop :=
  ∀ later snapshot earlier, log = later ++ .looked snapshot :: earlier → snapshot = index earlier

/-- Every successful walk has built its index from a history. -/
def Log.BuildsHold (log : Log) : Prop :=
  ∀ id built, .ended id (.ok built) ∈ log → World.IsBuilt (.ok built)

theorem Log.SnapshotsHold.cons {log : Log} (h : SnapshotsHold log) {entry : Entry}
    (hentry : ∀ snapshot, entry = .looked snapshot → snapshot = index log) :
    SnapshotsHold (entry :: log) := by
  intro later snapshot earlier hlog
  cases later with
  | nil =>
    obtain ⟨rfl, rfl⟩ := List.cons.inj hlog
    exact hentry snapshot rfl
  | cons first later => exact h later snapshot earlier (List.cons.inj hlog).2

theorem Log.BuildsHold.cons {log : Log} (h : BuildsHold log) {entry : Entry}
    (hentry : ∀ id built, entry = .ended id (.ok built) → World.IsBuilt (.ok built)) :
    BuildsHold (entry :: log) := by
  intro id built hmem
  rcases List.mem_cons.mp hmem with heq | hmem
  · exact hentry id built heq.symm
  · exact h id built hmem

/-! ### Versions as words -/

/-- The version after what has happened, counted in a word from each successful walk to the next. There
is none if a count does not fit in a word. -/
def Log.version? : Log → Option UInt64
  | [] => some 0
  | .ended _ (.ok _) :: earlier => (version? earlier).bind (Word.plus? · 1)
  | .ended _ (.error _) :: earlier | .called _ :: earlier | .started _ :: earlier
  | .answered _ _ :: earlier | .dropped _ :: earlier | .looked _ :: earlier => version? earlier

theorem Log.map_toNat_version? (log : Log) :
    (version? log).map UInt64.toNat =
      if successes log ≤ Paging.largest then some (successes log) else none := by
  induction log with
  | nil => rfl
  | cons entry earlier ih =>
    cases entry with
    | ended id result =>
      cases result with
      | ok built =>
        rw [version?, successes]
        by_cases hfits : successes earlier ≤ Paging.largest
        · rw [if_pos hfits] at ih
          obtain ⟨version, hversion, hvalue⟩ := Option.map_eq_some_iff.mp ih
          rw [hversion, Option.bind_some, Word.map_toNat_plus?, hvalue]
          rfl
        · rw [if_neg hfits] at ih
          rw [Option.map_eq_none_iff.mp ih, if_neg (by omega)]
          rfl
      | error fault => exact ih
    | called id => exact ih
    | started id => exact ih
    | answered id answer => exact ih
    | dropped id => exact ih
    | looked index => exact ih

namespace World

variable {channel : String} {world : World}

/-! ### The index of a slot -/

/-- The slot shows the index of the latest successful walk. -/
def Shows (slot : Slot) (log : Log) : Prop :=
  slot.index = Log.index log ∧ slot.version = Log.successes log

theorem Shows.settle {slot : Slot} {log : Log} (h : Shows slot log) (id : Nat) (result : Result) :
    Shows (slot.settle result) (.ended id result :: log) := by
  obtain ⟨hindex, hversion⟩ := h
  cases result with
  | ok built =>
    refine ⟨?_, congrArg (· + 1) hversion⟩
    change { built with version := slot.version + 1 } = _
    rw [hversion]
    rfl
  | error fault => exact ⟨hindex, hversion⟩

theorem Reachable.shows (h : Reachable channel world) : Shows world.slot world.log := by
  induction h using Reachable.rec_steps with
  | new => exact ⟨rfl, rfl⟩
  | queue _ ih _ _ => exact ih
  | begin _ ih _ _ => exact ih
  | again _ ih _ _ _ _ => exact ih.settle _ _
  | stop _ ih _ _ _ _ => exact ih.settle _ _
  | drop _ ih _ _ => exact ih
  | look _ ih _ => exact ih

/-- A version that is counted in words is the version of the slot, and there is none if and only if the
version is larger than any word. -/
theorem Reachable.version?_eq (h : Reachable channel world) :
    (Log.version? world.log).map UInt64.toNat =
      if world.slot.version ≤ Paging.largest then some world.slot.version else none := by
  rw [h.shows.2, Log.map_toNat_version?]

theorem Reachable.snapshotsHold (h : Reachable channel world) : Log.SnapshotsHold world.log := by
  induction h using Reachable.rec_steps with
  | new => exact fun later snapshot earlier hlog => by simp [World.new] at hlog
  | queue _ ih _ _ => exact .cons (.cons ih fun _ => Entry.noConfusion) fun _ => Entry.noConfusion
  | begin _ ih _ _ => exact .cons (.cons ih fun _ => Entry.noConfusion) fun _ => Entry.noConfusion
  | again _ ih _ _ _ _ => exact .cons (.cons ih fun _ => Entry.noConfusion) fun _ => Entry.noConfusion
  | stop _ ih _ _ _ _ => exact .cons (.cons ih fun _ => Entry.noConfusion) fun _ => Entry.noConfusion
  | drop _ ih _ _ => exact .cons ih fun _ => Entry.noConfusion
  | look h ih _ =>
    refine ih.cons fun snapshot heq => ?_
    cases heq
    exact h.shows.1

theorem Reachable.buildsHold (h : Reachable channel world) : Log.BuildsHold world.log := by
  induction h using Reachable.rec_steps with
  | new => exact fun _ _ hmem => nomatch hmem
  | queue _ ih _ _ => exact .cons (.cons ih fun _ _ => Entry.noConfusion) fun _ _ => Entry.noConfusion
  | begin _ ih _ _ => exact .cons (.cons ih fun _ _ => Entry.noConfusion) fun _ _ => Entry.noConfusion
  | again _ ih _ hresult _ _ =>
    refine .cons (.cons ih fun id built heq => ?_) fun _ _ => Entry.noConfusion
    cases heq
    exact hresult
  | stop _ ih _ hresult _ _ =>
    refine .cons (.cons ih fun id built heq => ?_) fun _ _ => Entry.noConfusion
    cases heq
    exact hresult
  | drop _ ih _ _ => exact .cons ih fun _ _ => Entry.noConfusion
  | look _ ih _ => exact .cons ih fun _ _ => Entry.noConfusion

theorem index_call (world : World) : world.call.slot.index = world.slot.index := by
  rw [call_eq]
  split <;> rfl

theorem index_finish_error (world : World) (id : Nat) (fault : HistoryFault) :
    (world.finish id (.error fault)).slot.index = world.slot.index := by
  rw [finish_eq]
  split <;> rfl

/-- At most one walk is in flight, and the lock is held exactly while one is. The version counts the
successful walks, and the index is the one that the latest of them has built. A call that comes, a
walk that fails and a call that is dropped change neither, and a snapshot is the index as it was. -/
theorem index_eq (h : Reachable channel world) :
    world.inFlight.length ≤ 1 ∧ (world.slot.running = true ↔ world.inFlight ≠ []) ∧
      world.slot.version = Log.successes world.log ∧
      world.slot.index = Log.index world.log ∧ Log.BuildsHold world.log ∧
      world.call.slot.index = world.slot.index ∧
      (∀ id fault, (world.finish id (.error fault)).slot.index = world.slot.index) ∧
      (∀ id, (world.drop id).slot.index = world.slot.index) ∧ Log.SnapshotsHold world.log :=
  ⟨h.length_inFlight_le, h.running_iff, h.shows.2, h.shows.1, h.buildsHold, index_call world,
    index_finish_error world, fun _ => rfl, h.snapshotsHold⟩

/-! ### A call that fails after a walk of its own -/

/-- What comes of a source that answers every request in one way. -/
theorem isBuilt_of_fetch (page : Except HistoryFault (List Document)) {result : Result}
    (h : (Index.build ⟨fun _ _ state => (page, state)⟩ Entities.empty.resolver ⟨.utc, []⟩ ()).1 =
      result) : IsBuilt result :=
  ⟨Unit, _, _, _, _, h⟩

theorem isBuilt_error (fault : HistoryFault) : IsBuilt (.error fault) := by
  refine isBuilt_of_fetch (.error fault) ?_
  rw [Index.build, History.fetchAll, History.pages, History.pagesFrom]
  rfl

theorem isBuilt_empty : IsBuilt (.ok .empty) := by
  have hdocuments : Index.ofDocuments Entities.empty.resolver ⟨.utc, []⟩ [] = .empty := by
    have hsort : Index.sortNewestFirst [] = [] := List.mergeSort_nil
    rw [Index.ofDocuments, List.filter_nil, hsort]
    rfl
  refine isBuilt_of_fetch (.ok []) ?_
  rw [Index.build, History.fetchAll, History.pages, History.pagesFrom]
  exact congrArg Except.ok hdocuments

/-- A call whose first walk succeeds while another call comes, and whose second walk fails. -/
def failsLate : World :=
  ((new "news").call.call.finish 0 (.ok .empty)).finish 0
    (.error ⟨"news", "gateway timeout"⟩)

theorem failsLate_eq : failsLate = ⟨⟨"news", ⟨1, [], []⟩, false, false⟩, 2, [],
    [.answered 0 (.error ⟨"news", "gateway timeout"⟩),
      .ended 0 (.error ⟨"news", "gateway timeout"⟩), .started 0, .ended 0 (.ok .empty),
      .answered 1 (.ok .queued), .called 1, .started 0, .called 0]⟩ := by
  rw [failsLate, call_new, call_eq, finish_eq, finish_eq]
  rfl

theorem reachable_failsLate : Reachable "news" failsLate := by
  have hcalls : Reachable "news" (new "news").call.call := .call (.call .new)
  have hfirst : Reachable "news" ((new "news").call.call.finish 0 (.ok .empty)) := by
    refine .finish hcalls ?_ isBuilt_empty
    rw [call_new, call_eq]
    exact List.mem_singleton.mpr rfl
  refine .finish hfirst ?_ (isBuilt_error _)
  rw [call_new, call_eq, finish_eq]
  exact List.mem_singleton.mpr rfl

theorem index_eq_failsLate :
    failsLate.slot.version = Log.successes failsLate.log ∧ failsLate.slot.version = 1 := by
  have hversion := (index_eq reachable_failsLate).2.2.1
  refine ⟨hversion, ?_⟩
  rw [failsLate_eq]
  rfl

/-- A call can have changed the index although it answers with a fault. -/
theorem exists_failed_call_changed :
    ∃ world fault, Reachable "news" world ∧ world.log.head? = some (.answered 0 (.error fault)) ∧
      world.slot.version ≠ (new "news").slot.version := by
  refine ⟨failsLate, ⟨"news", "gateway timeout"⟩, reachable_failsLate, ?_⟩
  rw [failsLate_eq]
  exact ⟨rfl, by decide⟩

end World

end Gazette.Slot
