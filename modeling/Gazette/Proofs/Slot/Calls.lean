import Gazette.Proofs.Slot.Coalescing

/-!
# Whole calls are runs

`Slot.call` takes a whole call at once, with the calls that come during each of its walks. What it
reports is what some run of the slot comes to (`exists_run_call`), so all that holds of runs holds
of it.
-/

namespace Gazette.Slot.World

variable {channel : String} {world : World}

/-- Some calls come, one after the other. -/
def arrive : (count : Nat) → World → World
  | 0, world => world
  | count + 1, world => arrive count world.call

theorem slot_call (world : World) : world.call.slot = world.slot.request := by
  rw [call_eq, request]
  split <;> rfl

/-- The running call does not notice the calls that come, but for the mark. -/
structure Keeps (world next : World) : Prop where
  inFlight : next.inFlight = world.inFlight
  running : next.slot.running = true
  walks : ∀ id, Log.walks id next.log = Log.walks id world.log

theorem keeps_arrive (count : Nat) (hrunning : world.slot.running = true) :
    Keeps world (arrive count world) := by
  induction count generalizing world with
  | zero => exact ⟨rfl, hrunning, fun _ => rfl⟩
  | succ count ih =>
    have hcall : world.call = world.queue := (call_eq world).trans (if_pos hrunning)
    have hkeeps : Keeps world.queue (arrive count world.queue) := ih hrunning
    rw [arrive, hcall]
    exact ⟨hkeeps.inFlight, hkeeps.running, hkeeps.walks⟩

theorem Reachable.arrive (h : Reachable channel world) (count : Nat) :
    Reachable channel (arrive count world) := by
  induction count generalizing world with
  | zero => exact h
  | succ count ih => exact ih h.call

theorem slot_arrive (count : Nat) (world : World) :
    (arrive count world).slot = (Slot.arrive count world.slot).getLast?.getD world.slot := by
  induction count generalizing world with
  | zero => rfl
  | succ count ih =>
    rw [arrive, ih, slot_call, Slot.arrive, List.getLast?_cons]
    rfl

/-- What a run has to come to that reports like a whole call. -/
structure Reports (channel : String) (id : Nat) (report : Report) (next : World) : Prop where
  reachable : Reachable channel next
  slot : next.slot = report.slot
  answered : next.log.head? = some (.answered id report.outcome)
  walks : Log.walks id next.log = report.walks

/-- The induction is on the walks that are left; the running call has just begun one of them. -/
theorem exists_run_serve {last : Result} (hlast : IsBuilt last) {walks : List Walk}
    (hwalks : ∀ walk ∈ walks, IsBuilt walk.result) {number id : Nat}
    (h : Reachable channel world) (hid : world.inFlight = [id]) (hclear : world.slot.pending = false)
    (hnumber : Log.walks id world.log = number + 1) :
    ∃ next, Reports channel id (serve last walks number world.slot) next := by
  induction walks generalizing world number with
  | nil =>
    have hmem : id ∈ world.inFlight := hid ▸ List.mem_singleton.mpr rfl
    have hstop : world.finish id last = world.stop id last :=
      (finish_eq world id last).trans (if_neg (by simp [hclear]))
    have hreachable := h.finish hmem hlast
    rw [hstop] at hreachable
    exact ⟨_, hreachable, rfl, rfl, hnumber⟩
  | cons walk rest ih =>
    obtain ⟨hbuilt, hrest⟩ := List.forall_mem_cons.mp hwalks
    have hne : world.inFlight ≠ [] := hid ▸ List.cons_ne_nil id []
    have hkeeps := keeps_arrive walk.arrivals (h.running_iff.mpr hne)
    have hslot := slot_arrive walk.arrivals world
    have harrive := h.arrive walk.arrivals
    generalize arrive walk.arrivals world = middle at hkeeps hslot harrive
    have hmiddle : middle.inFlight = [id] := hkeeps.inFlight.trans hid
    have hmem : id ∈ middle.inFlight := hmiddle ▸ List.mem_singleton.mpr rfl
    have hreachable := harrive.finish hmem hbuilt
    rw [finish_eq, ← settle_pending middle.slot walk.result] at hreachable
    rw [serve, ← hslot, Slot.finish]
    by_cases hpending : (middle.slot.settle walk.result).pending = true
    · rw [if_pos hpending] at hreachable ⊢
      have hone : (middle.again id walk.result).inFlight = [id] := by
        rw [again, hmiddle, filter_singleton]
      have hcount : Log.walks id (middle.again id walk.result).log = number + 1 + 1 := by
        change Log.walks id middle.log + (if id = id then 1 else 0) = number + 1 + 1
        rw [if_pos rfl, hkeeps.walks, hnumber]
      obtain ⟨next, hnext⟩ := ih hrest hreachable hone rfl hcount
      exact ⟨next, hnext.reachable, hnext.slot, hnext.answered, hnext.walks⟩
    · rw [if_neg hpending] at hreachable ⊢
      exact ⟨_, hreachable, rfl, rfl, (hkeeps.walks id).trans hnumber⟩

/-- Whatever comes of a whole call while none is running comes of some run. -/
theorem exists_run_call (h : Reachable channel world) (hidle : world.slot.running = false)
    {walks : List Walk} (hwalks : ∀ walk ∈ walks, IsBuilt walk.result) {last : Result}
    (hlast : IsBuilt last) :
    ∃ next, Reports channel world.made (world.slot.call walks last) next := by
  have hbegin : world.call = world.begin := (call_eq world).trans (if_neg (by simp [hidle]))
  have hreachable := h.call
  rw [hbegin] at hreachable
  have hflight : world.begin.inFlight = [world.made] := by
    rcases hreachable.inFlight_eq with ⟨hnone, -⟩ | ⟨id, hone, -⟩
    · cases hnone
    · obtain ⟨rfl, hrest⟩ := List.cons.inj hone
      exact hone
  have hcount : Log.walks world.made world.begin.log = 0 + 1 := by
    change Log.walks world.made world.log + (if world.made = world.made then 1 else 0) = 0 + 1
    rw [if_pos rfl, (h.counted.fresh world.made (Nat.le_refl _)).1]
  have hslot : world.begin.slot = world.slot.request := hbegin ▸ slot_call world
  rw [Slot.call, ← hslot]
  exact exists_run_serve hlast hwalks hreachable hflight rfl hcount

end Gazette.Slot.World
