import Gazette.Proofs.Slot.World

/-!
# Calls coalesce

At most one walk is in flight, and the lock is held exactly then; the mark is set exactly if a call
has come since the latest walk began. From this follows what a call costs: the running call makes
one walk, and one more for each of its walks during which others came (`coalesced`).
-/

namespace Gazette.Slot

namespace World

variable {channel : String} {world : World}

theorem settle_running (slot : Slot) (result : Result) :
    (slot.settle result).running = slot.running := by
  cases result <;> rfl

theorem filter_singleton (id : Nat) : [id].filter (· != id) = [] := by simp

/-! ### The lock and the mark -/

theorem inFlight_eq_singleton {id : Nat} (hid : id ∈ world.inFlight)
    (h : world.inFlight = [] ∧ world.slot.running = false ∨
      ∃ id, world.inFlight = [id] ∧ world.slot.running = true) :
    world.inFlight = [id] ∧ world.slot.running = true := by
  rcases h with ⟨hnone, -⟩ | ⟨other, hone, hrunning⟩
  · rw [hnone] at hid
    cases hid
  · rw [hone] at hid
    rw [List.mem_singleton.mp hid]
    exact ⟨hone, hrunning⟩

theorem Reachable.inFlight_eq (h : Reachable channel world) :
    world.inFlight = [] ∧ world.slot.running = false ∨
      ∃ id, world.inFlight = [id] ∧ world.slot.running = true := by
  induction h using Reachable.rec_steps with
  | new => exact .inl ⟨rfl, rfl⟩
  | queue _ ih _ => exact ih
  | look _ ih => exact ih
  | begin _ ih hfree =>
    rcases ih with ⟨hnone, -⟩ | ⟨id, -, hrunning⟩
    · exact .inr ⟨_, congrArg (_ :: ·) hnone, rfl⟩
    · rw [hfree] at hrunning
      cases hrunning
  | @again world id result _ ih hid _ _ _ =>
    obtain ⟨hone, hrunning⟩ := inFlight_eq_singleton hid ih
    refine .inr ⟨id, ?_, (settle_running world.slot result).trans hrunning⟩
    rw [again, hone, filter_singleton]
  | stop _ ih hid _ _ _ =>
    obtain ⟨hone, -⟩ := inFlight_eq_singleton hid ih
    refine .inl ⟨?_, rfl⟩
    rw [stop, hone, filter_singleton]
  | drop _ ih hid _ =>
    obtain ⟨hone, -⟩ := inFlight_eq_singleton hid ih
    refine .inl ⟨?_, rfl⟩
    rw [World.drop, leave, hone, filter_singleton]

theorem Reachable.running_iff (h : Reachable channel world) :
    world.slot.running = true ↔ world.inFlight ≠ [] := by
  rcases h.inFlight_eq with ⟨hnone, hfree⟩ | ⟨id, hone, hrunning⟩
  · simp [hnone, hfree]
  · simp [hone, hrunning]

theorem Reachable.length_inFlight_le (h : Reachable channel world) : world.inFlight.length ≤ 1 := by
  rcases h.inFlight_eq with ⟨hnone, -⟩ | ⟨id, hone, -⟩
  · simp [hnone]
  · simp [hone]

theorem Reachable.pending_iff (h : Reachable channel world) :
    world.slot.pending = true ↔ Log.waiting world.log ≠ [] := by
  induction h using Reachable.rec_steps with
  | new => exact ⟨fun hpending => (nomatch hpending), fun hne => absurd rfl hne⟩
  | queue => exact ⟨fun _ => List.cons_ne_nil _ _, fun _ => rfl⟩
  | begin => exact ⟨fun hpending => (nomatch hpending), fun hne => absurd rfl hne⟩
  | again => exact ⟨fun hpending => (nomatch hpending), fun hne => absurd rfl hne⟩
  | @stop world id result _ ih _ _ _ _ =>
    change (world.slot.settle result).pending = true ↔ _
    rw [settle_pending]
    exact ih
  | drop _ ih _ _ => exact ih
  | look _ ih _ => exact ih

theorem Reachable.pending_eq_false_iff (h : Reachable channel world) :
    world.slot.pending = false ↔ Log.AllServed world.log := by
  rw [← Log.waiting_eq_nil_iff, Bool.eq_false_iff, ne_eq, h.pending_iff, Classical.not_not]

/-! ### How often a call walks -/

/-- A call in flight has made one walk, and one for each busy one that has ended; a call that has
not come has made none. -/
structure Counted (world : World) : Prop where
  made : ∀ id ∈ world.inFlight, id < world.made
  walks : ∀ id ∈ world.inFlight,
    Log.walks id world.log = 1 + Log.busyWalks id world.log
  fresh : ∀ id, world.made ≤ id → Log.walks id world.log = 0 ∧ Log.busyWalks id world.log = 0

theorem Counted.begin (h : Counted world) : Counted world.begin where
  made := by
    intro id hid
    rcases List.mem_cons.mp hid with rfl | hid
    · exact Nat.lt_succ_self _
    · exact Nat.lt_succ_of_lt (h.made id hid)
  walks := by
    intro id hid
    change Log.walks id world.log + (if world.made = id then 1 else 0) =
      1 + Log.busyWalks id world.log
    rcases List.mem_cons.mp hid with rfl | hid
    · obtain ⟨hwalks, hbusy⟩ := h.fresh world.made (Nat.le_refl _)
      rw [hwalks, hbusy, if_pos rfl]
    · have hne : world.made ≠ id := Nat.ne_of_gt (h.made id hid)
      rw [if_neg hne, h.walks id hid]
      rfl
  fresh := by
    intro id hid
    have hlt : world.made < id := hid
    obtain ⟨hwalks, hbusy⟩ := h.fresh id (Nat.le_of_lt hlt)
    refine ⟨?_, hbusy⟩
    change Log.walks id world.log + (if world.made = id then 1 else 0) = 0
    rw [hwalks, if_neg (Nat.ne_of_lt hlt)]

theorem mem_leave {id other : Nat} {inFlight : List Nat}
    (h : other ∈ inFlight.filter (· != id)) : other ∈ inFlight ∧ id ≠ other := by
  obtain ⟨hmem, hne⟩ := List.mem_filter.mp h
  exact ⟨hmem, fun heq => by simp [heq] at hne⟩

/-- The end of a walk counts for its own call only. -/
theorem busyWalks_ended_of_ne {id other : Nat} (h : id ≠ other) (result : Result) (log : Log) :
    Log.busyWalks other (.ended id result :: log) = Log.busyWalks other log := by
  rw [Log.busyWalks, if_neg (fun hand => h hand.1), Nat.add_zero]

theorem Counted.again (h : Counted world) {id : Nat} (hid : id ∈ world.inFlight) (result : Result)
    (hwaiting : Log.waiting world.log ≠ []) : Counted (world.again id result) where
  made := by
    intro other hother
    rcases List.mem_cons.mp hother with rfl | hother
    · exact h.made other hid
    · exact h.made other (mem_leave hother).1
  walks := by
    intro other hother
    change Log.walks other world.log + (if id = other then 1 else 0) =
      1 + Log.busyWalks other (.ended id result :: world.log)
    rcases List.mem_cons.mp hother with rfl | hother
    · rw [Log.busyWalks, if_pos rfl, if_pos ⟨rfl, hwaiting⟩, h.walks other hid]
      omega
    · obtain ⟨hmem, hne⟩ := mem_leave hother
      rw [busyWalks_ended_of_ne hne, if_neg hne, h.walks other hmem]
      rfl
  fresh := by
    intro other hother
    have hne : id ≠ other := Nat.ne_of_lt (Nat.lt_of_lt_of_le (h.made id hid) hother)
    obtain ⟨hwalks, hbusy⟩ := h.fresh other hother
    change Log.walks other world.log + (if id = other then 1 else 0) = 0 ∧
      Log.busyWalks other (.ended id result :: world.log) = 0
    rw [busyWalks_ended_of_ne hne, if_neg hne]
    exact ⟨hwalks, hbusy⟩

theorem Counted.stop (h : Counted world) {id : Nat} (hid : id ∈ world.inFlight) (result : Result) :
    Counted (world.stop id result) where
  made := fun other hother => h.made other (mem_leave hother).1
  walks := by
    intro other hother
    obtain ⟨hmem, hne⟩ := mem_leave hother
    change Log.walks other world.log = 1 + Log.busyWalks other (.ended id result :: world.log)
    rw [busyWalks_ended_of_ne hne]
    exact h.walks other hmem
  fresh := by
    intro other hother
    have hne : id ≠ other := Nat.ne_of_lt (Nat.lt_of_lt_of_le (h.made id hid) hother)
    change Log.walks other world.log = 0 ∧
      Log.busyWalks other (.ended id result :: world.log) = 0
    rw [busyWalks_ended_of_ne hne]
    exact h.fresh other hother

theorem Counted.drop (h : Counted world) (id : Nat) : Counted (world.drop id) where
  made := fun other hother => h.made other (mem_leave hother).1
  walks := fun other hother => h.walks other (mem_leave hother).1
  fresh := h.fresh

theorem Reachable.counted (h : Reachable channel world) : Counted world := by
  induction h using Reachable.rec_steps with
  | new => exact ⟨fun _ => nofun, fun _ => nofun, fun _ _ => ⟨rfl, rfl⟩⟩
  | queue _ ih _ _ =>
    exact ⟨fun id hid => Nat.lt_succ_of_lt (ih.made id hid), ih.walks,
      fun id hid => ih.fresh id (Nat.le_of_succ_le hid)⟩
  | begin _ ih _ _ => exact ih.begin
  | again h ih hid _ hpending _ => exact ih.again hid _ (h.pending_iff.mp hpending)
  | stop _ ih hid _ _ _ => exact ih.stop hid _
  | drop _ ih _ _ => exact ih.drop _
  | look _ ih _ => exact ⟨ih.made, ih.walks, ih.fresh⟩

/-! ### Coalescing -/

theorem head?_finish_iff {id : Nat} {result : Result} {answer : Except HistoryFault Outcome} :
    (world.finish id result).log.head? = some (.answered id answer) ↔
      world.slot.pending = false ∧ world.finish id result = world.stop id result ∧
        answer = (world.slot.settle result).outcome result := by
  rw [finish_eq]
  by_cases hpending : world.slot.pending = true
  · rw [if_pos hpending]
    simp [again, hpending]
  · rw [if_neg hpending]
    simp [stop, hpending, eq_comm]

/-- A call that comes during a walk is queued and walks no further. The running call goes on as long
as others have come during its last walk; when it answers, a walk has begun after every call so far
and the lock is free, it has made one walk more than the number of those during which others came,
and it answers with what its last walk came to. -/
theorem coalesced (h : Reachable channel world) :
    (world.inFlight ≠ [] →
      world.call.inFlight = world.inFlight ∧
        world.call.slot = { world.slot with pending := true } ∧
        world.call.log = .answered world.made (.ok .queued) :: .called world.made :: world.log) ∧
    ∀ id ∈ world.inFlight, ∀ result,
      ((∃ answer, (world.finish id result).log.head? = some (.answered id answer)) ↔
        Log.AllServed world.log) ∧
      ∀ answer, (world.finish id result).log.head? = some (.answered id answer) →
        Log.AllServed (world.finish id result).log ∧
        (world.finish id result).slot.pending = false ∧
        (world.finish id result).slot.running = false ∧
        (world.finish id result).inFlight = [] ∧
        Log.walks id (world.finish id result).log =
          1 + Log.busyWalks id (world.finish id result).log ∧
        answer = result.map fun _ => .rebuilt (world.finish id result).slot.version := by
  refine ⟨fun hflight => ?_, fun id hid result => ⟨?_, fun answer hanswer => ?_⟩⟩
  · rw [call_eq, if_pos (h.running_iff.mpr hflight)]
    exact ⟨rfl, rfl, rfl⟩
  · rw [← h.pending_eq_false_iff]
    constructor
    · rintro ⟨answer, hanswer⟩
      exact (head?_finish_iff.mp hanswer).1
    · intro hpending
      refine ⟨_, head?_finish_iff.mpr ⟨hpending, ?_, rfl⟩⟩
      rw [finish_eq, if_neg (by simp [hpending])]
  · obtain ⟨hpending, hstop, rfl⟩ := head?_finish_iff.mp hanswer
    have hserved : Log.waiting world.log = [] :=
      Log.waiting_eq_nil_iff.mpr (h.pending_eq_false_iff.mp hpending)
    have hwalks : Log.walks id world.log = 1 + Log.busyWalks id (.ended id result :: world.log) := by
      rw [Log.busyWalks, if_neg (fun hand => hand.2 hserved), Nat.add_zero]
      exact h.counted.walks id hid
    have hflight : world.inFlight.filter (· != id) = [] := by
      rw [(inFlight_eq_singleton hid h.inFlight_eq).1, filter_singleton]
    rw [hstop]
    refine ⟨Log.waiting_eq_nil_iff.mp hserved, (settle_pending _ _).trans hpending, rfl, hflight,
      hwalks, ?_⟩
    cases result with
    | ok index => rfl
    | error fault => rfl

theorem call_new (channel : String) : (new channel).call = (new channel).begin :=
  (call_eq _).trans (if_neg Bool.false_ne_true)

theorem coalesced_call_new :
    (new "news").call.inFlight ≠ [] ∧
      (new "news").call.call.inFlight = (new "news").call.inFlight ∧
      0 ∈ (new "news").call.inFlight ∧
      ((new "news").call.finish 0 (.ok .empty)).log.head? =
        some (.answered 0 (.ok (.rebuilt 1))) ∧
      Log.walks 0 ((new "news").call.finish 0 (.ok .empty)).log =
        1 + Log.busyWalks 0 ((new "news").call.finish 0 (.ok .empty)).log := by
  obtain ⟨hqueue, hfinish⟩ := coalesced (.call (.new : Reachable "news" _))
  have hflight : (new "news").call.inFlight = [0] := by
    rw [call_new]
    rfl
  have hne : (new "news").call.inFlight ≠ [] := hflight ▸ List.cons_ne_nil 0 []
  have hid : 0 ∈ (new "news").call.inFlight := hflight ▸ List.mem_singleton.mpr rfl
  have hanswer : ((new "news").call.finish 0 (.ok .empty)).log.head? =
      some (.answered 0 (.ok (.rebuilt 1))) := by
    rw [call_new, finish_eq]
    rfl
  have hreturn := (hfinish 0 hid (.ok .empty)).2 _ hanswer
  exact ⟨hne, (hqueue hne).1, hid, hanswer, hreturn.2.2.2.2.1⟩

end World

end Gazette.Slot
