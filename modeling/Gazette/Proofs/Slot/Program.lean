import Gazette.Slot

/-!
# The program of a call

A call on a slot sets the mark, tries the lock, and as long as it finds the mark it takes the mark
away and walks; then it gives the lock back and looks for the mark once more. It goes from stage to
stage until it has to await a walk or is over, and nothing else happens meanwhile. `poll_start` and
`poll_landed` say that this comes to `Slot.request` and `Slot.finish`.
-/

namespace Gazette

/-- Where a call is in its program. -/
inductive Stage where
  | marking
  | locking
  /-- Looks for the mark and takes it away. -/
  | taking
  /-- Awaits the end of a walk. -/
  | walking
  | unlocking
  /-- Looks for the mark without the lock. -/
  | checking
  | finished
  deriving Repr, DecidableEq

structure Call where
  stage : Stage
  /-- What the last walk of the call came to, with the version that it installed. -/
  last : Option (Except HistoryFault Nat)

namespace Call

def start : Call := ⟨.marking, none⟩

/-- The call of a slot whose walk has just come to `result`. -/
def landed (slot : Slot) (result : Slot.Result) : Call :=
  ⟨.taking, some (result.map fun _ => (slot.settle result).version)⟩

/-- A call rests when it awaits a walk and when it is over. -/
def rests (call : Call) : Bool := call.stage = .walking || call.stage = .finished

/-- What a call that is over answers. -/
def answer? (call : Call) : Option (Except HistoryFault Slot.Outcome) :=
  match call.stage, call.last with
  | .finished, some (.ok version) => some (.ok (.rebuilt version))
  | .finished, some (.error fault) => some (.error fault)
  | .finished, none => some (.ok .queued)
  | _, _ => none

end Call

namespace Slot

/-- One stage of a call. -/
def advance (slot : Slot) (call : Call) : Slot × Call :=
  match call.stage with
  | .marking => ({ slot with pending := true }, { call with stage := .locking })
  | .locking =>
    if slot.running then (slot, { call with stage := .finished })
    else ({ slot with running := true }, { call with stage := .taking })
  | .taking =>
    if slot.pending then ({ slot with pending := false }, { call with stage := .walking })
    else (slot, { call with stage := .unlocking })
  | .unlocking => ({ slot with running := false }, { call with stage := .checking })
  | .checking =>
    if slot.pending then (slot, { call with stage := .locking })
    else (slot, { call with stage := .finished })
  | .walking | .finished => (slot, call)

/-- How far a call is from its next rest. It can go back to the lock from the end of the loop, but
only with the mark set, and then it comes to a walk. -/
def distance (slot : Slot) (call : Call) : Nat :=
  match call.stage, slot.pending with
  | .marking, _ => 9
  | .unlocking, true => 8
  | .checking, true => 7
  | .locking, true => 6
  | .taking, true => 5
  | .locking, false => 4
  | .taking, false => 3
  | .unlocking, false => 2
  | .checking, false => 1
  | .walking, _ | .finished, _ => 0

theorem distance_advance_lt (slot : Slot) {call : Call} (h : call.rests = false) :
    distance (slot.advance call).1 (slot.advance call).2 < slot.distance call := by
  obtain ⟨stage, last⟩ := call
  obtain ⟨channel, index, pending, running⟩ := slot
  cases stage with
  | marking => simp [advance, distance]
  | locking => cases running <;> cases pending <;> simp [advance, distance]
  | taking => cases pending <;> simp [advance, distance]
  | walking => cases h
  | unlocking => cases pending <;> simp [advance, distance]
  | checking => cases pending <;> simp [advance, distance]
  | finished => cases h

/-- Goes on with a call until it rests. -/
def poll (slot : Slot) (call : Call) : Slot × Call :=
  if _h : call.rests = true then (slot, call)
  else poll (slot.advance call).1 (slot.advance call).2
termination_by slot.distance call
decreasing_by exact distance_advance_lt slot (Bool.eq_false_iff.mpr _h)

theorem poll_of_rests (slot : Slot) {call : Call} (h : call.rests = true) :
    slot.poll call = (slot, call) := by
  rw [poll, dif_pos h]

theorem poll_advance (slot : Slot) {call : Call} (h : call.rests = false) :
    slot.poll call = (slot.advance call).1.poll (slot.advance call).2 := by
  rw [poll, dif_neg (by simp [h])]

/-! ### What the stages come to -/

theorem poll_taking_of_pending {slot : Slot} (h : slot.pending = true)
    (last : Option (Except HistoryFault Nat)) :
    slot.poll ⟨.taking, last⟩ = ({ slot with pending := false }, ⟨.walking, last⟩) := by
  have hadvance : slot.advance ⟨.taking, last⟩ = ({ slot with pending := false }, ⟨.walking, last⟩) :=
    if_pos h
  rw [poll_advance slot rfl, hadvance, poll_of_rests _ rfl]

theorem poll_taking_of_clear {slot : Slot} (h : slot.pending = false)
    (last : Option (Except HistoryFault Nat)) :
    slot.poll ⟨.taking, last⟩ = ({ slot with running := false }, ⟨.finished, last⟩) := by
  have hclear : ¬slot.pending = true := Bool.eq_false_iff.mp h
  have htaking : slot.advance ⟨.taking, last⟩ = (slot, ⟨.unlocking, last⟩) := if_neg hclear
  have hchecking : advance { slot with running := false } ⟨.checking, last⟩ =
      ({ slot with running := false }, ⟨.finished, last⟩) := if_neg hclear
  rw [poll_advance slot rfl, htaking, poll_advance slot rfl]
  change poll { slot with running := false } ⟨.checking, last⟩ = _
  rw [poll_advance _ rfl, hchecking, poll_of_rests _ rfl]

/-- A call that comes is queued, or takes the lock and walks. -/
theorem poll_start (slot : Slot) :
    (slot.poll .start).1 = slot.request ∧
      (slot.poll .start).2.answer? = if slot.running then some (.ok .queued) else none := by
  have hmark : slot.poll .start = poll { slot with pending := true } ⟨.locking, none⟩ :=
    poll_advance slot rfl
  by_cases hrunning : slot.running = true
  · have hlock : advance { slot with pending := true } ⟨.locking, none⟩ =
        ({ slot with pending := true }, ⟨.finished, none⟩) := if_pos hrunning
    have hpoll : slot.poll .start = ({ slot with pending := true }, ⟨.finished, none⟩) := by
      rw [hmark, poll_advance _ rfl, hlock, poll_of_rests _ rfl]
    rw [hpoll, request, if_pos hrunning, if_pos hrunning]
    exact ⟨rfl, rfl⟩
  · have hlock : advance { slot with pending := true } ⟨.locking, none⟩ =
        ({ slot with pending := true, running := true }, ⟨.taking, none⟩) := if_neg hrunning
    have hpoll : slot.poll .start =
        ({ slot with pending := false, running := true }, ⟨.walking, none⟩) := by
      rw [hmark, poll_advance _ rfl, hlock, poll_taking_of_pending rfl]
    rw [hpoll, request, if_neg hrunning, if_neg hrunning]
    exact ⟨rfl, rfl⟩

/-- A call whose walk has ended walks again, or gives the lock back and is over. -/
theorem poll_landed (slot : Slot) (result : Result) :
    ((slot.settle result).poll (.landed slot result)).1 = (slot.finish result).1 ∧
      ((slot.settle result).poll (.landed slot result)).2.answer? = (slot.finish result).2 := by
  by_cases hpending : (slot.settle result).pending = true
  · rw [Call.landed, poll_taking_of_pending hpending, finish, if_pos hpending]
    exact ⟨rfl, rfl⟩
  · rw [Call.landed, poll_taking_of_clear (Bool.eq_false_iff.mpr hpending), finish,
      if_neg hpending]
    cases result with
    | ok index => exact ⟨rfl, rfl⟩
    | error fault => exact ⟨rfl, rfl⟩

end Slot

end Gazette
