import Gazette.Proofs.Slot.Program

/-!
# Runs of a slot

A run is made of calls that come, walks that end, calls that are dropped in the middle of a walk,
and looks at the current index, in any order. A world is what there is after some of these: the
slot, the calls that await the end of a walk, and everything that has happened. Since a call runs
from one rest to the next, each of these is one step (`call_eq`, `finish_eq`).
-/

namespace Gazette.Slot

/-! ### What has happened -/

inductive Entry where
  | called (id : Nat)
  /-- The call begins a walk. -/
  | started (id : Nat)
  | ended (id : Nat) (result : Result)
  | answered (id : Nat) (answer : Except HistoryFault Outcome)
  | dropped (id : Nat)
  /-- Somebody has taken a snapshot of the current index. -/
  | looked (index : Index)

/-- What has happened, the latest first. -/
abbrev Log := List Entry

namespace Log

/-- The calls that have come since the latest walk began. -/
def waiting : Log → List Nat
  | [] => []
  | .started _ :: _ => []
  | .called id :: earlier => id :: waiting earlier
  | .ended _ _ :: earlier | .answered _ _ :: earlier | .dropped _ :: earlier
  | .looked _ :: earlier => waiting earlier

/-- How many walks a call has begun. -/
def walks (id : Nat) : Log → Nat
  | [] => 0
  | .started other :: earlier => walks id earlier + if other = id then 1 else 0
  | .called _ :: earlier | .ended _ _ :: earlier | .answered _ _ :: earlier
  | .dropped _ :: earlier | .looked _ :: earlier => walks id earlier

/-- How many walks of a call have come to their end with calls having come meanwhile. -/
def busyWalks (id : Nat) : Log → Nat
  | [] => 0
  | .ended other _ :: earlier =>
    busyWalks id earlier + if other = id ∧ waiting earlier ≠ [] then 1 else 0
  | .called _ :: earlier | .started _ :: earlier | .answered _ _ :: earlier
  | .dropped _ :: earlier | .looked _ :: earlier => busyWalks id earlier

/-- How many walks have been successful. -/
def successes : Log → Nat
  | [] => 0
  | .ended _ (.ok _) :: earlier => successes earlier + 1
  | .ended _ (.error _) :: earlier | .called _ :: earlier | .started _ :: earlier
  | .answered _ _ :: earlier | .dropped _ :: earlier | .looked _ :: earlier => successes earlier

/-- The index of the latest successful walk, numbered by the successful walks up to it. -/
def index : Log → Index
  | [] => .empty
  | .ended _ (.ok built) :: earlier => { built with version := successes earlier + 1 }
  | .ended _ (.error _) :: earlier | .called _ :: earlier | .started _ :: earlier
  | .answered _ _ :: earlier | .dropped _ :: earlier | .looked _ :: earlier => index earlier

theorem mem_waiting_iff {id : Nat} {log : Log} :
    id ∈ waiting log ↔ ∃ later earlier, log = later ++ .called id :: earlier ∧
      ∀ walker, .started walker ∉ later := by
  induction log with
  | nil => simp [waiting]
  | cons entry earlier ih =>
    have hpass : (∀ walker, entry ≠ .started walker) → id ∈ waiting earlier →
        ∃ later before, entry :: earlier = later ++ .called id :: before ∧
          ∀ walker, .started walker ∉ later := by
      intro hentry hmem
      obtain ⟨later, before, rfl, hlater⟩ := ih.mp hmem
      refine ⟨entry :: later, before, rfl, fun walker hwalker => ?_⟩
      rcases List.mem_cons.mp hwalker with heq | hwalker
      · exact hentry walker heq.symm
      · exact hlater walker hwalker
    have hback : (∃ later before, entry :: earlier = later ++ .called id :: before ∧
        ∀ walker, .started walker ∉ later) →
        entry = .called id ∨ ((∀ walker, entry ≠ .started walker) ∧ id ∈ waiting earlier) := by
      rintro ⟨later, before, heq, hlater⟩
      cases later with
      | nil => exact .inl (List.cons.inj heq).1
      | cons first later =>
        obtain ⟨rfl, rfl⟩ := List.cons.inj heq
        refine .inr ⟨fun walker hwalker => hlater walker (hwalker ▸ List.mem_cons_self), ?_⟩
        exact ih.mpr ⟨later, before, rfl,
          fun walker hwalker => hlater walker (List.mem_cons_of_mem _ hwalker)⟩
    cases entry with
    | called other =>
      constructor
      · intro hmem
        rcases List.mem_cons.mp hmem with rfl | hmem
        · exact ⟨[], earlier, rfl, fun _ => List.not_mem_nil⟩
        · exact hpass (fun _ => Entry.noConfusion) hmem
      · intro hsplit
        rcases hback hsplit with heq | ⟨-, hmem⟩
        · cases heq
          exact List.mem_cons_self
        · exact List.mem_cons_of_mem other hmem
    | started walker =>
      refine ⟨fun hmem => absurd hmem List.not_mem_nil, fun hsplit => ?_⟩
      rcases hback hsplit with heq | ⟨hne, -⟩
      · cases heq
      · exact absurd rfl (hne walker)
    | ended | answered | dropped | looked =>
      refine ⟨hpass (fun _ => Entry.noConfusion), fun hsplit => ?_⟩
      exact (hback hsplit).elim Entry.noConfusion And.right

/-- Each call has had a walk begun after it. -/
def AllServed (log : Log) : Prop :=
  ∀ later id earlier, log = later ++ .called id :: earlier → ∃ walker, .started walker ∈ later

theorem waiting_eq_nil_iff {log : Log} : waiting log = [] ↔ AllServed log := by
  constructor
  · intro hnil later id earlier hlog
    apply Classical.byContradiction
    intro hnone
    have hmem : id ∈ waiting log :=
      mem_waiting_iff.mpr ⟨later, earlier, hlog, fun walker hwalker => hnone ⟨walker, hwalker⟩⟩
    rw [hnil] at hmem
    cases hmem
  · intro hserved
    refine List.eq_nil_iff_forall_not_mem.mpr fun id hmem => ?_
    obtain ⟨later, earlier, hlog, hlater⟩ := mem_waiting_iff.mp hmem
    obtain ⟨walker, hwalker⟩ := hserved later id earlier hlog
    exact hlater walker hwalker

end Log

/-! ### Worlds -/

structure World where
  slot : Slot
  /-- How many calls have come; the next one gets this number. -/
  made : Nat
  /-- The calls that await the end of a walk. -/
  inFlight : List Nat
  log : Log

namespace World

def new (channel : String) : World := ⟨.new channel, 0, [], []⟩

/-- A call goes on until it rests. -/
def poll (world : World) (id : Nat) (call : Call) : World :=
  let polled := world.slot.poll call
  match polled.2.answer? with
  | some answer => { world with slot := polled.1, log := .answered id answer :: world.log }
  | none =>
    { world with
      slot := polled.1
      inFlight := id :: world.inFlight
      log := .started id :: world.log }

/-- A call comes. -/
def call (world : World) : World :=
  { world with made := world.made + 1, log := .called world.made :: world.log }.poll
    world.made .start

/-- A call is no longer in flight. -/
def leave (world : World) (id : Nat) (entry : Entry) : World :=
  { world with inFlight := world.inFlight.filter (· != id), log := entry :: world.log }

/-- The walk of a call comes to its end, and the call goes on. -/
def finish (world : World) (id : Nat) (result : Result) : World :=
  { world.leave id (.ended id result) with slot := world.slot.settle result }.poll id
    (.landed world.slot result)

/-- A call is dropped while it awaits the end of a walk. -/
def drop (world : World) (id : Nat) : World :=
  { world.leave id (.dropped id) with slot := world.slot.drop }

/-- Somebody takes a snapshot of the current index. -/
def look (world : World) : World := { world with log := .looked world.slot.index :: world.log }

/-- What building an index comes to with some source, which may answer as it likes and fail at any
page. -/
def IsBuilt (result : Result) : Prop :=
  ∃ (σ : Type) (source : Source σ) (resolver : Resolver) (options : PostOptions) (state : σ),
    (Index.build source resolver options state).1 = result

/-- The worlds that a slot comes to in some run. -/
inductive Reachable (channel : String) : World → Prop where
  | new : Reachable channel (.new channel)
  | call {world : World} (h : Reachable channel world) : Reachable channel world.call
  | finish {world : World} (h : Reachable channel world) {id : Nat} (hid : id ∈ world.inFlight)
      {result : Result} (hresult : IsBuilt result) : Reachable channel (world.finish id result)
  | drop {world : World} (h : Reachable channel world) {id : Nat} (hid : id ∈ world.inFlight) :
    Reachable channel (world.drop id)
  | look {world : World} (h : Reachable channel world) : Reachable channel world.look

/-! ### What a step does -/

/-- A call that comes while another one holds the lock. -/
def queue (world : World) : World :=
  { world with
    slot := { world.slot with pending := true }
    made := world.made + 1
    log := .answered world.made (.ok .queued) :: .called world.made :: world.log }

/-- A call that comes while the lock is free. -/
def begin (world : World) : World :=
  { slot := { world.slot with pending := false, running := true }
    made := world.made + 1
    inFlight := world.made :: world.inFlight
    log := .started world.made :: .called world.made :: world.log }

/-- A call whose walk has ended goes around once more. -/
def again (world : World) (id : Nat) (result : Result) : World :=
  { world with
    slot := { world.slot.settle result with pending := false }
    inFlight := id :: world.inFlight.filter (· != id)
    log := .started id :: .ended id result :: world.log }

/-- A call whose walk has ended gives the lock back. -/
def stop (world : World) (id : Nat) (result : Result) : World :=
  { world with
    slot := (world.slot.settle result).drop
    inFlight := world.inFlight.filter (· != id)
    log := .answered id ((world.slot.settle result).outcome result) :: .ended id result ::
      world.log }

theorem call_eq (world : World) :
    world.call = if world.slot.running then world.queue else world.begin := by
  obtain ⟨hslot, hanswer⟩ := poll_start world.slot
  by_cases hrunning : world.slot.running = true
  · rw [if_pos hrunning] at hanswer
    rw [call, poll, hslot, hanswer, request, if_pos hrunning, if_pos hrunning]
    rfl
  · rw [if_neg hrunning] at hanswer
    rw [call, poll, hslot, hanswer, request, if_neg hrunning, if_neg hrunning]
    rfl

theorem settle_pending (slot : Slot) (result : Result) :
    (slot.settle result).pending = slot.pending := by
  cases result <;> rfl

theorem finish_eq (world : World) (id : Nat) (result : Result) :
    world.finish id result =
      if world.slot.pending then world.again id result else world.stop id result := by
  obtain ⟨hslot, hanswer⟩ := poll_landed world.slot result
  rw [Slot.finish] at hslot hanswer
  rw [finish, poll, leave, hslot, hanswer, ← settle_pending world.slot result]
  by_cases hpending : (world.slot.settle result).pending = true
  · rw [if_pos hpending, if_pos hpending]
    rfl
  · rw [if_neg hpending, if_neg hpending]
    rfl

/-- What holds at the beginning and is kept by every step holds in all worlds of all runs. -/
@[elab_as_elim]
theorem Reachable.rec_steps {channel : String}
    {motive : (world : World) → Reachable channel world → Prop}
    (new : motive (.new channel) .new)
    (queue : ∀ {world} (h : Reachable channel world), motive world h →
      world.slot.running = true → ∀ next, motive world.queue next)
    (begin : ∀ {world} (h : Reachable channel world), motive world h →
      world.slot.running = false → ∀ next, motive world.begin next)
    (again : ∀ {world id result} (h : Reachable channel world), motive world h →
      id ∈ world.inFlight → IsBuilt result → world.slot.pending = true →
      ∀ next, motive (world.again id result) next)
    (stop : ∀ {world id result} (h : Reachable channel world), motive world h →
      id ∈ world.inFlight → IsBuilt result → world.slot.pending = false →
      ∀ next, motive (world.stop id result) next)
    (drop : ∀ {world id} (h : Reachable channel world), motive world h → id ∈ world.inFlight →
      ∀ next, motive (world.drop id) next)
    (look : ∀ {world} (h : Reachable channel world), motive world h → ∀ next, motive world.look next)
    {world : World} (h : Reachable channel world) : motive world h := by
  induction h with
  | new => exact new
  | @call world h ih =>
    have hcall : ∀ next, motive world.call next := by
      rw [call_eq]
      split
      · next hrunning => exact queue h ih hrunning
      · next hrunning => exact begin h ih (Bool.eq_false_iff.mpr hrunning)
    exact hcall _
  | @finish world h id hid result hresult ih =>
    have hfinish : ∀ next, motive (world.finish id result) next := by
      rw [finish_eq]
      split
      · next hpending => exact again h ih hid hresult hpending
      · next hpending => exact stop h ih hid hresult (Bool.eq_false_iff.mpr hpending)
    exact hfinish _
  | drop h hid ih => exact drop h ih hid _
  | look h ih => exact look h ih _

end World

end Gazette.Slot
