import Gazette.Index.Basic
import Gazette.Text.Quoted

/-!
# Slots

A slot holds the current index of a channel and lets at most one call at a time rebuild it. A call
that comes while another one is running leaves a mark and is done; the running call then goes around
once more. A walk that fails leaves the index as it is, and so does a call that is dropped.
-/

namespace Gazette

structure Slot where
  channel : String
  index : Index
  /-- Whether a call has come since the last walk began. -/
  pending : Bool
  /-- Whether a call is running. -/
  running : Bool
  deriving Repr, DecidableEq, Inhabited

namespace Slot

inductive Outcome where
  /-- The call rebuilt the index, which now has this version. -/
  | rebuilt (version : Nat)
  /-- Another call is running and will go around once more. -/
  | queued
  deriving Repr, DecidableEq

abbrev Result := Except HistoryFault Index

def new (channel : String) : Slot := ⟨channel, .empty, false, false⟩

def version (slot : Slot) : Nat := slot.index.version

/-- Puts an index in the place of the current one, as the next version. -/
def install (slot : Slot) (index : Index) : Slot :=
  { slot with index := { index with version := slot.version + 1 } }

/-! ### Calls -/

/-- A call comes. If none is running it begins a walk; if one is, it is queued. -/
def request (slot : Slot) : Slot :=
  if slot.running then { slot with pending := true }
  else { slot with pending := false, running := true }

/-- What the running call comes to when its last walk has come to `result`. -/
def outcome (slot : Slot) : Result → Except HistoryFault Outcome
  | .ok _ => .ok (.rebuilt slot.version)
  | .error fault => .error fault

def settle (slot : Slot) : Result → Slot
  | .ok index => slot.install index
  | .error _ => slot

/-- A walk of the running call ends. The call begins another one if it has to, and ends otherwise:
then it has an outcome. -/
def finish (slot : Slot) (result : Result) : Slot × Option (Except HistoryFault Outcome) :=
  let settled := slot.settle result
  if settled.pending then ({ settled with pending := false }, none)
  else ({ settled with running := false }, some (settled.outcome result))

def drop (slot : Slot) : Slot := { slot with running := false }

/-! ### Whole calls -/

/-- A walk as it happens: the calls that come while it is going on, and what it comes to. -/
structure Walk where
  arrivals : Nat
  result : Result

structure Report where
  slot : Slot
  outcome : Except HistoryFault Outcome
  /-- How many walks it made. -/
  walks : Nat
  /-- The walk in which a call came, from zero, and the slot as that call left it. -/
  arrivals : List (Nat × Slot)

def arrive : (count : Nat) → Slot → List Slot
  | 0, _ => []
  | count + 1, slot => slot.request :: arrive count slot.request

/-- The running call goes through some walks, of which this is number `number`. When they are over
it makes at most one more, which comes to `last`. -/
def serve (last : Result) : List Walk → (number : Nat) → Slot → Report
  | [], number, slot => ⟨(slot.settle last).drop, (slot.settle last).outcome last, number + 1, []⟩
  | walk :: rest, number, slot =>
    let arrivals := arrive walk.arrivals slot
    let record := arrivals.map fun slot => (number, slot)
    match (arrivals.getLast?.getD slot).finish walk.result with
    | (slot, some outcome) => ⟨slot, outcome, number + 1, record⟩
    | (slot, none) =>
      let report := serve last rest (number + 1) slot
      { report with arrivals := record ++ report.arrivals }

/-- A call on a slot where none is running goes through some walks. -/
def call (slot : Slot) (walks : List Walk) (last : Result) : Report :=
  serve last walks 0 slot.request

def text (slot : Slot) : String :=
  "IndexSlot \x7b channel: " ++ Text.quoted slot.channel ++ ", version: " ++
    Text.decimal slot.version ++ " \x7d"

end Slot

end Gazette
