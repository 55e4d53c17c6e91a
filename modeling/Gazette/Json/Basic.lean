/-!
# JSON values

Values as they stand in a text. Objects keep their entries in order, and numbers keep what their
literal says, so that a value can be written again without loss.
-/

namespace Gazette

/-- A number that is no integer of 64 bits: some digits, shifted by a power of ten. -/
structure Decimal where
  negative : Bool
  digits : Nat
  exponent : Int
  deriving Repr, DecidableEq, Inhabited

inductive Json where
  | null
  | bool (value : Bool)
  | integer (value : Int)
  | decimal (value : Decimal)
  | string (value : String)
  | array (items : List Json)
  | object (entries : List (String × Json))
  deriving Inhabited, Repr

namespace Json

mutual

def depth : Json → Nat
  | array items => depthOfItems items + 1
  | object entries => depthOfEntries entries + 1
  | _ => 0

def depthOfItems : List Json → Nat
  | [] => 0
  | item :: rest => max item.depth (depthOfItems rest)

def depthOfEntries : List (String × Json) → Nat
  | [] => 0
  | (_, value) :: rest => max value.depth (depthOfEntries rest)

end

def get? (key : String) : Json → Option Json
  | object entries => entries.lookup key
  | _ => none

end Json

end Gazette
