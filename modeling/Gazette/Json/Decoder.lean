import Gazette.Json.Reader
import Gazette.Table

/-!
# Decoders

A decoder gives the JSON form of a type, for values and for texts alike. From a text it reads no
further than to the first thing that does not fit, whether that is in the text or in the shape.

A record stands as an object or as an array of its fields in order. In an object each of its fields
may occur once, and what else occurs is passed over; fields that are not required may be missing. An
array may leave out the last fields, if they have defaults.
-/

namespace Gazette.Json

open Reader

/-- A JSON form of `α`. -/
structure Decoder (α : Type) where
  /-- Reads the form from a text in which brackets may be nested `levels` deep. -/
  read : (levels : Nat) → Reader α
  /-- Takes it from a value. -/
  ofJson? : Json → Option α

namespace Decoder

variable {α β σ : Type}

def below? : (levels : Nat) → Option Nat
  | 0 => none
  | levels + 1 => some levels

/-! ### Values of the wrong type -/

def found : Json → Found
  | .null => .null
  | .bool value => .bool value
  | .integer value => .integer value
  | .decimal value => .decimal value
  | .string value => .string value
  | .array _ => .array
  | .object _ => .object

/-- The fault in the next value, which is not what is expected. Scalar values are read first. -/
def unexpected (expected : String) : Reader α := do
  match ← peekDark with
  | some 0x5B => fault (.wrongType .array expected)
  | some 0x7B => fault (.wrongType .object expected)
  | _ => fault (.wrongType (found (← value 0)) expected)

/-! ### Scalars -/

def map (f : α → β) (decoder : Decoder α) : Decoder β where
  read levels := do return f (← decoder.read levels)
  ofJson? json := (decoder.ofJson? json).map f

def text : Decoder String where
  read _ := do
    if (← peekDark) = some 0x22 then Reader.string else unexpected "a string"
  ofJson?
    | .string s => some s
    | _ => none

def parsed (parse? : String → Option α) : Decoder α where
  read levels := do
    match parse? (← text.read levels) with
    | some a => pure a
    | none => fault .otherShape
  ofJson? json := (text.ofJson? json).bind parse?

def bool : Decoder Bool where
  read _ := do
    match ← peekDark with
    | some 0x74 => do word "rue"; pure true
    | some 0x66 => do word "alse"; pure false
    | _ => unexpected "a boolean"
  ofJson?
    | .bool value => some value
    | _ => none

/-- A value of any shape, of which something is asked when it has been read. -/
def checked (check? : Json → Option α) : Decoder α where
  read levels := do
    match check? (← value levels) with
    | some a => pure a
    | none => fault .otherShape
  ofJson? := check?

def optional (decoder : Decoder α) : Decoder (Option α) where
  read levels := do
    match ← peekDark with
    | some 0x6E => do word "ull"; pure none
    | _ => return some (← decoder.read levels)
  ofJson?
    | .null => some none
    | json => (decoder.ofJson? json).map some

/-! ### Lists and tables -/

def list (decoder : Decoder α) : Decoder (List α) where
  read levels := do
    match ← peekDark with
    | some 0x5B => nested (below? levels) fun levels => do
      let all ← bounded (items (decoder.read levels) true [])
      endOfList
      pure all
    | _ => unexpected "a sequence"
  ofJson?
    | .array items => items.mapM decoder.ofJson?
    | _ => none

/-- An object of values by name; of entries with one name the last one counts. -/
def table (decoder : Decoder α) : Decoder (Table α) where
  read levels := do
    match ← peekDark with
    | some 0x7B => nested (below? levels) fun levels => do
      let entry := fun done key => do
        colon
        return Table.put key (← decoder.read levels) done
      let all ← bounded (entries entry true [])
      endOfObject
      pure all
    | _ => unexpected "a map"
  ofJson?
    | .object entries => entries.foldlM
        (fun done (key, json) => (decoder.ofJson? json).map fun a => Table.put key a done) []
    | _ => none

/-! ### Variants -/

def variantOf (variants : List (String × α)) (name : String) : Reader α :=
  match variants.lookup name with
  | some a => pure a
  | none => fault (.unknownVariant name (variants.map Prod.fst))

/-- The name of a variant as the key of an object, whose brace has been taken. -/
def variantKey (variants : List (String × α)) : Reader α := do
  match ← peekDark with
  | none => faultAhead (.eof .object)
  | some 0x22 => do variantOf variants (← Reader.string)
  | some 0x7D => faultAhead .expectedValue
  | some _ => faultAhead .keyNotString

/-- One of some names, alone or as the only key of an object with null for a value. -/
def variant (variants : List (String × α)) : Decoder α where
  read levels := do
    match ← peekDark with
    | none => faultAhead (.eof .value)
    | some 0x22 => do variantOf variants (← Reader.string)
    | some 0x7B => nested (below? levels) fun _ => do
      let a ← variantKey variants
      colon
      if (← peekDark) = some 0x6E then word "ull" else unexpected "unit"
      match ← peekDark with
      | none => fault (.eof .object)
      | some 0x7D => skip
      | some _ => fault .expectedValue
      pure a
    | some _ => faultAhead .expectedValue
  ofJson?
    | .string name => variants.lookup name
    | .object [(name, .null)] => variants.lookup name
    | _ => none

/-! ### Records -/

end Decoder

inductive Presence where
  /-- It may not. -/
  | required
  /-- In an object it may. -/
  | optional
  /-- It may always. -/
  | defaulted
  deriving Repr, DecidableEq

/-- A field of a record; what is decoded tells how it changes the record. -/
structure Field (σ : Type) where
  name : String
  presence : Presence
  decoder : Decoder (σ → σ)

namespace Field

variable {α σ : Type}

def required (name : String) (decoder : Decoder α) (set : α → σ → σ) : Field σ :=
  ⟨name, .required, decoder.map set⟩

def optional (name : String) (decoder : Decoder α) (set : Option α → σ → σ) : Field σ :=
  ⟨name, .optional, decoder.optional.map set⟩

def defaulted (name : String) (decoder : Decoder α) (set : α → σ → σ) : Field σ :=
  ⟨name, .defaulted, decoder.map set⟩

def lenient (name : String) (decoder : Decoder α) (set : Option α → σ → σ) : Field σ :=
  ⟨name, .defaulted, decoder.optional.map set⟩

end Field

namespace Decoder

variable {σ : Type}

def missing? (fields : List (Field σ)) (seen : List String) : Option String :=
  (fields.find? fun field => field.presence = .required ∧ field.name ∉ seen).map (·.name)

/-- A fault in a record: it is named behind the end, if the end comes next. -/
def recordFault {α : Type} (closing : UInt8) (reason : Reason) : Reader α := do
  if (← peekDark) = some closing then skip
  fault reason

def recordEntry (fields : List (Field σ)) (levels : Nat) (done : σ × List String) (key : String) :
    Reader (σ × List String) :=
  match fields.find? (·.name == key) with
  | some field => do
    if key ∈ done.2 then recordFault 0x7D (.duplicateField key)
    colon
    let change ← field.decoder.read levels
    pure (change done.1, key :: done.2)
  | none => do
    colon
    pass
    pure done

def recordItems (expected : String) (levels : Nat) :
    (fields : List (Field σ)) → (index : Nat) → (done : σ) → Reader σ
  | [], _, done => pure done
  | field :: rest, index, done => do
    if ← hasItem (index = 0) then
      recordItems expected levels rest (index + 1) ((← field.decoder.read levels) done)
    else
      match (field :: rest).findIdx? fun field => field.presence ≠ .defaulted with
      | some ahead => recordFault 0x5D (.wrongLength (index + ahead) expected)
      | none => pure done

def recordOfItems? : (fields : List (Field σ)) → List Json → (done : σ) → Option σ
  | [], [], done => some done
  | [], _ :: _, _ => none
  | fields, [], done =>
    if fields.all fun field => field.presence = .defaulted then some done else none
  | field :: fields, json :: rest, done => do
    recordOfItems? fields rest ((← field.decoder.ofJson? json) done)

def recordAfter? (fields : List (Field σ)) (done : σ × List String) (entry : String × Json) :
    Option (σ × List String) :=
  match fields.find? (·.name == entry.1) with
  | some field => do
    guard (entry.1 ∉ done.2)
    return ((← field.decoder.ofJson? entry.2) done.1, entry.1 :: done.2)
  | none => some done

/-- A record with some fields, of which `start` holds the defaults. -/
def record (name : String) (start : σ) (fields : List (Field σ)) : Decoder σ where
  read levels := do
    match ← peekDark with
    | some 0x5B => nested (below? levels) fun levels => do
      let expected := name ++ " with " ++ Text.decimal fields.length ++ " elements"
      let record ← recordItems expected levels fields 0 start
      endOfList
      pure record
    | some 0x7B => nested (below? levels) fun levels => do
      let (record, seen) ← bounded (entries (recordEntry fields levels) true (start, []))
      match missing? fields seen with
      | some name => recordFault 0x7D (.missingField name)
      | none =>
        endOfObject
        pure record
    | _ => unexpected name
  ofJson?
    | .array items => recordOfItems? fields items start
    | .object entries => do
      let (record, seen) ← entries.foldlM (recordAfter? fields) (start, [])
      guard (missing? fields seen).isNone
      return record
    | _ => none

/-! ### Whole texts -/

def ofBytes {α : Type} (decoder : Decoder α) (bytes : List UInt8) : Except Fault α :=
  Reader.run (decoder.read levels) bytes

end Decoder

end Gazette.Json
