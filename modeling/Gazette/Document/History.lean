import Gazette.Document.Id

/-!
# The history of a channel

A channel hands out its documents in pages, each of documents that are older than a given one. A
walk asks for page after page, from the newest document back, and ends at an empty page or at one
that does not go back any further. Since every request asks for what is below the last one in the
order of ids, every walk ends, whatever the channel answers.
-/

namespace Gazette

structure HistoryFault where
  channel : String
  reason : String
  deriving Repr, DecidableEq

namespace HistoryFault

def message (fault : HistoryFault) : String :=
  "history fetch failed for channel " ++ fault.channel ++ ": " ++ fault.reason

def timedOut (channel : String) (seconds : Nat) : HistoryFault :=
  ⟨channel, "rebuild timed out after " ++ Text.decimal seconds ++ "s"⟩

end HistoryFault

/-- A source of pages, whose answers may depend on a state and change it. -/
structure Source (σ : Type) where
  /-- A page of at most `limit` documents that are older than `before`, or of the newest ones. -/
  fetch : (before : Option String) → (limit : Nat) → σ → Except HistoryFault (List Document) × σ

namespace History

def pageLimit : Nat := 100

/-! ### Walking -/

def smallest (id : String) : List String → String
  | [] => id
  | other :: rest => smallest (if compareIds other id = .lt then other else id) rest

def oldest? (page : List Document) : Option String :=
  match page.map Document.id with
  | [] => none
  | id :: rest => some (smallest id rest)

/-- Whether a page that ends at `oldest` goes back further than the request for it. -/
def Advances (oldest : String) : (before : Option String) → Prop
  | none => True
  | some before => compareIds oldest before = .lt

instance (oldest : String) (before : Option String) : Decidable (Advances oldest before) := by
  cases before <;> unfold Advances <;> infer_instance

/-- How much a walk has before it when it asks for what is older than `before`. -/
def remaining : (before : Option String) → Nat × Nat
  | none => (1, 0)
  | some before => (0, rank before)

theorem remaining_lt {oldest : String} {before : Option String} (h : Advances oldest before) :
    Prod.Lex (· < ·) (· < ·) (remaining (some oldest)) (remaining before) := by
  cases before with
  | none => exact .left _ _ Nat.zero_lt_one
  | some before => exact .right _ (rank_lt_of_compareIds h)

variable {σ : Type}

/-- The pages of a walk that goes on from `before`, the newest first. -/
def pagesFrom (source : Source σ) (before : Option String) (state : σ) :
    Except HistoryFault (List (List Document)) × σ :=
  match source.fetch before pageLimit state with
  | (.error fault, state) => (.error fault, state)
  | (.ok page, state) =>
    match oldest? page with
    | none => (.ok [], state)
    | some oldest =>
      if _h : Advances oldest before then
        match pagesFrom source (some oldest) state with
        | (.error fault, state) => (.error fault, state)
        | (.ok pages, state) => (.ok (page :: pages), state)
      else (.ok [], state)
termination_by remaining before
decreasing_by exact remaining_lt _h

def pages (source : Source σ) (state : σ) : Except HistoryFault (List (List Document)) × σ :=
  pagesFrom source none state

/-! ### The whole history -/

def dropRepeats : List Document → List Document
  | [] => []
  | document :: rest => document :: go document.id rest
where
  /-- The same for what follows a document of this id. -/
  go (id : String) : List Document → List Document
    | [] => []
    | document :: rest =>
      if document.id = id then go id rest else document :: go document.id rest

def assemble (pages : List (List Document)) : List Document :=
  dropRepeats (pages.reverse.flatMap List.reverse)

def fetchAll (source : Source σ) (state : σ) : Except HistoryFault (List Document) × σ :=
  let (result, state) := pages source state
  (result.map assemble, state)

end History

/-! ### Archives -/

/-- The documents of a channel as a list, from the largest id to the smallest. -/
structure Archive where
  channel : String
  documents : List Document
  deriving Inhabited

namespace Archive

def empty : Archive := ⟨"", []⟩

/-- The archive of some documents; those with one id stay in their order. -/
def ofDocuments (channel : String) (documents : List Document) : Archive :=
  ⟨channel, documents.mergeSort fun a b => compareIds b.id a.id ≠ .gt⟩

def page (archive : Archive) (before : Option String) (limit : Nat) : List Document :=
  let isOlder := fun (document : Document) =>
    match before with
    | none => true
    | some before => compareIds document.id before = .lt
  (archive.documents.filter isOlder).take limit

def source (archive : Archive) : Source Unit where
  fetch before limit _ := (.ok (archive.page before limit), ())

end Archive

end Gazette
