import Gazette.Document.History
import Gazette.Index.Post
import Gazette.Table

/-!
# The index of a channel

An index holds the posts of a channel, the newest first, and their bodies. It is built as a whole
from the channel's history and never changed; only its version tells it from the one before.
-/

namespace Gazette

structure Index where
  version : Nat
  posts : List Post
  /-- The bodies by id. -/
  bodies : Table String
  deriving Repr, DecidableEq, Inhabited

namespace Index

def empty : Index := ⟨0, [], []⟩

def body? (index : Index) (id : String) : Option String := index.bodies.lookup id

def post? (index : Index) (id : String) : Option Post := index.posts.find? (·.sourceId == id)

def view? (index : Index) (id : String) : Option (Post × String) := do
  let post ← index.post? id
  let body ← index.body? id
  return (post, body)

/-! ### Building -/

/-- The order of an index: later before earlier, and at one time larger ids before smaller ones. -/
def comesBefore (a b : Document) : Bool :=
  (Time.Instant.compare b.createdAt a.createdAt).then (compareIds b.id a.id) ≠ .gt

def sortNewestFirst (documents : List Document) : List Document := documents.mergeSort comesBefore

def isShown (options : PostOptions) (document : Document) : Bool :=
  !document.isTombstone && !options.blacklist.contains document.id

def ofDocuments (resolver : Resolver) (options : PostOptions) (documents : List Document) : Index :=
  let shown := sortNewestFirst (documents.filter (isShown options))
  let rendered := shown.map (Post.ofDocument resolver options)
  { version := 0
    posts := rendered.map Prod.fst
    bodies := Table.ofEntries (rendered.map fun (post, body) => (post.sourceId, body)) }

def build {σ : Type} (source : Source σ) (resolver : Resolver) (options : PostOptions) (state : σ) :
    Except HistoryFault Index × σ :=
  let (result, state) := History.fetchAll source state
  (result.map (ofDocuments resolver options), state)

end Index

end Gazette
