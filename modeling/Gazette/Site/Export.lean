import Gazette.Document.History
import Gazette.Entities
import Gazette.Site.Config

/-!
# Exports

The documents of each feed stand in a file of the site's directory, and the entities in another one.
A walk reads the feed's file when it asks for its first page, and takes all pages from what it read
then.
-/

namespace Gazette

inductive FileContent where
  | missing
  | bytes (content : List UInt8)
  /-- There is something else under the name. -/
  | folder
  deriving Repr, DecidableEq

namespace FileContent

def text : FileContent → Except String (List Char)
  | missing => .error "No such file or directory (os error 2)"
  | folder => .error "Is a directory (os error 21)"
  | bytes content =>
    match Text.Utf8.decode? content with
    | some text => .ok text
    | none => .error "stream did not contain valid UTF-8"

/-- The value in a file that a decoder takes from it, or what is wrong with the file. -/
def decode {α : Type} (decoder : Json.Decoder α) (content : FileContent) : Except String α := do
  let bytes := Text.Utf8.encode (← content.text)
  (decoder.ofBytes bytes).mapError fun fault => fault.message bytes

end FileContent

namespace Export

/-- The place of a file in a directory. A name that begins with a slash is a place of its own. -/
def pathIn (directory name : String) : String :=
  if name.toList.head? = some '/' then name
  else if directory = "" ∨ directory.toList.getLast? = some '/' then directory ++ name
  else directory ++ "/" ++ name

def decoder : Json.Decoder (List Document) :=
  Json.Decoder.record "an export" []
    [.defaulted "messages" Document.decoder.list fun messages _ => messages]

def load (directory feed : String) (content : FileContent) : Except HistoryFault Archive :=
  match content.decode decoder with
  | .ok documents => .ok (.ofDocuments feed documents)
  | .error detail => .error ⟨feed, pathIn directory (Config.exportName feed) ++ ": " ++ detail⟩

/-- A feed's export as a source of pages. The state is the archive that was read last, and the
number of requests so far; at request `n` the file holds `files n`. -/
def source (directory feed : String) (files : Nat → FileContent) : Source (Archive × Nat) where
  fetch before limit := fun (snapshot, requests) =>
    match before with
    | some _ => (.ok (snapshot.page before limit), (snapshot, requests + 1))
    | none =>
      match load directory feed (files requests) with
      | .ok fresh => (.ok (fresh.page before limit), (fresh, requests + 1))
      | .error fault => (.error fault, (snapshot, requests + 1))

/-- The entities in their file. Without a file there are none; the path is the fault of one that
cannot be used. -/
def entities (directory : String) (content : FileContent) : Except String Entities :=
  match content with
  | .missing => .ok .empty
  | content =>
    (content.decode Entities.decoder).mapError fun detail =>
      pathIn directory Config.entitiesName ++ ": " ++ detail

end Export

end Gazette
