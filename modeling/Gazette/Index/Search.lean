import Gazette.Index.Basic
import Gazette.Index.Paging
import Gazette.Text.Casing

/-!
# Searching

A query is looked for in the cards of the posts, behind their bylines. Neither case nor blanks
count. The query is escaped as the cards are, so that special characters can be looked for.
-/

namespace Gazette

namespace Search

open Text

/-- A text in lowercase and without blanks. -/
def normalize (s : List Char) : List Char := (lowercase s).filter (!isBlank ·)

def withoutByline (card : List Char) : List Char :=
  match after? "<i>".toList (trimStart card) with
  | some (_ :: rest) => (behind? "</i>".toList rest).getD card
  | _ => card

def needle (query : String) : List Char := Markup.escapeStrictly (normalize query.toList)

/-- The posts that match a query; nothing matches a query without text. -/
def hits (posts : List Post) (query : String) : List Post :=
  let needle := needle query
  if needle.isEmpty then []
  else posts.filter fun post => isPart needle (normalize (withoutByline post.card.toList))

end Search

namespace Index

def pageSize : Nat := 50

def page (index : Index) (page : Int) : List Post := Paging.paginate index.posts page pageSize

def search (index : Index) (query : String) (page : Int) : Nat × List Post :=
  let hits := Search.hits index.posts query
  (hits.length, Paging.paginate hits page pageSize)

end Index

end Gazette
