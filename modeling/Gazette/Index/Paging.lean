/-!
# Paging

A list is cut into pages of one size, which are counted from one. Positions are words of 64 bits,
and what would go beyond the last one stays there, so that no page number is out of bounds.
-/

namespace Gazette.Paging

def largest : Nat := Nat.pow 2 64 - 1

/-- The number of a page that was asked for; below the first page there is none. -/
def pageNumber (page : Int) : Nat := (max page 1).toNat

def pageStart (page : Int) (size : Nat) : Nat := min ((pageNumber page - 1) * size) largest

def pageEnd (page : Int) (size length : Nat) : Nat :=
  min (min (pageStart page size + size) largest) length

def paginate {α : Type} (items : List α) (page : Int) (size : Nat) : List α :=
  if items.length ≤ pageStart page size then []
  else (items.take (pageEnd page size items.length)).drop (pageStart page size)

def pageCount (count size : Nat) : Nat := (count + (max size 1 - 1)) / max size 1

def hasNext (page : Int) (count size : Nat) : Bool := pageNumber page < pageCount count size

end Gazette.Paging
