/-!
# Character data

A fragment of markup inside a document of another kind stands in sections of character data. A
section ends at the first `]]>`, so each of these in the fragment is cut between two sections.
-/

namespace Gazette.Markup

def cdataStart : List Char := "<![CDATA[".toList

def cdataEnd : List Char := "]]>".toList

def cutEnds : List Char → List Char
  | ']' :: ']' :: '>' :: rest => ']' :: ']' :: cdataEnd ++ cdataStart ++ '>' :: cutEnds rest
  | c :: rest => c :: cutEnds rest
  | [] => []

def cdata (fragment : List Char) : List Char := cdataStart ++ cutEnds fragment ++ cdataEnd

end Gazette.Markup
