import Gazette.Body.Compact
import Gazette.Body.Headings
import Gazette.Node.Html
import Gazette.Node.Plain

/-!
# Bodies

The body of a post is its message as markup: printed with separators, its headings promoted, and
made compact.
-/

namespace Gazette.Body

def raw (resolver : Resolver) (nodes : List Node) : List Char :=
  Markup.printAll (Node.htmlOfAll resolver nodes)

def render (resolver : Resolver) (nodes : List Node) : List Char :=
  compact (promote (raw resolver nodes))

end Gazette.Body
