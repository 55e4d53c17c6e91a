import Gazette.Body.Render
import Gazette.Document.Basic
import Gazette.Time.Zone

/-!
# Posts

A post is a document as the site shows it: a card with a byline above the body, a title if the
message has a heading, and a description in plain text.
-/

namespace Gazette

structure PostOptions where
  /-- The zone in which bylines are dated. -/
  zone : Time.Zone
  /-- The ids of documents that are never shown. -/
  blacklist : List String

structure Post where
  sourceId : String
  author : String
  createdAt : Time.Instant
  editedAt : Option Time.Instant
  /-- The byline, a line break and the body. -/
  card : String
  attachmentCount : Nat
  /-- Where the attachments that may be shown are. -/
  attachments : List String
  title : Option String
  description : String
  /-- The date of the byline. -/
  date : String
  deriving Repr, DecidableEq, Inhabited

namespace Post

def descriptionLimit : Nat := 300

/-- The words of a plain text with single spaces between them, cut off when they are too long. -/
def describe (plain : List Char) : List Char :=
  let joined := [' '].intercalate (Text.words plain)
  if joined.length ≤ descriptionLimit then joined
  else Text.trimEnd (joined.take descriptionLimit) ++ ['…']

def byline (author date : String) : Markup :=
  .plain "i" [.text "Written by ", .plain "b" [.text author], .text " on ", .plain "b" [.text date]]

def cardMarkup (author date body : String) : List Markup :=
  [byline author date, .void "br" [], .verbatim body]

/-- The byline and the body with a line break between them, which is printed as other void elements
are and then written as message bodies have it. -/
def cardText (author date body : String) : List Char :=
  Text.replaceFirst "<br>".toList Markup.lineBreakText (Markup.printAll (cardMarkup author date body))

def titleOrDate (post : Post) : String := post.title.getD post.date

def ofDocument (resolver : Resolver) (options : PostOptions) (document : Document) :
    Post × String :=
  let body := String.ofList (Body.render resolver document.nodes)
  let plain := Node.plainOfAll resolver document.nodes
  let author := document.author.name
  let date := String.ofList (options.zone.bylineDate document.createdAt)
  ({ sourceId := document.id
     author := author
     createdAt := document.createdAt
     editedAt := document.editedAt
     card := String.ofList (cardText author date body)
     attachmentCount := document.attachments.length
     attachments := (document.attachments.map Attachment.displayUrl).filter isSafeImage
     title := (Body.title? plain).map String.ofList
     description := String.ofList (describe plain)
     date := date }, body)

end Post

end Gazette
