import Gazette.Node.Wire
import Gazette.Time.Reader

/-!
# Documents

A document is a message of a channel with its author, its times and its attachments.
-/

namespace Gazette

structure Author where
  id : String
  displayName : Option String
  username : String
  deriving Repr, DecidableEq

namespace Author

def name (author : Author) : String :=
  match author.displayName with
  | some name => if name = "" then author.username else name
  | none => author.username

open Json Json.Decoder in
def decoder : Decoder Author :=
  record "an author" ⟨"", none, ""⟩
    [.required "id" text fun id author => { author with id },
      .lenient "display_name" text fun displayName author => { author with displayName },
      .required "username" text fun username author => { author with username }]

end Author

structure Attachment where
  url : String
  proxyUrl : Option String
  filename : Option String
  deriving Repr, DecidableEq

namespace Attachment

/-- Where the file is shown from: the proxy, if there is one. -/
def displayUrl (attachment : Attachment) : String := attachment.proxyUrl.getD attachment.url

open Json Json.Decoder in
def decoder : Decoder Attachment :=
  record "an attachment" ⟨"", none, none⟩
    [.required "url" text fun url attachment => { attachment with url },
      .lenient "proxy_url" text fun proxyUrl attachment => { attachment with proxyUrl },
      .lenient "filename" text fun filename attachment => { attachment with filename }]

end Attachment

structure Document where
  id : String
  channelId : Option String
  author : Author
  createdAt : Time.Instant
  editedAt : Option Time.Instant
  content : String
  nodes : List Node
  attachments : List Attachment

namespace Document

def tombstones : List String := ["[deleted]", "[original message deleted]"]

def isTombstone (document : Document) : Bool := tombstones.contains document.content

def blank : Document := ⟨"", none, ⟨"", none, ""⟩, ⟨0, 0⟩, none, "", [], []⟩

instance : Inhabited Document := ⟨blank⟩

end Document

open Json Json.Decoder

def Time.Instant.decoder : Decoder Time.Instant :=
  parsed fun text => Time.Instant.read? text.toList

def Document.decoder : Decoder Document :=
  record "a document" .blank
    [.required "id" text fun id document => { document with id },
      .lenient "channel_id" text fun channelId document => { document with channelId },
      .required "author" Author.decoder fun author document => { document with author },
      .required "created_at" Time.Instant.decoder
        fun createdAt document => { document with createdAt },
      .lenient "edited_at" Time.Instant.decoder
        fun editedAt document => { document with editedAt },
      .required "content" text fun content document => { document with content },
      .defaulted "ast" Node.listDecoder fun nodes document => { document with nodes },
      .defaulted "attachments" Attachment.decoder.list
        fun attachments document => { document with attachments }]

end Gazette
