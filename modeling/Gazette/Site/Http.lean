import Gazette.Markup.Basic
import Gazette.Text.Digits
import Gazette.Text.Part
import Gazette.Text.Utf8

/-!
# Requests and responses

What a site is asked and what it answers. The headers of a response are named in lowercase, and each
name occurs once.
-/

namespace Gazette

structure Request where
  method : String
  /-- The path and the query, as they were sent. -/
  target : String
  headers : List (String × String)
  body : List UInt8
  deriving Repr, DecidableEq

namespace Request

def withoutFragment (request : Request) : List Char := request.target.toList.takeWhile (· != '#')

def withoutHost (request : Request) : List Char :=
  match request.withoutFragment with
  | '/' :: rest => '/' :: rest
  | target =>
    match Text.behind? "://".toList target with
    | some rest => rest.dropWhile fun c => c != '/' && c != '?'
    | none => target

theorem withoutHost_of_slash {request : Request} {rest : List Char}
    (h : request.withoutFragment = '/' :: rest) : request.withoutHost = '/' :: rest := by
  simp [withoutHost, h]

/-- The path, which ends at a question mark. Behind a host it is a slash if it is not there. -/
def path (request : Request) : List Char :=
  match request.withoutHost.takeWhile (· != '?') with
  | [] => ['/']
  | path => path

def query (request : Request) : List Char :=
  (request.withoutHost.dropWhile (· != '?')).drop 1

/-- The number of bytes that a body may have: two mebibytes. -/
def bodyLimit : Nat := 2 * 1024 * 1024

/-- The first header of a name, whatever its case. -/
def header? (request : Request) (name : String) : Option String :=
  (request.headers.find? fun header =>
    header.1.toList.map Char.toLower == name.toList.map Char.toLower).map Prod.snd

end Request

structure Response where
  status : Nat
  headers : List (String × String)
  body : String
  deriving Repr, DecidableEq, Inhabited

namespace Response

/-- An answer without body and headers. -/
def bare (status : Nat) : Response := ⟨status, [], ""⟩

def typed (status : Nat) (contentType body : String) : Response :=
  ⟨status, [("content-type", contentType)], body⟩

def htmlType : String := "text/html; charset=utf-8"

def textType : String := "text/plain; charset=utf-8"

def page (status : Nat) (markup : List Markup) : Response :=
  typed status htmlType (Markup.render markup)

def text (status : Nat) (body : String) : Response := typed status textType body

def json (body : String) : Response := typed 200 "application/json" body

def isHeaderChar (c : Char) : Bool := (0x20 ≤ c.toNat && c.toNat != 0x7F) || c == '\t'

/-- Sends the reader on, if the location can be written in a header. -/
def redirect (location : String) : Response :=
  if location.toList.all isHeaderChar then ⟨303, [("location", location)], ""⟩
  else text 500 "failed to parse header value"

def withHeader (response : Response) (name value : String) : Response :=
  { response with headers := response.headers ++ [(name, value)] }

/-! ### Tags -/

/-- The tag of a body: the number of its bytes between quotes. -/
def tag (fingerprint : List UInt8 → UInt64) (body : String) : String :=
  let number := fingerprint (Text.Utf8.encode body.toList)
  String.ofList ('"' :: Text.hexPadded 16 number.toNat ++ ['"'])

end Response

end Gazette
