import Gazette.Document.History
import Gazette.Site.Assets
import Gazette.Site.Http

/-!
# Faults of the site

What a site answers when it cannot answer what was asked. The reader is told what is wrong with the
request, but not what is wrong with the site.
-/

namespace Gazette

/-- Why a request is not answered. -/
inductive SiteFault where
  /-- The request cannot be understood. -/
  | badRequest (detail : String)
  /-- There is no such feed or post. -/
  | notFound (detail : String)
  /-- The request does not come with a token that is known. -/
  | unauthorized
  /-- A rebuild failed or took too long. -/
  | unavailable (detail : String)
  | internal (detail : String)
  deriving Repr, DecidableEq

namespace SiteFault

def ofHistory (fault : HistoryFault) : SiteFault := unavailable fault.message

def message : SiteFault → String
  | badRequest detail => "bad request: " ++ detail
  | notFound detail => "not found: " ++ detail
  | unauthorized => "unauthorized"
  | unavailable detail => "unavailable: " ++ detail
  | internal detail => "internal error: " ++ detail

def status : SiteFault → Nat
  | badRequest _ => 400
  | notFound _ => 404
  | unauthorized => 401
  | unavailable _ => 503
  | internal _ => 500

def title : SiteFault → String
  | badRequest _ => "Bad Request"
  | notFound _ => "Not Found"
  | unauthorized => "Unauthorized"
  | unavailable _ => "Service Unavailable"
  | internal _ => "Internal Error"

def explanation : SiteFault → String
  | badRequest detail => "The request could not be understood: " ++ detail
  | notFound detail => "The requested page was not found: " ++ detail
  | unauthorized => "A valid bearer token is required."
  | unavailable _ => "The feed could not be refreshed. Please try again later."
  | internal _ => "An internal error occurred. Please try again later."

def page (fault : SiteFault) : List Markup :=
  [.verbatim "<!DOCTYPE html>",
    .element "html" [.value "lang" "en"]
      [.plain "head"
        [.void "meta" [.value "charset" "utf-8"],
          .void "meta"
            [.value "name" "viewport", .value "content" "width=device-width, initial-scale=1"],
          .plain "title" [.text fault.title],
          .void "meta" [.value "name" "robots", .value "content" "noindex"],
          .plain "style" [.verbatim Assets.errorStyle]],
      .plain "body"
        [.classed "main" "error-page"
          [.plain "h1" [.text fault.title],
            .plain "p" [.text fault.explanation],
            .link "/" [.text "Back to the front page"]]]]]

def response (fault : SiteFault) : Response :=
  let page := Response.page fault.status fault.page
  match fault with
  | unauthorized => page.withHeader "www-authenticate" "Bearer"
  | _ => page

end SiteFault

end Gazette
