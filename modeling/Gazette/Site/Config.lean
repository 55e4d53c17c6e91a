import Gazette.Index.Post
import Gazette.Site.Platform
import Gazette.Text.Number
import Gazette.Text.Quoted

/-!
# Configuration

A site is configured by variables of its environment, all of which may be missing. The first feed is
served at the root of the site, and every feed below a path of its own.
-/

namespace Gazette

structure Config where
  bindAddress : String
  /-- Where the site is found; it does not end in a slash. -/
  baseUrl : String
  siteName : String
  /-- The directory of the exports. -/
  exportDirectory : String
  /-- The names of the feeds, without repeats. -/
  feeds : List String
  /-- The ids of documents that are never shown. -/
  blacklist : List String
  zone : Time.Zone
  /-- The tokens of those who may announce changes. -/
  tokens : List String
  /-- After how many seconds all feeds are rebuilt; never, if zero. -/
  refreshSeconds : Nat
  /-- How many seconds a rebuild may take. -/
  timeoutSeconds : Nat
  /-- The numbers by which the bodies of responses are told apart. -/
  fingerprint : List UInt8 → UInt64 := Platform.builtIn.fingerprint

inductive ConfigFault where
  | feedName (name : String)
  | zone (name : String)
  | number (key value : String) (fault : Text.NumberFault)
  deriving Repr, DecidableEq

namespace ConfigFault

def message : ConfigFault → String
  | feedName name =>
    "feed name " ++ Text.quoted name ++
      " may only contain ASCII letters, digits, '-' and '_'"
  | zone name => "invalid NEWS_TIMEZONE " ++ Text.quoted name ++ ": failed to parse timezone"
  | number key value fault =>
    key ++ " must be a non-negative integer, got " ++ Text.quoted value ++ ": " ++ fault.message

end ConfigFault

namespace Config

/-! ### Reading variables -/

/-- The parts of a list between commas, trimmed, and without empty ones. -/
def commaList (value : String) : List String :=
  (((value.toList.splitOn ',').map Text.trim).filter (!·.isEmpty)).map String.ofList

def isFeedName (name : String) : Bool :=
  name.toList.all fun c => c.isAlphanum || c == '-' || c == '_'

/-- The feeds of a list; without any there is one of a name of its own. -/
def feedsOf (names : List String) : Except ConfigFault (List String) :=
  match names.find? (!isFeedName ·) with
  | some name => .error (.feedName name)
  | none => .ok (if names.isEmpty then ["news"] else names.eraseDups)

def zoneOf (platform : Platform) (name : String) : Except ConfigFault Time.Zone :=
  match platform.zone? name with
  | some zone => .ok zone
  | none => .error (.zone name)

/-- The number in a variable, if it is there and not blank. -/
def numberOf (environment : String → Option String) (key : String) (default : Nat) :
    Except ConfigFault Nat :=
  match environment key with
  | none => .ok default
  | some value =>
    let digits := Text.trim value.toList
    if digits.isEmpty then .ok default
    else (Text.readNat64 digits).mapError (.number key value)

def ofEnvironment (environment : String → Option String) (platform : Platform := .builtIn) :
    Except ConfigFault Config := do
  let value := fun key (default : String) => (environment key).getD default
  let baseUrl := value "NEWS_BASE_URL" "http://localhost:3000"
  let feeds ← feedsOf (commaList (value "NEWS_FEEDS" ""))
  let zone ← zoneOf platform (value "NEWS_TIMEZONE" "Europe/Berlin")
  let refreshSeconds ← numberOf environment "NEWS_REFRESH_SECS" 0
  let timeoutSeconds ← numberOf environment "NEWS_REBUILD_TIMEOUT_SECS" 120
  return {
    bindAddress := value "NEWS_BIND_ADDR" "0.0.0.0:3000"
    baseUrl := String.ofList (Text.dropTail (· == '/') baseUrl.toList)
    siteName := value "NEWS_SITE_NAME" "Newsdesk"
    exportDirectory := value "NEWS_EXPORT_DIR" "./export"
    feeds := feeds
    blacklist := (commaList (value "NEWS_BLACKLIST" "")).eraseDups
    zone := zone
    tokens := (commaList (value "NEWS_NOTIFY_TOKENS" "")).eraseDups
    refreshSeconds := refreshSeconds
    timeoutSeconds := max timeoutSeconds 1
    fingerprint := platform.fingerprint }

/-! ### Questions -/

def defaultFeed (config : Config) : String := config.feeds.headD "news"

def postOptions (config : Config) : PostOptions := ⟨config.zone, config.blacklist⟩

def feedPath (config : Config) (feed : String) : String :=
  if feed = config.defaultFeed then "" else "/f/" ++ feed

def feedUrl (config : Config) (feed : String) : String := config.baseUrl ++ config.feedPath feed

def exportName (feed : String) : String := feed ++ ".json"

def entitiesName : String := "entities.json"

end Config

end Gazette
