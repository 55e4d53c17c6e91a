import Gazette.Site.Serve

/-!
# Command line

Serves a site that is configured by the environment. The exports are read from the site's
directory, and every line of standard input is a request: a method, a space and a target. Each
answer is printed as its status, its headers, an empty line and its body.
-/

namespace Gazette.Main

def variableNames : List String :=
  ["NEWS_BIND_ADDR", "NEWS_BASE_URL", "NEWS_SITE_NAME", "NEWS_EXPORT_DIR", "NEWS_FEEDS",
    "NEWS_BLACKLIST", "NEWS_TIMEZONE", "NEWS_NOTIFY_TOKENS", "NEWS_REFRESH_SECS",
    "NEWS_REBUILD_TIMEOUT_SECS"]

def readEnvironment : IO (Table String) :=
  variableNames.filterMapM fun name => do return (← IO.getEnv name).map fun value => (name, value)

def readFile (directory name : String) : IO FileContent := do
  try
    return .bytes (← IO.FS.readBinFile (Export.pathIn directory name)).data.toList
  catch
    | .noFileOrDirectory .. => return .missing
    | _ => return .folder

def readDirectory (config : Config) : IO Directory := do
  let files : Table FileContent ← config.feeds.mapM fun feed => do
    let name := Config.exportName feed
    return (name, ← readFile config.exportDirectory name)
  return fun name => .content ((files.lookup name).getD .missing)

def requestOf (line : String) : Request :=
  let words := Text.words line.toList
  ⟨String.ofList (words.headD []), String.ofList (words.getD 1 ['/']), [], []⟩

def textOf (response : Response) : String :=
  let headers := response.headers.map fun (name, value) => name ++ ": " ++ value ++ "\n"
  Text.decimal response.status ++ "\n" ++ String.join headers ++ "\n" ++ response.body ++ "\n"

partial def serve (site : Site) (input output : IO.FS.Stream) : IO Unit := do
  let line ← input.getLine
  if line.isEmpty then return
  let directory ← readDirectory site.config
  let (site, response) := site.answer directory (requestOf line)
  output.putStrLn (textOf response)
  output.flush
  serve site input output

def run (config : Config) : IO UInt32 := do
  let content ← readFile config.exportDirectory Config.entitiesName
  match Export.entities config.exportDirectory content with
  | .error message => do
    IO.eprintln ("Error: " ++ message)
    return 1
  | .ok entities => do
    let site := (Site.new config entities).refresh (← readDirectory config)
    serve site (← IO.getStdin) (← IO.getStdout)
    return 0

end Gazette.Main

open Gazette in
def main : IO UInt32 := do
  let environment ← Main.readEnvironment
  match Config.ofEnvironment fun name => environment.lookup name with
  | .error fault => do
    IO.eprintln ("Error: " ++ fault.message)
    return 1
  | .ok config => Main.run config
