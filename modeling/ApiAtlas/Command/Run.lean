import ApiAtlas.Command.Arguments
import ApiAtlas.Files.Tree
import ApiAtlas.Overload.Graph
import ApiAtlas.Report
import ApiAtlas.Session.ConfigText
import ApiAtlas.Text.Split

/-!
# Running the command

The command reads its settings, finds the graph files, takes their graphs into a
session one after the other and prints a report (`run`). Settings come first:
nothing is looked for before they are known to be of use. The first thing that
goes wrong ends the command.

An input that is a directory stands for all graph files below it, in the order
of their paths, and every other input for itself.
-/

set_option autoImplicit false

namespace ApiAtlas.Command

/-- What went wrong. -/
inductive CommandError
  | unreadableConfig (path : String)
  | malformedToml (path : String)
  | malformedJson (path : String)
  | invalidConfig (problem : ConfigProblem)
  | missingInput (path : String)
  | undecodableGraph (path : String) (error : GraphError)
deriving DecidableEq, Repr

/-- What went wrong, in words. -/
def CommandError.message : CommandError → String
  | unreadableConfig path => s!"Failed to read config {path}"
  | malformedToml path => s!"Invalid TOML config {path}"
  | malformedJson path => s!"Invalid JSON config {path}"
  | invalidConfig problem => problem.message
  | missingInput path => s!"Input not found: {path}"
  | undecodableGraph path _ => s!"Failed to decode symbol graph {path}"

/-- What went wrong, in one line: a path that goes on behind the end of a line is cut there. -/
def CommandError.headline (error : CommandError) : String :=
  Text.firstLine error.message

/-- How the command ended. -/
inductive Outcome
  | printed (text : String)
  | refused (error : UsageError)
  | failed (error : CommandError)
deriving DecidableEq, Repr

namespace Outcome

/-- The status with which the command ends. -/
def status : Outcome → Nat
  | printed _ => 0
  | failed _ => 1
  | refused _ => 2

/-- What the command prints. -/
def text : Outcome → String
  | printed text => text
  | failed _ | refused _ => ""

/-- What went wrong while the command was running. -/
def error? : Outcome → Option CommandError
  | failed error => some error
  | printed _ | refused _ => none

end Outcome

/-- How the command ended, and what it told on the way. -/
structure Execution where
  outcome : Outcome
  notices : List Notice := []
deriving DecidableEq, Repr

/-! ## Settings -/

/-- The settings in a file: TOML if it is named so, else JSON. -/
def readConfig (files : Files) (path : String) : Except CommandError SessionConfig :=
  match files path with
  | some (.file content) =>
    match Text.textOfGlyphs? (Text.decode content) with
    | none => .error (.unreadableConfig path)
    | some text =>
      if Path.extension? path = some "toml" then
        (SessionConfig.ofTomlText? text).elim (.error (.malformedToml path)) .ok
      else
        (SessionConfig.ofJsonText? text).elim (.error (.malformedJson path)) .ok
  | _ => .error (.unreadableConfig path)

/-- Settings with the options of an invocation put over them. -/
def override (invocation : Invocation) (config : SessionConfig) : SessionConfig :=
  { extensionHome := invocation.extensionHome.getD config.extensionHome
    groupsOverloads := invocation.has .groupOverloads || config.groupsOverloads
    languages :=
      if invocation.languages = [] then config.languages
      else some (KeySet.ofList invocation.languages) }

/-- The session of an invocation, into which nothing has been taken in. -/
def openSession (files : Files) (invocation : Invocation) : Except CommandError Session := do
  let config ←
    match invocation.config with
    | some path => readConfig files path
    | none => .ok {}
  (Session.start (override invocation config)).mapError .invalidConfig

/-! ## Graph files -/

/-- A file with the path under which it was found. -/
structure FoundFile where
  path : String
  content : FileContent
deriving DecidableEq, Repr

/-- Whether a name is one of a graph file. -/
def isGraphFile (name : String) : Bool :=
  (Text.withoutEnding? ".symbols.json" name).isSome

/-- The graph files below a directory in the order of their paths. -/
def graphFilesBelow (directory : String) (files : Table (List String) FileContent) :
    List FoundFile :=
  (files.entries.filter fun entry => (entry.1.getLast?.map isGraphFile).getD false).map
    fun entry => { path := entry.1.foldl Path.join directory, content := entry.2 }

/-- The graph files that an input stands for. -/
def filesOfInput (files : Files) (input : String) : Except CommandError (List FoundFile) :=
  match files input with
  | some (.file content) => .ok [{ path := input, content }]
  | some (.directory below) => .ok (graphFilesBelow input below)
  | none => .error (.missingInput input)

/-- The graph files that inputs stand for. -/
def findFiles (files : Files) (inputs : List String) : Except CommandError (List FoundFile) :=
  (inputs.mapM (filesOfInput files)).map List.flatten

/-- The notices about finding graph files, up to the first input that is missing. -/
def findNotices (files : Files) : List String → List Notice
  | [] => []
  | input :: rest =>
    match filesOfInput files input with
    | .ok [] => .barrenDirectory input :: findNotices files rest
    | .ok _ => findNotices files rest
    | .error _ => []

/-! ## Graphs -/

/-- The session once the graph in a file has been taken in, and what was told. -/
def takeIn (invocation : Invocation) (session : Session) (file : FoundFile) :
    Except CommandError Session × List Notice :=
  let (result, readNotices) := SymbolGraph.read {} (.ofBytes file.content)
  match result with
  | .error error => (.error (.undecodableGraph file.path error), readNotices)
  | .ok read =>
    let grouping := Overload.groupGraph read
    let (graph, groupNotices) :=
      if invocation.has .groupEachGraph then
        (grouping.graph, [.groupedFile file.path grouping.count])
      else
        (read, [])
    let role := GraphRole.ofFile graph.module file.path
    (.ok (session.merge graph file.path role),
      readNotices ++ groupNotices ++ session.mergeNotices graph file.path role)

/-- The session once the graphs in files have been taken in, and what was told. -/
def takeInAll (invocation : Invocation) (session : Session) :
    List FoundFile → Except CommandError Session × List Notice
  | [] => (.ok session, [])
  | file :: rest =>
    match takeIn invocation session file with
    | (.error error, notices) => (.error error, notices)
    | (.ok next, notices) =>
      let (result, further) := takeInAll invocation next rest
      (result, notices ++ further)

/-! ## The command -/

/-- The report as it is printed. -/
def printed (invocation : Invocation) (report : Report) : String :=
  if invocation.has .json then
    (if invocation.has .pretty then report.encode.pretty else report.encode.compact) ++ "\n"
  else
    report.markdown

/-- Runs an invocation. -/
def runInvocation (files : Files) (invocation : Invocation) : Execution :=
  match openSession files invocation with
  | .error error => { outcome := .failed error }
  | .ok session =>
    let searched := findNotices files invocation.inputs
    match findFiles files invocation.inputs with
    | .error error => { outcome := .failed error, notices := searched }
    | .ok found =>
      let before := searched ++ [.loadingGraphs found.length]
      match takeInAll invocation session found with
      | (.error error, notices) => { outcome := .failed error, notices := before ++ notices }
      | (.ok full, notices) =>
        { outcome := .printed (printed invocation (.ofLoaded full.finish))
          notices := before ++ notices ++ full.finishNotices (Session.grouping full.config) }

/-- The name and the version of the command. -/
def versionText : String :=
  "symgraph 0.1.1\n"

/-- How the command is used. -/
def helpText : String :=
  "Unify symbol graphs into one graph per module\n\n" ++
    "Usage: symgraph [OPTIONS] <INPUTS>...\n\n" ++
    "Options:\n" ++
    "      --config <CONFIG>                  Collector configuration, JSON or TOML\n" ++
    "      --extension-association <MODULE>   extended or extending\n" ++
    "      --overload-groups                  Build overload groups after merging\n" ++
    "      --restrict-language <LANG>         Only group this language (repeatable)\n" ++
    "      --per-graph-overloads              Also group overloads inside each graph\n" ++
    "      --json                             Print the report as JSON\n" ++
    "      --pretty                           Pretty-print JSON output\n" ++
    "  -v, --verbose                          Tell more\n" ++
    "      --quiet                            Tell only warnings and errors\n" ++
    "  -h, --help                             Print help\n" ++
    "  -V, --version                          Print version\n"

/-- Runs the command. -/
def run (files : Files) (arguments : List String) : Execution :=
  match Request.read arguments with
  | .error error => { outcome := .refused error }
  | .ok .version => { outcome := .printed versionText }
  | .ok .help => { outcome := .printed helpText }
  | .ok (.run invocation) => runInvocation files invocation

/-- The level of the notices that are shown. -/
def shownLevel (arguments : List String) : NoticeLevel :=
  match Request.read arguments with
  | .ok (.run invocation) =>
    if invocation.has .quiet || invocation.has .json then .warning
    else if invocation.has .verbose then .detail
    else .information
  | _ => .information

end ApiAtlas.Command
