import ApiAtlas.Overload.Unified
import ApiAtlas.Session.Config
import ApiAtlas.Session.Role

/-!
# Sessions

A session takes in graphs one after the other, each with a tag of its source and
its role, and puts those of one module together in one unified graph. Where the
symbols of an extending graph go depends on the settings (`Session.home`).

At the end the overloads of every module are grouped, if that is asked for, and
then the orphans are collected (`finishGraph`). What was wrong on the way is
kept as diagnostics: symbols under a wrong key in the order in which they came,
then the orphans module by module.
-/

set_option autoImplicit false

namespace ApiAtlas

/-- Something that was wrong with the graphs of a session. -/
inductive Diagnostic
  /-- A symbol stands under a key that is not its identifier, and was left out. -/
  | identifierMismatch (module source : String) (mismatch : IdentifierMismatch)
  /-- No end of so many relationships is known. -/
  | orphanRelationships (module : String) (count : Nat)
deriving DecidableEq, Repr

namespace Diagnostic

/-- What was wrong, in words. -/
def message : Diagnostic → String
  | identifierMismatch module source mismatch =>
    s!"{module}: symbol keyed `{mismatch.expected}` in `{source}` has identifier " ++
      s!"`{mismatch.found}`"
  | orphanRelationships module count => s!"{module}: {count} orphan relationship(s)"

/-- Writes a diagnostic. -/
def encode : Diagnostic → Json
  | identifierMismatch module source mismatch =>
    .object
      [("kind", .text "identifier_mismatch"), ("module", .text module), ("source", .text source),
        ("expected", .text mismatch.expected), ("found", .text mismatch.found)]
  | orphanRelationships module count =>
    .object
      [("kind", .text "orphan_relationships"), ("module", .text module),
        ("count", .ofCount count)]

end Diagnostic

/-- What has been taken in so far. -/
structure Session where
  config : SessionConfig := {}
  /-- The unified graphs by the names of their modules. -/
  graphs : Table String UnifiedGraph := Table.empty
  diagnostics : List Diagnostic := []
deriving DecidableEq

/-- What a session has come to. -/
structure Loaded where
  graphs : Table String UnifiedGraph
  diagnostics : List Diagnostic
deriving DecidableEq

namespace Session

/-- A session with settings, unless something is wrong with them. -/
def start (config : SessionConfig) : Except ConfigProblem Session :=
  match config.problem? with
  | some problem => .error problem
  | none => .ok { config }

/-! ## Taking in graphs -/

/-- The module to which the symbols of a graph go. -/
def home (config : SessionConfig) (graph : SymbolGraph) (role : GraphRole) : String :=
  match role.extendedModule?, config.extensionHome with
  | some extended, .extended => extended
  | _, _ => graph.module.name

/-- The session once a graph has been taken in. -/
def merge (session : Session) (graph : SymbolGraph) (source : String) (role : GraphRole) :
    Session :=
  let module := home session.config graph role
  { session with
    graphs := session.graphs.alter module fun held =>
      some ((held.getD (.empty module)).merge graph source role.isMain)
    diagnostics := session.diagnostics ++
      (UnifiedGraph.mismatches graph).map (.identifierMismatch module source) }

/-- The notices about taking in a graph. -/
def mergeNotices (session : Session) (graph : SymbolGraph) (source : String) (role : GraphRole) :
    List Notice :=
  let module := home session.config graph role
  .routedGraph source module role.isMain :: UnifiedGraph.mergeNotices module graph source

/-- The session once the graph in a file has been taken in. -/
def mergeFile (session : Session) (graph : SymbolGraph) (file : String) : Session :=
  session.merge graph file (.ofFile graph.module file)

/-! ## Finishing -/

/-- Which overloads are grouped at the end: none, or those of the languages of a scope. -/
abbrev FinalGrouping : Type :=
  Option Overload.Scope

/-- What the settings say about grouping. -/
def grouping (config : SessionConfig) : FinalGrouping :=
  if config.groupsOverloads then some config.languages else none

/-- The graph of a module with its overloads grouped. -/
def groupGraph (grouping : FinalGrouping) (graph : UnifiedGraph) : UnifiedGraph :=
  match grouping with
  | some scope => Overload.groupUnified scope graph
  | none => graph

/-- The graph of a module at the end. -/
def finishGraph (grouping : FinalGrouping) (graph : UnifiedGraph) : UnifiedGraph :=
  (groupGraph grouping graph).collectOrphans

/-- The diagnostic about the orphans of a module, if there are some. -/
def orphanDiagnostic? (module : String) (graph : UnifiedGraph) : Option Diagnostic :=
  if graph.orphanRelationships.isEmpty then none
  else some (.orphanRelationships module graph.orphanRelationships.length)

/-- What the session has come to. -/
def finishLoading (session : Session) (grouping : FinalGrouping) : Loaded :=
  let graphs := session.graphs.map fun _ graph => finishGraph grouping graph
  { graphs
    diagnostics := session.diagnostics ++
      graphs.entries.filterMap fun entry => orphanDiagnostic? entry.1 entry.2 }

/-- What the session has come to, with its own settings. -/
def finish (session : Session) : Loaded :=
  session.finishLoading (grouping session.config)

/-- The groups that are made at the end, module by module. -/
def finalGroups (session : Session) (scope : Overload.Scope) :
    List (String × List Overload.PlannedGroup) :=
  session.graphs.entries.map fun entry => (entry.1, Overload.groupsOf scope entry.2)

/-- The notices about grouping the overloads of all modules. -/
def groupingNotices (groups : List (String × List Overload.PlannedGroup)) : List Notice :=
  groups.flatMap fun entry =>
    entry.2.map Overload.PlannedGroup.notice ++ [.groupedModule entry.1 entry.2.length]

/-- The notices about finishing the session. -/
def finishNotices (session : Session) (grouping : FinalGrouping) : List Notice :=
  let groups :=
    match grouping with
    | some scope => finalGroups session scope
    | none => []
  let loaded := session.finishLoading grouping
  let symbols := loaded.graphs.values.foldl (fun sofar graph => sofar + graph.symbols.size) 0
  let groupCount := groups.foldl (fun sofar entry => sofar + entry.2.length) 0
  groupingNotices groups ++
    [.finished loaded.graphs.size symbols groupCount loaded.diagnostics.length]

end Session

end ApiAtlas
