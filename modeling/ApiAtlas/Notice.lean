import ApiAtlas.Symbol.Mixin

/-!
# Notices

Operations tell what they did besides their result by notices. A notice is a
value with a level and a wording; whoever runs the operation decides which
levels are shown.
-/

set_option autoImplicit false

namespace ApiAtlas

/-- How much a notice matters. -/
inductive NoticeLevel
  | warning
  | information
  | detail
deriving DecidableEq, Repr

/-- The name of a level. -/
def NoticeLevel.name : NoticeLevel → String
  | warning => "WARN"
  | information => "INFO"
  | detail => "DEBUG"

/-- Whether notices of the first level are shown to one who asked for the second. -/
def NoticeLevel.isShownAt : NoticeLevel → NoticeLevel → Bool
  | warning, _ => true
  | information, asked => asked ≠ .warning
  | detail, asked => asked = .detail

/-- What an operation tells besides its result. -/
inductive Notice
  /-- A reader refused the value of a mixin, which is dropped. -/
  | droppedMixin (key : String) (error : MixinError)
  /-- A graph holds two symbols with one identifier. -/
  | repeatedSymbol (identifier module : String)
  /-- A symbol stands under a key that is not its identifier. -/
  | skippedSymbol (key source identifier : String)
  /-- A graph without symbols holds a relationship. -/
  | droppedRelationship (first second source : String)
  | mergedGraph (source module : String) (symbols relationships : Nat)
  | routedGraph (source module : String) (isMain : Bool)
  | madeGroup (identifier : String) (path : List String) (members : Nat)
  | groupedModule (module : String) (groups : Nat)
  /-- There is no graph file below a directory. -/
  | barrenDirectory (path : String)
  | loadingGraphs (count : Nat)
  | groupedFile (path : String) (groups : Nat)
  | finished (modules symbols groups diagnostics : Nat)
deriving DecidableEq, Repr

namespace Notice

/-- How much the notice matters. -/
def level : Notice → NoticeLevel
  | droppedMixin .. | repeatedSymbol .. | skippedSymbol .. | barrenDirectory .. => .warning
  | finished .. | loadingGraphs .. => .information
  | droppedRelationship .. | mergedGraph .. | routedGraph .. | madeGroup .. | groupedModule ..
  | groupedFile .. => .detail

/-- A disagreement of a key and an identifier, in words. -/
def mismatchMessage (expected found : String) : String :=
  s!"Identifier mismatch: expected `{expected}`, found `{found}`"

/-- The notice in words. -/
def message : Notice → String
  | droppedMixin key error => s!"Dropping undecodable mixin `{key}`: {error.message}"
  | repeatedSymbol identifier module =>
    s!"Duplicate symbol `{identifier}` in graph for module `{module}`; keeping the last one"
  | skippedSymbol key source identifier =>
    s!"Skipping symbol `{key}` from `{source}`: {mismatchMessage key identifier}"
  | droppedRelationship first second source =>
    s!"Dropping relationship {first} -> {second} from `{source}`: graph has no symbols"
  | mergedGraph source module symbols relationships =>
    s!"Merged `{source}` into `{module}`: {symbols} symbols, {relationships} relationships"
  | routedGraph source module isMain =>
    let role := if isMain then "main" else "extension"
    s!"Merging `{source}` ({role}) into `{module}`"
  | madeGroup identifier path members =>
    let place := "/".intercalate path
    s!"Overload group `{identifier}` for {place} ({members} members)"
  | groupedModule module groups => s!"`{module}`: {groups} overload group(s)"
  | barrenDirectory path => s!"No symbol graphs in {path}"
  | loadingGraphs count => s!"Loading {count} symbol graph(s)"
  | groupedFile path groups => s!"{path}: {groups} overload group(s)"
  | finished modules symbols groups diagnostics =>
    s!"Loaded {modules} module(s), {symbols} symbol(s), {groups} overload group(s), " ++
      s!"{diagnostics} diagnostic(s)"

end Notice

end ApiAtlas
