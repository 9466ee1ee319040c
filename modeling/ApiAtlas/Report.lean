import ApiAtlas.Session.Basic

/-!
# Reports

A report tells what a session has come to: for every module how much it holds,
in which views, how its relationships are spread over the views, and what was
wrong. It is written as JSON (`Report.encode`) or as a text with headings and
tables (`Report.markdown`).
-/

set_option autoImplicit false

namespace ApiAtlas

/-- How many relationships the same views declare. -/
structure RelationshipCount where
  views : List String
  count : Nat
deriving DecidableEq, Repr

/-- What a session has come to in one module. -/
structure ModuleReport where
  name : String
  symbols : Nat
  views : List String
  relationshipCounts : List RelationshipCount
  orphans : Nat
  /-- The identifiers of the groups of overloads. -/
  groups : List String
  sources : List String
deriving DecidableEq, Repr

/-- What a session has come to. -/
structure Report where
  modules : List ModuleReport
  diagnostics : List Diagnostic
deriving DecidableEq, Repr

namespace RelationshipCount

/-- Counts the relationships of a group. -/
def ofGroup (group : RelationshipGroup) : RelationshipCount :=
  { views := group.views.map View.text, count := group.relationships.length }

/-- Writes a count. -/
def encode (counted : RelationshipCount) : Json :=
  .object
    [("selectors", .ofTexts counted.views), ("relationships", .ofCount counted.count)]

/-- The row of a table. -/
def row (counted : RelationshipCount) : String :=
  let views := "`, `".intercalate counted.views
  s!"| `{views}` | `{counted.count}` |\n"

end RelationshipCount

namespace ModuleReport

/-- Reports on the graph of a module. -/
def ofGraph (graph : UnifiedGraph) : ModuleReport :=
  { name := graph.moduleName
    symbols := graph.symbols.size
    views := graph.views.map View.text
    relationshipCounts := graph.relationshipGroups.map .ofGroup
    orphans := graph.orphanRelationships.length
    groups := graph.groups.toList
    sources := graph.sources.keys }

/-- Writes the report on a module. -/
def encode (report : ModuleReport) : Json :=
  .object
    [("name", .text report.name), ("symbols", .ofCount report.symbols),
      ("selectors", .ofTexts report.views),
      ("relationship_groups", .array (report.relationshipCounts.map RelationshipCount.encode)),
      ("orphans", .ofCount report.orphans), ("overload_groups", .ofTexts report.groups),
      ("sources", .ofTexts report.sources)]

/-- The table of relationships, if there are some. -/
def relationshipTable (report : ModuleReport) : String :=
  if report.relationshipCounts.isEmpty then
    ""
  else
    "| views | relationships |\n|---|---:|\n" ++
      String.join (report.relationshipCounts.map RelationshipCount.row) ++ "\n"

/-- The chapter on a module. -/
def chapter (report : ModuleReport) : String :=
  let views := "`, `".intercalate report.views
  s!"## {report.name}\n\n" ++
    s!"- Symbols: `{report.symbols}`\n" ++
    s!"- Views: `{views}`\n" ++
    s!"- Orphan relationships: `{report.orphans}`\n" ++
    s!"- Overload groups: `{report.groups.length}`\n" ++
    s!"- Sources: `{report.sources.length}`\n\n" ++
    report.relationshipTable

end ModuleReport

namespace Report

/-- Reports on what a session has come to. -/
def ofLoaded (loaded : Loaded) : Report :=
  { modules := loaded.graphs.values.map .ofGraph, diagnostics := loaded.diagnostics }

/-- Writes a report. -/
def encode (report : Report) : Json :=
  .object
    [("modules", .array (report.modules.map ModuleReport.encode)),
      ("diagnostics", .array (report.diagnostics.map Diagnostic.encode))]

/-- The chapter on what was wrong, if something was. -/
def diagnosticChapter (report : Report) : String :=
  if report.diagnostics.isEmpty then
    ""
  else
    "## Diagnostics\n\n" ++
      String.join (report.diagnostics.map fun diagnostic => s!"- {diagnostic.message}\n") ++ "\n"

/-- The report as a text with headings and tables. -/
def markdown (report : Report) : String :=
  "# Symbol graph report\n\n" ++
    s!"- Modules: `{report.modules.length}`\n" ++
    s!"- Diagnostics: `{report.diagnostics.length}`\n\n" ++
    String.join (report.modules.map ModuleReport.chapter) ++ report.diagnosticChapter

end Report

end ApiAtlas
