import ApiAtlas.Graph.Basic
import ApiAtlas.Unified.Symbol

/-!
# Unified graphs

A unified graph puts together all symbol graphs of one module. Its symbols are
unified symbols. A relationship belongs to a view, and within one view its link
tells it apart: another relationship with the same link only adds its mixins
(`UnifiedGraph.insertEdge`). So the relationships of all views are one table
from views and links to mixins.

A graph is merged symbol by symbol; a symbol under a key that is not its
identifier is left out and reported (`merge`, `mismatches`). A relationship goes
to the view of its source, else of its target, and else to all views of its
graph (`viewsOf`).

A relationship of which no end is known is an orphan. Collecting orphans sets
them apart, and those set apart before are looked at again (`collectOrphans`).
-/

set_option autoImplicit false

namespace ApiAtlas

/-- Relationships by view and link. -/
abbrev EdgeTable : Type :=
  Table (View × Link) Mixins

namespace EdgeTable

/-- The table with one more relationship in a view; one with the same link takes over its mixins. -/
def insertEdge (edges : EdgeTable) (view : View) (relationship : Relationship) : EdgeTable :=
  Table.alter edges (view, relationship.link) fun
    | none => some relationship.mixins
    | some held => some (Table.union held relationship.mixins)

/-- The relationship of an entry. -/
def relationshipOf (entry : (View × Link) × Mixins) : Relationship :=
  { link := entry.1.2, mixins := entry.2 }

/-- The views with relationships. -/
def views (edges : EdgeTable) : List View :=
  (KeySet.ofList ((Table.keys edges).map (·.1))).toList

/-- The relationships of a view in the order of their links. -/
def under (edges : EdgeTable) (view : View) : List Relationship :=
  (edges.entries.filter fun entry => entry.1.1 = view).map relationshipOf

/-- The relationships of each view that has some. -/
def byView (edges : EdgeTable) : List (View × List Relationship) :=
  (views edges).map fun view => (view, under edges view)

/-- One relationship for each link, that of the first view. -/
def distinct (edges : EdgeTable) : List Relationship :=
  let first : Table Link Mixins := edges.entries.foldl
    (fun sofar entry => sofar.alter entry.1.2 fun held => some (held.getD entry.2))
    Table.empty
  first.entries.map fun entry => { link := entry.1, mixins := entry.2 }

end EdgeTable

/-- The module and the tool of a graph that was merged. -/
structure SourceRecord where
  module : Module
  metadata : Metadata
deriving DecidableEq, Repr

/-- All graphs of one module in one. -/
structure UnifiedGraph where
  moduleName : String
  /-- What has been merged, by the tags of the sources. -/
  sources : Table String SourceRecord := Table.empty
  symbols : Table String UnifiedSymbol := Table.empty
  edges : EdgeTable := Table.empty
  /-- The relationships that have been set apart. -/
  orphans : EdgeTable := Table.empty
  /-- The identifiers of the groups of overloads. -/
  groups : KeySet String := Table.empty
deriving DecidableEq

/-- The ending that marks an identifier of a group of overloads. -/
def groupSuffix : String :=
  "::OverloadGroup"

/-- The identifier of the group that is named after a symbol. -/
def groupIdentifier (representative : String) : String :=
  representative ++ groupSuffix

/-- Whether an identifier is one of a group. -/
def isGroupIdentifier (identifier : String) : Bool :=
  groupSuffix.toList.isSuffixOf identifier.toList

/-- The relationships that the same views declare. -/
structure RelationshipGroup where
  views : List View
  relationships : List Relationship
deriving DecidableEq

namespace UnifiedGraph

/-- The graph of a module of which nothing has been merged. -/
def empty (moduleName : String) : UnifiedGraph :=
  { moduleName }

/-! ## Merging -/

/-- The symbols of a graph that stand under their own identifiers. -/
def wellKeyed (graph : SymbolGraph) : Table String Symbol :=
  graph.symbols.filter fun key symbol => symbol.identifier = key

/-- The symbols of a graph that stand under another key, in the order of the keys. -/
def mismatches (graph : SymbolGraph) : List IdentifierMismatch :=
  (graph.symbols.entries.filter fun entry => entry.2.identifier ≠ entry.1).map fun entry =>
    { expected := entry.1, found := entry.2.identifier }

/-- The symbols once a symbol of a graph has arrived. -/
def recordSymbol (module : Module) (isMain : Bool) (symbols : Table String UnifiedSymbol)
    (entry : String × Symbol) : Table String UnifiedSymbol :=
  symbols.alter entry.1 fun held =>
    some ((held.getD (.empty entry.1)).record (View.ofSymbol entry.2 module)
      (Facet.ofSymbol entry.2 module isMain))

/-- The views of a graph's relationship: that of its source, else that of its target, else all views
of the graph. -/
def viewsOf (module : Module) (symbols : Table String Symbol) (link : Link) : List View :=
  match (symbols.get? link.source).or (symbols.get? link.target) with
  | some symbol => [View.ofSymbol symbol module]
  | none => (KeySet.ofList (symbols.values.map (View.ofSymbol · module))).toList

/-- The relationships once a relationship of a graph has arrived. -/
def recordRelationship (module : Module) (symbols : Table String Symbol) (edges : EdgeTable)
    (relationship : Relationship) : EdgeTable :=
  (viewsOf module symbols relationship.link).foldl
    (fun sofar view => sofar.insertEdge view relationship) edges

/-- The unified graph once a graph has been merged. -/
def merge (unified : UnifiedGraph) (graph : SymbolGraph) (source : String) (isMain : Bool) :
    UnifiedGraph :=
  let symbols := wellKeyed graph
  { unified with
    sources := unified.sources.insert source { module := graph.module, metadata := graph.metadata }
    symbols := symbols.entries.foldl (recordSymbol graph.module isMain) unified.symbols
    edges := graph.relationships.foldl (recordRelationship graph.module symbols) unified.edges
    groups := (symbols.keys.filter isGroupIdentifier).foldl KeySet.add unified.groups }

/-- The notices about merging a graph. -/
def mergeNotices (moduleName : String) (graph : SymbolGraph) (source : String) : List Notice :=
  let skipped := (mismatches graph).map fun mismatch =>
    Notice.skippedSymbol mismatch.expected source mismatch.found
  let dropped :=
    if (wellKeyed graph).isEmpty then
      graph.relationships.map fun relationship =>
        Notice.droppedRelationship relationship.link.source relationship.link.target source
    else
      []
  skipped ++ dropped ++
    [.mergedGraph source moduleName graph.symbols.size graph.relationships.length]

/-- The unified graph of a single graph, unless a symbol stands under a wrong key; then the last
such symbol. -/
def ofGraph (graph : SymbolGraph) : Except IdentifierMismatch UnifiedGraph :=
  match (mismatches graph).getLast? with
  | some mismatch => .error mismatch
  | none => .ok ((empty graph.module.name).merge graph graph.module.name true)

/-! ## Relationships -/

/-- The graph with one more relationship in a view. -/
def insertRelationship (unified : UnifiedGraph) (view : View) (relationship : Relationship) :
    UnifiedGraph :=
  { unified with edges := unified.edges.insertEdge view relationship }

/-- The graph without the relationships that match. -/
def removeRelationships (unified : UnifiedGraph) (isRemoved : View → Relationship → Bool) :
    UnifiedGraph :=
  { unified with
    edges := Table.filter unified.edges fun key mixins =>
      !isRemoved key.1 { link := key.2, mixins } }

/-- Whether an end of a link is a symbol of the graph. -/
def knowsEnd (unified : UnifiedGraph) (link : Link) : Bool :=
  unified.symbols.contains link.source || unified.symbols.contains link.target

/-- The relationships with those that had been set apart. -/
def allEdges (unified : UnifiedGraph) : EdgeTable :=
  unified.orphans.entries.foldl
    (fun sofar entry => sofar.insertEdge entry.1.1 (EdgeTable.relationshipOf entry)) unified.edges

/-- The graph with its orphans set apart, and nothing else. -/
def collectOrphans (unified : UnifiedGraph) : UnifiedGraph :=
  { unified with
    edges := Table.filter unified.allEdges fun key _ => unified.knowsEnd key.2
    orphans := Table.filter unified.allEdges fun key _ => !unified.knowsEnd key.2 }

/-- The variants of a link with one more relationship of a view: it joins the first variant that is
alike. -/
def joinVariant (view : View) (relationship : Relationship) :
    List (Relationship × KeySet View) → List (Relationship × KeySet View)
  | [] => [(relationship, KeySet.add Table.empty view)]
  | (variant, views) :: rest =>
    if variant.alike relationship then (variant, views.add view) :: rest
    else (variant, views) :: joinVariant view relationship rest

/-- The different relationships of each link, with the views that declare them. -/
def variants (edges : EdgeTable) : Table Link (List (Relationship × KeySet View)) :=
  edges.entries.foldl
    (fun sofar entry => sofar.alter entry.1.2 fun held =>
      some (joinVariant entry.1.1 (EdgeTable.relationshipOf entry) (held.getD [])))
    Table.empty

/-- The relationships parted by the views that declare them. -/
def relationshipGroups (unified : UnifiedGraph) : List RelationshipGroup :=
  let parted : Table (List View) (List Relationship) :=
    (variants unified.edges).values.flatten.foldl
      (fun sofar variant => sofar.alter variant.2.toList fun held =>
        some (held.getD [] ++ [variant.1]))
      Table.empty
  parted.entries.map fun entry => { views := entry.1, relationships := entry.2 }

/-- One relationship for each link. -/
def allRelationships (unified : UnifiedGraph) : List Relationship :=
  unified.edges.distinct

/-- One orphan for each link. -/
def orphanRelationships (unified : UnifiedGraph) : List Relationship :=
  unified.orphans.distinct

/-- The graph without the signs of zeros. -/
def unsignedZeros (unified : UnifiedGraph) : UnifiedGraph :=
  { unified with
    symbols := unified.symbols.map fun _ symbol => symbol.unsignedZeros
    edges := Table.map unified.edges fun _ mixins => Mixins.unsignedZeros mixins
    orphans := Table.map unified.orphans fun _ mixins => Mixins.unsignedZeros mixins }

/-- Whether two graphs are equal but for the signs of zeros. -/
def alike (first second : UnifiedGraph) : Bool :=
  first.unsignedZeros = second.unsignedZeros

/-- All views that know some symbol. -/
def views (unified : UnifiedGraph) : List View :=
  (KeySet.ofList (unified.symbols.values.flatMap UnifiedSymbol.views)).toList

end UnifiedGraph

end ApiAtlas
