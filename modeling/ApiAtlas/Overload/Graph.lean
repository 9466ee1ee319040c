import ApiAtlas.Overload.Family

/-!
# Grouping the overloads of one graph

Each family of a symbol graph with at least two members that count gets a group:
a symbol like the family's representative, inside the same symbols, to which
every member is related and in which every member has a place. Groups that were
there before are removed first (`prune`).
-/

set_option autoImplicit false

namespace ApiAtlas.Overload

/-- The graph without groups and without everything that belongs to one. -/
def prune (graph : SymbolGraph) : SymbolGraph :=
  let isStale (identifier : String) : Bool :=
    isGroupIdentifier identifier && graph.symbols.contains identifier
  { graph with
    symbols := (graph.symbols.filter fun identifier _ => !isGroupIdentifier identifier).map
      fun _ symbol => { symbol with mixins := Table.erase symbol.mixins Mixin.overloadKey }
    relationships := graph.relationships.filter fun relationship =>
      relationship.link.kind ≠ .overloadOf && !isStale relationship.link.source &&
        !isStale relationship.link.target }

/-- The families of a graph. -/
def graphFamilies (graph : SymbolGraph) : Families :=
  familiesOf <| graph.symbols.entries.map fun entry =>
    ({ language := entry.2.language, kind := entry.2.description.kind.identifier,
        path := entry.2.description.path }, entry.1)

/-- The candidate of a symbol. -/
def candidate (symbol : Symbol) : Candidate :=
  .of symbol.identifier symbol.mixins.isDeprecated symbol.mixins.declaration?

/-- The symbol of a group with a representative. -/
def groupSymbol (group : String) (representative : Symbol) : Symbol :=
  { representative with
    identifier := group
    description := { representative.description with
      names := groupNames representative.description.names representative.mixins.declaration? } }

/-- The graph with a member given its place in a group. -/
def placeMember (group : String) (graph : SymbolGraph) (member : Candidate × Nat) : SymbolGraph :=
  { graph with
    symbols := graph.symbols.modify member.1.identifier fun symbol =>
      { symbol with
        mixins := Table.insert symbol.mixins Mixin.overloadKey (placeMixin group member.2) }
    relationships := graph.relationships ++ [membership member.1.identifier group] }

/-- The graph with the group of ranked members. There is none if no symbol stands under the
identifier of the first. -/
def addGroup? (graph : SymbolGraph) (ranked : List Candidate) : Option SymbolGraph := do
  let first ← ranked.head?
  let representative ← graph.symbols.get? first.identifier
  let group := groupIdentifier first.identifier
  let structural := (graph.relationships.filter (placesSymbol first.identifier)).map
    (withSource group)
  let placed := ranked.zipIdx.foldl (placeMember group)
    { graph with relationships := graph.relationships ++ structural }
  return placed.addSymbol (groupSymbol group representative)

/-- A graph and the number of groups that it has been given so far. -/
structure Grouping where
  graph : SymbolGraph
  count : Nat := 0

/-- The grouping with the group of one more family. -/
def Grouping.addFamily (relationships : List Relationship) (grouping : Grouping)
    (family : KeySet String) : Grouping :=
  let members := eligible relationships family
  if members.length < 2 then
    grouping
  else
    let ranked := Key.sort ((members.filterMap grouping.graph.symbols.get?).map candidate)
    match addGroup? grouping.graph ranked with
    | some graph => { graph, count := grouping.count + 1 }
    | none => grouping

/-- The graph with its overloads grouped, and the number of groups. -/
def groupGraph (graph : SymbolGraph) : Grouping :=
  let pruned := prune graph
  (graphFamilies pruned).values.foldl (Grouping.addFamily pruned.relationships) { graph := pruned }

end ApiAtlas.Overload
