import ApiAtlas.Overload.Family

/-!
# Grouping the overloads of a unified graph

The families of a unified graph are read off the main graphs: a symbol belongs,
in each language, to the family of the first view to which a main graph
contributed. So the views of one language share their groups.

Grouping first removes the groups of the languages in question (`pruneUnified`),
then plans the groups of all families (`plan`) and adds one after the other
(`addGroup`). A group has a facet in every view that knows its representative in
its language, and its members are placed in all their views of that language.
-/

set_option autoImplicit false

namespace ApiAtlas.Overload

/-- The languages to group, or all of them. -/
abbrev Scope : Type :=
  Option (KeySet String)

/-- Whether a language is to be grouped. -/
def Scope.includes (scope : Scope) (language : String) : Bool :=
  match scope with
  | none => true
  | some languages => languages.contains language

/-! ## Removing groups -/

/-- The symbol without what is known about it in the languages of a scope. -/
def withoutScope (scope : Scope) (symbol : UnifiedSymbol) : UnifiedSymbol :=
  { symbol with facets := symbol.facets.filter fun view _ => !scope.includes view.language }

/-- Whether a group has nothing left outside a scope. -/
def isSpent (scope : Scope) (symbols : Table String UnifiedSymbol) (group : String) : Bool :=
  match symbols.get? group with
  | none => true
  | some symbol => (withoutScope scope symbol).isEmpty

/-- The symbol without its places in groups in the languages of a scope. -/
def withoutPlaces (scope : Scope) (symbol : UnifiedSymbol) : UnifiedSymbol :=
  { symbol with
    facets := symbol.facets.map fun view facet =>
      if scope.includes view.language then
        { facet with mixins := Table.erase facet.mixins Mixin.overloadKey }
      else
        facet }

/-- The graph without the groups in the languages of a scope and what belongs to them. -/
def pruneUnified (scope : Scope) (graph : UnifiedGraph) : UnifiedGraph :=
  let ungrouped := graph.symbols.filterMap fun identifier symbol =>
    if graph.groups.contains identifier then
      if isSpent scope graph.symbols identifier then none else some (withoutScope scope symbol)
    else
      some symbol
  { graph with
    symbols := ungrouped.map fun _ symbol => withoutPlaces scope symbol
    edges := Table.filter graph.edges fun key _ =>
      !(scope.includes key.1.language &&
        (key.2.kind = .overloadOf || graph.groups.contains key.2.source ||
          graph.groups.contains key.2.target))
    groups := graph.groups.filter fun identifier _ => !isSpent scope graph.symbols identifier }

/-! ## Families -/

/-- What main graphs contributed in the views of a language. -/
def mainFacetsIn (symbol : UnifiedSymbol) (language : String) : List Facet :=
  (symbol.mainFacets.filter fun entry => entry.1.language = language).map (·.2)

/-- The languages of main graphs that know a symbol. -/
def mainLanguages (symbol : UnifiedSymbol) : List String :=
  (KeySet.ofList (symbol.mainViews.map (·.language))).toList

/-- The family of a symbol in a language. -/
def familyIn? (symbol : UnifiedSymbol) (language : String) : Option FamilyKey :=
  (mainFacetsIn symbol language).head?.map fun facet =>
    { language, kind := facet.description.kind.identifier, path := facet.description.path }

/-- The families of a graph in the languages of a scope. Groups belong to none. -/
def unifiedFamilies (scope : Scope) (graph : UnifiedGraph) : Families :=
  familiesOf <| graph.symbols.entries.flatMap fun entry =>
    if graph.groups.contains entry.1 then
      []
    else
      ((mainLanguages entry.2).filter scope.includes).filterMap fun language =>
        (familyIn? entry.2 language).map (·, entry.1)

/-- The candidate of a symbol in a language. -/
def unifiedCandidate (language : String) (symbol : UnifiedSymbol) : Candidate :=
  let facets := mainFacetsIn symbol language
  .of symbol.identifier (facets.any (·.mixins.isDeprecated))
    (facets.findSome? (·.mixins.declaration?))

/-! ## Groups -/

/-- A group that is to be added: its language, its path and its members as they are ranked. -/
structure PlannedGroup where
  language : String
  path : List String
  representative : Candidate
  others : List Candidate
deriving DecidableEq, Repr

namespace PlannedGroup

/-- The members as they are ranked. -/
def members (group : PlannedGroup) : List Candidate :=
  group.representative :: group.others

/-- The identifier of the group. -/
def identifier (group : PlannedGroup) : String :=
  groupIdentifier group.representative.identifier

/-- The notice about the group. -/
def notice (group : PlannedGroup) : Notice :=
  .madeGroup group.identifier group.path group.members.length

end PlannedGroup

/-- The group of a family, if enough of its members count. -/
def planFamily (graph : UnifiedGraph) (relationships : List Relationship)
    (family : FamilyKey × KeySet String) : Option PlannedGroup :=
  let members := eligible relationships family.2
  if members.length < 2 then
    none
  else
    let ranked := Key.sort <|
      (members.filterMap graph.symbols.get?).map (unifiedCandidate family.1.language)
    match ranked with
    | [] => none
    | representative :: others =>
      some { language := family.1.language, path := family.1.path, representative, others }

/-- The groups of a graph in the languages of a scope. -/
def plan (scope : Scope) (graph : UnifiedGraph) : List PlannedGroup :=
  (unifiedFamilies scope graph).entries.filterMap (planFamily graph graph.allRelationships)

/-- The facet of a group in a view that knows its representative. -/
def groupFacet (facet : Facet) : Facet :=
  { facet with
    description := { facet.description with
      names := groupNames facet.description.names facet.mixins.declaration? }
    mixins := Table.erase facet.mixins Mixin.overloadKey }

/-- The symbol of a group. -/
def unifiedGroupSymbol (group : PlannedGroup) (representative : UnifiedSymbol) : UnifiedSymbol :=
  { identifier := group.identifier
    facets := representative.facets.filterMap fun view facet =>
      if view.language = group.language then some (groupFacet facet) else none }

/-- The symbols with the symbol of a group; one that is there takes over its facets. -/
def addGroupSymbol (group : PlannedGroup) (symbols : Table String UnifiedSymbol) :
    Table String UnifiedSymbol :=
  let made := unifiedGroupSymbol group
    ((symbols.get? group.representative.identifier).getD
      (.empty group.representative.identifier))
  symbols.alter group.identifier fun
    | none => some made
    | some held => some (held.absorb made)

/-- The symbol with its place in a group in all views of the group's language. -/
def placeIn (group : PlannedGroup) (index : Nat) (symbol : UnifiedSymbol) : UnifiedSymbol :=
  { symbol with
    facets := symbol.facets.map fun view facet =>
      if view.language = group.language then
        { facet with
          mixins := Table.insert facet.mixins Mixin.overloadKey
            (placeMixin group.identifier index) }
      else
        facet }

/-- The views of a language that know a symbol. -/
def viewsIn (symbols : Table String UnifiedSymbol) (language identifier : String) : List View :=
  match symbols.get? identifier with
  | none => []
  | some symbol => symbol.views.filter fun view => view.language = language

/-- The relationships that place a group where its representative is. -/
def structuralEdges (group : PlannedGroup) (edges : EdgeTable) : List (View × Relationship) :=
  (edges.entries.filter fun entry =>
      entry.1.1.language = group.language &&
        placesSymbol group.representative.identifier (EdgeTable.relationshipOf entry)).map
    fun entry => (entry.1.1, withSource group.identifier (EdgeTable.relationshipOf entry))

/-- The relationships of the members to their group. -/
def membershipEdges (group : PlannedGroup) (symbols : Table String UnifiedSymbol) :
    List (View × Relationship) :=
  group.members.flatMap fun member =>
    (viewsIn symbols group.language member.identifier).map fun view =>
      (view, membership member.identifier group.identifier)

/-- The graph with one more group. -/
def addGroup (graph : UnifiedGraph) (group : PlannedGroup) : UnifiedGraph :=
  let symbols := addGroupSymbol group graph.symbols
  let added := membershipEdges group symbols ++ structuralEdges group graph.edges
  { graph with
    symbols := group.members.zipIdx.foldl
      (fun sofar member => sofar.modify member.1.identifier (placeIn group member.2)) symbols
    edges := added.foldl (fun sofar edge => sofar.insertEdge edge.1 edge.2) graph.edges
    groups := graph.groups.add group.identifier }

/-- The groups that grouping a graph makes. -/
def groupsOf (scope : Scope) (graph : UnifiedGraph) : List PlannedGroup :=
  plan scope (pruneUnified scope graph)

/-- The graph with its overloads grouped in the languages of a scope. -/
def groupUnified (scope : Scope) (graph : UnifiedGraph) : UnifiedGraph :=
  (groupsOf scope graph).foldl addGroup (pruneUnified scope graph)

/-- The notices about grouping a graph. -/
def groupNotices (scope : Scope) (graph : UnifiedGraph) : List Notice :=
  (groupsOf scope graph).map PlannedGroup.notice

end ApiAtlas.Overload
