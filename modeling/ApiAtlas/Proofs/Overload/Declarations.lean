import ApiAtlas.Overload.Graph
import ApiAtlas.Proofs.Declaration.Runs
import ApiAtlas.Proofs.Overload.Adding

/-!
# Declarations as a grouping sees them

A grouping sees no more of a declaration than its simplified form. So the
declarations of a graph may be rewritten in any way that keeps this form. The groups
that are planned are the same, with the same members in the same order
(`groupsOf_mapDeclarations`), and a grouping does the same to a unified graph
(`groupUnified_mapDeclarations`) and to the graph of one module
(`groupGraph_mapDeclarations`), except that the declarations there are the rewritten
ones, also those that a group has from its representative.

Merging the runs of text is such a rewriting. How the text of a declaration is cut
into fragments is therefore nothing that a ranking of overloads can depend on
(`simplify_sees_runs`).
-/

set_option autoImplicit false

namespace ApiAtlas

variable (rewrite : List Fragment → List Fragment)

/-! ## Rewriting the declarations of a graph -/

/-- The mixin with its declaration rewritten, if it is one. -/
def Mixin.mapDeclaration : Mixin → Mixin
  | .declaration fragments => .declaration (rewrite fragments)
  | other => other

/-- The mixins with the declaration rewritten. -/
def Mixins.mapDeclaration (mixins : Mixins) : Mixins :=
  Table.map mixins fun _ mixin => mixin.mapDeclaration rewrite

/-- The facet with its declaration rewritten. -/
def Facet.mapDeclaration (facet : Facet) : Facet :=
  { facet with mixins := facet.mixins.mapDeclaration rewrite }

/-- The symbol with its declarations rewritten in all views. -/
def UnifiedSymbol.mapDeclarations (symbol : UnifiedSymbol) : UnifiedSymbol :=
  { symbol with facets := symbol.facets.map fun _ facet => facet.mapDeclaration rewrite }

/-- The unified graph with all declarations rewritten. -/
def UnifiedGraph.mapDeclarations (graph : UnifiedGraph) : UnifiedGraph :=
  { graph with symbols := graph.symbols.map fun _ symbol => symbol.mapDeclarations rewrite }

/-- The symbol of one graph with its declaration rewritten. -/
def Symbol.mapDeclaration (symbol : Symbol) : Symbol :=
  { symbol with mixins := symbol.mixins.mapDeclaration rewrite }

/-- The graph with all declarations rewritten. -/
def SymbolGraph.mapDeclarations (graph : SymbolGraph) : SymbolGraph :=
  { graph with symbols := graph.symbols.map fun _ symbol => symbol.mapDeclaration rewrite }

namespace Mixins

theorem mapDeclaration_erase (mixins : Mixins) (key : String) :
    mapDeclaration rewrite (Table.erase mixins key) =
      Table.erase (mixins.mapDeclaration rewrite) key :=
  Table.map_erase mixins key _

theorem declaration?_mapDeclaration (mixins : Mixins) :
    (mixins.mapDeclaration rewrite).declaration? = mixins.declaration?.map rewrite := by
  rw [declaration?, mapDeclaration, Table.get?_map, declaration?]
  cases Table.get? mixins Mixin.declarationKey with
  | none => rfl
  | some mixin => cases mixin <;> rfl

theorem isDeprecated_mapDeclaration (mixins : Mixins) :
    (mixins.mapDeclaration rewrite).isDeprecated = mixins.isDeprecated := by
  rw [isDeprecated, availability?, mapDeclaration, Table.get?_map, isDeprecated, availability?]
  cases Table.get? mixins Mixin.availabilityKey with
  | none => rfl
  | some mixin => cases mixin <;> rfl

end Mixins

namespace UnifiedSymbol

variable (symbol : UnifiedSymbol)

theorem facet?_mapDeclarations (view : View) :
    (symbol.mapDeclarations rewrite).facet? view =
      (symbol.facet? view).map (·.mapDeclaration rewrite) :=
  Table.get?_map ..

@[simp]
theorem views_mapDeclarations : (symbol.mapDeclarations rewrite).views = symbol.views :=
  Table.keys_map ..

@[simp]
theorem isEmpty_mapDeclarations : (symbol.mapDeclarations rewrite).isEmpty = symbol.isEmpty := by
  rw [isEmpty, Bool.eq_iff_iff, Table.isEmpty_iff, isEmpty, Table.isEmpty_iff]
  simp [mapDeclarations, Table.get?_map]

theorem mainFacets_mapDeclarations :
    (symbol.mapDeclarations rewrite).mainFacets =
      symbol.mainFacets.map fun entry => (entry.1, entry.2.mapDeclaration rewrite) := by
  rw [mainFacets, mapDeclarations, Table.entries_map, List.filter_map, mainFacets]
  rfl

theorem mainViews_mapDeclarations :
    (symbol.mapDeclarations rewrite).mainViews = symbol.mainViews := by
  rw [mainViews, mainFacets_mapDeclarations, List.map_map, mainViews]
  rfl

end UnifiedSymbol

namespace Overload

/-- A rewriting keeps what a grouping sees of a declaration. -/
def KeepsSimplified : Prop :=
  ∀ fragments, Declaration.simplify (rewrite fragments) = Declaration.simplify fragments

theorem keepsSimplified_mergeRuns : KeepsSimplified Declaration.mergeRuns :=
  Declaration.simplify_mergeRuns

variable {rewrite}

/-! ## Candidates and names -/

section Candidates

variable (keeps : KeepsSimplified rewrite)

include keeps

theorem Candidate.of_map (identifier : String) (isDeprecated : Bool)
    (declaration : Option (List Fragment)) :
    Candidate.of identifier isDeprecated (declaration.map rewrite) =
      Candidate.of identifier isDeprecated declaration := by
  cases declaration with
  | none => rfl
  | some fragments => simp only [Candidate.of, Option.map_some, keeps fragments]

theorem groupNames_map (names : Names) (declaration : Option (List Fragment)) :
    groupNames names (declaration.map rewrite) = groupNames names declaration := by
  cases declaration with
  | none => rfl
  | some fragments => simp only [groupNames, Option.map_some, keeps fragments]

/-- What a symbol of one graph is ranked by. -/
theorem candidate_mapDeclaration (symbol : Symbol) :
    candidate (symbol.mapDeclaration rewrite) = candidate symbol := by
  rw [candidate, Symbol.mapDeclaration, Mixins.declaration?_mapDeclaration, Candidate.of_map keeps,
    Mixins.isDeprecated_mapDeclaration, candidate]

end Candidates

theorem mainFacetsIn_mapDeclarations (symbol : UnifiedSymbol) (language : String) :
    mainFacetsIn (symbol.mapDeclarations rewrite) language =
      (mainFacetsIn symbol language).map (·.mapDeclaration rewrite) := by
  rw [mainFacetsIn, UnifiedSymbol.mainFacets_mapDeclarations, List.filter_map, List.map_map,
    mainFacetsIn, List.map_map]
  rfl

/-- What a unified symbol is ranked by. -/
theorem unifiedCandidate_mapDeclarations (keeps : KeepsSimplified rewrite) (language : String)
    (symbol : UnifiedSymbol) :
    unifiedCandidate language (symbol.mapDeclarations rewrite) =
      unifiedCandidate language symbol := by
  have declared : ∀ facets : List Facet,
      (facets.map (·.mapDeclaration rewrite)).findSome? (·.mixins.declaration?) =
        (facets.findSome? (·.mixins.declaration?)).map rewrite := by
    intro facets
    rw [List.findSome?_map, List.map_findSome?]
    exact congrArg (facets.findSome? ·) (funext fun facet =>
      Mixins.declaration?_mapDeclaration rewrite facet.mixins)
  have deprecated : ∀ facets : List Facet,
      (facets.map (·.mapDeclaration rewrite)).any (·.mixins.isDeprecated) =
        facets.any (·.mixins.isDeprecated) := by
    intro facets
    rw [List.any_map]
    exact congrArg facets.any (funext fun facet =>
      Mixins.isDeprecated_mapDeclaration rewrite facet.mixins)
  simp only [unifiedCandidate, mainFacetsIn_mapDeclarations, declared, deprecated,
    Candidate.of_map keeps]
  rfl

/-! ## Removing groups -/

section Unified

variable (scope : Scope) (graph : UnifiedGraph)

theorem get?_symbols_mapDeclarations (identifier : String) :
    (graph.mapDeclarations rewrite).symbols.get? identifier =
      (graph.symbols.get? identifier).map (·.mapDeclarations rewrite) :=
  Table.get?_map ..

theorem withoutScope_mapDeclarations (symbol : UnifiedSymbol) :
    withoutScope scope (symbol.mapDeclarations rewrite) =
      (withoutScope scope symbol).mapDeclarations rewrite := by
  refine UnifiedSymbol.ext_facet? rfl fun view => ?_
  rw [facet?_withoutScope, UnifiedSymbol.facet?_mapDeclarations,
    UnifiedSymbol.facet?_mapDeclarations, facet?_withoutScope]
  split <;> rfl

theorem withoutPlaces_mapDeclarations (symbol : UnifiedSymbol) :
    withoutPlaces scope (symbol.mapDeclarations rewrite) =
      (withoutPlaces scope symbol).mapDeclarations rewrite := by
  refine UnifiedSymbol.ext_facet? rfl fun view => ?_
  rw [facet?_withoutPlaces, UnifiedSymbol.facet?_mapDeclarations,
    UnifiedSymbol.facet?_mapDeclarations, facet?_withoutPlaces]
  split
  · rw [Option.map_map, Option.map_map]
    refine congrArg (Option.map · _) (funext fun facet => ?_)
    exact congrArg (fun mixins => { facet with mixins })
      (Mixins.mapDeclaration_erase rewrite facet.mixins Mixin.overloadKey).symm
  · rfl

theorem isSpent_mapDeclarations (identifier : String) :
    isSpent scope (graph.mapDeclarations rewrite).symbols identifier =
      isSpent scope graph.symbols identifier := by
  rw [isSpent, get?_symbols_mapDeclarations, isSpent]
  cases graph.symbols.get? identifier with
  | none => rfl
  | some symbol =>
    simp only [Option.map_some, withoutScope_mapDeclarations,
      UnifiedSymbol.isEmpty_mapDeclarations]

/-- Groups are removed from a graph whatever its declarations are. -/
theorem pruneUnified_mapDeclarations :
    pruneUnified scope (graph.mapDeclarations rewrite) =
      (pruneUnified scope graph).mapDeclarations rewrite := by
  have symbols : (pruneUnified scope (graph.mapDeclarations rewrite)).symbols =
      ((pruneUnified scope graph).mapDeclarations rewrite).symbols := by
    refine Table.ext_get? fun identifier => ?_
    rw [get?_symbols_pruneUnified, get?_symbols_mapDeclarations, get?_symbols_mapDeclarations,
      get?_symbols_pruneUnified]
    cases graph.symbols.get? identifier with
    | none => rfl
    | some symbol =>
      simp only [Option.map_some, Option.bind_some, isSpent_mapDeclarations,
        withoutScope_mapDeclarations, withoutPlaces_mapDeclarations]
      show (if graph.groups.contains identifier then _ else _) = _
      split_ifs <;> rfl
  have groups : (pruneUnified scope (graph.mapDeclarations rewrite)).groups =
      (pruneUnified scope graph).groups := by
    simp only [pruneUnified, isSpent_mapDeclarations]
    rfl
  exact congrArg₂ (fun symbols groups => { pruneUnified scope graph with symbols, groups })
    symbols groups

/-! ## Planning -/

theorem familyIn?_mapDeclarations (symbol : UnifiedSymbol) (language : String) :
    familyIn? (symbol.mapDeclarations rewrite) language = familyIn? symbol language := by
  rw [familyIn?, mainFacetsIn_mapDeclarations, List.head?_map, Option.map_map, familyIn?]
  rfl

theorem unifiedFamilies_mapDeclarations :
    unifiedFamilies scope (graph.mapDeclarations rewrite) = unifiedFamilies scope graph := by
  rw [unifiedFamilies, UnifiedGraph.mapDeclarations, Table.entries_map, List.flatMap_map,
    unifiedFamilies]
  simp only [mainLanguages, UnifiedSymbol.mainViews_mapDeclarations, familyIn?_mapDeclarations]

/-- Planning looks at candidates alone. -/
theorem plan_mapDeclarations (keeps : KeepsSimplified rewrite) :
    plan scope (graph.mapDeclarations rewrite) = plan scope graph := by
  have candidates : ∀ (members : List String) (language : String),
      (members.filterMap (graph.mapDeclarations rewrite).symbols.get?).map
          (unifiedCandidate language) =
        (members.filterMap graph.symbols.get?).map (unifiedCandidate language) := by
    intro members language
    rw [List.map_filterMap, List.map_filterMap]
    refine List.filterMap_congr fun identifier _ => ?_
    rw [get?_symbols_mapDeclarations, Option.map_map]
    exact congrArg (Option.map · _) (funext fun symbol =>
      unifiedCandidate_mapDeclarations keeps language symbol)
  rw [plan, plan, unifiedFamilies_mapDeclarations]
  refine List.filterMap_congr fun family _ => ?_
  simp only [planFamily, candidates]
  rfl

/-- **Rewritten declarations are grouped and ranked alike.** -/
theorem groupsOf_mapDeclarations (keeps : KeepsSimplified rewrite) :
    groupsOf scope (graph.mapDeclarations rewrite) = groupsOf scope graph := by
  rw [groupsOf, pruneUnified_mapDeclarations, plan_mapDeclarations _ _ keeps, groupsOf]

/-! ## Adding groups -/

/-- A place in a group is no declaration. -/
theorem mapDeclaration_insert_place (mixins : Mixins) (group : String) (index : Nat) :
    Mixins.mapDeclaration rewrite
        (Table.insert mixins Mixin.overloadKey (placeMixin group index)) =
      Table.insert (mixins.mapDeclaration rewrite) Mixin.overloadKey (placeMixin group index) :=
  Table.map_insert mixins Mixin.overloadKey _ _

theorem groupFacet_mapDeclaration (keeps : KeepsSimplified rewrite) (facet : Facet) :
    groupFacet (facet.mapDeclaration rewrite) = (groupFacet facet).mapDeclaration rewrite := by
  simp only [groupFacet, Facet.mapDeclaration, Mixins.declaration?_mapDeclaration,
    groupNames_map keeps, Mixins.mapDeclaration_erase]

theorem unifiedGroupSymbol_mapDeclarations (keeps : KeepsSimplified rewrite)
    (group : PlannedGroup) (representative : UnifiedSymbol) :
    unifiedGroupSymbol group (representative.mapDeclarations rewrite) =
      (unifiedGroupSymbol group representative).mapDeclarations rewrite := by
  refine UnifiedSymbol.ext_facet? rfl fun view => ?_
  rw [UnifiedSymbol.facet?_mapDeclarations, UnifiedSymbol.facet?, unifiedGroupSymbol,
    Table.get?_filterMap, UnifiedSymbol.facet?, unifiedGroupSymbol, Table.get?_filterMap,
    UnifiedSymbol.mapDeclarations, Table.get?_map]
  cases representative.facets.get? view with
  | none => rfl
  | some facet =>
    simp only [Option.map_some, Option.bind_some, groupFacet_mapDeclaration keeps]
    split <;> rfl

theorem absorb_mapDeclarations (symbol newer : UnifiedSymbol) :
    (symbol.mapDeclarations rewrite).absorb (newer.mapDeclarations rewrite) =
      (symbol.absorb newer).mapDeclarations rewrite := by
  refine UnifiedSymbol.ext_facet? rfl fun view => ?_
  rw [UnifiedSymbol.facet?_absorb, UnifiedSymbol.facet?_mapDeclarations,
    UnifiedSymbol.facet?_mapDeclarations, UnifiedSymbol.facet?_mapDeclarations,
    UnifiedSymbol.facet?_absorb]
  cases symbol.facet? view <;> cases newer.facet? view <;> rfl

theorem placeIn_mapDeclarations (group : PlannedGroup) (index : Nat) (symbol : UnifiedSymbol) :
    placeIn group index (symbol.mapDeclarations rewrite) =
      (placeIn group index symbol).mapDeclarations rewrite := by
  refine UnifiedSymbol.ext_facet? rfl fun view => ?_
  rw [UnifiedSymbol.facet?_mapDeclarations, UnifiedSymbol.facet?, placeIn, Table.get?_map,
    UnifiedSymbol.facet?, placeIn, Table.get?_map, UnifiedSymbol.mapDeclarations, Table.get?_map,
    Option.map_map, Option.map_map]
  refine congrArg (Option.map · _) (funext fun facet => ?_)
  simp only [Function.comp_apply]
  split
  · exact congrArg (fun mixins => { facet with mixins })
      (mapDeclaration_insert_place facet.mixins group.identifier index).symm
  · rfl

/-- The symbols of a graph with the symbol of one more group. -/
theorem addGroupSymbol_mapDeclarations (keeps : KeepsSimplified rewrite) (group : PlannedGroup) :
    addGroupSymbol group (graph.mapDeclarations rewrite).symbols =
      (addGroupSymbol group graph.symbols).map fun _ symbol =>
        symbol.mapDeclarations rewrite := by
  have representative :
      ((graph.mapDeclarations rewrite).symbols.get? group.representative.identifier).getD
          (.empty group.representative.identifier) =
        ((graph.symbols.get? group.representative.identifier).getD
          (.empty group.representative.identifier)).mapDeclarations rewrite := by
    rw [get?_symbols_mapDeclarations]
    cases graph.symbols.get? group.representative.identifier <;> rfl
  rw [addGroupSymbol, representative, unifiedGroupSymbol_mapDeclarations keeps, addGroupSymbol]
  refine (Table.map_alter graph.symbols group.identifier _ fun held => ?_).symm
  cases held with
  | none => rfl
  | some symbol => exact congrArg some (absorb_mapDeclarations symbol _).symm

/-- The symbols of a graph once the members of a group have been placed. -/
theorem foldl_placeIn_mapDeclarations (group : PlannedGroup) (members : List (Candidate × Nat))
    (symbols : Table String UnifiedSymbol) :
    members.foldl (fun sofar member => sofar.modify member.1.identifier (placeIn group member.2))
        (symbols.map fun _ symbol => symbol.mapDeclarations rewrite) =
      (members.foldl
          (fun sofar member => sofar.modify member.1.identifier (placeIn group member.2))
          symbols).map fun _ symbol => symbol.mapDeclarations rewrite := by
  induction members generalizing symbols with
  | nil => rfl
  | cons member rest ih =>
    rw [List.foldl_cons, List.foldl_cons, ← ih]
    refine congrArg (rest.foldl _) (Table.map_modify symbols _ _ fun symbol => ?_).symm
    exact (placeIn_mapDeclarations group member.2 symbol).symm

theorem viewsIn_map (symbols : Table String UnifiedSymbol) (language identifier : String) :
    viewsIn (symbols.map fun _ symbol => symbol.mapDeclarations rewrite) language identifier =
      viewsIn symbols language identifier := by
  rw [viewsIn, Table.get?_map, viewsIn]
  cases symbols.get? identifier with
  | none => rfl
  | some symbol => simp only [Option.map_some, UnifiedSymbol.views_mapDeclarations]

/-- A group is added to a graph whatever its declarations are. -/
theorem addGroup_mapDeclarations (keeps : KeepsSimplified rewrite) (group : PlannedGroup) :
    addGroup (graph.mapDeclarations rewrite) group =
      (addGroup graph group).mapDeclarations rewrite := by
  have edges : membershipEdges group
        ((addGroupSymbol group graph.symbols).map fun _ symbol => symbol.mapDeclarations rewrite) =
      membershipEdges group (addGroupSymbol group graph.symbols) := by
    simp only [membershipEdges, viewsIn_map]
  rw [addGroup, addGroupSymbol_mapDeclarations graph keeps, edges, foldl_placeIn_mapDeclarations]
  rfl

/-- **A unified graph with rewritten declarations is grouped as before.** -/
theorem groupUnified_mapDeclarations (keeps : KeepsSimplified rewrite) :
    groupUnified scope (graph.mapDeclarations rewrite) =
      (groupUnified scope graph).mapDeclarations rewrite := by
  have run : ∀ (groups : List PlannedGroup) (start : UnifiedGraph),
      groups.foldl addGroup (start.mapDeclarations rewrite) =
        (groups.foldl addGroup start).mapDeclarations rewrite := by
    intro groups
    induction groups with
    | nil => exact fun _ => rfl
    | cons group rest ih =>
      intro start
      rw [List.foldl_cons, addGroup_mapDeclarations start keeps, ih, List.foldl_cons]
  rw [groupUnified, groupsOf_mapDeclarations _ _ keeps, pruneUnified_mapDeclarations, run,
    groupUnified]

end Unified

/-! ## The graph of one module -/

section OneGraph

variable (graph : SymbolGraph)

theorem prune_mapDeclarations :
    prune (graph.mapDeclarations rewrite) = (prune graph).mapDeclarations rewrite := by
  have contains : ∀ identifier, (graph.mapDeclarations rewrite).symbols.contains identifier =
      graph.symbols.contains identifier := by
    intro identifier
    rw [Table.contains, SymbolGraph.mapDeclarations, Table.get?_map, Option.isSome_map,
      Table.contains]
  have symbols : (prune (graph.mapDeclarations rewrite)).symbols =
      ((prune graph).mapDeclarations rewrite).symbols := by
    refine Table.ext_get? fun identifier => ?_
    simp only [prune, SymbolGraph.mapDeclarations, Table.get?_map, Table.get?_filter]
    cases graph.symbols.get? identifier with
    | none => rfl
    | some symbol =>
      cases isGroupIdentifier identifier with
      | true => rfl
      | false =>
        exact congrArg (fun mixins => some { symbol with mixins })
          (Mixins.mapDeclaration_erase rewrite symbol.mixins Mixin.overloadKey).symm
  have relationships : (prune (graph.mapDeclarations rewrite)).relationships =
      (prune graph).relationships := by
    simp only [prune, contains]
    rfl
  exact congrArg₂ (fun symbols relationships => { graph with symbols, relationships }) symbols
    relationships

theorem graphFamilies_mapDeclarations :
    graphFamilies (graph.mapDeclarations rewrite) = graphFamilies graph := by
  rw [graphFamilies, SymbolGraph.mapDeclarations, Table.entries_map, List.map_map, graphFamilies]
  rfl

variable (rewrite) in
theorem foldl_placeMember_mapDeclarations (group : String) (members : List (Candidate × Nat)) :
    members.foldl (placeMember group) (graph.mapDeclarations rewrite) =
      (members.foldl (placeMember group) graph).mapDeclarations rewrite := by
  have placed : ∀ (start : SymbolGraph) (member : Candidate × Nat),
      placeMember group (start.mapDeclarations rewrite) member =
        (placeMember group start member).mapDeclarations rewrite := by
    intro start member
    refine congrArg (fun symbols => SymbolGraph.mk start.metadata start.module symbols
      (start.relationships ++ [membership member.1.identifier group])) ?_
    refine (Table.map_modify start.symbols _ _ fun symbol => ?_).symm
    exact congrArg (fun mixins => { symbol with mixins })
      (mapDeclaration_insert_place symbol.mixins group member.2)
  induction members generalizing graph with
  | nil => rfl
  | cons member rest ih => rw [List.foldl_cons, placed, ih, List.foldl_cons]

theorem addGroup?_mapDeclarations (keeps : KeepsSimplified rewrite) (ranked : List Candidate) :
    addGroup? (graph.mapDeclarations rewrite) ranked =
      (addGroup? graph ranked).map (·.mapDeclarations rewrite) := by
  cases ranked with
  | nil => rfl
  | cons first others =>
    have copied : ∀ (group : String) (representative : Symbol),
        groupSymbol group (representative.mapDeclaration rewrite) =
          (groupSymbol group representative).mapDeclaration rewrite := by
      intro group representative
      simp only [groupSymbol, Symbol.mapDeclaration, Mixins.declaration?_mapDeclaration,
        groupNames_map keeps]
    have found : (graph.mapDeclarations rewrite).symbols.get? first.identifier =
        (graph.symbols.get? first.identifier).map (·.mapDeclaration rewrite) := Table.get?_map ..
    simp only [addGroup?, List.head?_cons, Option.bind_eq_bind, Option.bind_some, found]
    cases graph.symbols.get? first.identifier with
    | none => rfl
    | some representative =>
      simp only [Option.map_some, Option.bind_some, copied]
      refine congrArg some ?_
      have run := foldl_placeMember_mapDeclarations rewrite
        { graph with
          relationships := graph.relationships ++
            (graph.relationships.filter (placesSymbol first.identifier)).map
              (withSource (groupIdentifier first.identifier)) }
        (groupIdentifier first.identifier) (first :: others).zipIdx
      rw [SymbolGraph.mapDeclarations] at run
      refine (congrArg (SymbolGraph.addSymbol · _) run).trans ?_
      exact congrArg (fun symbols => { SymbolGraph.mapDeclarations rewrite _ with symbols })
        (Table.map_insert _ _ _ _).symm

/-- The grouping with the declarations of its graph rewritten. -/
def Grouping.mapDeclarations (rewrite : List Fragment → List Fragment) (grouping : Grouping) :
    Grouping :=
  { grouping with graph := grouping.graph.mapDeclarations rewrite }

/-- A family is given its group whatever the declarations of the graph are. -/
theorem Grouping.addFamily_mapDeclarations (keeps : KeepsSimplified rewrite)
    (relationships : List Relationship) (grouping : Grouping) (family : KeySet String) :
    (grouping.mapDeclarations rewrite).addFamily relationships family =
      (grouping.addFamily relationships family).mapDeclarations rewrite := by
  have candidates : ∀ members : List String,
      (members.filterMap (grouping.mapDeclarations rewrite).graph.symbols.get?).map candidate =
        (members.filterMap grouping.graph.symbols.get?).map candidate := by
    intro members
    rw [List.map_filterMap, List.map_filterMap]
    refine List.filterMap_congr fun identifier _ => ?_
    rw [Grouping.mapDeclarations, SymbolGraph.mapDeclarations, Table.get?_map, Option.map_map]
    exact congrArg (Option.map · _) (funext (candidate_mapDeclaration keeps))
  have added : ∀ ranked : List Candidate,
      addGroup? (grouping.mapDeclarations rewrite).graph ranked =
        (addGroup? grouping.graph ranked).map (·.mapDeclarations rewrite) :=
    addGroup?_mapDeclarations grouping.graph keeps
  simp only [addFamily, candidates, added]
  split
  · rfl
  · cases addGroup? grouping.graph _ <;> rfl

/-- **A graph with rewritten declarations is grouped as before.** -/
theorem groupGraph_mapDeclarations (keeps : KeepsSimplified rewrite) :
    groupGraph (graph.mapDeclarations rewrite) = (groupGraph graph).mapDeclarations rewrite := by
  have run : ∀ (relationships : List Relationship) (families : List (KeySet String))
      (start : Grouping),
      families.foldl (Grouping.addFamily relationships) (start.mapDeclarations rewrite) =
        (families.foldl (Grouping.addFamily relationships) start).mapDeclarations rewrite := by
    intro relationships families
    induction families with
    | nil => exact fun _ => rfl
    | cons family rest ih =>
      intro start
      rw [List.foldl_cons, Grouping.addFamily_mapDeclarations keeps, ih, List.foldl_cons]
  simp only [groupGraph, prune_mapDeclarations, graphFamilies_mapDeclarations]
  exact run _ _ { graph := prune graph }

end OneGraph

end Overload

/-! ## Runs of text -/

namespace Declaration

open Overload

/-- **How text is cut into fragments does not matter.** Reading a declaration fragment by fragment
finds what a scan over its marks finds; a text may be cut in two anywhere; what is simplified, and
how overloads are grouped and ranked by it, can be told from the declarations with their runs of
text merged. -/
theorem simplify_sees_runs :
    (∀ fragments, (readSignature {} fragments).fragments = simplify fragments) ∧
      (∀ (before after : List Fragment) (first second : String)
        (whole left right : Option String),
        let uncut := before ++ ⟨.text, first ++ second, whole⟩ :: after
        let cut := before ++ ⟨.text, first, left⟩ :: ⟨.text, second, right⟩ :: after
        simplify uncut = simplify cut ∧ mergeRuns uncut = mergeRuns cut) ∧
      (∀ fragments, simplify (mergeRuns fragments) = simplify fragments) ∧
      (∀ (scope : Scope) (graph : UnifiedGraph),
        groupsOf scope (graph.mapDeclarations mergeRuns) = groupsOf scope graph ∧
          groupUnified scope (graph.mapDeclarations mergeRuns) =
            (groupUnified scope graph).mapDeclarations mergeRuns) ∧
      ∀ graph : SymbolGraph,
        groupGraph (graph.mapDeclarations mergeRuns) =
          (groupGraph graph).mapDeclarations mergeRuns := by
  refine ⟨fun fragments => ?_, ?_, simplify_mergeRuns, fun scope graph => ⟨?_, ?_⟩,
    fun graph => groupGraph_mapDeclarations graph keepsSimplified_mergeRuns⟩
  · rw [readSignature_eq, simplify]
  · intro before after first second whole left right
    exact ⟨simplify_split before after first second whole left right,
      mergeRuns_split before after first second whole left right⟩
  · exact groupsOf_mapDeclarations scope graph keepsSimplified_mergeRuns
  · exact groupUnified_mapDeclarations scope graph keepsSimplified_mergeRuns

end Declaration

end ApiAtlas
