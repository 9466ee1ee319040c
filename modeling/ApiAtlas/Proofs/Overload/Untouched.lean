import ApiAtlas.Proofs.Overload.Regrouping
import ApiAtlas.Proofs.Session.ViewIsolation

/-!
# What a grouping leaves alone

A grouping may change the groups in the languages of its scope, and with them
the places of symbols in groups and the relationships that concern groups
(`Link.concernsGroups`). Nothing else changes (`ChangesOnlyGroups`): in the
views of all other languages not even a group does
(`facetAt_groupUnified_of_outside`, `get?_edges_groupUnified_of_outside`), and in
the views of its own languages every symbol that is no group keeps all but its
place, and every relationship without a group stays as it is.

So a removal that forgets the scope, or that takes a group away which another
language still knows, would be seen here.
-/

set_option autoImplicit false

namespace ApiAtlas

/-- The relationships of a view that a table keeps are those it had there and keeps. -/
theorem EdgeTable.under_filter (edges : EdgeTable) (keep : Link → Bool) (view : View) :
    under (Table.filter edges fun key _ => keep key.2) view =
      (under edges view).filter fun relationship => keep relationship.link := by
  rw [under, Table.entries_filter, List.filter_comm, under, List.filter_map]
  rfl

/-- The symbol is there and is no group. -/
def UnifiedGraph.IsPlain (graph : UnifiedGraph) (identifier : String) : Prop :=
  graph.symbols.contains identifier = true ∧ graph.groups.contains identifier = false

/-- In a well-formed graph the symbols that are no groups are told by their identifiers. -/
theorem UnifiedGraph.WellFormed.isPlain_iff {graph : UnifiedGraph} (wellFormed : graph.WellFormed)
    {identifier : String} :
    graph.IsPlain identifier ↔
      (∃ view facet, graph.facetAt identifier view = some facet) ∧
        isGroupIdentifier identifier = false := by
  rw [IsPlain, ← wellFormed.contains_iff]
  refine and_congr_right fun present => ?_
  rw [Bool.eq_false_iff, Bool.eq_false_iff, ne_eq, wellFormed.groups_iff, present]
  simp

namespace Overload

variable {scope : Scope} {graph : UnifiedGraph}

/-! ## Outside the scope -/

/-- In the views of other languages a grouping changes no relationship. -/
theorem get?_edges_groupUnified_of_outside (wellFormed : graph.WellFormed) {view : View}
    (outside : scope.includes view.language = false) (link : Link) :
    Table.get? (groupUnified scope graph).edges (view, link) =
      Table.get? graph.edges (view, link) := by
  have nothing := addedAt_eq_none_of_outside wellFormed outside (pruneUnified scope graph) link
  rw [get?_edges_groupUnified wellFormed, List.findSome?_eq_none_iff.2 nothing,
    get?_edges_pruneUnified, outside, Bool.false_and, if_neg Bool.false_ne_true]
  exact Option.merge_none_right

/-- **A grouping leaves the views of other languages as they are.** -/
theorem alikeIn_groupUnified_of_outside (wellFormed : graph.WellFormed) {view : View}
    (outside : scope.includes view.language = false) :
    UnifiedGraph.AlikeIn view (groupUnified scope graph) graph where
  facets := facetAt_groupUnified_of_outside wellFormed outside
  edges := get?_edges_groupUnified_of_outside wellFormed outside

/-! ## Within the scope -/

/-- Relationships that do not concern groups stay as they are, in all views. -/
theorem get?_edges_groupUnified_of_plain (wellFormed : graph.WellFormed) {link : Link}
    (plain : link.concernsGroups = false) (view : View) :
    Table.get? (groupUnified scope graph).edges (view, link) =
      Table.get? graph.edges (view, link) := by
  obtain ⟨kind, source, -⟩ := Link.concernsGroups_eq_false_iff.1 plain
  rw [get?_edges_groupUnified wellFormed, findSome?_addedAt_eq_none _ _ kind source,
    get?_edges_pruneUnified_of_plain wellFormed plain]
  exact Option.merge_none_right

/-- The second graph differs from the first in the groups of the languages of a scope alone, and in
what belongs to these groups. -/
structure ChangesOnlyGroups (scope : Scope) (before after : UnifiedGraph) : Prop where
  moduleName : after.moduleName = before.moduleName
  /-- The modules and the tools of the graphs that were merged. -/
  sources : after.sources = before.sources
  orphans : after.orphans = before.orphans
  /-- In the views of other languages every symbol, group or not, is known as before. -/
  facetsElsewhere : ∀ identifier view, scope.includes view.language = false →
    after.facetAt identifier view = before.facetAt identifier view
  /-- The views of other languages have the relationships they had. -/
  relationshipsElsewhere : ∀ view, scope.includes view.language = false →
    EdgeTable.under after.edges view = EdgeTable.under before.edges view
  /-- The symbols that are no groups are the same. -/
  symbols : ∀ identifier, after.IsPlain identifier ↔ before.IsPlain identifier
  /-- Symbols that are no groups are known as before, but for their places in groups. -/
  facets : ∀ identifier view, before.IsPlain identifier →
    (after.facetAt identifier view).map Facet.withoutPlace =
      (before.facetAt identifier view).map Facet.withoutPlace
  /-- Every view has the relationships it had among those that do not concern groups. -/
  relationships : ∀ view,
    ((EdgeTable.under after.edges view).filter fun relationship =>
        !relationship.link.concernsGroups) =
      (EdgeTable.under before.edges view).filter fun relationship =>
        !relationship.link.concernsGroups

/-- A symbol is known without its place exactly if it is known. -/
theorem exists_facet_of_map_withoutPlace {held other : Option Facet}
    (same : held.map Facet.withoutPlace = other.map Facet.withoutPlace) :
    (∃ facet, held = some facet) ↔ ∃ facet, other = some facet := by
  have known := congrArg Option.isSome same
  rw [Option.isSome_map, Option.isSome_map] at known
  rw [← Option.isSome_iff_exists, ← Option.isSome_iff_exists, known]

/-- **A grouping changes nothing but the groups in the languages of its scope.** -/
theorem changesOnlyGroups_groupUnified (reachable : graph.Reachable) (scope : Scope) :
    ChangesOnlyGroups scope graph (groupUnified scope graph) := by
  have wellFormed := reachable.wellFormed
  have grouped := wellFormed_groupUnified wellFormed scope
  obtain ⟨moduleName, sources, orphans⟩ := frame_groupUnified scope graph
  have facets : ∀ identifier view, isGroupIdentifier identifier = false →
      ((groupUnified scope graph).facetAt identifier view).map Facet.withoutPlace =
        (graph.facetAt identifier view).map Facet.withoutPlace := by
    intro identifier view plain
    have alike := readAlike_groupUnified wellFormed scope view.language
    exact (alike.facets identifier view plain rfl).symm
  refine ⟨moduleName, sources, orphans, ?_, ?_, ?_, ?_, ?_⟩
  · intro identifier view outside
    exact facetAt_groupUnified_of_outside wellFormed outside identifier
  · intro view outside
    exact EdgeTable.under_congr (get?_edges_groupUnified_of_outside wellFormed outside)
  · intro identifier
    rw [grouped.isPlain_iff, wellFormed.isPlain_iff]
    refine and_congr_left fun plain => exists_congr fun view => ?_
    exact exists_facet_of_map_withoutPlace (facets identifier view plain)
  · intro identifier view present
    exact facets identifier view (wellFormed.isPlain_iff.1 present).2
  · intro view
    rw [← EdgeTable.under_filter _ (fun link => !link.concernsGroups),
      ← EdgeTable.under_filter _ (fun link => !link.concernsGroups)]
    apply EdgeTable.under_congr
    intro link
    rw [Table.get?_filter, Table.get?_filter]
    cases plain : link.concernsGroups with
    | false => rw [get?_edges_groupUnified_of_plain wellFormed plain]
    | true => simp

/-- The overloads as another language shows them. -/
def translatedDrawings : SymbolGraph :=
  let kit : SymbolGraph := { module := { name := "Kit" } }
  ((kit.addSymbol { drawing "drawAt" with language := "occ" }).addSymbol
    { drawing "drawIn" with language := "occ" }).addRelationship
      (Relationship.between "drawAt" "widget" .memberOf)

/-- The unified graph of the overloads in two languages, with their groups. -/
def groupedBilingual : UnifiedGraph :=
  groupUnified none (unifiedDrawings.merge translatedDrawings "Kit.occ.symbols.json" true)

theorem changesOnlyGroups_groupUnified_bilingual :
    groupedBilingual.Reachable ∧
      (groupedBilingual.facetAt "drawAt::OverloadGroup" { language := "occ" }).isSome = true ∧
      ChangesOnlyGroups (some (KeySet.ofList ["swift"])) groupedBilingual
        (groupUnified (some (KeySet.ofList ["swift"])) groupedBilingual) :=
  have reachable : groupedBilingual.Reachable :=
    .group none (.merge _ _ _ (.merge _ _ _ (.empty "Kit")))
  ⟨reachable, by decide +kernel, changesOnlyGroups_groupUnified reachable _⟩

end Overload

end ApiAtlas
