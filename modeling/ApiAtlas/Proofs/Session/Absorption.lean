import ApiAtlas.Proofs.Overload.Agreement
import ApiAtlas.Proofs.Session.Arrivals

/-!
# Grouping graphs before they arrive

The overloads of each graph can be grouped before a session takes the graph in.
If all overloads are grouped at the end, this leaves no trace: what the early
groupings have added is removed first, and nothing else is
(`pruneUnified_mergeAll_grouped`).

An early grouping gives places to symbols, adds groups as symbols, and adds
relationships that are those of members to groups or lead from a group that it
added (`get?_recorded_grouped`). Merging keeps places apart from the rest of
what is known (`map_withoutPlace_afterArrival`), and every group that was added
is known as one in the unified graph. So all of it is found by the removal, also
where graphs have named their groups differently.
-/

set_option autoImplicit false

namespace ApiAtlas

open Overload

/-! ## What an early grouping adds to one graph -/

namespace Arrival

/-- The arrival with the overloads of its graph grouped. -/
def grouped (arrival : Arrival) : Arrival :=
  { arrival with graph := (groupGraph arrival.graph).graph }

/-- The graph stands under its own identifiers and mentions no groups. -/
structure IsPlain (arrival : Arrival) : Prop where
  keyed : arrival.graph.IsWellKeyed
  ungrouped : arrival.graph.IsUngrouped

variable {arrival : Arrival}

/-- What an arrival says is what its graph says, main or not. -/
theorem facet?_eq_map (arrival : Arrival) (identifier : String) (view : View) :
    arrival.facet? identifier view =
      (arrival.graph.unified.facetAt identifier view).map fun facet =>
        { facet with isMain := arrival.role.isMain } := by
  rw [UnifiedGraph.facetAt_unified, facet?, SymbolGraph.facet?, SymbolGraph.facet?,
    Option.map_bind]
  refine congrArg _ (funext fun symbol => ?_)
  by_cases own : View.ofSymbol symbol arrival.graph.module = view
  · simp only [Function.comp_apply, if_pos own]
    rfl
  · simp only [Function.comp_apply, if_neg own]
    rfl

namespace IsPlain

variable (plain : arrival.IsPlain)

include plain

theorem unified_grouped :
    arrival.grouped.graph.unified = groupUnified none arrival.graph.unified :=
  unified_groupGraph plain.keyed plain.ungrouped

theorem module_grouped : arrival.grouped.graph.module = arrival.graph.module :=
  (givenGroups_groupGraph plain.keyed plain.ungrouped).module

theorem metadata_grouped : arrival.grouped.graph.metadata = arrival.graph.metadata :=
  (givenGroups_groupGraph plain.keyed plain.ungrouped).metadata

theorem keyed_grouped : arrival.grouped.graph.IsWellKeyed :=
  (givenGroups_groupGraph plain.keyed plain.ungrouped).keyed

theorem home_grouped (config : SessionConfig) :
    arrival.grouped.home config = arrival.home config := by
  rw [home, Session.home, plain.module_grouped, home, Session.home]
  rfl

/-- Of symbols that are no groups the grouped graph says the same, but for places. -/
theorem facet?_grouped {identifier : String} (noGroup : isGroupIdentifier identifier = false)
    (view : View) :
    (arrival.grouped.facet? identifier view).map Facet.withoutPlace =
      (arrival.facet? identifier view).map Facet.withoutPlace := by
  have alike := (readAlike_groupUnified arrival.graph.wellFormed_unified none
    view.language).facets identifier view noGroup rfl
  rw [← plain.unified_grouped] at alike
  have marked := congrArg (Option.map fun facet : Facet =>
    { facet with isMain := arrival.role.isMain }) alike
  rw [Option.map_map, Option.map_map] at marked
  rw [facet?_eq_map, facet?_eq_map, Option.map_map, Option.map_map]
  exact marked.symm

/-- What the grouped graph records is what the graph records, joined by what the planned groups
add. -/
theorem get?_recorded_grouped (view : View) (link : Link) :
    Table.get? arrival.grouped.graph.recorded (view, link) =
      EdgeTable.join
        (if link.kind = .overloadOf then none
          else Table.get? arrival.graph.recorded (view, link))
        ((groupsOf none arrival.graph.unified).findSome?
          (addedAt (pruneUnified none arrival.graph.unified) view link)) := by
  have plan := isPlan_groupsOf arrival.graph.wellFormed_unified none
  have added := get?_edges_addGroups plan (pruneUnified none arrival.graph.unified) view link
  rw [get?_edges_pruneUnified, plain.ungrouped.hasNoGroups.groups_contains,
    plain.ungrouped.hasNoGroups.groups_contains] at added
  rw [SymbolGraph.recorded, plain.unified_grouped]
  refine added.trans (congrArg (EdgeTable.join · _) ?_)
  by_cases kind : link.kind = .overloadOf
  · rw [if_pos kind, kind]
    rfl
  · rw [if_neg kind, decide_eq_false kind]
    rfl

/-- Relationships of other kinds between symbols that are no groups are recorded as before. -/
theorem get?_recorded_grouped_of_plain {link : Link} (kind : link.kind ≠ .overloadOf)
    (source : isGroupIdentifier link.source = false) (view : View) :
    Table.get? arrival.grouped.graph.recorded (view, link) =
      Table.get? arrival.graph.recorded (view, link) := by
  have nothing : (groupsOf none arrival.graph.unified).findSome?
      (addedAt (pruneUnified none arrival.graph.unified) view link) = none := by
    refine List.findSome?_eq_none_iff.2 fun group _ => ?_
    exact addedAt_eq_none (PlannedGroup.relates_eq_false kind group view)
      fun placed => ne_groupIdentifier source _ placed.1
  rw [plain.get?_recorded_grouped, if_neg kind, nothing]
  exact Option.merge_none_right

/-- What a graph records mentions no group. -/
theorem ends_of_recorded {view : View} {link : Link} {mixins : Mixins}
    (recorded : Table.get? arrival.graph.recorded (view, link) = some mixins) :
    isGroupIdentifier link.source = false ∧ isGroupIdentifier link.target = false := by
  obtain ⟨-, relationship, member, rfl⟩ := SymbolGraph.exists_recorded_iff.1 ⟨mixins, recorded⟩
  exact plain.ungrouped.ends relationship member

/-- What else an early grouping has recorded leads from a group that the grouped graph knows. -/
theorem known_of_recorded_grouped {view : View} {link : Link} {mixins : Mixins}
    (kind : link.kind ≠ .overloadOf)
    (recorded : Table.get? arrival.grouped.graph.recorded (view, link) = some mixins) :
    isGroupIdentifier link.source = false ∧ isGroupIdentifier link.target = false ∨
      isGroupIdentifier link.source = true ∧
        ∃ place facet, arrival.grouped.facet? link.source place = some facet := by
  cases noGroup : isGroupIdentifier link.source with
  | false =>
    rw [plain.get?_recorded_grouped_of_plain kind noGroup] at recorded
    exact .inl ⟨rfl, (plain.ends_of_recorded recorded).2⟩
  | true =>
    refine .inr ⟨rfl, ?_⟩
    have original : Table.get? arrival.graph.recorded (view, link) = none := by
      cases held : Table.get? arrival.graph.recorded (view, link) with
      | none => rfl
      | some mixins =>
        rw [(plain.ends_of_recorded held).1] at noGroup
        cases noGroup
    rw [plain.get?_recorded_grouped, if_neg kind, original] at recorded
    cases added : (groupsOf none arrival.graph.unified).findSome?
        (addedAt (pruneUnified none arrival.graph.unified) view link) with
    | none =>
      rw [added] at recorded
      cases recorded
    | some mixins =>
      obtain ⟨group, member, given⟩ := List.exists_of_findSome?_eq_some added
      have source : link.source = group.identifier := by
        rcases (touches_of_addedAt given).2 with ⟨other, -⟩ | ⟨-, source⟩
        · exact absurd other kind
        · exact source
      have wellFormed := arrival.grouped.graph.wellFormed_unified
      have isGroup : arrival.grouped.graph.unified.groups.contains link.source = true := by
        rw [plain.unified_grouped]
        exact (contains_groups_addGroups _ _ _).2 (.inl ⟨group, member, source⟩)
      obtain ⟨place, facet, known⟩ := (wellFormed.contains_groups_iff.1 isGroup).1
      exact ⟨place, _, by rw [facet?_eq_map, known]; rfl⟩

end IsPlain

end Arrival

/-! ## What is left after the final removal -/

/-- Merging puts the rest of two facets together, whatever their places are. -/
theorem map_withoutPlace_afterArrival (held arrived : Option Facet) :
    Facet.afterArrival (held.map Facet.withoutPlace) (arrived.map Facet.withoutPlace) =
      (Facet.afterArrival held arrived).map Facet.withoutPlace := by
  have above : ∀ upper lower : Facet,
      upper.withoutPlace.above lower.withoutPlace = (upper.above lower).withoutPlace := by
    intro upper lower
    simp only [Facet.above, Facet.withoutPlace, Table.erase_union]
  cases held with
  | none => cases arrived <;> rfl
  | some held =>
    cases arrived with
    | none => rfl
    | some arrived =>
      refine congrArg some ?_
      unfold Facet.receive
      by_cases below : (held.isMain && !arrived.isMain) = true
      · rw [if_pos below, ← above]
        exact if_pos below
      · rw [if_neg below, ← above]
        exact if_neg below

namespace UnifiedGraph

variable {moduleName : String} {arrivals : List Arrival}

/-- The facets of a place arrive one after the other also when places are left out. -/
theorem map_withoutPlace_facetAt_mergeAll (moduleName identifier : String)
    (arrivals : List Arrival) (view : View) :
    (((empty moduleName).mergeAll arrivals).facetAt identifier view).map Facet.withoutPlace =
      (arrivals.map fun arrival => (arrival.facet? identifier view).map Facet.withoutPlace).foldl
        Facet.afterArrival none := by
  rw [facetAt_mergeAll, List.foldl_map]
  exact (List.foldl_hom (Option.map Facet.withoutPlace) fun held arrival =>
    map_withoutPlace_afterArrival held (arrival.facet? identifier view)).symm

theorem get?_edges_mergeAll_map (moduleName : String) (arrivals : List Arrival)
    (key : View × Link) :
    Table.get? ((empty moduleName).mergeAll arrivals).edges key =
      (arrivals.map fun arrival => Table.get? arrival.graph.recorded key).foldl EdgeTable.join
        none := by
  rw [get?_edges_mergeAll, List.foldl_map]
  rfl

section Plain

variable (plain : ∀ arrival ∈ arrivals, arrival.IsPlain)

include plain

theorem sources_mergeAll_grouped :
    ((empty moduleName).mergeAll (arrivals.map Arrival.grouped)).sources =
      ((empty moduleName).mergeAll arrivals).sources := by
  have records : ∀ arrivals : List Arrival, ((empty moduleName).mergeAll arrivals).sources =
      (arrivals.map fun arrival => (arrival.source,
        ({ module := arrival.graph.module, metadata := arrival.graph.metadata } :
          SourceRecord))).foldl (fun sofar entry => sofar.insert entry.1 entry.2) Table.empty := by
    intro arrivals
    rw [sources_mergeAll, List.foldl_map]
    rfl
  rw [records, records, List.map_map]
  refine congrArg (List.foldl _ _) (List.map_congr_left fun arrival member => ?_)
  simp only [Function.comp_apply, (plain arrival member).module_grouped,
    (plain arrival member).metadata_grouped]
  rfl

/-- Symbols that are no groups are known in the same way, but for their places. -/
theorem facetAt_mergeAll_grouped {identifier : String}
    (noGroup : isGroupIdentifier identifier = false) (view : View) :
    (((empty moduleName).mergeAll (arrivals.map Arrival.grouped)).facetAt identifier view).map
        Facet.withoutPlace =
      (((empty moduleName).mergeAll arrivals).facetAt identifier view).map
        Facet.withoutPlace := by
  rw [map_withoutPlace_facetAt_mergeAll, map_withoutPlace_facetAt_mergeAll, List.map_map]
  refine congrArg (List.foldl _ _) (List.map_congr_left fun arrival member => ?_)
  exact (plain arrival member).facet?_grouped noGroup view

/-- Relationships of other kinds that lead from symbols that are no groups are the same. -/
theorem get?_edges_mergeAll_grouped {link : Link} (kind : link.kind ≠ .overloadOf)
    (source : isGroupIdentifier link.source = false) (view : View) :
    Table.get? ((empty moduleName).mergeAll (arrivals.map Arrival.grouped)).edges (view, link) =
      Table.get? ((empty moduleName).mergeAll arrivals).edges (view, link) := by
  rw [get?_edges_mergeAll_map, get?_edges_mergeAll_map, List.map_map]
  refine congrArg (List.foldl _ _) (List.map_congr_left fun arrival member => ?_)
  exact (plain arrival member).get?_recorded_grouped_of_plain kind source view

/-- What leads from a group is found by the final removal. -/
theorem get?_edges_pruneUnified_of_group {link : Link}
    (isGroup : isGroupIdentifier link.source = true) (view : View) :
    Table.get? (pruneUnified none ((empty moduleName).mergeAll (arrivals.map
        Arrival.grouped))).edges (view, link) = none := by
  rw [get?_edges_pruneUnified]
  split
  · rfl
  · next kept =>
    simp only [Scope.includes, Bool.true_and, Bool.or_eq_true, decide_eq_true_eq, not_or] at kept
    obtain ⟨⟨kind, unknown⟩, -⟩ := kept
    by_contra recorded
    obtain ⟨mixins, found⟩ := Option.ne_none_iff_exists'.1 recorded
    obtain ⟨_, member, held, shown⟩ := (exists_edges_mergeAll moduleName).1 ⟨mixins, found⟩
    obtain ⟨arrival, within, rfl⟩ := List.mem_map.1 member
    have either := (plain arrival within).known_of_recorded_grouped kind shown
    rcases either with ⟨noGroup, -⟩ | ⟨-, known⟩
    · rw [noGroup] at isGroup
      cases isGroup
    · obtain ⟨place, facet, said⟩ := known
      obtain ⟨facet, present⟩ := (exists_facetAt_mergeAll moduleName).2
        ⟨_, member, facet, said⟩
      have wellFormed := (WellFormed.empty moduleName).mergeAll (arrivals.map Arrival.grouped)
      exact unknown (wellFormed.contains_groups_iff.2 ⟨⟨place, facet, present⟩, isGroup⟩)

/-- Nothing that has not been grouped touches a group. -/
theorem get?_edges_mergeAll_eq_none {link : Link}
    (touches : isGroupIdentifier link.source = true ∨ isGroupIdentifier link.target = true)
    (view : View) :
    Table.get? ((empty moduleName).mergeAll arrivals).edges (view, link) = none := by
  by_contra recorded
  obtain ⟨arrival, member, mixins, held⟩ := (exists_edges_mergeAll moduleName).1
    (Option.ne_none_iff_exists'.1 recorded)
  obtain ⟨source, target⟩ := (plain arrival member).ends_of_recorded held
  rw [source, target] at touches
  exact touches.elim Bool.false_ne_true Bool.false_ne_true

/-- **The removal of groups leaves no trace of early groupings.** -/
theorem pruneUnified_mergeAll_grouped :
    pruneUnified none ((empty moduleName).mergeAll (arrivals.map Arrival.grouped)) =
      pruneUnified none ((empty moduleName).mergeAll arrivals) := by
  have grouped := (WellFormed.empty moduleName).mergeAll (arrivals.map Arrival.grouped)
  have bare := (WellFormed.empty moduleName).mergeAll arrivals
  refine (grouped.pruneUnified none).ext (bare.pruneUnified none) ?_ ?_ (fun identifier view => ?_)
    (Table.ext_get? fun place => ?_) ?_
  · exact (moduleName_mergeAll _ _).trans (moduleName_mergeAll _ _).symm
  · exact sources_mergeAll_grouped plain
  · cases isGroup : isGroupIdentifier identifier with
    | true =>
      rw [facetAt_pruneUnified_group grouped rfl isGroup,
        facetAt_pruneUnified_group bare rfl isGroup]
    | false =>
      rw [facetAt_pruneUnified, facetAt_pruneUnified, grouped.contains_groups_eq_false isGroup,
        bare.contains_groups_eq_false isGroup]
      exact facetAt_mergeAll_grouped plain isGroup view
  · obtain ⟨view, link⟩ := place
    cases source : isGroupIdentifier link.source with
    | true =>
      rw [get?_edges_pruneUnified_of_group plain source, get?_edges_pruneUnified,
        get?_edges_mergeAll_eq_none plain (.inl source), ite_self]
    | false =>
      by_cases kind : link.kind = .overloadOf
      · rw [get?_edges_pruneUnified, get?_edges_pruneUnified, kind]
        rfl
      · rw [get?_edges_pruneUnified, get?_edges_pruneUnified,
          get?_edges_mergeAll_grouped plain kind source]
        cases target : isGroupIdentifier link.target with
        | true =>
          rw [get?_edges_mergeAll_eq_none plain (.inr target), ite_self, ite_self]
        | false =>
          rw [grouped.contains_groups_eq_false source, grouped.contains_groups_eq_false target,
            bare.contains_groups_eq_false source, bare.contains_groups_eq_false target]
  · exact (orphans_mergeAll _ _).trans (orphans_mergeAll _ _).symm

end Plain

end UnifiedGraph

/-- A grouping depends on what the removal of earlier groups leaves alone. -/
theorem Overload.groupUnified_congr {first second : UnifiedGraph} {scope : Scope}
    (same : pruneUnified scope first = pruneUnified scope second) :
    groupUnified scope first = groupUnified scope second := by
  rw [groupUnified, groupsOf, same, groupUnified, groupsOf]

namespace Session

/-- **Grouping the overloads of each graph before it arrives changes nothing** if the overloads of
all languages are grouped at the end. -/
theorem finishLoading_grouped (config : SessionConfig) {arrivals : List Arrival}
    (keyed : ∀ arrival ∈ arrivals, arrival.graph.IsWellKeyed)
    (ungrouped : ∀ arrival ∈ arrivals, arrival.graph.IsUngrouped) :
    (taken config (arrivals.map Arrival.grouped)).finishLoading (some none) =
      (taken config arrivals).finishLoading (some none) := by
  have plain : ∀ arrival ∈ arrivals, arrival.IsPlain :=
    fun arrival member => ⟨keyed arrival member, ungrouped arrival member⟩
  have keyedGrouped : ∀ arrival ∈ arrivals.map Arrival.grouped, arrival.graph.IsWellKeyed := by
    intro _ member
    obtain ⟨arrival, within, rfl⟩ := List.mem_map.1 member
    exact (plain arrival within).keyed_grouped
  refine finishLoading_congr (Table.ext_get? fun module => ?_) ?_
  · have routed : arrivalsFor config module (arrivals.map Arrival.grouped) =
        (arrivalsFor config module arrivals).map Arrival.grouped := by
      rw [arrivalsFor, arrivalsFor, List.filter_map]
      refine congrArg (List.map Arrival.grouped) (List.filter_congr fun arrival member => ?_)
      rw [Function.comp_apply, (plain arrival member).home_grouped]
    have within : ∀ arrival ∈ arrivalsFor config module arrivals, arrival.IsPlain :=
      fun arrival member => plain arrival (mem_arrivalsFor.1 member).1
    rw [Table.get?_map, Table.get?_map, get?_graphs_taken, get?_graphs_taken, routed]
    cases here : arrivalsFor config module arrivals with
    | nil => rfl
    | cons arrival rest =>
      rw [here] at within
      exact congrArg (fun unified => some unified.collectOrphans)
        (groupUnified_congr (UnifiedGraph.pruneUnified_mergeAll_grouped within))
  · rw [taken, taken, diagnostics_takeAll _ keyed, diagnostics_takeAll _ keyedGrouped]

/-- A graph and one that extends its module, with overloads of one method. -/
def overloaded : List Arrival :=
  let extras : SymbolGraph :=
    SymbolGraph.addSymbol { module := { name := "Extras" } } (drawing "drawBy")
  [{ graph := drawings, source := "Kit.symbols.json", role := .main },
   { graph := extras, source := "Extras@Kit.symbols.json", role := .extending "Kit" }]

theorem finishLoading_grouped_overloaded :
    (∀ arrival ∈ overloaded, arrival.graph.IsWellKeyed) ∧
      (∀ arrival ∈ overloaded, arrival.graph.IsUngrouped) ∧
      (taken {} (overloaded.map Arrival.grouped)).finishLoading (some none) =
        (taken {} overloaded).finishLoading (some none) := by
  have keyed : ∀ arrival ∈ overloaded, arrival.graph.IsWellKeyed := by
    intro arrival member
    rcases List.mem_pair.1 member with rfl | rfl
    · exact isWellKeyed_drawings
    · exact (SymbolGraph.isWellKeyed_of_symbols_eq_empty rfl).addSymbol _
  have ungrouped : ∀ arrival ∈ overloaded, arrival.graph.IsUngrouped := by
    intro arrival member
    rcases List.mem_pair.1 member with rfl | rfl
    · exact isUngrouped_drawings
    · exact .of_entries (by decide +kernel) (by decide +kernel)
  exact ⟨keyed, ungrouped, finishLoading_grouped {} keyed ungrouped⟩

end Session

end ApiAtlas
