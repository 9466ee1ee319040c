import ApiAtlas.Proofs.Table.Lookup
import ApiAtlas.Unified.Graph
import Mathlib.Data.List.Induction

/-!
# What a merge changes

A unified graph is observed through its look-ups: the facet of an identifier in
a view (`facetAt`) and the mixins of a link in a view. Merging a graph lets at
most one facet arrive there, the one that the graph itself has in that view
(`facetAt_merge`), and piles up the mixins that it declares there
(`get?_edges_merge`). Both depend on what stood there before and on the graph
alone, so a run of merges is a run of arrivals at every place.

Which views a relationship goes to depends on the languages of the symbols only
(`viewsOf_congr`). What a graph declares under one link it records in each of the
link's views (`get?_recorded`).
-/

set_option autoImplicit false

namespace ApiAtlas

/-! ## Facets -/

/-- The facet once another one may have arrived. -/
abbrev Facet.afterArrival : Option Facet → Option Facet → Option Facet :=
  Option.merge Facet.receive

/-- The facet of an identifier in a view, in a table of symbols. -/
def facetIn (symbols : Table String UnifiedSymbol) (identifier : String) (view : View) :
    Option Facet :=
  (symbols.get? identifier).bind (·.facet? view)

theorem facetIn_of_get? {symbols : Table String UnifiedSymbol} {identifier : String}
    {symbol : UnifiedSymbol} (found : symbols.get? identifier = some symbol) (view : View) :
    facetIn symbols identifier view = symbol.facet? view := by
  rw [facetIn, found, Option.bind_some]

/-- Every facet is one of a symbol. -/
theorem exists_of_facetIn {symbols : Table String UnifiedSymbol} {identifier : String}
    {view : View} {facet : Facet} (known : facetIn symbols identifier view = some facet) :
    ∃ symbol, symbols.get? identifier = some symbol ∧ symbol.facet? view = some facet :=
  Option.bind_eq_some_iff.1 known

namespace UnifiedGraph

/-- What is known about an identifier in a view. -/
abbrev facetAt (unified : UnifiedGraph) (identifier : String) (view : View) : Option Facet :=
  facetIn unified.symbols identifier view

end UnifiedGraph

namespace SymbolGraph

/-- Every symbol of the graph stands under its own identifier. -/
def IsWellKeyed (graph : SymbolGraph) : Prop :=
  ∀ key symbol, graph.symbols.get? key = some symbol → symbol.identifier = key

theorem isWellKeyed_of_symbols_eq_empty {graph : SymbolGraph}
    (none : graph.symbols = Table.empty) : graph.IsWellKeyed := by
  intro key symbol found
  rw [none, Table.get?_empty] at found
  cases found

/-- A symbol is added under its own identifier. -/
theorem IsWellKeyed.addSymbol {graph : SymbolGraph} (keyed : graph.IsWellKeyed)
    (symbol : Symbol) : (graph.addSymbol symbol).IsWellKeyed := by
  intro key other found
  rw [SymbolGraph.addSymbol, Table.get?_insert] at found
  split at found
  · next own =>
    rw [← Option.some.inj found]
    exact own.symm
  · exact keyed key other found

/-- What the graph says about an identifier in a view. -/
def facet? (graph : SymbolGraph) (isMain : Bool) (identifier : String) (view : View) :
    Option Facet :=
  ((UnifiedGraph.wellKeyed graph).get? identifier).bind fun symbol =>
    if View.ofSymbol symbol graph.module = view then
      some (Facet.ofSymbol symbol graph.module isMain)
    else
      none

/-- The unified graph of the graph on its own, as the main graph of its module. -/
def unified (graph : SymbolGraph) : UnifiedGraph :=
  (UnifiedGraph.empty graph.module.name).merge graph graph.module.name true

/-- The relationships that the graph records on its own. -/
def recorded (graph : SymbolGraph) : EdgeTable :=
  graph.unified.edges

/-- The views to which a link of the graph goes. -/
def viewsOf (graph : SymbolGraph) (link : Link) : List View :=
  UnifiedGraph.viewsOf graph.module (UnifiedGraph.wellKeyed graph) link

/-- The relationships of the graph with the views to which they go. -/
def declared (graph : SymbolGraph) : List (View × Relationship) :=
  graph.relationships.flatMap fun relationship =>
    (graph.viewsOf relationship.link).map fun view => (view, relationship)

/-- The mixins of the graph's relationships with a link, as they come. -/
def mixinsOf (graph : SymbolGraph) (link : Link) : List Mixins :=
  graph.relationships.filterMap fun relationship =>
    if link = relationship.link then some relationship.mixins else none

end SymbolGraph

namespace UnifiedGraph

theorem get?_wellKeyed {graph : SymbolGraph} {key : String} {symbol : Symbol} :
    (wellKeyed graph).get? key = some symbol ↔
      graph.symbols.get? key = some symbol ∧ symbol.identifier = key := by
  rw [wellKeyed, Table.get?_filter, Option.filter_eq_some_iff]
  simp

/-- All symbols of a well-keyed graph count. -/
theorem wellKeyed_eq {graph : SymbolGraph} (keyed : graph.IsWellKeyed) :
    wellKeyed graph = graph.symbols := by
  refine Table.ext_get? fun key => Option.ext fun symbol => ?_
  rw [get?_wellKeyed]
  exact ⟨fun found => found.1, fun found => ⟨found, keyed key symbol found⟩⟩

/-- A well-keyed graph is merged without a mismatch. -/
theorem mismatches_eq_nil {graph : SymbolGraph} (keyed : graph.IsWellKeyed) :
    mismatches graph = [] := by
  rw [mismatches, List.map_eq_nil_iff, List.filter_eq_nil_iff]
  intro entry member
  have own := keyed entry.1 entry.2 (Table.get?_eq_some_iff.2 member)
  simp [own]

/-- A merge changes the symbols that stand in the graph under their own identifiers. -/
theorem get?_symbols_merge (unified : UnifiedGraph) (graph : SymbolGraph) (source : String)
    (isMain : Bool) (identifier : String) :
    (unified.merge graph source isMain).symbols.get? identifier =
      match (wellKeyed graph).get? identifier with
      | none => unified.symbols.get? identifier
      | some symbol =>
        some (((unified.symbols.get? identifier).getD (.empty identifier)).record
          (View.ofSymbol symbol graph.module) (Facet.ofSymbol symbol graph.module isMain)) := by
  have run := Table.get?_foldl_alter (fun entry : String × Symbol => entry.1)
    (fun entry held => some ((held.getD (.empty entry.1)).record
      (View.ofSymbol entry.2 graph.module) (Facet.ofSymbol entry.2 graph.module isMain)))
    (wellKeyed graph).entries unified.symbols identifier
  rw [Table.foldl_entries_at] at run
  refine run.trans ?_
  cases (wellKeyed graph).get? identifier <;> rfl

/-- **At every place a merge lets at most one facet arrive.** -/
theorem facetAt_merge (unified : UnifiedGraph) (graph : SymbolGraph) (source : String)
    (isMain : Bool) (identifier : String) (view : View) :
    (unified.merge graph source isMain).facetAt identifier view =
      Facet.afterArrival (unified.facetAt identifier view)
        (graph.facet? isMain identifier view) := by
  rw [facetAt, facetIn, get?_symbols_merge, SymbolGraph.facet?]
  cases (wellKeyed graph).get? identifier with
  | none => exact Option.merge_none_right.symm
  | some symbol =>
    simp only [Option.bind_some, UnifiedSymbol.facet?_record]
    by_cases own : view = View.ofSymbol symbol graph.module
    · subst own
      rw [if_pos rfl, if_pos rfl, facetAt, facetIn]
      cases unified.symbols.get? identifier with
      | none => rfl
      | some held =>
        simp only [Option.getD_some, Option.bind_some]
        cases held.facet? (View.ofSymbol symbol graph.module) <;> rfl
    · rw [if_neg own, if_neg fun same => own same.symm, facetAt, facetIn]
      refine Eq.trans ?_ Option.merge_none_right.symm
      cases unified.symbols.get? identifier <;> rfl

/-- The groups after a merge are those before and those of the graph. -/
theorem contains_groups_merge (unified : UnifiedGraph) (graph : SymbolGraph) (source : String)
    (isMain : Bool) (identifier : String) :
    (unified.merge graph source isMain).groups.contains identifier = true ↔
      (wellKeyed graph).contains identifier = true ∧ isGroupIdentifier identifier = true ∨
        unified.groups.contains identifier = true := by
  simp only [merge, KeySet.contains_foldl_add, List.mem_filter, Table.mem_keys]

end UnifiedGraph

/-! ## Relationships -/

namespace EdgeTable

/-- The mixins once others have arrived under the same link. -/
def pile (held : Option Mixins) (arrived : Mixins) : Option Mixins :=
  some (Table.union (held.getD Table.empty) arrived)

/-- The relationships inserted one after the other. -/
def insertEdges (edges : EdgeTable) (added : List (View × Relationship)) : EdgeTable :=
  added.foldl (fun sofar edge => sofar.insertEdge edge.1 edge.2) edges

/-- The mixins of the relationships with a link in a view, as they come. -/
def mixinsUnder (key : View × Link) (added : List (View × Relationship)) : List Mixins :=
  added.filterMap fun edge => if key = (edge.1, edge.2.link) then some edge.2.mixins else none

/-- **Inserted relationships pile up at the places to which they go.** -/
theorem get?_insertEdges (edges : EdgeTable) (added : List (View × Relationship))
    (key : View × Link) :
    Table.get? (insertEdges edges added) key =
      (mixinsUnder key added).foldl pile (Table.get? edges key) := by
  have insert : insertEdges edges added = added.foldl
      (fun sofar edge => Table.alter sofar (edge.1, edge.2.link) fun held =>
        pile held edge.2.mixins) edges := by
    refine congrArg (fun step => added.foldl step edges) (funext fun sofar => funext fun edge => ?_)
    refine congrArg (Table.alter sofar _) (funext fun held => ?_)
    cases held with
    | none => exact congrArg some (Table.empty_union edge.2.mixins).symm
    | some held => rfl
  rw [insert, Table.get?_foldl_alter (fun edge : View × Relationship => (edge.1, edge.2.link))
    (fun edge held => pile held edge.2.mixins), mixinsUnder, List.foldl_filterMap]
  refine congrArg (fun step => added.foldl step (Table.get? edges key))
    (funext fun held => funext fun edge => ?_)
  by_cases same : key = (edge.1, edge.2.link) <;> simp [same]

theorem mixinsUnder_append (key : View × Link) (first second : List (View × Relationship)) :
    mixinsUnder key (first ++ second) = mixinsUnder key first ++ mixinsUnder key second :=
  List.filterMap_append

/-- The mixins of two places put together; those of the second decide. -/
abbrev join : Option Mixins → Option Mixins → Option Mixins :=
  Option.merge Table.union

/-- What piles up on something is joined to it. -/
theorem foldl_pile (held : Option Mixins) (arrived : List Mixins) :
    arrived.foldl pile held = join held (arrived.foldl pile none) := by
  induction arrived using List.reverseRecOn with
  | nil => exact Option.merge_none_right.symm
  | append_singleton before last ih =>
    rw [List.foldl_append, List.foldl_append, ih]
    simp only [List.foldl_cons, List.foldl_nil, pile]
    cases held with
    | none => simp only [Option.merge_none_left]
    | some held =>
      cases before.foldl pile none with
      | none => simp
      | some piled => simp [Table.union_assoc]

/-- Something piles up exactly if something arrives. -/
theorem foldl_pile_eq_none_iff {arrived : List Mixins} :
    arrived.foldl pile none = none ↔ arrived = [] := by
  cases arrived with
  | nil => simp
  | cons first rest =>
    rw [List.foldl_cons, foldl_pile, Option.merge_eq_none_iff]
    simp [pile]

theorem foldl_pile_toList (held arrived : Option Mixins) :
    arrived.toList.foldl pile held = join held arrived := by
  cases held <;> cases arrived <;> simp [pile]

/-- Mixins that agree may be joined to others in either order. -/
theorem join_right_comm {first second : Option Mixins}
    (agree : ∀ left right, first = some left → second = some right →
      ∀ key one other, Table.get? left key = some one → Table.get? right key = some other →
        one = other) (held : Option Mixins) :
    join (join held first) second = join (join held second) first := by
  cases first with
  | none => cases second <;> cases held <;> rfl
  | some left =>
    cases second with
    | none => cases held <;> rfl
    | some right =>
      have swap := Table.union_comm_of_agree (agree left right rfl rfl)
      cases held with
      | none => exact congrArg some swap
      | some held => simp only [Option.merge_some_some, Table.union_assoc, swap]

/-- Relationships without mixins leave those that are there. -/
theorem foldl_pile_of_empty {arrived : List Mixins}
    (bare : ∀ mixins ∈ arrived, mixins = Table.empty) (held : Option Mixins) :
    arrived.foldl pile held = join held (if arrived.isEmpty then none else some Table.empty) := by
  induction arrived generalizing held with
  | nil => exact Option.merge_none_right.symm
  | cons first rest ih =>
    rw [List.foldl_cons, bare first (List.mem_cons_self ..),
      ih fun mixins member => bare mixins (List.mem_cons_of_mem _ member)]
    cases held <;> cases rest <;> rfl

/-- The links of the distinct relationships are those of all views. -/
theorem exists_mem_distinct {edges : EdgeTable} {link : Link} :
    (∃ relationship ∈ distinct edges, relationship.link = link) ↔
      ∃ view mixins, Table.get? edges (view, link) = some mixins := by
  have noted : ∀ (entries : List ((View × Link) × Mixins)) (held : Option Mixins),
      (entries.foldl (fun held entry => if link = entry.1.2 then some (held.getD entry.2) else held)
        held).isSome = true ↔ held.isSome = true ∨ ∃ entry ∈ entries, link = entry.1.2 := by
    intro entries
    induction entries with
    | nil => simp
    | cons entry rest ih =>
      intro held
      rw [List.foldl_cons, ih]
      by_cases same : link = entry.1.2 <;> simp [same]
  have run := Table.get?_foldl_alter (fun entry : (View × Link) × Mixins => entry.1.2)
    (fun entry held => some (held.getD entry.2)) edges.entries Table.empty link
  have found := noted edges.entries ((Table.empty : Table Link Mixins).get? link)
  rw [← run, Table.get?_empty] at found
  constructor
  · rintro ⟨relationship, member, rfl⟩
    obtain ⟨entry, within, rfl⟩ := List.mem_map.1 member
    have present := Option.isSome_iff_exists.2 ⟨entry.2, Table.get?_eq_some_iff.2 within⟩
    obtain ⟨⟨⟨view, link⟩, mixins⟩, original, same⟩ := (found.1 present).resolve_left nofun
    exact ⟨view, mixins, Table.get?_eq_some_iff.2 (by rw [same]; exact original)⟩
  · rintro ⟨view, mixins, recorded⟩
    have present := found.2 (.inr ⟨_, Table.get?_eq_some_iff.1 recorded, rfl⟩)
    obtain ⟨kept, shown⟩ := Option.isSome_iff_exists.1 present
    exact ⟨⟨link, kept⟩, List.mem_map.2 ⟨(link, kept), Table.get?_eq_some_iff.1 shown, rfl⟩, rfl⟩

/-- No two of the distinct relationships have the same link. -/
theorem nodup_link_distinct (edges : EdgeTable) : ((distinct edges).map (·.link)).Nodup := by
  rw [distinct, List.map_map]
  exact Table.nodup_keys _

end EdgeTable

namespace UnifiedGraph

/-- A merge inserts what the graph declares. -/
theorem edges_merge (unified : UnifiedGraph) (graph : SymbolGraph) (source : String)
    (isMain : Bool) :
    (unified.merge graph source isMain).edges = unified.edges.insertEdges graph.declared := by
  rw [EdgeTable.insertEdges, SymbolGraph.declared, List.foldl_flatMap]
  simp only [List.foldl_map]
  rfl

/-- **At every place a merge piles up the mixins that the graph declares there.** -/
theorem get?_edges_merge (unified : UnifiedGraph) (graph : SymbolGraph) (source : String)
    (isMain : Bool) (key : View × Link) :
    Table.get? (unified.merge graph source isMain).edges key =
      (EdgeTable.mixinsUnder key graph.declared).foldl EdgeTable.pile
        (Table.get? unified.edges key) := by
  rw [edges_merge, EdgeTable.get?_insertEdges]

/-- What a merge adds at a place is what the graph records there on its own. -/
theorem get?_edges_merge_join (unified : UnifiedGraph) (graph : SymbolGraph) (source : String)
    (isMain : Bool) (key : View × Link) :
    Table.get? (unified.merge graph source isMain).edges key =
      EdgeTable.join (Table.get? unified.edges key) (Table.get? graph.recorded key) := by
  rw [get?_edges_merge, EdgeTable.foldl_pile, SymbolGraph.recorded, SymbolGraph.unified,
    get?_edges_merge]
  rfl

/-- A single graph gives its own unified graph if its symbols stand under their identifiers. -/
theorem ofGraph_eq {graph : SymbolGraph} (keyed : graph.IsWellKeyed) :
    ofGraph graph = .ok graph.unified := by
  rw [ofGraph, mismatches_eq_nil keyed]
  rfl

theorem facetAt_unified (graph : SymbolGraph) (identifier : String) (view : View) :
    graph.unified.facetAt identifier view = graph.facet? true identifier view := by
  rw [SymbolGraph.unified, facetAt_merge]
  cases graph.facet? true identifier view <;> rfl

/-- The views of a link depend on the languages of its ends and of all symbols alone. -/
theorem viewsOf_congr (module : Module) {first second : Table String Symbol} {link : Link}
    (source : (first.get? link.source).map (·.language) =
      (second.get? link.source).map (·.language))
    (target : (first.get? link.target).map (·.language) =
      (second.get? link.target).map (·.language))
    (languages : ∀ language,
      (∃ identifier, (first.get? identifier).map (·.language) = some language) ↔
        ∃ identifier, (second.get? identifier).map (·.language) = some language) :
    viewsOf module first link = viewsOf module second link := by
  have ends : ((first.get? link.source).or (first.get? link.target)).map (·.language) =
      ((second.get? link.source).or (second.get? link.target)).map (·.language) := by
    rw [Option.map_or, Option.map_or, source, target]
  have views : KeySet.ofList (first.values.map (View.ofSymbol · module)) =
      KeySet.ofList (second.values.map (View.ofSymbol · module)) := by
    have shown : ∀ (symbols : Table String Symbol) (view : View),
        view ∈ symbols.values.map (View.ofSymbol · module) ↔
          view.platform = module.platform.name? ∧
            ∃ identifier, (symbols.get? identifier).map (·.language) = some view.language := by
      intro symbols view
      simp only [List.mem_map, Table.mem_values, Option.map_eq_some_iff]
      constructor
      · rintro ⟨symbol, ⟨identifier, found⟩, rfl⟩
        exact ⟨rfl, identifier, symbol, found, rfl⟩
      · rintro ⟨platform, identifier, symbol, found, language⟩
        exact ⟨symbol, ⟨identifier, found⟩, by rw [View.ofSymbol, language, ← platform]⟩
    exact KeySet.ofList_congr fun view => by rw [shown, shown, languages]
  unfold viewsOf
  cases left : (first.get? link.source).or (first.get? link.target) with
  | none =>
    cases right : (second.get? link.source).or (second.get? link.target) with
    | none => rw [views]
    | some symbol => rw [left, right] at ends; cases ends
  | some symbol =>
    cases right : (second.get? link.source).or (second.get? link.target) with
    | none => rw [left, right] at ends; cases ends
    | some other =>
      rw [left, right, Option.map_some, Option.map_some, Option.some.injEq] at ends
      simp only [View.ofSymbol, ends]

/-- No view is named twice. -/
theorem nodup_viewsOf (module : Module) (symbols : Table String Symbol) (link : Link) :
    (viewsOf module symbols link).Nodup := by
  unfold viewsOf
  split
  · exact List.pairwise_singleton _ _
  · exact Table.nodup_keys _

end UnifiedGraph

namespace SymbolGraph

/-- A member of a list without repetitions counts once. -/
theorem filterMap_of_nodup {α β : Type} [DecidableEq α] {members : List α}
    (distinct : members.Nodup) (wanted : α) (result : β) :
    members.filterMap (fun member => if wanted = member then some result else none) =
      if wanted ∈ members then [result] else [] := by
  induction members with
  | nil => rfl
  | cons member rest ih =>
    obtain ⟨fresh, others⟩ := List.nodup_cons.1 distinct
    rw [List.filterMap_cons, ih others]
    by_cases same : wanted = member
    · subst same
      rw [if_pos rfl, if_neg fresh, if_pos (List.mem_cons_self ..)]
    · rw [if_neg same]
      simp only [List.mem_cons, same, false_or]

/-- A link is declared in its own views. -/
theorem mixinsUnder_declared (graph : SymbolGraph) (view : View) (link : Link) :
    EdgeTable.mixinsUnder (view, link) graph.declared =
      if view ∈ graph.viewsOf link then graph.mixinsOf link else [] := by
  have single : ∀ relationship : Relationship,
      EdgeTable.mixinsUnder (view, link)
          ((graph.viewsOf relationship.link).map fun view => (view, relationship)) =
        if view ∈ graph.viewsOf link then
          (if link = relationship.link then some relationship.mixins else none).toList
        else [] := by
    intro relationship
    rw [EdgeTable.mixinsUnder, List.filterMap_map]
    by_cases same : link = relationship.link
    · subst same
      have distinct := UnifiedGraph.nodup_viewsOf graph.module (UnifiedGraph.wellKeyed graph)
        relationship.link
      rw [if_pos rfl]
      refine Eq.trans ?_ (filterMap_of_nodup distinct view relationship.mixins)
      refine congrArg (List.filterMap · _) (funext fun other => ?_)
      simp only [Function.comp_apply, Prod.mk.injEq, and_true]
    · simp [same]
  rw [declared, mixinsOf]
  induction graph.relationships with
  | nil => simp [EdgeTable.mixinsUnder]
  | cons relationship rest ih =>
    rw [List.flatMap_cons, EdgeTable.mixinsUnder_append, single, ih]
    by_cases within : view ∈ graph.viewsOf link
    · rw [if_pos within, if_pos within, if_pos within, List.filterMap_cons]
      by_cases same : link = relationship.link <;> simp [same]
    · rw [if_neg within, if_neg within, if_neg within, List.append_nil]

/-- **What a graph records on its own under a link, it records in all views of the link.** -/
theorem get?_recorded (graph : SymbolGraph) (view : View) (link : Link) :
    Table.get? graph.recorded (view, link) =
      if view ∈ graph.viewsOf link then (graph.mixinsOf link).foldl EdgeTable.pile none
      else none := by
  rw [recorded, unified, UnifiedGraph.get?_edges_merge, mixinsUnder_declared]
  by_cases within : view ∈ graph.viewsOf link
  · rw [if_pos within, if_pos within]
    rfl
  · rw [if_neg within, if_neg within]
    rfl

theorem mixinsOf_eq_nil_iff {graph : SymbolGraph} {link : Link} :
    graph.mixinsOf link = [] ↔ ∀ relationship ∈ graph.relationships, relationship.link ≠ link := by
  rw [mixinsOf, List.filterMap_eq_nil_iff]
  refine forall₂_congr fun relationship _ => ?_
  by_cases same : link = relationship.link
  · simp [same]
  · simp [same, Ne.symm same]

/-- A relationship of a graph is recorded in all views of its link. -/
theorem exists_recorded_iff {graph : SymbolGraph} {view : View} {link : Link} :
    (∃ mixins, Table.get? graph.recorded (view, link) = some mixins) ↔
      view ∈ graph.viewsOf link ∧
        ∃ relationship ∈ graph.relationships, relationship.link = link := by
  have declared : (∃ mixins, (graph.mixinsOf link).foldl EdgeTable.pile none = some mixins) ↔
      ∃ relationship ∈ graph.relationships, relationship.link = link := by
    rw [← Option.ne_none_iff_exists', ne_eq, EdgeTable.foldl_pile_eq_none_iff, mixinsOf_eq_nil_iff]
    simp only [ne_eq, not_forall, not_not, exists_prop]
  rw [get?_recorded, ← declared]
  by_cases within : view ∈ graph.viewsOf link
  · rw [if_pos within, and_iff_right within]
  · rw [if_neg within]
    exact ⟨nofun, fun found => absurd found.1 within⟩

end SymbolGraph

end ApiAtlas
