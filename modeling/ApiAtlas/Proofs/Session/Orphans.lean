import ApiAtlas.Proofs.Session.ArrivalOrder
import ApiAtlas.Proofs.Unified.Orphans

/-!
# Orphans part what has been declared

A graph declares a relationship for the view of its source, else for that of its
target, else for every view of the graph (`SymbolGraph.GoesTo`). When a session
ends without a grouping, the two tables of every unified graph hold exactly what
the arrivals of the module declare, view by view (`PartsDeclared.declared`). A
relationship of which no end is a symbol of the unified graph is set apart, also
if one arrival knows more ends than another, and every other is not
(`PartsDeclared.orphan_iff`).

The session reports the modules with orphans, with the numbers of their links,
and each of them once (`Session.finishLoading_partsDeclared`).
-/

set_option autoImplicit false

namespace ApiAtlas

/-! ## What a graph declares -/

namespace SymbolGraph

variable {graph : SymbolGraph} {link : Link} {view : View}

/-- The views of a graph for which it declares its relationships with a link. -/
inductive GoesTo (graph : SymbolGraph) (link : Link) : View → Prop
  /-- The source decides. -/
  | source {symbol : Symbol} : graph.symbols.get? link.source = some symbol →
      GoesTo graph link (View.ofSymbol symbol graph.module)
  /-- Else the target decides. -/
  | target {symbol : Symbol} : graph.symbols.get? link.source = none →
      graph.symbols.get? link.target = some symbol →
      GoesTo graph link (View.ofSymbol symbol graph.module)
  /-- Else every symbol has a say. -/
  | every {identifier : String} {symbol : Symbol} : graph.symbols.get? link.source = none →
      graph.symbols.get? link.target = none → graph.symbols.get? identifier = some symbol →
      GoesTo graph link (View.ofSymbol symbol graph.module)

/-- The graph declares a relationship with a link for a view. -/
structure Declares (graph : SymbolGraph) (view : View) (link : Link) : Prop where
  relationship : ∃ relationship ∈ graph.relationships, relationship.link = link
  goesTo : graph.GoesTo link view

/-- The views of a link are computed as they are meant. -/
theorem mem_viewsOf_iff (keyed : graph.IsWellKeyed) :
    view ∈ graph.viewsOf link ↔ graph.GoesTo link view := by
  rw [viewsOf, UnifiedGraph.viewsOf, UnifiedGraph.wellKeyed_eq keyed]
  constructor
  · intro member
    split at member
    · next symbol found =>
      rw [List.mem_singleton.1 member]
      rcases Option.or_eq_some_iff.1 found with source | ⟨absent, target⟩
      · exact .source source
      · exact .target absent target
    · next absent =>
      rw [Option.or_eq_none_iff] at absent
      rw [KeySet.mem_toList, KeySet.contains_ofList, List.mem_map] at member
      obtain ⟨symbol, present, rfl⟩ := member
      obtain ⟨identifier, found⟩ := Table.mem_values.1 present
      exact .every absent.1 absent.2 found
  · intro goesTo
    cases goesTo with
    | source found =>
      rw [found]
      exact List.mem_singleton_self _
    | target absent found =>
      rw [absent, found]
      exact List.mem_singleton_self _
    | every noSource noTarget found =>
      rw [noSource, noTarget]
      apply KeySet.mem_toList.2
      apply (KeySet.contains_ofList _ _).2
      exact List.mem_map_of_mem (Table.mem_values.2 ⟨_, found⟩)

/-- A graph records on its own what it declares. -/
theorem contains_recorded_iff (keyed : graph.IsWellKeyed) :
    Table.contains graph.recorded (view, link) = true ↔ graph.Declares view link := by
  rw [Table.contains_iff, exists_recorded_iff, mem_viewsOf_iff keyed]
  exact ⟨fun ⟨goesTo, relationship⟩ => ⟨relationship, goesTo⟩,
    fun declares => ⟨declares.goesTo, declares.relationship⟩⟩

end SymbolGraph

/-! ## What a unified graph comes to -/

/-- The two tables of a unified graph part what some arrivals declare. -/
structure PartsDeclared (arrivals : List Arrival) (unified : UnifiedGraph) : Prop where
  /-- Together they have what is declared and nothing else. -/
  declared : ∀ view link,
    (Table.contains unified.edges (view, link) = true ∨
        Table.contains unified.orphans (view, link) = true) ↔
      ∃ arrival ∈ arrivals, arrival.graph.Declares view link
  /-- Of what they have, the orphans are those without an end that is a symbol of the graph. -/
  orphan_iff : ∀ view link,
    (Table.contains unified.edges (view, link) = true ∨
        Table.contains unified.orphans (view, link) = true) →
      (Table.contains unified.orphans (view, link) = true ↔
        unified.symbols.contains link.source = false ∧
          unified.symbols.contains link.target = false)
  /-- No link is in both, in whatever views. -/
  apart : ∀ link first second, Table.contains unified.edges (first, link) = true →
    Table.contains unified.orphans (second, link) = false
  /-- There is nothing left to collect. -/
  settled : unified.collectOrphans = unified

namespace UnifiedGraph

/-- What arrivals record, their graphs declare. -/
theorem contains_allEdges_mergeAll {arrivals : List Arrival}
    (keyed : ∀ arrival ∈ arrivals, arrival.graph.IsWellKeyed) (moduleName : String) {view : View}
    {link : Link} :
    Table.contains ((UnifiedGraph.empty moduleName).mergeAll arrivals).allEdges
        (view, link) = true ↔
      ∃ arrival ∈ arrivals, arrival.graph.Declares view link := by
  have nothingApart : Table.contains
      ((UnifiedGraph.empty moduleName).mergeAll arrivals).orphans (view, link) = false := by
    rw [orphans_mergeAll]
    rfl
  rw [contains_allEdges_iff, nothingApart, Table.contains_iff, exists_edges_mergeAll]
  simp only [Bool.false_eq_true, or_false, ← Table.contains_iff]
  refine exists_congr fun arrival => and_congr_right fun member => ?_
  exact SymbolGraph.contains_recorded_iff (keyed arrival member)

/-- Collecting orphans parts what the arrivals declare. -/
theorem partsDeclared_collectOrphans {arrivals : List Arrival}
    (keyed : ∀ arrival ∈ arrivals, arrival.graph.IsWellKeyed) (moduleName : String) :
    PartsDeclared arrivals ((UnifiedGraph.empty moduleName).mergeAll arrivals).collectOrphans where
  declared view link := by
    rw [← contains_allEdges_iff, allEdges_collectOrphans, contains_allEdges_mergeAll keyed]
  orphan_iff view link recorded := by
    rw [← contains_allEdges_iff, allEdges_collectOrphans] at recorded
    rw [contains_orphans_collectOrphans_iff, and_iff_right recorded, knowsEnd_eq_false_iff]
    rfl
  apart link first second regular := by
    obtain ⟨-, known⟩ := contains_edges_collectOrphans_iff.1 regular
    apply Bool.eq_false_iff.2
    intro orphan
    obtain ⟨-, unknown⟩ := contains_orphans_collectOrphans_iff.1 orphan
    rw [known] at unknown
    cases unknown
  settled := collectOrphans_collectOrphans _

end UnifiedGraph

/-! ## What a session reports -/

/-- The links of relationships, each once. -/
def EdgeTable.links (edges : EdgeTable) : List Link :=
  ((Table.keys edges).map (·.2)).dedup

theorem EdgeTable.links_eq_nil_iff {edges : EdgeTable} :
    links edges = [] ↔ Table.isEmpty edges = true := by
  rw [links, List.dedup_eq_nil, List.map_eq_nil_iff, Table.keys, List.map_eq_nil_iff,
    Table.isEmpty, List.isEmpty_iff]

namespace Session

/-- The orphans of a graph are reported if there are some, with the number of their links. -/
theorem orphanDiagnostic?_eq_some_iff {module : String} {graph : UnifiedGraph}
    {diagnostic : Diagnostic} :
    orphanDiagnostic? module graph = some diagnostic ↔
      Table.isEmpty graph.orphans = false ∧
        diagnostic = .orphanRelationships module (EdgeTable.links graph.orphans).length := by
  have count : graph.orphanRelationships.length = (EdgeTable.links graph.orphans).length :=
    EdgeTable.length_distinct graph.orphans
  have absent : graph.orphanRelationships.isEmpty = Table.isEmpty graph.orphans := by
    rw [Bool.eq_iff_iff, List.isEmpty_iff_length_eq_zero, count, List.length_eq_zero_iff,
      EdgeTable.links_eq_nil_iff]
  rw [orphanDiagnostic?, absent, count]
  cases Table.isEmpty graph.orphans <;> simp [eq_comm]

theorem arrivalsFor_ne_nil_iff {config : SessionConfig} {module : String}
    {arrivals : List Arrival} :
    arrivalsFor config module arrivals ≠ [] ↔
      ∃ arrival ∈ arrivals, arrival.home config = module := by
  rw [arrivalsFor, ne_eq, List.filter_eq_nil_iff]
  simp

/-- Without a grouping the unified graph of a module is what its arrivals come to once the orphans
are collected. -/
theorem get?_graphs_finishLoading_none {config : SessionConfig} {arrivals : List Arrival}
    {module : String} {unified : UnifiedGraph} :
    ((taken config arrivals).finishLoading none).graphs.get? module = some unified ↔
      arrivalsFor config module arrivals ≠ [] ∧
        unified = ((UnifiedGraph.empty module).mergeAll
          (arrivalsFor config module arrivals)).collectOrphans := by
  rw [finishLoading, Table.get?_map, get?_graphs_taken]
  cases arrivalsFor config module arrivals with
  | nil => simp [gathered]
  | cons arrival rest => simp [gathered, finishGraph, groupGraph, eq_comm]

/-- The diagnostics of well-keyed arrivals are those about orphans. -/
theorem diagnostics_finishLoading_none (config : SessionConfig) {arrivals : List Arrival}
    (keyed : ∀ arrival ∈ arrivals, arrival.graph.IsWellKeyed) :
    ((taken config arrivals).finishLoading none).diagnostics =
      ((taken config arrivals).finishLoading none).graphs.entries.filterMap
        fun entry => orphanDiagnostic? entry.1 entry.2 := by
  have none : (taken config arrivals).diagnostics = [] := diagnostics_takeAll { config } keyed
  rw [finishLoading, none]
  rfl

/-- No module is reported twice. -/
theorem nodup_orphanDiagnostics (graphs : Table String UnifiedGraph) :
    (graphs.entries.filterMap fun entry => orphanDiagnostic? entry.1 entry.2).Nodup := by
  refine List.Pairwise.filterMap _ (fun first second before => ?_) graphs.ascending
  intro diagnostic ofFirst other ofSecond same
  obtain ⟨-, rfl⟩ := orphanDiagnostic?_eq_some_iff.1 ofFirst
  obtain ⟨-, rfl⟩ := orphanDiagnostic?_eq_some_iff.1 ofSecond
  exact Key.ne_of_rank_lt before (Diagnostic.orphanRelationships.inj same).1

/-- **Orphans part what has been declared**: when well-keyed arrivals end without a grouping, every
module to which some went has a unified graph that parts what they declare, and the diagnostics are
those about the modules with orphans, with the numbers of their links. -/
theorem finishLoading_partsDeclared (config : SessionConfig) (arrivals : List Arrival)
    (keyed : ∀ arrival ∈ arrivals, arrival.graph.IsWellKeyed) :
    (∀ module, ((taken config arrivals).finishLoading none).graphs.contains module = true ↔
        ∃ arrival ∈ arrivals, arrival.home config = module) ∧
      (∀ module unified,
        ((taken config arrivals).finishLoading none).graphs.get? module = some unified →
          PartsDeclared (arrivalsFor config module arrivals) unified) ∧
      (∀ diagnostic, diagnostic ∈ ((taken config arrivals).finishLoading none).diagnostics ↔
        ∃ module unified,
          ((taken config arrivals).finishLoading none).graphs.get? module = some unified ∧
            Table.isEmpty unified.orphans = false ∧
            diagnostic =
              .orphanRelationships module (EdgeTable.links unified.orphans).length) ∧
      ((taken config arrivals).finishLoading none).diagnostics.Nodup := by
  refine ⟨fun module => ?_, fun module unified found => ?_, fun diagnostic => ?_, ?_⟩
  · simp only [Table.contains_iff, get?_graphs_finishLoading_none, exists_and_left, exists_eq,
      and_true, arrivalsFor_ne_nil_iff]
  · obtain ⟨-, rfl⟩ := get?_graphs_finishLoading_none.1 found
    apply UnifiedGraph.partsDeclared_collectOrphans
    intro arrival member
    exact keyed arrival (mem_arrivalsFor.1 member).1
  · rw [diagnostics_finishLoading_none config keyed, List.mem_filterMap]
    simp only [Prod.exists, ← Table.get?_eq_some_iff, orphanDiagnostic?_eq_some_iff]
  · rw [diagnostics_finishLoading_none config keyed]
    exact nodup_orphanDiagnostics _

/-- The arrivals of two graphs for one symbol, and of one with a relationship of strangers. -/
def strayed : List Arrival :=
  let gadgets : SymbolGraph :=
    SymbolGraph.addSymbol { module := { name := "Kit" } } (widget "internal")
  overlaid ++
    [{ graph := gadgets.addRelationship (Relationship.between "gadget" "view" .inheritsFrom)
       source := "Kit~gadgets.symbols.json"
       role := .main }]

theorem strayed_wellKeyed : ∀ arrival ∈ strayed, arrival.graph.IsWellKeyed := by
  intro arrival member
  rcases List.mem_append.1 member with earlier | last
  · exact overlaid_compatible.wellKeyed arrival earlier
  · rw [List.mem_singleton.1 last]
    exact (SymbolGraph.isWellKeyed_of_symbols_eq_empty rfl).addSymbol _

/-- The relationship of the strangers is set apart and reported, and the other is not. -/
theorem finishLoading_partsDeclared_strayed :
    (∀ arrival ∈ strayed, arrival.graph.IsWellKeyed) ∧
      (∀ module unified,
        ((taken {} strayed).finishLoading none).graphs.get? module = some unified →
          PartsDeclared (arrivalsFor {} module strayed) unified) ∧
      ((taken {} strayed).finishLoading none).diagnostics = [.orphanRelationships "Kit" 1] :=
  ⟨strayed_wellKeyed, (finishLoading_partsDeclared {} strayed strayed_wellKeyed).2.1,
    by decide +kernel⟩

end Session

end ApiAtlas
