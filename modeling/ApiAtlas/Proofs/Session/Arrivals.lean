import ApiAtlas.Proofs.Unified.WellFormed
import ApiAtlas.Session.Basic

/-!
# Arrivals in a session

A session takes in a list of arrivals: graphs with the tags of their sources and
their roles. The module of an arrival is decided by the settings and the arrival
alone, so the unified graph of a module is that of the arrivals for it, in the
order in which they come (`get?_graphs_taken`).

At every place of a unified graph the arrivals pile up one after the other
(`facetAt_mergeAll`, `get?_edges_mergeAll`).
-/

set_option autoImplicit false

namespace ApiAtlas

/-- A graph as a session takes it in. -/
structure Arrival where
  graph : SymbolGraph
  /-- The tag of the graph's source. -/
  source : String
  role : GraphRole

namespace Arrival

/-- The module to which the arrival goes. -/
def home (config : SessionConfig) (arrival : Arrival) : String :=
  Session.home config arrival.graph arrival.role

/-- What the arrival says about an identifier in a view. -/
def facet? (arrival : Arrival) (identifier : String) (view : View) : Option Facet :=
  arrival.graph.facet? arrival.role.isMain identifier view

end Arrival

/-! ## Runs of merges -/

namespace UnifiedGraph

/-- The unified graph once all arrivals have been merged. -/
def mergeAll (unified : UnifiedGraph) (arrivals : List Arrival) : UnifiedGraph :=
  arrivals.foldl
    (fun sofar arrival => sofar.merge arrival.graph arrival.source arrival.role.isMain) unified

theorem mergeAll_cons (unified : UnifiedGraph) (arrival : Arrival) (rest : List Arrival) :
    unified.mergeAll (arrival :: rest) =
      (unified.merge arrival.graph arrival.source arrival.role.isMain).mergeAll rest :=
  rfl

/-- A merge changes neither the module's name nor what has been set apart. -/
theorem moduleName_mergeAll (unified : UnifiedGraph) (arrivals : List Arrival) :
    (unified.mergeAll arrivals).moduleName = unified.moduleName := by
  induction arrivals generalizing unified with
  | nil => rfl
  | cons arrival rest ih => rw [mergeAll_cons, ih]; rfl

theorem orphans_mergeAll (unified : UnifiedGraph) (arrivals : List Arrival) :
    (unified.mergeAll arrivals).orphans = unified.orphans := by
  induction arrivals generalizing unified with
  | nil => rfl
  | cons arrival rest ih => rw [mergeAll_cons, ih]; rfl

theorem sources_mergeAll (unified : UnifiedGraph) (arrivals : List Arrival) :
    (unified.mergeAll arrivals).sources =
      arrivals.foldl (fun sofar arrival => sofar.insert arrival.source
        { module := arrival.graph.module, metadata := arrival.graph.metadata })
        unified.sources := by
  induction arrivals generalizing unified with
  | nil => rfl
  | cons arrival rest ih => rw [mergeAll_cons, ih]; rfl

/-- The facets of a place arrive one after the other. -/
theorem facetAt_mergeAll (unified : UnifiedGraph) (arrivals : List Arrival) (identifier : String)
    (view : View) :
    (unified.mergeAll arrivals).facetAt identifier view =
      arrivals.foldl
        (fun held arrival => Facet.afterArrival held (arrival.facet? identifier view))
        (unified.facetAt identifier view) := by
  induction arrivals generalizing unified with
  | nil => rfl
  | cons arrival rest ih => rw [mergeAll_cons, ih, facetAt_merge]; rfl

/-- The mixins of a place are joined one after the other. -/
theorem get?_edges_mergeAll (unified : UnifiedGraph) (arrivals : List Arrival)
    (key : View × Link) :
    Table.get? (unified.mergeAll arrivals).edges key =
      arrivals.foldl
        (fun held arrival => EdgeTable.join held (Table.get? arrival.graph.recorded key))
        (Table.get? unified.edges key) := by
  induction arrivals generalizing unified with
  | nil => rfl
  | cons arrival rest ih => rw [mergeAll_cons, ih, get?_edges_merge_join]; rfl

/-- Something comes of a run of arrivals exactly if something was there or something arrives. -/
theorem isSome_foldl_merge {α β : Type} (combine : α → α → α) (items : List β)
    (image : β → Option α) (held : Option α) :
    (items.foldl (fun sofar item => sofar.merge combine (image item)) held).isSome =
      (held.isSome || items.any fun item => (image item).isSome) := by
  induction items generalizing held with
  | nil => rw [List.foldl_nil, List.any_nil, Bool.or_false]
  | cons item rest ih =>
    rw [List.foldl_cons, ih, Option.isSome_merge, List.any_cons, Bool.or_assoc]

/-- An identifier is known where an arrival knows it. -/
theorem exists_facetAt_mergeAll (moduleName : String) {arrivals : List Arrival}
    {identifier : String} {view : View} :
    (∃ facet, ((UnifiedGraph.empty moduleName).mergeAll arrivals).facetAt identifier view =
        some facet) ↔
      ∃ arrival ∈ arrivals, ∃ facet, arrival.facet? identifier view = some facet := by
  have bare : (UnifiedGraph.empty moduleName).facetAt identifier view = none := rfl
  simp only [← Option.isSome_iff_exists, facetAt_mergeAll, isSome_foldl_merge, bare,
    Option.isSome_none, Bool.false_or, List.any_eq_true]

/-- A relationship is recorded where an arrival records it. -/
theorem exists_edges_mergeAll (moduleName : String) {arrivals : List Arrival}
    {key : View × Link} :
    (∃ mixins, Table.get? ((UnifiedGraph.empty moduleName).mergeAll arrivals).edges key =
        some mixins) ↔
      ∃ arrival ∈ arrivals, ∃ mixins, Table.get? arrival.graph.recorded key = some mixins := by
  have bare : Table.get? (UnifiedGraph.empty moduleName).edges key = none := rfl
  simp only [← Option.isSome_iff_exists, get?_edges_mergeAll, isSome_foldl_merge, bare,
    Option.isSome_none, Bool.false_or, List.any_eq_true]

theorem WellFormed.mergeAll {unified : UnifiedGraph} (wellFormed : unified.WellFormed)
    (arrivals : List Arrival) : (unified.mergeAll arrivals).WellFormed := by
  induction arrivals generalizing unified with
  | nil => exact wellFormed
  | cons arrival rest ih => exact ih (wellFormed.merge _ _ _)

end UnifiedGraph

/-! ## Sessions -/

namespace Session

/-- The session once all arrivals have been taken in. -/
def takeAll (session : Session) (arrivals : List Arrival) : Session :=
  arrivals.foldl
    (fun sofar arrival => sofar.merge arrival.graph arrival.source arrival.role) session

/-- The session with these settings that has taken in these arrivals. -/
def taken (config : SessionConfig) (arrivals : List Arrival) : Session :=
  takeAll { config } arrivals

/-- Graphs whose symbols stand under their own identifiers give no diagnostics. -/
theorem diagnostics_takeAll (session : Session) {arrivals : List Arrival}
    (keyed : ∀ arrival ∈ arrivals, arrival.graph.IsWellKeyed) :
    (session.takeAll arrivals).diagnostics = session.diagnostics := by
  induction arrivals generalizing session with
  | nil => rfl
  | cons arrival rest ih =>
    refine (ih _ fun other member => keyed other (List.mem_cons_of_mem _ member)).trans ?_
    show session.diagnostics ++ (UnifiedGraph.mismatches arrival.graph).map _ = _
    rw [UnifiedGraph.mismatches_eq_nil (keyed arrival (List.mem_cons_self ..)), List.map_nil,
      List.append_nil]

theorem graphs_takeAll (session : Session) (arrivals : List Arrival) :
    (session.takeAll arrivals).graphs =
      arrivals.foldl
        (fun sofar arrival => sofar.alter (arrival.home session.config) fun held =>
          some ((held.getD (.empty (arrival.home session.config))).merge arrival.graph
            arrival.source arrival.role.isMain))
        session.graphs := by
  induction arrivals generalizing session with
  | nil => rfl
  | cons arrival rest ih => exact ih _

/-- The arrivals that go to a module, in their order. -/
def arrivalsFor (config : SessionConfig) (module : String) (arrivals : List Arrival) :
    List Arrival :=
  arrivals.filter fun arrival => arrival.home config = module

theorem mem_arrivalsFor {config : SessionConfig} {module : String} {arrivals : List Arrival}
    {arrival : Arrival} :
    arrival ∈ arrivalsFor config module arrivals ↔
      arrival ∈ arrivals ∧ arrival.home config = module := by
  rw [arrivalsFor, List.mem_filter, decide_eq_true_iff]

/-- A module without arrivals has no unified graph; every other has that of its arrivals. -/
def gathered (module : String) : List Arrival → Option UnifiedGraph
  | [] => none
  | arrival :: rest => some ((UnifiedGraph.empty module).mergeAll (arrival :: rest))

/-- **The unified graph of a module is that of the arrivals for it.** -/
theorem get?_graphs_taken (config : SessionConfig) (arrivals : List Arrival) (module : String) :
    (taken config arrivals).graphs.get? module =
      gathered module (arrivalsFor config module arrivals) := by
  have step : ∀ (held : Option UnifiedGraph) (arrivals : List Arrival),
      arrivals.foldl
          (fun held arrival => if module = arrival.home config then
            some ((held.getD (.empty (arrival.home config))).merge arrival.graph arrival.source
              arrival.role.isMain) else held) held =
        match arrivalsFor config module arrivals with
        | [] => held
        | arrival :: rest =>
          some ((held.getD (.empty module)).mergeAll (arrival :: rest)) := by
    intro held arrivals
    induction arrivals generalizing held with
    | nil => rfl
    | cons arrival rest ih =>
      rw [List.foldl_cons, ih]
      by_cases here : arrival.home config = module
      · subst here
        rw [if_pos rfl, arrivalsFor, arrivalsFor, List.filter_cons_of_pos (by simp)]
        cases rest.filter fun other => other.home config = arrival.home config <;> rfl
      · rw [if_neg fun same => here same.symm, arrivalsFor, arrivalsFor,
          List.filter_cons_of_neg (by simpa using here)]
  have run := Table.get?_foldl_alter (Arrival.home config)
    (fun arrival held => some ((held.getD (UnifiedGraph.empty (arrival.home config))).merge
      arrival.graph arrival.source arrival.role.isMain)) arrivals Table.empty module
  rw [taken, graphs_takeAll]
  refine run.trans ((step none arrivals).trans ?_)
  cases arrivalsFor config module arrivals <;> rfl

/-- Sessions whose graphs come to the same at the end come to the same. -/
theorem finishLoading_congr {first second : Session} {grouping : FinalGrouping}
    (graphs : first.graphs.map (fun _ => finishGraph grouping) =
      second.graphs.map fun _ => finishGraph grouping)
    (diagnostics : first.diagnostics = second.diagnostics) :
    first.finishLoading grouping = second.finishLoading grouping := by
  rw [finishLoading, finishLoading, graphs, diagnostics]

end Session

end ApiAtlas
