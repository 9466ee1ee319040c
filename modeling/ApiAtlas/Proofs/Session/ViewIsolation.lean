import ApiAtlas.Proofs.Session.Arrivals

/-!
# Views do not mix

What a unified graph holds under one view, the facets of its symbols and its
relationships, comes from the graphs that show a symbol in that view
(`SymbolGraph.shows`). A graph that shows none has no facet for the view, and
none of its relationships goes there, not even one whose ends it does not know:
such a relationship goes to the views that the graph shows.

So two unified graphs that are alike in a view stay alike when the same graph is
merged into both (`AlikeIn.merge`), and also when a graph that shows nothing
there is merged into one of them alone (`AlikeIn.merge_left`). A run of merges
therefore leaves in a view what the graphs that show it leave there
(`mergeAll_filter_shows`).
-/

set_option autoImplicit false

namespace ApiAtlas

/-! ## What a graph shows -/

namespace SymbolGraph

/-- The graph has a symbol under its own identifier in a view. -/
def shows (graph : SymbolGraph) (view : View) : Bool :=
  graph.symbols.entries.any fun entry =>
    entry.2.identifier = entry.1 && View.ofSymbol entry.2 graph.module = view

variable {graph : SymbolGraph} {view : View}

theorem shows_iff :
    graph.shows view = true ↔ ∃ identifier symbol,
      (UnifiedGraph.wellKeyed graph).get? identifier = some symbol ∧
        View.ofSymbol symbol graph.module = view := by
  simp only [shows, List.any_eq_true, Bool.and_eq_true, decide_eq_true_eq, Prod.exists,
    ← Table.get?_eq_some_iff, UnifiedGraph.get?_wellKeyed, and_assoc]

/-- No facet arrives in a view that a graph does not show. -/
theorem facet?_eq_none_of_shows (hidden : graph.shows view = false) (isMain : Bool)
    (identifier : String) : graph.facet? isMain identifier view = none := by
  cases arrives : graph.facet? isMain identifier view with
  | none => rfl
  | some facet =>
    obtain ⟨symbol, found, shown⟩ := Option.bind_eq_some_iff.1 arrives
    have own : View.ofSymbol symbol graph.module = view := by
      by_contra other
      rw [if_neg other] at shown
      cases shown
    rw [shows_iff.2 ⟨identifier, symbol, found, own⟩] at hidden
    cases hidden

/-- A relationship goes to views that its graph shows, and to no others. -/
theorem shows_of_mem_viewsOf {link : Link} (member : view ∈ graph.viewsOf link) :
    graph.shows view = true := by
  rw [shows_iff]
  rw [viewsOf, UnifiedGraph.viewsOf] at member
  split at member
  · next symbol found =>
    rcases Option.or_eq_some_iff.1 found with source | ⟨-, target⟩
    · exact ⟨_, symbol, source, (List.mem_singleton.1 member).symm⟩
    · exact ⟨_, symbol, target, (List.mem_singleton.1 member).symm⟩
  · rw [KeySet.mem_toList, KeySet.contains_ofList, List.mem_map] at member
    obtain ⟨symbol, present, own⟩ := member
    obtain ⟨identifier, found⟩ := Table.mem_values.1 present
    exact ⟨identifier, symbol, found, own⟩

/-- Nothing is recorded in a view that a graph does not show. -/
theorem get?_recorded_eq_none_of_shows (hidden : graph.shows view = false) (link : Link) :
    Table.get? graph.recorded (view, link) = none := by
  rw [get?_recorded, if_neg]
  intro member
  rw [shows_of_mem_viewsOf member] at hidden
  cases hidden

end SymbolGraph

/-! ## Graphs that are alike in a view -/

/-- Where two tables have the same relationships under a view, they list the same. -/
theorem EdgeTable.under_congr {first second : EdgeTable} {view : View}
    (same : ∀ link, Table.get? first (view, link) = Table.get? second (view, link)) :
    under first view = under second view := by
  have sorted : ∀ edges : EdgeTable,
      Ascending (edges.entries.filter fun entry => entry.1.1 = view) := by
    intro edges
    exact edges.ascending.sublist List.filter_sublist
  refine congrArg (List.map relationshipOf) ?_
  apply Table.entries_eq_of_mem_iff (sorted first) (sorted second)
  rintro ⟨⟨other, link⟩, mixins⟩
  simp only [List.mem_filter, decide_eq_true_eq, ← Table.get?_eq_some_iff]
  constructor
  · rintro ⟨found, rfl⟩
    exact ⟨by rwa [← same], rfl⟩
  · rintro ⟨found, rfl⟩
    exact ⟨by rwa [same], rfl⟩

namespace UnifiedGraph

/-- Two unified graphs hold the same under a view: the same facets, with all that these know, and
the same relationships. -/
structure AlikeIn (view : View) (first second : UnifiedGraph) : Prop where
  facets : ∀ identifier, first.facetAt identifier view = second.facetAt identifier view
  edges : ∀ link, Table.get? first.edges (view, link) = Table.get? second.edges (view, link)

namespace AlikeIn

variable {view : View} {first second : UnifiedGraph}

theorem refl (unified : UnifiedGraph) : AlikeIn view unified unified :=
  ⟨fun _ => rfl, fun _ => rfl⟩

theorem symm (alike : AlikeIn view first second) : AlikeIn view second first :=
  ⟨fun identifier => (alike.facets identifier).symm, fun link => (alike.edges link).symm⟩

theorem trans {third : UnifiedGraph} (alike : AlikeIn view first second)
    (onward : AlikeIn view second third) : AlikeIn view first third :=
  ⟨fun identifier => (alike.facets identifier).trans (onward.facets identifier),
    fun link => (alike.edges link).trans (onward.edges link)⟩

/-- What arrives in both arrives at the same. -/
theorem merge (alike : AlikeIn view first second) (graph : SymbolGraph) (source : String)
    (isMain : Bool) :
    AlikeIn view (first.merge graph source isMain) (second.merge graph source isMain) := by
  constructor
  · intro identifier
    rw [facetAt_merge, facetAt_merge, alike.facets]
  · intro link
    rw [get?_edges_merge_join, get?_edges_merge_join, alike.edges]

/-- A graph that shows nothing in a view leaves the view as it is. -/
theorem merge_left (alike : AlikeIn view first second) {graph : SymbolGraph}
    (hidden : graph.shows view = false) (source : String) (isMain : Bool) :
    AlikeIn view (first.merge graph source isMain) second := by
  constructor
  · intro identifier
    rw [facetAt_merge, SymbolGraph.facet?_eq_none_of_shows hidden, ← alike.facets]
    exact Option.merge_none_right
  · intro link
    rw [get?_edges_merge_join, SymbolGraph.get?_recorded_eq_none_of_shows hidden, ← alike.edges]
    exact Option.merge_none_right

/-- Graphs that show nothing in a view may be left out of the run that leads to the second. -/
theorem mergeAll (alike : AlikeIn view first second) (arrivals : List Arrival) :
    AlikeIn view (first.mergeAll arrivals)
      (second.mergeAll (arrivals.filter (·.graph.shows view))) := by
  induction arrivals generalizing first second with
  | nil => exact alike
  | cons arrival rest ih =>
    cases shown : arrival.graph.shows view with
    | true =>
      rw [List.filter_cons_of_pos (by exact shown), mergeAll_cons, mergeAll_cons]
      exact ih (alike.merge _ _ _)
    | false =>
      rw [List.filter_cons_of_neg (by simp [shown]), mergeAll_cons]
      exact ih (alike.merge_left shown _ _)

end AlikeIn

/-- **Views do not mix**: what a run of merges leaves under a view, in every slot of every symbol
and in the list of relationships, the graphs that show a symbol in the view leave there alone. -/
theorem mergeAll_filter_shows (unified : UnifiedGraph) (arrivals : List Arrival) (view : View) :
    (∀ identifier, (unified.mergeAll arrivals).facetAt identifier view =
        (unified.mergeAll (arrivals.filter (·.graph.shows view))).facetAt identifier view) ∧
      EdgeTable.under (unified.mergeAll arrivals).edges view =
        EdgeTable.under (unified.mergeAll (arrivals.filter (·.graph.shows view))).edges view := by
  have alike : AlikeIn view (unified.mergeAll arrivals)
      (unified.mergeAll (arrivals.filter (·.graph.shows view))) :=
    (AlikeIn.refl unified).mergeAll arrivals
  exact ⟨alike.facets, EdgeTable.under_congr alike.edges⟩

end UnifiedGraph

end ApiAtlas
