import ApiAtlas.Proofs.Session.Arrivals
import Mathlib.Data.List.Permutation

/-!
# The order of arrivals

Graphs may arrive in any order. What a session comes to does not depend on it
as long as no two arrivals compete for one place (`Compatible`): their sources
have different tags, what two main graphs or two extending graphs of one module
say concerns different symbols or views, and where they declare the same
relationship they agree on its mixins.

A main graph and an extending one may well say different things about the same
symbol in the same view. At every place at most two facets arrive then, one of
each sort, and the main one lies above in either order
(`foldl_afterArrival_perm`). Mixins that agree may be put together in any order
(`join_right_comm`). So the unified graphs answer all look-ups alike
(`mergeAll_perm`).
-/

set_option autoImplicit false

namespace ApiAtlas

/-! ## Arrivals at one place -/

/-- A main facet and one of an extension give the same in either order. -/
theorem Facet.receive_comm {first second : Facet} (apart : first.isMain ≠ second.isMain) :
    first.receive second = second.receive first := by
  unfold Facet.receive
  cases left : first.isMain with
  | false =>
    have right : second.isMain = true := by
      rw [left] at apart
      exact Bool.eq_true_of_not_eq_false apart.symm
    rw [right]
    rfl
  | true =>
    have right : second.isMain = false := by
      rw [left] at apart
      exact Bool.eq_false_of_not_eq_true apart.symm
    rw [right]
    rfl

/-- **At most one main facet and at most one of an extension may arrive in any order.** -/
theorem foldl_afterArrival_perm {first second : List Facet} (permuted : first.Perm second)
    (apart : first.Pairwise fun upper lower => upper.isMain ≠ lower.isMain) :
    first.foldl (fun held arrived => Facet.afterArrival held (some arrived)) none =
      second.foldl (fun held arrived => Facet.afterArrival held (some arrived)) none := by
  match first, permuted, apart with
  | [], permuted, _ => rw [permuted.nil_eq]
  | [facet], permuted, _ => rw [List.singleton_perm.1 permuted]
  | [upper, lower], permuted, apart =>
    rcases List.pair_perm.1 permuted with rfl | rfl
    · rfl
    · have differ := (List.pairwise_cons.1 apart).1 lower (List.mem_singleton_self _)
      exact congrArg some (Facet.receive_comm differ)
  | upper :: middle :: lower :: rest, _, apart =>
    -- Three facets cannot differ pairwise in a truth value.
    simp only [List.pairwise_cons, List.mem_cons, forall_eq_or_imp] at apart
    obtain ⟨⟨first, second, -⟩, ⟨third, -⟩, -⟩ := apart
    cases one : upper.isMain <;> cases two : middle.isMain <;> cases three : lower.isMain <;>
      simp_all

/-! ## Arrivals that do not compete -/

namespace Arrival

/-- The arrival says something about an identifier in a view. -/
def Mentions (arrival : Arrival) (identifier : String) (view : View) : Prop :=
  ∃ symbol, arrival.graph.symbols.get? identifier = some symbol ∧
    View.ofSymbol symbol arrival.graph.module = view

/-- Two arrivals of the same sort, both of main graphs or both of extending ones, say nothing about
one symbol in one view. -/
def DisjointFrom (first second : Arrival) : Prop :=
  first.role.isMain = second.role.isMain →
    ∀ identifier view, first.Mentions identifier view → ¬second.Mentions identifier view

/-- Where two arrivals record the same relationship in the same view they agree on the mixins that
both have. -/
def AgreesWith (first second : Arrival) : Prop :=
  ∀ place left right, Table.get? first.graph.recorded place = some left →
    Table.get? second.graph.recorded place = some right →
      ∀ key one other, Table.get? left key = some one → Table.get? right key = some other →
        one = other

/-- The facet of an arrival is that of a symbol that it mentions, and of the arrival's sort. -/
theorem mentions_of_facet? {arrival : Arrival} {identifier : String} {view : View} {facet : Facet}
    (known : arrival.facet? identifier view = some facet) :
    arrival.Mentions identifier view ∧ facet.isMain = arrival.role.isMain := by
  obtain ⟨symbol, found, shown⟩ := Option.bind_eq_some_iff.1 known
  split at shown
  · next own =>
    rw [Option.some.injEq] at shown
    exact ⟨⟨symbol, (UnifiedGraph.get?_wellKeyed.1 found).1, own⟩, shown ▸ rfl⟩
  · cases shown

end Arrival

/-- Arrivals of which no two compete for one place of a unified graph. -/
structure Compatible (config : SessionConfig) (arrivals : List Arrival) : Prop where
  wellKeyed : ∀ arrival ∈ arrivals, arrival.graph.IsWellKeyed
  sources : (arrivals.map (·.source)).Nodup
  symbols : arrivals.Pairwise fun first second =>
    first.home config = second.home config → first.DisjointFrom second
  relationships : arrivals.Pairwise fun first second =>
    first.home config = second.home config → first.AgreesWith second

namespace UnifiedGraph

variable {first second : List Arrival}

/-- The sources of arrivals with different tags may be noted in any order. -/
theorem sources_mergeAll_perm (unified : UnifiedGraph) (permuted : first.Perm second)
    (sources : (first.map (·.source)).Nodup) :
    (unified.mergeAll first).sources = (unified.mergeAll second).sources := by
  have differ : first.Pairwise fun one other => one.source ≠ other.source :=
    List.pairwise_map.1 sources
  rw [sources_mergeAll, sources_mergeAll]
  refine permuted.foldl_eq' ?_ unified.sources
  refine List.Pairwise.forall_of_forall_of_flip (fun _ _ _ => rfl)
    (differ.imp fun apart held => ?_) (differ.imp fun apart held => ?_)
  · exact held.insert_comm apart _ _
  · exact held.insert_comm apart.symm _ _

/-- Facets of disjoint arrivals may arrive in any order. -/
theorem facetAt_mergeAll_perm (moduleName : String) (permuted : first.Perm second)
    (disjoint : first.Pairwise Arrival.DisjointFrom) (identifier : String) (view : View) :
    ((empty moduleName).mergeAll first).facetAt identifier view =
      ((empty moduleName).mergeAll second).facetAt identifier view := by
  have arrived : ∀ arrivals : List Arrival,
      ((empty moduleName).mergeAll arrivals).facetAt identifier view =
        (arrivals.filterMap (·.facet? identifier view)).foldl
          (fun held facet => Facet.afterArrival held (some facet)) none := by
    intro arrivals
    rw [facetAt_mergeAll, List.foldl_filterMap]
    refine congrArg (fun step => arrivals.foldl step none)
      (funext fun held => funext fun arrival => ?_)
    cases arrival.facet? identifier view with
    | none => cases held <;> rfl
    | some facet => rfl
  rw [arrived, arrived]
  refine foldl_afterArrival_perm (permuted.filterMap _) ?_
  refine List.pairwise_filterMap.2 (disjoint.imp fun apart upper above lower below same => ?_)
  obtain ⟨mentions, sort⟩ := Arrival.mentions_of_facet? above
  obtain ⟨competes, other⟩ := Arrival.mentions_of_facet? below
  exact apart (sort.symm.trans (same.trans other)) identifier view mentions competes

/-- Relationships of arrivals that agree may be recorded in any order. -/
theorem edges_mergeAll_perm (unified : UnifiedGraph) (permuted : first.Perm second)
    (agree : first.Pairwise Arrival.AgreesWith) :
    (unified.mergeAll first).edges = (unified.mergeAll second).edges := by
  refine Table.ext_get? fun place => ?_
  rw [get?_edges_mergeAll, get?_edges_mergeAll]
  refine permuted.foldl_eq' ?_ _
  refine List.Pairwise.forall_of_forall_of_flip (fun _ _ _ => rfl)
    (agree.imp fun alike held => ?_) (agree.imp fun alike held => ?_)
  · exact EdgeTable.join_right_comm (alike place) held
  · exact (EdgeTable.join_right_comm (alike place) held).symm

/-- **Arrivals for one module that do not compete may be merged in any order.** -/
theorem mergeAll_perm (moduleName : String) (permuted : first.Perm second)
    (sources : (first.map (·.source)).Nodup) (disjoint : first.Pairwise Arrival.DisjointFrom)
    (agree : first.Pairwise Arrival.AgreesWith) :
    (empty moduleName).mergeAll first = (empty moduleName).mergeAll second := by
  have wellFormed := WellFormed.empty moduleName
  refine (wellFormed.mergeAll first).ext (wellFormed.mergeAll second) ?_
    (sources_mergeAll_perm _ permuted sources) (facetAt_mergeAll_perm moduleName permuted disjoint)
    (edges_mergeAll_perm _ permuted agree) ?_
  · rw [moduleName_mergeAll, moduleName_mergeAll]
  · rw [orphans_mergeAll, orphans_mergeAll]

end UnifiedGraph

namespace Session

/-- Compatible arrivals give every module the same unified graph in any order. -/
theorem graphs_taken_perm {config : SessionConfig} {first second : List Arrival}
    (compatible : Compatible config first) (permuted : first.Perm second) :
    (taken config first).graphs = (taken config second).graphs := by
  refine Table.ext_get? fun module => ?_
  rw [get?_graphs_taken, get?_graphs_taken]
  have routed : (arrivalsFor config module first).Perm (arrivalsFor config module second) :=
    permuted.filter _
  have within : ∀ {relation : Arrival → Arrival → Prop},
      (first.Pairwise fun one other => one.home config = other.home config →
        relation one other) → (arrivalsFor config module first).Pairwise relation := by
    intro relation apart
    refine List.Pairwise.imp_of_mem (fun one other related => ?_)
      (apart.sublist List.filter_sublist)
    exact related ((mem_arrivalsFor.1 one).2.trans (mem_arrivalsFor.1 other).2.symm)
  have sources : ((arrivalsFor config module first).map (·.source)).Nodup :=
    compatible.sources.sublist (List.filter_sublist.map _)
  have merged := UnifiedGraph.mergeAll_perm module routed sources
    (within compatible.symbols) (within compatible.relationships)
  cases left : arrivalsFor config module first with
  | nil =>
    rw [left] at routed
    rw [routed.nil_eq]
  | cons arrival rest =>
    cases right : arrivalsFor config module second with
    | nil =>
      rw [left, right] at routed
      exact absurd routed.eq_nil (by simp)
    | cons other others =>
      rw [left, right] at merged
      exact congrArg some merged

/-- **What a session comes to does not depend on the order of compatible arrivals**, whether
overloads are grouped at the end or not, and in whatever languages. -/
theorem finishLoading_perm (config : SessionConfig) (grouping : FinalGrouping)
    {first second : List Arrival} (compatible : Compatible config first)
    (permuted : first.Perm second) :
    (taken config first).finishLoading grouping = (taken config second).finishLoading grouping := by
  refine finishLoading_congr (by rw [graphs_taken_perm compatible permuted]) ?_
  have keyed : ∀ arrival ∈ second, arrival.graph.IsWellKeyed := fun arrival member =>
    compatible.wellKeyed arrival (permuted.mem_iff.2 member)
  rw [taken, taken, diagnostics_takeAll _ compatible.wellKeyed, diagnostics_takeAll _ keyed]

/-- A class as graphs with different access levels know it. -/
def widget (accessLevel : String) : Symbol :=
  { identifier := "widget"
    language := "swift"
    description :=
      { kind := { identifier := .classType, displayName := "Class", source := "swift.class" }
        path := ["Widget"]
        names := { title := "Widget" }
        accessLevel } }

/-- A main graph and a graph that extends its module say different things about one symbol. -/
def overlaid : List Arrival :=
  let kit : SymbolGraph :=
    SymbolGraph.addSymbol { module := { name := "Kit" } } (widget "public")
  let extras : SymbolGraph :=
    SymbolGraph.addSymbol { module := { name := "Extras" } } (widget "open")
  [{ graph := kit.addRelationship (Relationship.between "widget" "view" .inheritsFrom)
     source := "Kit.symbols.json"
     role := .main },
   { graph := extras, source := "Extras@Kit.symbols.json", role := .extending "Kit" }]

theorem overlaid_compatible : Compatible {} overlaid where
  wellKeyed arrival member := by
    rcases List.mem_pair.1 member with rfl | rfl
    · exact (SymbolGraph.isWellKeyed_of_symbols_eq_empty rfl).addSymbol _
    · exact (SymbolGraph.isWellKeyed_of_symbols_eq_empty rfl).addSymbol _
  sources := by decide
  symbols := by
    refine List.pairwise_pair.2 fun _ same => ?_
    cases same
  relationships := by
    refine List.pairwise_pair.2 fun _ place left right _ recorded => ?_
    cases recorded

theorem finishLoading_perm_overlaid :
    Compatible {} overlaid ∧ overlaid.Perm overlaid.reverse ∧
      (taken {} overlaid).finishLoading (some none) =
        (taken {} overlaid.reverse).finishLoading (some none) :=
  ⟨overlaid_compatible, overlaid.reverse_perm.symm,
    finishLoading_perm {} (some none) overlaid_compatible overlaid.reverse_perm.symm⟩

end Session

end ApiAtlas
