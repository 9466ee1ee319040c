import ApiAtlas.Overload.Unified
import ApiAtlas.Proofs.Unified.WellFormed

/-!
# What removing groups leaves

Removing the groups of some languages takes three things away in the views of
those languages: what is known of groups, the places of symbols in groups, and
the relationships that lead to groups or touch them. Everything else is left
(`facetAt_pruneUnified`, `get?_edges_pruneUnified`), and the graph stays
well-formed (`WellFormed.pruneUnified`).
-/

set_option autoImplicit false

namespace ApiAtlas

/-- The facet without a place in a group. -/
def Facet.withoutPlace (facet : Facet) : Facet :=
  { facet with mixins := Table.erase facet.mixins Mixin.overloadKey }

theorem Facet.withoutPlace_withoutPlace (facet : Facet) :
    facet.withoutPlace.withoutPlace = facet.withoutPlace := by
  rw [withoutPlace, withoutPlace, Table.erase_erase]

namespace Link

/-- Whether a link relates a member to its group or has a group at one of its ends. -/
def concernsGroups (link : Link) : Bool :=
  link.kind = .overloadOf || isGroupIdentifier link.source || isGroupIdentifier link.target

variable {link : Link}

theorem concernsGroups_iff :
    link.concernsGroups = true ↔ link.kind = .overloadOf ∨
      isGroupIdentifier link.source = true ∨ isGroupIdentifier link.target = true := by
  simp only [concernsGroups, Bool.or_eq_true, decide_eq_true_eq, or_assoc]

theorem concernsGroups_eq_false_iff :
    link.concernsGroups = false ↔ link.kind ≠ .overloadOf ∧
      isGroupIdentifier link.source = false ∧ isGroupIdentifier link.target = false := by
  simp only [concernsGroups, Bool.or_eq_false_iff, decide_eq_false_iff_not, and_assoc]

end Link

namespace Overload

variable {scope : Scope} {graph : UnifiedGraph}

theorem facet?_withoutScope (scope : Scope) (symbol : UnifiedSymbol) (view : View) :
    (withoutScope scope symbol).facet? view =
      if scope.includes view.language then none else symbol.facet? view := by
  rw [UnifiedSymbol.facet?, withoutScope, Table.get?_filter, UnifiedSymbol.facet?]
  cases symbol.facets.get? view with
  | none => simp
  | some facet => cases scope.includes view.language <;> simp [Option.filter]

theorem facet?_withoutPlaces (scope : Scope) (symbol : UnifiedSymbol) (view : View) :
    (withoutPlaces scope symbol).facet? view =
      if scope.includes view.language then (symbol.facet? view).map Facet.withoutPlace
      else symbol.facet? view := by
  rw [UnifiedSymbol.facet?, withoutPlaces, Table.get?_map, UnifiedSymbol.facet?]
  cases scope.includes view.language <;> cases symbol.facets.get? view <;> rfl

/-- What is left of a symbol when groups are removed. -/
theorem get?_symbols_pruneUnified (scope : Scope) (graph : UnifiedGraph) (identifier : String) :
    (pruneUnified scope graph).symbols.get? identifier =
      (graph.symbols.get? identifier).bind fun symbol =>
        if graph.groups.contains identifier then
          if isSpent scope graph.symbols identifier then none
          else some (withoutPlaces scope (withoutScope scope symbol))
        else some (withoutPlaces scope symbol) := by
  rw [pruneUnified, Table.get?_map, Table.get?_filterMap, Option.map_bind]
  refine congrArg _ (funext fun symbol => ?_)
  simp only [Function.comp_apply]
  cases graph.groups.contains identifier <;> cases isSpent scope graph.symbols identifier <;> rfl

/-- A symbol is left unless it is a group that is spent. -/
theorem contains_symbols_pruneUnified (scope : Scope) (graph : UnifiedGraph)
    (identifier : String) :
    (pruneUnified scope graph).symbols.contains identifier = true ↔
      graph.symbols.contains identifier = true ∧ (graph.groups.contains identifier = true →
        isSpent scope graph.symbols identifier = false) := by
  have before : graph.symbols.contains identifier = (graph.symbols.get? identifier).isSome := rfl
  rw [before, Table.contains, get?_symbols_pruneUnified]
  cases graph.symbols.get? identifier with
  | none => simp
  | some symbol =>
    cases graph.groups.contains identifier <;> cases isSpent scope graph.symbols identifier <;>
      simp

/-- Nothing is known outside a scope about a group that is spent. -/
theorem facet?_eq_none_of_isSpent {identifier : String} {symbol : UnifiedSymbol}
    (found : graph.symbols.get? identifier = some symbol)
    (spent : isSpent scope graph.symbols identifier = true) {view : View}
    (outside : scope.includes view.language = false) : symbol.facet? view = none := by
  simp only [isSpent, found] at spent
  have absent := Table.isEmpty_iff.1 spent view
  have left := facet?_withoutScope scope symbol view
  rw [UnifiedSymbol.facet?, absent, outside] at left
  exact left.symm

/-- **What is known once groups are removed**: in the languages of the scope nothing about groups
and no places in groups; everything else as before. -/
theorem facetAt_pruneUnified (scope : Scope) (graph : UnifiedGraph) (identifier : String)
    (view : View) :
    (pruneUnified scope graph).facetAt identifier view =
      if scope.includes view.language then
        if graph.groups.contains identifier then none
        else (graph.facetAt identifier view).map Facet.withoutPlace
      else graph.facetAt identifier view := by
  rw [UnifiedGraph.facetAt, facetIn, get?_symbols_pruneUnified, UnifiedGraph.facetAt, facetIn]
  cases found : graph.symbols.get? identifier with
  | none => simp
  | some symbol =>
    simp only [Option.bind_some]
    cases group : graph.groups.contains identifier with
    | false =>
      simp only [Bool.false_eq_true, if_false, Option.bind_some]
      exact facet?_withoutPlaces scope symbol view
    | true =>
      simp only [if_true]
      cases spent : isSpent scope graph.symbols identifier with
      | false =>
        simp only [Bool.false_eq_true, if_false, Option.bind_some]
        rw [facet?_withoutPlaces, facet?_withoutScope]
        cases scope.includes view.language <;> rfl
      | true =>
        simp only [if_true, Option.bind_none]
        cases outside : scope.includes view.language with
        | true => rfl
        | false => exact (facet?_eq_none_of_isSpent found spent outside).symm

/-- **The relationships that are left once groups are removed.** -/
theorem get?_edges_pruneUnified (scope : Scope) (graph : UnifiedGraph) (view : View)
    (link : Link) :
    Table.get? (pruneUnified scope graph).edges (view, link) =
      if scope.includes view.language && (link.kind = .overloadOf ||
          graph.groups.contains link.source || graph.groups.contains link.target) then none
      else Table.get? graph.edges (view, link) := by
  rw [pruneUnified, Table.get?_filter]
  cases Table.get? graph.edges (view, link) with
  | none => simp
  | some mixins =>
    cases scope.includes view.language <;> by_cases kind : link.kind = .overloadOf <;>
      cases graph.groups.contains link.source <;> cases graph.groups.contains link.target <;>
      simp [Option.filter, kind]

/-- In the languages of the scope, a symbol that is no group loses its place alone. -/
theorem facetAt_pruneUnified_plain (wellFormed : graph.WellFormed) {view : View}
    (included : scope.includes view.language = true) {identifier : String}
    (plain : isGroupIdentifier identifier = false) :
    (pruneUnified scope graph).facetAt identifier view =
      (graph.facetAt identifier view).map Facet.withoutPlace := by
  rw [facetAt_pruneUnified, if_pos included, wellFormed.contains_groups_eq_false plain,
    if_neg Bool.false_ne_true]

/-- Removing groups leaves every relationship that does not concern them. -/
theorem get?_edges_pruneUnified_of_plain (wellFormed : graph.WellFormed) {link : Link}
    (plain : link.concernsGroups = false) (view : View) :
    Table.get? (pruneUnified scope graph).edges (view, link) =
      Table.get? graph.edges (view, link) := by
  obtain ⟨kind, source, target⟩ := Link.concernsGroups_eq_false_iff.1 plain
  rw [get?_edges_pruneUnified, wellFormed.contains_groups_eq_false source,
    wellFormed.contains_groups_eq_false target, decide_eq_false kind, Bool.or_false,
    Bool.or_false, Bool.and_false, if_neg Bool.false_ne_true]

/-- A group is left unless it is spent. -/
theorem contains_groups_pruneUnified (scope : Scope) (graph : UnifiedGraph)
    (identifier : String) :
    (pruneUnified scope graph).groups.contains identifier = true ↔
      graph.groups.contains identifier = true ∧
        isSpent scope graph.symbols identifier = false := by
  rw [pruneUnified, Table.contains, Table.get?_filter, Table.contains]
  cases Table.get? graph.groups identifier <;> simp [Option.filter]

/-- A symbol is known after its places in groups are removed if it was before. -/
theorem isEmpty_withoutPlaces (scope : Scope) (symbol : UnifiedSymbol) :
    (withoutPlaces scope symbol).isEmpty = symbol.isEmpty := by
  rw [UnifiedSymbol.isEmpty, withoutPlaces, UnifiedSymbol.isEmpty, Bool.eq_iff_iff,
    Table.isEmpty_iff, Table.isEmpty_iff]
  simp only [Table.get?_map, Option.map_eq_none_iff]

end Overload

open Overload in
/-- Removing groups leaves a well-formed graph. -/
theorem UnifiedGraph.WellFormed.pruneUnified {graph : UnifiedGraph} (wellFormed : graph.WellFormed)
    (scope : Scope) : (pruneUnified scope graph).WellFormed where
  identifier_eq {identifier symbol} found := by
    rw [get?_symbols_pruneUnified, Option.bind_eq_some_iff] at found
    obtain ⟨held, before, kept⟩ := found
    have own := wellFormed.identifier_eq before
    split at kept
    · split at kept
      · cases kept
      · rw [← Option.some.inj kept]
        exact own
    · rw [← Option.some.inj kept]
      exact own
  known {identifier symbol} found := by
    rw [get?_symbols_pruneUnified, Option.bind_eq_some_iff] at found
    obtain ⟨held, before, kept⟩ := found
    split at kept
    · split at kept
      · cases kept
      · next unspent =>
        rw [← Option.some.inj kept, isEmpty_withoutPlaces]
        simpa only [isSpent, before, Bool.not_eq_true] using unspent
    · rw [← Option.some.inj kept, isEmpty_withoutPlaces]
      exact wellFormed.known before
  groups_iff identifier := by
    rw [contains_groups_pruneUnified, contains_symbols_pruneUnified, wellFormed.groups_iff]
    tauto

end ApiAtlas
