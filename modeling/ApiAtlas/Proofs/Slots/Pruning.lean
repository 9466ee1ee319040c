import ApiAtlas.Proofs.Slots.Graph

/-!
# Removing groups table by table

Groups of earlier groupings are removed from the tables of a unified graph one
after the other, and of each group one view after the other, from all its tables
(`GraphSlots.pruneGroup`). A group that is left with no view goes as a whole,
from the symbols and from the set of groups, and one that has views in other
languages stays in both. Under every identifier one group is pruned at most
(`get?_pruneGroups`), so all this does to the tables of a unified graph what
pruning does to the graph (`UnifiedGraph.slots_pruneUnified`).
-/

set_option autoImplicit false

namespace ApiAtlas

open Overload

/-! ## Removing groups -/

namespace SymbolSlots

/-- The symbol without the slots of views in the languages of a scope. -/
def withoutScope (scope : Scope) (slots : SymbolSlots) : SymbolSlots :=
  (slots.views.filter fun view => scope.includes view.language).foldl removeView slots

/-- The symbol without its places in groups in the languages of a scope. -/
def withoutPlaces (scope : Scope) (slots : SymbolSlots) : SymbolSlots :=
  { slots with
    mixins := slots.mixins.map fun view mixins =>
      if scope.includes view.language then Table.erase mixins Mixin.overloadKey else mixins }

end SymbolSlots

namespace GraphSlots

/-- The symbols and the groups once the views of one group in the languages of a scope are gone. -/
def pruneGroup (scope : Scope) (tables : Table String SymbolSlots × KeySet String)
    (group : String) : Table String SymbolSlots × KeySet String :=
  match tables.1.get? group with
  | none => (tables.1, tables.2.erase group)
  | some symbol =>
    let rest := symbol.withoutScope scope
    if rest.isEmpty then (tables.1.erase group, tables.2.erase group)
    else (tables.1.insert group rest, tables.2)

/-- The symbols and the groups once all groups have been pruned. -/
def pruneGroups (scope : Scope) (slots : GraphSlots) : Table String SymbolSlots × KeySet String :=
  slots.groups.toList.foldl (pruneGroup scope) (slots.symbols, slots.groups)

/-- The tables without the groups in the languages of a scope and what belongs to them. -/
def prune (scope : Scope) (slots : GraphSlots) : GraphSlots :=
  { slots with
    symbols := (slots.pruneGroups scope).1.map fun _ symbol => symbol.withoutPlaces scope
    edges := slots.edges.keepOnly fun view relationship =>
      !(scope.includes view.language &&
        (relationship.link.kind = .overloadOf || slots.groups.contains relationship.link.source ||
          slots.groups.contains relationship.link.target))
    groups := (slots.pruneGroups scope).2 }

end GraphSlots

namespace UnifiedSymbol

theorem facet?_removeView (symbol : UnifiedSymbol) (view other : View) :
    (symbol.removeView view).facet? other = if other = view then none else symbol.facet? other :=
  Table.get?_erase ..

theorem identifier_foldl_removeView (symbol : UnifiedSymbol) (views : List View) :
    (views.foldl removeView symbol).identifier = symbol.identifier := by
  induction views generalizing symbol with
  | nil => rfl
  | cons removed rest ih => exact ih _

/-- The views of a scope are removed one after the other. -/
theorem slots_withoutScope (scope : Scope) (symbol : UnifiedSymbol) :
    (withoutScope scope symbol).slots = symbol.slots.withoutScope scope := by
  have removed : withoutScope scope symbol =
      (symbol.views.filter fun view => scope.includes view.language).foldl removeView symbol := by
    refine ext_facet? (identifier_foldl_removeView symbol _).symm fun view => ?_
    have run := Table.read_foldl_keys symbol.facets (fun view => scope.includes view.language) view
      (·.facet? view) removeView (fun _ => none)
      (fun symbol removed => symbol.facet?_removeView removed view) symbol
    refine Eq.trans ?_ run.symm
    rw [facet?_withoutScope, Table.contains, facet?]
    cases symbol.facets.get? view <;> cases scope.includes view.language <;> rfl
  rw [removed, SymbolSlots.withoutScope, views_slots]
  exact (List.foldl_hom slots fun symbol view => (symbol.slots_removeView view).symm).symm

/-- What stays the same in every facet stays the same in its table. -/
theorem column_congr {α : Type} {first second : UnifiedSymbol} {image : Facet → Option α}
    (same : ∀ view, (first.facet? view).bind image = (second.facet? view).bind image) :
    first.column image = second.column image :=
  Table.ext_get? fun view => by rw [get?_column, get?_column, same]

/-- Where only mixins change, only the table of mixins changes. -/
theorem slots_of_mixins {first second : UnifiedSymbol} (change : View → Mixins → Mixins)
    (identifier : first.identifier = second.identifier)
    (facets : ∀ view, first.facet? view = (second.facet? view).map fun facet =>
      { facet with mixins := change view facet.mixins }) :
    first.slots = { second.slots with mixins := second.slots.mixins.map change } := by
  have same : ∀ {α : Type} {image : Facet → Option α},
      (∀ (facet : Facet) (mixins : Mixins), image { facet with mixins } = image facet) →
      first.column image = second.column image := by
    intro α image blind
    refine column_congr fun view => ?_
    rw [facets]
    cases second.facet? view with
    | none => rfl
    | some facet => exact blind facet _
  refine SymbolSlots.ext identifier ?_ ?_ ?_ ?_ ?_ ?_ ?_ ?_
  · exact same fun _ _ => rfl
  · exact same fun _ _ => rfl
  · exact same fun _ _ => rfl
  · exact same fun _ _ => rfl
  · exact same fun _ _ => rfl
  · exact same fun _ _ => rfl
  · exact same fun _ _ => rfl
  · refine Table.ext_get? fun view => ?_
    rw [slots, slots, get?_column, Table.get?_map, get?_column, facets]
    cases second.facet? view <;> rfl

theorem slots_withoutPlaces (scope : Scope) (symbol : UnifiedSymbol) :
    (withoutPlaces scope symbol).slots = symbol.slots.withoutPlaces scope := by
  refine slots_of_mixins _ rfl fun view => ?_
  rw [facet?_withoutPlaces]
  cases symbol.facet? view <;> cases scope.includes view.language <;> rfl

end UnifiedSymbol

namespace UnifiedGraph

/-- What pruning one group leaves under its identifier, and in the set of groups. -/
def prunedAt (scope : Scope) (held : Option SymbolSlots × Option Unit) :
    Option SymbolSlots × Option Unit :=
  match held.1 with
  | none => (none, none)
  | some symbol =>
    if (symbol.withoutScope scope).isEmpty then (none, none)
    else (some (symbol.withoutScope scope), held.2)

/-- Pruning a group heeds its own identifier alone. -/
theorem get?_pruneGroup (scope : Scope) (tables : Table String SymbolSlots × KeySet String)
    (group identifier : String) :
    ((GraphSlots.pruneGroup scope tables group).1.get? identifier,
        Table.get? (GraphSlots.pruneGroup scope tables group).2 identifier) =
      if identifier = group then
        prunedAt scope (tables.1.get? identifier, Table.get? tables.2 identifier)
      else (tables.1.get? identifier, Table.get? tables.2 identifier) := by
  by_cases here : identifier = group
  · subst here
    rw [if_pos rfl, GraphSlots.pruneGroup, prunedAt]
    cases found : tables.1.get? identifier with
    | none => simp [found, Table.get?_erase]
    | some symbol =>
      cases spent : (symbol.withoutScope scope).isEmpty <;>
        simp [spent, Table.get?_erase, Table.get?_insert]
  · rw [if_neg here, GraphSlots.pruneGroup]
    cases tables.1.get? group with
    | none => simp [Table.get?_erase, here]
    | some symbol =>
      cases spent : (symbol.withoutScope scope).isEmpty <;>
        simp [spent, Table.get?_erase, Table.get?_insert, here]

/-- Under every identifier at most one group is pruned. -/
theorem get?_pruneGroups (scope : Scope) (slots : GraphSlots) (identifier : String) :
    ((slots.pruneGroups scope).1.get? identifier,
        Table.get? (slots.pruneGroups scope).2 identifier) =
      if slots.groups.contains identifier then
        prunedAt scope (slots.symbols.get? identifier, Table.get? slots.groups identifier)
      else (slots.symbols.get? identifier, Table.get? slots.groups identifier) := by
  have run := Table.read_foldl_keys slots.groups (fun _ => true) identifier
    (fun tables : Table String SymbolSlots × KeySet String =>
      (tables.1.get? identifier, Table.get? tables.2 identifier))
    (GraphSlots.pruneGroup scope) (prunedAt scope)
    (fun tables group => get?_pruneGroup scope tables group identifier)
    (slots.symbols, slots.groups)
  rwa [List.filter_true, Bool.and_true] at run

/-- What pruning leaves of a group of a unified graph. -/
theorem prunedAt_slots (scope : Scope) (symbols : Table String UnifiedSymbol) (identifier : String)
    (held : Option Unit) :
    prunedAt scope ((symbols.get? identifier).map UnifiedSymbol.slots, held) =
      if isSpent scope symbols identifier then (none, none)
      else ((symbols.get? identifier).map fun symbol =>
        (Overload.withoutScope scope symbol).slots, held) := by
  rw [prunedAt, isSpent]
  cases symbols.get? identifier with
  | none => rfl
  | some symbol =>
    simp only [Option.map_some, ← UnifiedSymbol.slots_withoutScope, UnifiedSymbol.isEmpty_slots]

/-- **Pruning does to the tables of a graph what it does to the graph.** -/
theorem slots_pruneUnified (scope : Scope) (unified : UnifiedGraph) :
    unified.slots.prune scope = (pruneUnified scope unified).slots := by
  have pruned := get?_pruneGroups scope unified.slots
  simp only [get?_symbols_slots, prunedAt_slots] at pruned
  have symbols :
      (unified.slots.prune scope).symbols = (pruneUnified scope unified).slots.symbols := by
    refine Table.ext_get? fun identifier => ?_
    have here := congrArg Prod.fst (pruned identifier)
    have left : (unified.slots.prune scope).symbols.get? identifier =
        ((unified.slots.pruneGroups scope).1.get? identifier).map
          (SymbolSlots.withoutPlaces scope) := Table.get?_map ..
    rw [left, get?_symbols_slots, get?_symbols_pruneUnified]
    refine (congrArg (Option.map _) here).trans ?_
    have groups : unified.slots.groups = unified.groups := rfl
    rw [groups]
    cases unified.groups.contains identifier <;>
      cases isSpent scope unified.symbols identifier <;>
      cases unified.symbols.get? identifier <;> simp [UnifiedSymbol.slots_withoutPlaces]
  have groups : (unified.slots.prune scope).groups = (pruneUnified scope unified).groups := by
    refine Table.ext_get? fun identifier => ?_
    have here := congrArg Prod.snd (pruned identifier)
    have right : Table.get? (pruneUnified scope unified).groups identifier =
        (Table.get? unified.groups identifier).filter fun _ =>
          !isSpent scope unified.symbols identifier := Table.get?_filter ..
    refine here.trans ?_
    have groups : unified.slots.groups = unified.groups := rfl
    rw [right, groups, Table.contains]
    cases Table.get? unified.groups identifier with
    | none => rfl
    | some _ => cases isSpent scope unified.symbols identifier <;> simp [Option.filter]
  exact GraphSlots.ext rfl rfl rfl symbols (unified.edges.nested_filter _).symm rfl groups

end UnifiedGraph

end ApiAtlas
