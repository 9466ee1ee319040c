import ApiAtlas.Proofs.Overload.Steps
import ApiAtlas.Proofs.Slots.Pruning

/-!
# Adding groups table by table

The symbol of a new group is made slot by slot: for the views of its language,
the tables of its representative are copied one after the other
(`SymbolSlots.groupSlots`). A group that is there already takes over all its
tables. Then the members get their places, one after the other, and with each
member its relationships to the group (`GraphSlots.placeMember`). What is planned
is read off the tables; planning changes nothing.

All this does to the tables of a unified graph what adding the group does to the
graph (`UnifiedGraph.slots_addGroup`). So after any run of steps the tables are
in order, and they are the tables of the unified graph to which the steps lead
(`GraphSlots.consistent_after`).
-/

set_option autoImplicit false

namespace ApiAtlas

open Overload

namespace SymbolSlots

/-! ## Operations -/

/-- The views of a language that have slots. -/
def viewsIn (slots : SymbolSlots) (language : String) : List View :=
  slots.views.filter fun view => view.language = language

/-- The values of some views copied one after the other, each as its view asks for. -/
def copied {α : Type} (views : List View) (change : View → α → α) (table : Table View α) :
    Table View α :=
  views.foldl
    (fun sofar view =>
      match table.get? view with
      | none => sofar
      | some value => sofar.insert view (change view value))
    Table.empty

/-- The names of a group in a view: those of its representative, with its declaration there. -/
def namesIn (slots : SymbolSlots) (view : View) (names : Names) : Names :=
  groupNames names ((slots.mixins.get? view).bind Mixins.declaration?)

/-- The slots of a group, made from those of its representative. -/
def groupSlots (group : PlannedGroup) (slots : SymbolSlots) : SymbolSlots :=
  let views := slots.viewsIn group.language
  { identifier := group.identifier
    mainViews := slots.mainViews.filter fun view _ => view.language = group.language
    modules := copied views (fun _ => id) slots.modules
    kinds := copied views (fun _ => id) slots.kinds
    paths := copied views (fun _ => id) slots.paths
    names := copied views slots.namesIn slots.names
    accessLevels := copied views (fun _ => id) slots.accessLevels
    comments := copied views (fun _ => id) slots.comments
    mixins := views.foldl
      (fun sofar view => sofar.insert view
        (Table.erase ((slots.mixins.get? view).getD Table.empty) Mixin.overloadKey))
      Table.empty }

/-- The slots with a place in a group in all views of the group's language. -/
def placeIn (group : PlannedGroup) (index : Nat) (slots : SymbolSlots) : SymbolSlots :=
  { slots with
    mixins := (slots.viewsIn group.language).foldl
      (fun sofar view => sofar.insert view
        (Table.insert ((sofar.get? view).getD Table.empty) Mixin.overloadKey
          (placeMixin group.identifier index)))
      slots.mixins }

end SymbolSlots

namespace GraphSlots

/-- The symbols and the relationships once a member has its place in a group. -/
def placeMember (group : PlannedGroup) (tables : Table String SymbolSlots × ViewEdges)
    (member : Candidate × Nat) : Table String SymbolSlots × ViewEdges :=
  match tables.1.get? member.1.identifier with
  | none => tables
  | some symbol =>
    (tables.1.insert member.1.identifier (symbol.placeIn group member.2),
      tables.2.insertEdges <| (symbol.viewsIn group.language).map fun view =>
        (view, membership member.1.identifier group.identifier))

/-- The symbols with the symbol of a group; one that is there takes over its slots. -/
def addGroupSymbol (group : PlannedGroup) (symbols : Table String SymbolSlots) :
    Table String SymbolSlots :=
  let made :=
    match symbols.get? group.representative.identifier with
    | none => .empty group.identifier
    | some representative => representative.groupSlots group
  match symbols.get? group.identifier with
  | none => symbols.insert group.identifier made
  | some held => symbols.insert group.identifier (held.absorb made)

/-- The relationships that place a group where its representative is. -/
def structuralEdges (group : PlannedGroup) (edges : ViewEdges) : List (View × Relationship) :=
  (edges.listed.filter fun edge =>
      edge.1.language = group.language &&
        placesSymbol group.representative.identifier edge.2).map
    fun edge => (edge.1, withSource group.identifier edge.2)

/-- The tables with one more group. -/
def addGroup (slots : GraphSlots) (group : PlannedGroup) : GraphSlots :=
  let placed := group.members.zipIdx.foldl (placeMember group)
    (addGroupSymbol group slots.symbols, slots.edges)
  { slots with
    symbols := placed.1
    edges := placed.2.insertEdges (structuralEdges group slots.edges)
    groups := slots.groups.add group.identifier }

/-- The tables with the overloads grouped in the languages of a scope. -/
def group (scope : Scope) (slots : GraphSlots) : GraphSlots :=
  (plan scope (slots.prune scope).unified).foldl addGroup (slots.prune scope)

/-- The tables once a step is done. -/
def run : UnifiedGraph.Step → GraphSlots → GraphSlots
  | .merge graph source isMain, slots => (slots.merge graph source isMain).1
  | .group scope, slots => slots.group scope
  | .collectOrphans, slots => slots.collectOrphans

/-- The tables once all steps are done, one after the other. -/
def after (slots : GraphSlots) (steps : List UnifiedGraph.Step) : GraphSlots :=
  steps.foldl (fun sofar step => run step sofar) slots

end GraphSlots

/-! ## The slots of groups and of members -/

namespace UnifiedSymbol

variable {α : Type}

/-- A run through the views of a language shows each of them once. -/
theorem read_foldl_viewsIn {σ β : Type} (symbol : UnifiedSymbol) (language : String) (view : View)
    (read : σ → β) (step : σ → View → σ) (act : β → β)
    (heeds : ∀ state other,
      read (step state other) = if view = other then act (read state) else read state)
    (start : σ) :
    read ((symbol.slots.viewsIn language).foldl step start) =
      if (symbol.facet? view).isSome ∧ view.language = language then act (read start)
      else read start := by
  have run := Table.read_foldl_keys symbol.facets (fun view => view.language = language) view read
    step act heeds start
  rw [SymbolSlots.viewsIn, views_slots, views]
  refine run.trans ?_
  simp only [Bool.and_eq_true, decide_eq_true_eq]
  rfl

theorem facet?_unifiedGroupSymbol (group : PlannedGroup) (symbol : UnifiedSymbol) (view : View) :
    (unifiedGroupSymbol group symbol).facet? view =
      if view.language = group.language then (symbol.facet? view).map groupFacet else none := by
  rw [facet?, unifiedGroupSymbol, Table.get?_filterMap, facet?]
  by_cases same : view.language = group.language <;> cases symbol.facets.get? view <;> simp [same]

/-- A table of a group is copied from that of its representative. -/
theorem column_unifiedGroupSymbol (group : PlannedGroup) (symbol : UnifiedSymbol)
    {image : Facet → Option α} {change : View → α → α}
    (made : ∀ view facet, symbol.facet? view = some facet →
      image (groupFacet facet) = (image facet).map (change view)) :
    (unifiedGroupSymbol group symbol).column image =
      SymbolSlots.copied (symbol.slots.viewsIn group.language) change (symbol.column image) := by
  refine Table.ext_get? fun view => ?_
  have run := symbol.read_foldl_viewsIn group.language view (·.get? view)
    (fun sofar other =>
      match (symbol.column image).get? other with
      | none => sofar
      | some value => sofar.insert other (change other value))
    (fun held => (((symbol.column image).get? view).map (change view)).or held)
    (fun sofar other => by
      by_cases here : view = other
      · subst here
        rw [if_pos rfl]
        cases (symbol.column image).get? view <;> simp [Table.get?_insert]
      · rw [if_neg here]
        cases (symbol.column image).get? other <;> simp [Table.get?_insert, here])
    Table.empty
  refine Eq.trans ?_ run.symm
  rw [get?_column, facet?_unifiedGroupSymbol, get?_column]
  cases known : symbol.facet? view with
  | none => simp
  | some facet =>
    by_cases same : view.language = group.language <;> simp [same, made view facet known]

/-- **The slots of a group are made from those of its representative.** -/
theorem slots_unifiedGroupSymbol (group : PlannedGroup) (symbol : UnifiedSymbol) :
    (unifiedGroupSymbol group symbol).slots = symbol.slots.groupSlots group := by
  refine SymbolSlots.ext rfl ?_ ?_ ?_ ?_ ?_ ?_ ?_ ?_
  · refine Table.ext_get? fun view => ?_
    rw [SymbolSlots.groupSlots, Table.get?_filter, slots, slots, get?_column, get?_column,
      facet?_unifiedGroupSymbol]
    cases symbol.facet? view with
    | none => simp
    | some facet =>
      by_cases same : view.language = group.language <;> cases isMain : facet.isMain <;>
        simp [same, isMain, groupFacet, Option.filter]
  · exact column_unifiedGroupSymbol group symbol fun _ _ _ => rfl
  · exact column_unifiedGroupSymbol group symbol fun _ _ _ => rfl
  · exact column_unifiedGroupSymbol group symbol fun _ _ _ => rfl
  · refine column_unifiedGroupSymbol group symbol fun view facet known => ?_
    have mixins : symbol.slots.mixins.get? view = some facet.mixins := by
      rw [slots, get?_column, known, Option.bind_some]
    rw [Option.map_some, SymbolSlots.namesIn, mixins]
    rfl
  · exact column_unifiedGroupSymbol group symbol fun _ _ _ => rfl
  · refine column_unifiedGroupSymbol group symbol fun view facet _ => ?_
    exact Option.map_id_apply.symm
  · refine Table.ext_get? fun view => ?_
    have run := symbol.read_foldl_viewsIn group.language view (·.get? view)
      (fun sofar other => sofar.insert other
        (Table.erase ((symbol.slots.mixins.get? other).getD Table.empty) Mixin.overloadKey))
      (fun _ => some
        (Table.erase ((symbol.slots.mixins.get? view).getD Table.empty) Mixin.overloadKey))
      (fun sofar other => by
        rw [Table.get?_insert]
        by_cases here : view = other <;> simp [here])
      Table.empty
    refine Eq.trans ?_ run.symm
    rw [slots, get?_column, facet?_unifiedGroupSymbol, slots, get?_column]
    cases symbol.facet? view with
    | none => simp
    | some facet => by_cases same : view.language = group.language <;> simp [same, groupFacet]

/-- A member gets its place view by view. -/
theorem slots_placeIn (group : PlannedGroup) (index : Nat) (symbol : UnifiedSymbol) :
    (placeIn group index symbol).slots = symbol.slots.placeIn group index := by
  have placed := slots_of_mixins
    (fun view mixins => if view.language = group.language then
      Table.insert mixins Mixin.overloadKey (placeMixin group.identifier index) else mixins)
    (show (placeIn group index symbol).identifier = symbol.identifier from rfl) (fun view => by
      rw [facet?_placeIn]
      cases symbol.facet? view with
      | none => rfl
      | some facet =>
        by_cases same : view.language = group.language <;> simp [same, Facet.withPlace])
  rw [placed, SymbolSlots.placeIn]
  refine congrArg (fun mixins => { symbol.slots with mixins }) (Table.ext_get? fun view => ?_)
  have run := symbol.read_foldl_viewsIn group.language view (·.get? view)
    (fun sofar other => sofar.insert other
      (Table.insert ((sofar.get? other).getD Table.empty) Mixin.overloadKey
        (placeMixin group.identifier index)))
    (fun held => some (Table.insert (held.getD Table.empty) Mixin.overloadKey
      (placeMixin group.identifier index)))
    (fun sofar other => by
      rw [Table.get?_insert]
      by_cases here : view = other <;> simp [here])
    symbol.slots.mixins
  refine Eq.trans ?_ run.symm
  rw [Table.get?_map, slots, get?_column]
  cases symbol.facet? view with
  | none => simp
  | some facet => by_cases same : view.language = group.language <;> simp [same]

@[simp]
theorem views_placeIn (group : PlannedGroup) (index : Nat) (symbol : UnifiedSymbol) :
    (placeIn group index symbol).views = symbol.views :=
  Table.keys_map ..

end UnifiedSymbol

/-! ## Adding a group -/

namespace UnifiedGraph

/-- The slots of all symbols. -/
abbrev slotsOf (symbols : Table String UnifiedSymbol) : Table String SymbolSlots :=
  symbols.map fun _ symbol => symbol.slots

theorem get?_slotsOf (symbols : Table String UnifiedSymbol) (identifier : String) :
    (slotsOf symbols).get? identifier = (symbols.get? identifier).map UnifiedSymbol.slots :=
  Table.get?_map ..

theorem slotsOf_insert (symbols : Table String UnifiedSymbol) (identifier : String)
    (symbol : UnifiedSymbol) :
    slotsOf (symbols.insert identifier symbol) =
      (slotsOf symbols).insert identifier symbol.slots :=
  Table.map_insert ..

/-- The symbol of a group as its representative has it. -/
def madeFor (group : PlannedGroup) (symbols : Table String UnifiedSymbol) : UnifiedSymbol :=
  unifiedGroupSymbol group
    ((symbols.get? group.representative.identifier).getD (.empty group.representative.identifier))

theorem addGroupSymbol_eq (group : PlannedGroup) (symbols : Table String UnifiedSymbol) :
    Overload.addGroupSymbol group symbols = symbols.insert group.identifier
      (match symbols.get? group.identifier with
        | none => madeFor group symbols
        | some held => held.absorb (madeFor group symbols)) := by
  refine Eq.trans ?_ (Table.alter_some symbols group.identifier fun
    | none => madeFor group symbols
    | some held => held.absorb (madeFor group symbols))
  refine congrArg (symbols.alter group.identifier) (funext fun held => ?_)
  cases held <;> rfl

theorem slotsOf_addGroupSymbol (group : PlannedGroup) (symbols : Table String UnifiedSymbol) :
    GraphSlots.addGroupSymbol group (slotsOf symbols) =
      slotsOf (Overload.addGroupSymbol group symbols) := by
  have made : (match (slotsOf symbols).get? group.representative.identifier with
        | none => SymbolSlots.empty group.identifier
        | some representative => representative.groupSlots group) =
      (madeFor group symbols).slots := by
    rw [get?_slotsOf, madeFor]
    cases symbols.get? group.representative.identifier with
    | none => rfl
    | some representative => exact (representative.slots_unifiedGroupSymbol group).symm
  rw [GraphSlots.addGroupSymbol, made, addGroupSymbol_eq, slotsOf_insert, get?_slotsOf]
  cases symbols.get? group.identifier with
  | none => rfl
  | some held => simp only [Option.map_some, UnifiedSymbol.slots_absorb]

/-- Placing a member changes no views. -/
theorem viewsIn_modify (group : PlannedGroup) (symbols : Table String UnifiedSymbol)
    (placed : String) (index : Nat) (language identifier : String) :
    viewsIn (symbols.modify placed (Overload.placeIn group index)) language identifier =
      viewsIn symbols language identifier := by
  rw [viewsIn, viewsIn, Table.modify, Table.get?_alter]
  by_cases here : identifier = placed
  · subst here
    rw [if_pos rfl]
    cases symbols.get? identifier with
    | none => rfl
    | some symbol => simp only [Option.map_some, UnifiedSymbol.views_placeIn]
  · rw [if_neg here]

/-- The relationships of a member to its group. -/
def membershipsOf (group : PlannedGroup) (symbols : Table String UnifiedSymbol)
    (identifier : String) : List (View × Relationship) :=
  (viewsIn symbols group.language identifier).map fun view =>
    (view, membership identifier group.identifier)

theorem slotsOf_placeMember (group : PlannedGroup) (symbols : Table String UnifiedSymbol)
    (edges : EdgeTable) (member : Candidate × Nat) :
    GraphSlots.placeMember group (slotsOf symbols, edges.nested) member =
      (slotsOf (symbols.modify member.1.identifier (Overload.placeIn group member.2)),
        (edges.insertEdges (membershipsOf group symbols member.1.identifier)).nested) := by
  rw [GraphSlots.placeMember, get?_slotsOf, membershipsOf, viewsIn, EdgeTable.nested_insertEdges]
  cases found : symbols.get? member.1.identifier with
  | none =>
    have same : symbols.modify member.1.identifier (Overload.placeIn group member.2) = symbols := by
      refine Table.ext_get? fun identifier => ?_
      rw [Table.modify, Table.get?_alter]
      split
      · next here => rw [here, found, Option.map_none]
      · rfl
    rw [same]
    rfl
  | some symbol =>
    have placed : symbols.modify member.1.identifier (Overload.placeIn group member.2) =
        symbols.insert member.1.identifier (Overload.placeIn group member.2 symbol) := by
      refine Table.ext_get? fun identifier => ?_
      rw [Table.modify, Table.get?_alter, Table.get?_insert, found, Option.map_some]
    rw [placed, slotsOf_insert, UnifiedSymbol.slots_placeIn]
    simp only [Option.map_some, SymbolSlots.viewsIn, UnifiedSymbol.views_slots]

/-- The members get their places and their relationships one after the other. -/
theorem slotsOf_placeMembers (group : PlannedGroup) (members : List (Candidate × Nat))
    (symbols : Table String UnifiedSymbol) (edges : EdgeTable) :
    members.foldl (GraphSlots.placeMember group) (slotsOf symbols, edges.nested) =
      (slotsOf (members.foldl (fun sofar member =>
          sofar.modify member.1.identifier (Overload.placeIn group member.2)) symbols),
        (edges.insertEdges (members.flatMap fun member =>
          membershipsOf group symbols member.1.identifier)).nested) := by
  induction members generalizing symbols edges with
  | nil => rfl
  | cons member rest ih =>
    have later : ∀ identifier, membershipsOf group
          (symbols.modify member.1.identifier (Overload.placeIn group member.2)) identifier =
        membershipsOf group symbols identifier := by
      intro identifier
      rw [membershipsOf, viewsIn_modify, membershipsOf]
    rw [List.foldl_cons, slotsOf_placeMember, ih, List.foldl_cons, List.flatMap_cons]
    simp only [later, EdgeTable.insertEdges, List.foldl_append]

/-- What places a representative is listed in the same order in both levels. -/
theorem structuralEdges_nested (group : PlannedGroup) (edges : EdgeTable) :
    GraphSlots.structuralEdges group edges.nested = Overload.structuralEdges group edges := by
  rw [GraphSlots.structuralEdges, EdgeTable.listed_nested_eq, List.filter_map, List.map_map]
  rfl

/-- **Adding a group does to the tables of a graph what it does to the graph.** -/
theorem slots_addGroup (unified : UnifiedGraph) (group : PlannedGroup) :
    unified.slots.addGroup group = (addGroup unified group).slots := by
  have memberships : (group.members.zipIdx.flatMap fun member =>
        membershipsOf group (Overload.addGroupSymbol group unified.symbols) member.1.identifier) =
      membershipEdges group (Overload.addGroupSymbol group unified.symbols) := by
    rw [membershipEdges, ← List.zipIdx_map_fst 0 group.members, List.flatMap_map,
      List.zipIdx_map_fst]
    rfl
  have placed := slotsOf_placeMembers group group.members.zipIdx
    (Overload.addGroupSymbol group unified.symbols) unified.edges
  rw [memberships] at placed
  have tables : group.members.zipIdx.foldl (GraphSlots.placeMember group)
      (GraphSlots.addGroupSymbol group unified.slots.symbols, unified.slots.edges) = _ :=
    (congrArg (fun symbols => group.members.zipIdx.foldl (GraphSlots.placeMember group)
      (symbols, unified.edges.nested)) (slotsOf_addGroupSymbol group unified.symbols)).trans placed
  have structural : GraphSlots.structuralEdges group unified.slots.edges =
      Overload.structuralEdges group unified.edges := structuralEdges_nested group unified.edges
  rw [GraphSlots.addGroup, tables, structural, ← EdgeTable.nested_insertEdges]
  refine GraphSlots.ext rfl rfl rfl rfl ?_ rfl rfl
  refine congrArg EdgeTable.nested ?_
  rw [EdgeTable.insertEdges, EdgeTable.insertEdges, ← List.foldl_append]
  rfl

/-! ## Runs of steps -/

/-- **Grouping does to the tables of a graph what it does to the graph.** -/
theorem slots_groupUnified (scope : Scope) (unified : UnifiedGraph) :
    unified.slots.group scope = (groupUnified scope unified).slots := by
  rw [GraphSlots.group, slots_pruneUnified, unified_slots, groupUnified, groupsOf]
  exact List.foldl_hom slots fun graph group => slots_addGroup graph group

/-- A step does to the tables of a well-formed graph what it does to the graph. -/
theorem slots_run {unified : UnifiedGraph} (wellFormed : unified.WellFormed) (step : Step) :
    GraphSlots.run step unified.slots = (step.run unified).slots := by
  cases step with
  | merge graph source isMain =>
    exact congrArg Prod.fst (slots_merge wellFormed graph source isMain)
  | group scope => exact slots_groupUnified scope unified
  | collectOrphans => exact slots_collectOrphans unified

/-- So does a run of steps. -/
theorem slots_after {unified : UnifiedGraph} (reachable : unified.Reachable) (steps : List Step) :
    unified.slots.after steps = (unified.after steps).slots := by
  induction steps generalizing unified with
  | nil => rfl
  | cons step rest ih =>
    rw [GraphSlots.after, List.foldl_cons, slots_run reachable.wellFormed]
    exact ih (reachable.step step)

end UnifiedGraph

/-- **Tables that know nothing of each other stay in order**: after any run of merges, groupings and
collections of orphans, symbols stand under their own identifiers with tables in step and at least
one view, the groups are the symbols with identifiers of groups, and relationships stand under their
own links with no table left empty. The tables are those of the unified graph to which the run
leads. -/
theorem GraphSlots.consistent_after (moduleName : String) (steps : List UnifiedGraph.Step) :
    ((GraphSlots.empty moduleName).after steps).Consistent ∧
      ((GraphSlots.empty moduleName).after steps).unified =
        (UnifiedGraph.empty moduleName).after steps := by
  have reachable := UnifiedGraph.Reachable.empty moduleName
  have same : (GraphSlots.empty moduleName).after steps =
      ((UnifiedGraph.empty moduleName).after steps).slots :=
    UnifiedGraph.slots_after reachable steps
  rw [same]
  exact ⟨(reachable.after steps).wellFormed.consistent_slots, UnifiedGraph.unified_slots _⟩

end ApiAtlas
