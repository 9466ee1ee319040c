import ApiAtlas.Proofs.Slots.Edges
import ApiAtlas.Proofs.Slots.Symbol
import ApiAtlas.Proofs.Unified.Orphans

/-!
# Unified graphs kept table by table

A unified graph may be kept in tables that know nothing of each other: those of
its sources, the slots of its symbols, its relationships in two levels, and the
set of its groups (`GraphSlots`). A merge takes in the symbols of a graph one
after the other (`Intake.takeIn`). For a symbol that is not there yet an entry
is made first, and if the symbol then turns out to stand under a wrong key, an
entry that is still empty has to go again. The relationships go to the views of
the symbols that have been taken in.

Merging and collecting orphans do to the tables of a unified graph what they do
to the graph (`UnifiedGraph.slots_merge`, `UnifiedGraph.slots_collectOrphans`),
provided that its symbols stand under their own identifiers and are not empty.
-/

set_option autoImplicit false

namespace ApiAtlas

/-- The tables of a unified graph. -/
@[ext]
structure GraphSlots where
  moduleName : String
  /-- The modules of what has been merged, by the tags of the sources. -/
  modules : Table String Module := Table.empty
  metadata : Table String Metadata := Table.empty
  symbols : Table String SymbolSlots := Table.empty
  edges : ViewEdges := Table.empty
  orphans : ViewEdges := Table.empty
  groups : KeySet String := Table.empty

/-- Where a merge stands between two symbols. -/
structure Intake where
  symbols : Table String SymbolSlots
  groups : KeySet String
  /-- The views of the symbols that have been taken in. -/
  views : Table String View := Table.empty
  mismatches : List IdentifierMismatch := []

/-- Takes in the next symbol of a graph. -/
def Intake.takeIn (module : Module) (isMain : Bool) (intake : Intake) (entry : String × Symbol) :
    Intake :=
  let view := View.ofSymbol entry.2 module
  let held := (intake.symbols.get? entry.1).getD (.empty entry.1)
  match held.merge entry.2 view module isMain with
  | .ok merged =>
    { intake with
      symbols := intake.symbols.insert entry.1 merged
      groups := if isGroupIdentifier entry.1 then intake.groups.add entry.1 else intake.groups
      views := intake.views.insert entry.1 view }
  | .error mismatch =>
    { intake with
      symbols := if held.isEmpty then intake.symbols.erase entry.1
        else intake.symbols.insert entry.1 held
      mismatches := intake.mismatches ++ [mismatch] }

namespace GraphSlots

/-! ## Operations -/

/-- The tables of a module of which nothing has been merged. -/
def empty (moduleName : String) : GraphSlots :=
  { moduleName }

/-- The views of a relationship of a graph: that of its source, else that of its target, else all
views of the symbols that have been taken in. -/
def viewsOf (views : Table String View) (link : Link) : List View :=
  match (views.get? link.source).or (views.get? link.target) with
  | some view => [view]
  | none => (KeySet.ofList views.values).toList

/-- Where a merge stands once all symbols of a graph have been taken in. -/
def intake (slots : GraphSlots) (graph : SymbolGraph) (isMain : Bool) : Intake :=
  graph.symbols.entries.foldl (Intake.takeIn graph.module isMain)
    { symbols := slots.symbols, groups := slots.groups }

/-- The relationships once a relationship of a graph has arrived in its views. -/
def recordRelationship (views : Table String View) (edges : ViewEdges)
    (relationship : Relationship) : ViewEdges :=
  (viewsOf views relationship.link).foldl
    (fun sofar view => sofar.insertEdge view relationship) edges

/-- The tables once a graph has been merged, with the symbols that were left out. -/
def merge (slots : GraphSlots) (graph : SymbolGraph) (source : String) (isMain : Bool) :
    GraphSlots × List IdentifierMismatch :=
  let intake := slots.intake graph isMain
  ({ slots with
      modules := slots.modules.insert source graph.module
      metadata := slots.metadata.insert source graph.metadata
      symbols := intake.symbols
      edges := graph.relationships.foldl (recordRelationship intake.views) slots.edges
      groups := intake.groups },
    intake.mismatches)

/-- Whether an end of a link is a symbol. -/
def knowsEnd (slots : GraphSlots) (link : Link) : Bool :=
  slots.symbols.contains link.source || slots.symbols.contains link.target

/-- The tables with the orphans set apart, those of earlier times included. -/
def collectOrphans (slots : GraphSlots) : GraphSlots :=
  let all := slots.edges.insertEdges slots.orphans.listed
  { slots with
    edges := all.keepOnly fun _ relationship => slots.knowsEnd relationship.link
    orphans := all.keepOnly fun _ relationship => !slots.knowsEnd relationship.link }

/-- The unified graph that is read off its tables. -/
def unified (slots : GraphSlots) : UnifiedGraph :=
  { moduleName := slots.moduleName
    sources := slots.modules.filterMap fun source module =>
      (slots.metadata.get? source).map fun metadata => { module, metadata }
    symbols := slots.symbols.map fun _ symbol => symbol.unified
    edges := slots.edges.flat
    orphans := slots.orphans.flat
    groups := slots.groups }

/-! ## Tables in order -/

/-- What holds of the tables of a unified graph at all times. -/
structure Consistent (slots : GraphSlots) : Prop where
  /-- Symbols stand under their own identifiers. -/
  identifier_eq : ∀ {identifier : String} {symbol : SymbolSlots},
    slots.symbols.get? identifier = some symbol → symbol.identifier = identifier
  /-- Every symbol has some view. -/
  known : ∀ {identifier : String} {symbol : SymbolSlots},
    slots.symbols.get? identifier = some symbol → symbol.views ≠ []
  /-- The tables of a symbol are in step. -/
  aligned : ∀ {identifier : String} {symbol : SymbolSlots},
    slots.symbols.get? identifier = some symbol → symbol.Aligned
  /-- The groups are the symbols with identifiers of groups. -/
  groups_iff : ∀ identifier : String, slots.groups.contains identifier = true ↔
    slots.symbols.contains identifier = true ∧ isGroupIdentifier identifier = true
  /-- The two levels of the relationships are in order. -/
  edges : slots.edges.IsKeyed
  orphans : slots.orphans.IsKeyed

end GraphSlots

namespace UnifiedGraph

variable {unified : UnifiedGraph}

/-! ## The tables of a graph -/

/-- The tables of a unified graph. -/
def slots (unified : UnifiedGraph) : GraphSlots :=
  { moduleName := unified.moduleName
    modules := unified.sources.map fun _ record => record.module
    metadata := unified.sources.map fun _ record => record.metadata
    symbols := unified.symbols.map fun _ symbol => symbol.slots
    edges := unified.edges.nested
    orphans := unified.orphans.nested
    groups := unified.groups }

theorem get?_symbols_slots (unified : UnifiedGraph) (identifier : String) :
    unified.slots.symbols.get? identifier =
      (unified.symbols.get? identifier).map UnifiedSymbol.slots :=
  Table.get?_map ..

theorem contains_symbols_slots (unified : UnifiedGraph) (identifier : String) :
    unified.slots.symbols.contains identifier = unified.symbols.contains identifier := by
  rw [Table.contains, get?_symbols_slots, Option.isSome_map, Table.contains]

/-- **The tables of a well-formed graph are in order.** -/
theorem WellFormed.consistent_slots (wellFormed : unified.WellFormed) :
    unified.slots.Consistent where
  identifier_eq {identifier symbol} found := by
    rw [get?_symbols_slots, Option.map_eq_some_iff] at found
    obtain ⟨held, present, rfl⟩ := found
    exact wellFormed.identifier_eq present
  known {identifier symbol} found := by
    rw [get?_symbols_slots, Option.map_eq_some_iff] at found
    obtain ⟨held, present, rfl⟩ := found
    obtain ⟨view, facet, known⟩ := UnifiedSymbol.isEmpty_eq_false_iff.1 (wellFormed.known present)
    rw [UnifiedSymbol.views_slots]
    exact List.ne_nil_of_mem (Table.mem_keys.2 (Table.contains_iff.2 ⟨facet, known⟩))
  aligned {identifier symbol} found := by
    rw [get?_symbols_slots, Option.map_eq_some_iff] at found
    obtain ⟨held, -, rfl⟩ := found
    exact held.aligned_slots
  groups_iff identifier := by
    rw [contains_symbols_slots]
    exact wellFormed.groups_iff identifier
  edges := unified.edges.isKeyed_nested
  orphans := unified.orphans.isKeyed_nested

/-- A unified graph is read off its tables. -/
theorem unified_slots (unified : UnifiedGraph) : unified.slots.unified = unified := by
  have sources : unified.slots.unified.sources = unified.sources := by
    refine Table.ext_get? fun source => ?_
    rw [GraphSlots.unified, slots, Table.get?_filterMap, Table.get?_map, Table.get?_map]
    cases unified.sources.get? source <;> rfl
  have symbols : unified.slots.unified.symbols = unified.symbols := by
    refine Table.ext_get? fun identifier => ?_
    rw [GraphSlots.unified, slots, Table.get?_map, Table.get?_map, Option.map_map]
    refine Eq.trans (congrArg (Option.map · _) (funext fun symbol => ?_)) (Option.map_id_apply)
    exact symbol.unified_slots
  have edges : unified.slots.unified.edges = unified.edges := unified.edges.flat_nested
  have orphans : unified.slots.unified.orphans = unified.orphans := unified.orphans.flat_nested
  calc unified.slots.unified
      = { unified with
          sources := unified.slots.unified.sources
          symbols := unified.slots.unified.symbols
          edges := unified.slots.unified.edges
          orphans := unified.slots.unified.orphans } := rfl
    _ = unified := by rw [sources, symbols, edges, orphans]

/-! ## Merging -/

/-- Symbols stand under their own identifiers and are not empty. -/
def AreStored (symbols : Table String UnifiedSymbol) : Prop :=
  ∀ {identifier : String} {symbol : UnifiedSymbol}, symbols.get? identifier = some symbol →
    symbol.identifier = identifier ∧ symbol.isEmpty = false

variable {symbols : Table String UnifiedSymbol}

/-- The symbol to which a symbol of a graph arrives. -/
def held (symbols : Table String UnifiedSymbol) (identifier : String) : UnifiedSymbol :=
  (symbols.get? identifier).getD (.empty identifier)

theorem recordSymbol_eq (module : Module) (isMain : Bool) (symbols : Table String UnifiedSymbol)
    (entry : String × Symbol) :
    recordSymbol module isMain symbols entry = symbols.insert entry.1
      ((held symbols entry.1).record (View.ofSymbol entry.2 module)
        (Facet.ofSymbol entry.2 module isMain)) :=
  Table.alter_some ..

theorem AreStored.identifier_held (stored : AreStored symbols) (identifier : String) :
    (held symbols identifier).identifier = identifier := by
  rw [held]
  cases found : symbols.get? identifier with
  | none => rfl
  | some symbol => exact (stored found).1

theorem AreStored.recordSymbol (stored : AreStored symbols) (module : Module) (isMain : Bool)
    (entry : String × Symbol) : AreStored (recordSymbol module isMain symbols entry) := by
  intro identifier symbol found
  rw [recordSymbol_eq, Table.get?_insert] at found
  split at found
  · next here =>
    rw [← Option.some.inj found, here]
    exact ⟨stored.identifier_held entry.1, WellFormed.isEmpty_record _ _ _⟩
  · exact stored found

/-- What is held for a symbol is held slot by slot. -/
theorem slots_held (symbols : Table String UnifiedSymbol) (identifier : String) :
    ((symbols.map fun _ symbol => symbol.slots).get? identifier).getD (.empty identifier) =
      (held symbols identifier).slots := by
  rw [Table.get?_map, held]
  cases symbols.get? identifier <;> rfl

/-- Whether a symbol stands under its own identifier. -/
def isOwn (entry : String × Symbol) : Bool :=
  entry.2.identifier = entry.1

/-- A symbol under its own identifier is recorded, and its view is noted. -/
theorem takeIn_of_own (stored : AreStored symbols) (module : Module) (isMain : Bool)
    (groups : KeySet String) (views : Table String View) (mismatches : List IdentifierMismatch)
    {entry : String × Symbol} (own : entry.2.identifier = entry.1) :
    Intake.takeIn module isMain
        ⟨symbols.map fun _ symbol => symbol.slots, groups, views, mismatches⟩ entry =
      ⟨(recordSymbol module isMain symbols entry).map fun _ symbol => symbol.slots,
        if isGroupIdentifier entry.1 then groups.add entry.1 else groups,
        views.insert entry.1 (View.ofSymbol entry.2 module), mismatches⟩ := by
  have same : entry.2.identifier = (held symbols entry.1).identifier := by
    rw [own, stored.identifier_held]
  rw [Intake.takeIn]
  dsimp only
  rw [slots_held, UnifiedSymbol.slots_merge, UnifiedSymbol.merge, if_pos same, recordSymbol_eq,
    Table.map_insert]
  rfl

/-- A symbol under another key is reported, and nothing is left of an entry made for it. -/
theorem takeIn_of_not_own (stored : AreStored symbols) (module : Module) (isMain : Bool)
    (groups : KeySet String) (views : Table String View) (mismatches : List IdentifierMismatch)
    {entry : String × Symbol} (other : entry.2.identifier ≠ entry.1) :
    Intake.takeIn module isMain
        ⟨symbols.map fun _ symbol => symbol.slots, groups, views, mismatches⟩ entry =
      ⟨symbols.map fun _ symbol => symbol.slots, groups, views,
        mismatches ++ [{ expected := entry.1, found := entry.2.identifier }]⟩ := by
  have differs : ¬entry.2.identifier = (held symbols entry.1).identifier := by
    rw [stored.identifier_held]
    exact other
  have kept : (if (held symbols entry.1).slots.isEmpty
        then (symbols.map fun _ symbol => symbol.slots).erase entry.1
        else (symbols.map fun _ symbol => symbol.slots).insert entry.1
          (held symbols entry.1).slots) =
      symbols.map fun _ symbol => symbol.slots := by
    rw [UnifiedSymbol.isEmpty_slots, held]
    cases found : symbols.get? entry.1 with
    | none =>
      refine Table.erase_eq_self ?_
      rw [Table.get?_map, found, Option.map_none]
    | some symbol =>
      rw [Option.getD_some, (stored found).2, if_neg Bool.false_ne_true]
      refine Table.insert_eq_self ?_
      rw [Table.get?_map, found, Option.map_some]
  rw [Intake.takeIn]
  dsimp only
  rw [slots_held, UnifiedSymbol.slots_merge, UnifiedSymbol.merge, if_neg differs]
  simp only [Except.map, kept, stored.identifier_held]

/-- **The symbols of a graph are taken in as they are recorded**, and those under another key are
reported. -/
theorem foldl_takeIn (stored : AreStored symbols) (module : Module) (isMain : Bool)
    (groups : KeySet String) (views : Table String View) (mismatches : List IdentifierMismatch)
    (entries : List (String × Symbol)) :
    entries.foldl (Intake.takeIn module isMain)
        ⟨symbols.map fun _ symbol => symbol.slots, groups, views, mismatches⟩ =
      ⟨((entries.filter isOwn).foldl (recordSymbol module isMain) symbols).map
          fun _ symbol => symbol.slots,
        (((entries.filter isOwn).map (·.1)).filter isGroupIdentifier).foldl KeySet.add groups,
        views.insertAll ((entries.filter isOwn).map fun entry =>
          (entry.1, View.ofSymbol entry.2 module)),
        mismatches ++ (entries.filter fun entry => !isOwn entry).map fun entry =>
          { expected := entry.1, found := entry.2.identifier }⟩ := by
  induction entries generalizing symbols groups views mismatches with
  | nil => simp [Table.insertAll]
  | cons entry rest ih =>
    by_cases own : entry.2.identifier = entry.1
    · have passes : isOwn entry = true := decide_eq_true own
      rw [List.foldl_cons, takeIn_of_own stored module isMain groups views mismatches own,
        ih (stored.recordSymbol module isMain entry)]
      cases group : isGroupIdentifier entry.1 <;>
        simp [passes, group, Table.insertAll]
    · have fails : isOwn entry = false := decide_eq_false own
      rw [List.foldl_cons, takeIn_of_not_own stored module isMain groups views mismatches own,
        ih stored]
      simp [fails]

theorem entries_wellKeyed (graph : SymbolGraph) :
    (wellKeyed graph).entries = graph.symbols.entries.filter isOwn :=
  Table.entries_filter ..

/-- The views that a merge notes are those of the symbols that it records. -/
theorem views_wellKeyed (graph : SymbolGraph) :
    Table.empty.insertAll ((graph.symbols.entries.filter isOwn).map fun entry =>
        (entry.1, View.ofSymbol entry.2 graph.module)) =
      (wellKeyed graph).map fun _ symbol => View.ofSymbol symbol graph.module := by
  rw [← entries_wellKeyed]
  refine Eq.trans ?_ (Table.ofList_entries _)
  rw [Table.entries_map]
  rfl

theorem viewsOf_wellKeyed (graph : SymbolGraph) (link : Link) :
    GraphSlots.viewsOf ((wellKeyed graph).map fun _ symbol => View.ofSymbol symbol graph.module)
        link =
      graph.viewsOf link := by
  rw [GraphSlots.viewsOf, SymbolGraph.viewsOf, viewsOf, Table.get?_map, Table.get?_map,
    ← Option.map_or, Table.values_map, Table.values, List.map_map]
  cases ((wellKeyed graph).get? link.source).or ((wellKeyed graph).get? link.target) <;> rfl

/-- Relationships go to the same views in both levels. -/
theorem nested_edges_merge (unified : UnifiedGraph) (graph : SymbolGraph) (source : String)
    (isMain : Bool) :
    (unified.merge graph source isMain).edges.nested =
      graph.relationships.foldl
        (GraphSlots.recordRelationship
          ((wellKeyed graph).map fun _ symbol => View.ofSymbol symbol graph.module))
        unified.edges.nested := by
  rw [edges_merge, EdgeTable.nested_insertEdges, ViewEdges.insertEdges, SymbolGraph.declared,
    List.foldl_flatMap]
  refine congrArg (fun step => graph.relationships.foldl step unified.edges.nested)
    (funext fun sofar => funext fun relationship => ?_)
  rw [List.foldl_map, GraphSlots.recordRelationship, viewsOf_wellKeyed]

/-- **A merge does to the tables of a graph what it does to the graph**, and reports the symbols
that stand under other keys. -/
theorem slots_merge (wellFormed : unified.WellFormed) (graph : SymbolGraph) (source : String)
    (isMain : Bool) :
    unified.slots.merge graph source isMain =
      ((unified.merge graph source isMain).slots, mismatches graph) := by
  have stored : AreStored unified.symbols := fun found =>
    ⟨wellFormed.identifier_eq found, wellFormed.known found⟩
  have taken := foldl_takeIn stored graph.module isMain unified.groups Table.empty []
    graph.symbols.entries
  rw [views_wellKeyed, ← entries_wellKeyed, List.nil_append] at taken
  have intake : unified.slots.intake graph isMain = _ := taken
  have modules : (unified.merge graph source isMain).slots.modules =
      unified.slots.modules.insert source graph.module := Table.map_insert ..
  have metadata : (unified.merge graph source isMain).slots.metadata =
      unified.slots.metadata.insert source graph.metadata := Table.map_insert ..
  have edges := unified.nested_edges_merge graph source isMain
  have skipped : (graph.symbols.entries.filter fun entry => !isOwn entry).map
        (fun entry => { expected := entry.1, found := entry.2.identifier }) = mismatches graph := by
    simp [mismatches, isOwn]
  rw [GraphSlots.merge, intake]
  exact Prod.ext (GraphSlots.ext rfl modules.symm metadata.symm rfl edges.symm rfl rfl) skipped

/-! ## Collecting orphans -/

/-- The orphans that are set apart are put back as they are. -/
theorem nested_allEdges (unified : UnifiedGraph) :
    unified.allEdges.nested =
      unified.slots.edges.insertEdges unified.slots.orphans.listed := by
  rw [slots, ← EdgeTable.nested_insertEdges, EdgeTable.listed_nested_eq, EdgeTable.insertEdges,
    List.foldl_map, allEdges]

/-- **A collection does to the tables of a graph what it does to the graph.** -/
theorem slots_collectOrphans (unified : UnifiedGraph) :
    unified.slots.collectOrphans = unified.collectOrphans.slots := by
  have knows : ∀ link, unified.slots.knowsEnd link = unified.knowsEnd link := by
    intro link
    rw [GraphSlots.knowsEnd, contains_symbols_slots, contains_symbols_slots, knowsEnd]
  rw [GraphSlots.collectOrphans, ← nested_allEdges]
  simp only [knows]
  refine GraphSlots.ext rfl rfl rfl rfl ?_ ?_ rfl
  · exact (unified.allEdges.nested_filter fun _ relationship =>
      unified.knowsEnd relationship.link).symm
  · exact (unified.allEdges.nested_filter fun _ relationship =>
      !unified.knowsEnd relationship.link).symm

end UnifiedGraph

end ApiAtlas
