import ApiAtlas.Proofs.Overload.ExactGroups
import ApiAtlas.Proofs.Session.Precedence
import ApiAtlas.Proofs.Slots.Graph

/-!
# What a merge leaves out, and what a second one adds

A symbol that stands under a key other than its identifier leaves no trace in a
merge. The tables of a unified graph come to what they come to without it: no
entry is left for its key, none of the symbol that was there before is changed,
the key becomes no group, and no relationship goes to its view. All that a merge
says about such symbols is one mismatch for each, in the order of their keys
(`merge_skips_mismatches`).

A graph that has been merged adds nothing when it is merged once more
(`merge_merge_self`). A facet that arrives again is already above what it
replaces, or below what it may only fill (`Facet.receive_receive_self`). The
mixins of relationships pile up, also where a graph declares one link several
times with mixins that contradict each other: of these the last ones stay, and
they have the last word again.
-/

set_option autoImplicit false

namespace ApiAtlas

namespace SymbolGraph

/-- The graph without the symbols that stand under keys other than their identifiers. -/
def withoutMismatched (graph : SymbolGraph) : SymbolGraph :=
  { graph with symbols := UnifiedGraph.wellKeyed graph }

variable {graph : SymbolGraph}

theorem get?_symbols_withoutMismatched {key : String} {symbol : Symbol} :
    graph.withoutMismatched.symbols.get? key = some symbol ↔
      graph.symbols.get? key = some symbol ∧ symbol.identifier = key :=
  UnifiedGraph.get?_wellKeyed

theorem isWellKeyed_withoutMismatched (graph : SymbolGraph) :
    graph.withoutMismatched.IsWellKeyed :=
  fun _ _ found => (get?_symbols_withoutMismatched.1 found).2

/-- All symbols that are left stand under their own identifiers. -/
theorem wellKeyed_withoutMismatched (graph : SymbolGraph) :
    UnifiedGraph.wellKeyed graph.withoutMismatched = UnifiedGraph.wellKeyed graph :=
  UnifiedGraph.wellKeyed_eq graph.isWellKeyed_withoutMismatched

/-- The mismatches are those of a graph: one for each symbol that stands under a key other than its
identifier, in the order of the keys. -/
structure Mismatched (graph : SymbolGraph) (mismatches : List IdentifierMismatch) : Prop where
  ascending : mismatches.Pairwise fun first second => first.expected < second.expected
  mem_iff : ∀ mismatch, mismatch ∈ mismatches ↔
    ∃ symbol, graph.symbols.get? mismatch.expected = some symbol ∧
      symbol.identifier ≠ mismatch.expected ∧ mismatch.found = symbol.identifier

end SymbolGraph

namespace UnifiedGraph

variable {unified : UnifiedGraph}

/-! ## Mismatched symbols -/

theorem mismatched_mismatches (graph : SymbolGraph) : graph.Mismatched (mismatches graph) where
  ascending := by
    refine List.pairwise_map.2 ((graph.symbols.ascending.filter _).imp ?_)
    intro first second before
    exact Key.rank_text_lt_iff.1 before
  mem_iff mismatch := by
    simp only [mismatches, List.mem_map, List.mem_filter, decide_eq_true_eq, Prod.exists,
      ← Table.get?_eq_some_iff]
    constructor
    · rintro ⟨key, symbol, ⟨found, differs⟩, rfl⟩
      exact ⟨symbol, found, differs, rfl⟩
    · rintro ⟨symbol, found, differs, same⟩
      refine ⟨mismatch.expected, symbol, ⟨found, differs⟩, ?_⟩
      rw [← same]

/-- Only symbols that stand under their own identifiers count in a merge. -/
theorem merge_withoutMismatched (unified : UnifiedGraph) (graph : SymbolGraph) (source : String)
    (isMain : Bool) :
    unified.merge graph.withoutMismatched source isMain = unified.merge graph source isMain := by
  unfold merge
  rw [graph.wellKeyed_withoutMismatched]
  rfl

/-- **Symbols under wrong keys leave no trace.** The symbols of a graph are taken in one after the
other, and for those under wrong keys entries may be made on the way. In the end there is what a
merge of the graph without them leaves, in the tables and in the unified graph. Only the mismatches
tell of them. -/
theorem merge_skips_mismatches (reachable : unified.Reachable) (graph : SymbolGraph)
    (source : String) (isMain : Bool) :
    (unified.slots.merge graph source isMain).1 =
        (unified.slots.merge graph.withoutMismatched source isMain).1 ∧
      (unified.slots.merge graph source isMain).1.unified = unified.merge graph source isMain ∧
      unified.merge graph source isMain = unified.merge graph.withoutMismatched source isMain ∧
      (unified.slots.merge graph source isMain).2 = mismatches graph ∧
      graph.Mismatched (mismatches graph) := by
  have whole := slots_merge reachable.wellFormed graph source isMain
  have rest := slots_merge reachable.wellFormed graph.withoutMismatched source isMain
  rw [unified.merge_withoutMismatched] at rest
  refine ⟨?_, ?_, (unified.merge_withoutMismatched graph source isMain).symm, ?_, ?_⟩
  · rw [whole, rest]
  · rw [whole]
    exact unified_slots _
  · rw [whole]
  · exact mismatched_mismatches graph

/-- Three symbols under wrong keys: that of a symbol that is known, that of a group, and that of the
only end of a relationship that the graph has. -/
def misfiled : SymbolGraph :=
  { module := { name := "Kit" }
    symbols := Table.ofList
      [("drawAt", Overload.drawing "drawUp"),
        (groupIdentifier "drawAt", Overload.drawing "drawUp"),
        ("lost", Overload.drawing "drawUp"),
        ("sketch", { Overload.drawing "sketch" with language := "occ" })]
    relationships := [Relationship.between "lost" "widget" .memberOf] }

theorem merge_skips_mismatches_misfiled :
    Overload.unifiedDrawings.Reachable ∧
      (mismatches misfiled).map (·.expected) = ["drawAt", "drawAt::OverloadGroup", "lost"] ∧
      (Overload.unifiedDrawings.slots.merge misfiled "Kit~more.symbols.json" true).1.unified =
        Overload.unifiedDrawings.merge misfiled.withoutMismatched "Kit~more.symbols.json" true ∧
      misfiled.Mismatched (mismatches misfiled) := by
  have reachable : Overload.unifiedDrawings.Reachable := .merge _ _ _ (.empty "Kit")
  have skips := merge_skips_mismatches reachable misfiled "Kit~more.symbols.json" true
  exact ⟨reachable, by decide +kernel, skips.2.1.trans skips.2.2.1, skips.2.2.2.2⟩

end UnifiedGraph

/-! ## Merging a graph again -/

namespace Facet

/-- A facet over itself is itself. -/
theorem above_self (facet : Facet) : facet.above facet = facet := by
  simp only [above, Option.or_self, Table.union_self, Bool.or_self]

/-- **What arrives again changes nothing.** -/
theorem receive_receive_self (held arrived : Facet) :
    (held.receive arrived).receive arrived = held.receive arrived := by
  by_cases fills : held.isMain = true ∧ arrived.isMain = false
  · obtain ⟨isMain, isExtension⟩ := fills
    have stays : (held.above arrived).isMain = true := by simp [above, isMain]
    rw [receive_extension isMain isExtension, receive_extension stays isExtension, above_assoc,
      above_self]
  · -- what arrives lies above what was held, and above itself the second time
    have covers : held.receive arrived = arrived.above held := by
      cases isMain : held.isMain with
      | false => exact receive_of_not_main isMain arrived
      | true => exact held.receive_main (Bool.eq_true_of_not_eq_false fun is => fills ⟨isMain, is⟩)
    have again : (arrived.above held).receive arrived = arrived.above (arrived.above held) := by
      cases isMain : arrived.isMain with
      | true => exact receive_main _ isMain
      | false =>
        refine receive_of_not_main ?_ arrived
        have notMain : held.isMain = false := Bool.eq_false_of_not_eq_true fun is =>
          fills ⟨is, isMain⟩
        simp [above, isMain, notMain]
    rw [covers, again, ← above_assoc, above_self]

/-- What arrives at itself changes nothing either. -/
theorem receive_self (facet : Facet) : facet.receive facet = facet := by
  have covers : facet.receive facet = facet.above facet := by simp [receive]
  rw [covers, above_self]

theorem afterArrival_self (held arrived : Option Facet) :
    afterArrival (afterArrival held arrived) arrived = afterArrival held arrived := by
  cases arrived with
  | none => cases held <;> rfl
  | some facet =>
    cases held with
    | none => exact congrArg some facet.receive_self
    | some before => exact congrArg some (before.receive_receive_self facet)

end Facet

/-- Mixins that are joined once more change nothing. -/
theorem EdgeTable.join_join_self (held arrived : Option Mixins) :
    join (join held arrived) arrived = join held arrived := by
  cases arrived with
  | none => cases held <;> rfl
  | some mixins => cases held <;> simp [Table.union_assoc]

namespace UnifiedGraph

variable {unified : UnifiedGraph}

/-- **A graph that has been merged adds nothing when it is merged again**, and the same symbols are
left out. -/
theorem merge_merge_self (reachable : unified.Reachable) (graph : SymbolGraph) (source : String)
    (isMain : Bool) :
    (unified.merge graph source isMain).merge graph source isMain =
        unified.merge graph source isMain ∧
      (unified.slots.merge graph source isMain).1.merge graph source isMain =
        unified.slots.merge graph source isMain := by
  have once := reachable.wellFormed.merge graph source isMain
  have same : (unified.merge graph source isMain).merge graph source isMain =
      unified.merge graph source isMain := by
    refine (once.merge graph source isMain).ext once rfl ?_ ?_ ?_ rfl
    · exact Table.insert_eq_self (by exact (Table.get?_alter_self ..))
    · intro identifier view
      rw [facetAt_merge, facetAt_merge, Facet.afterArrival_self]
    · refine Table.ext_get? fun key => ?_
      rw [get?_edges_merge_join, get?_edges_merge_join, EdgeTable.join_join_self]
  refine ⟨same, ?_⟩
  rw [slots_merge reachable.wellFormed, slots_merge once, same]

/-- An extension that comments on an overload in its own way and declares one relationship twice,
with notes that contradict each other. -/
def repeatedSketch : SymbolGraph :=
  let kit : SymbolGraph := { module := { name := "Kit" } }
  let comment : DocComment := { lines := [{ text := "Draws." }] }
  let placed (note : String) : Relationship :=
    { link := { source := "drawAt", target := "widget", kind := .memberOf }
      mixins := Table.ofList [("note", .verbatim (.text note))] }
  ((kit.addSymbol { Overload.drawing "drawAt" with comment := some comment }).addRelationship
    (placed "first")).addRelationship (placed "second")

theorem merge_merge_self_repeated :
    Overload.unifiedDrawings.Reachable ∧
      Overload.unifiedDrawings.merge repeatedSketch "Tools@Kit.symbols.json" false ≠
        Overload.unifiedDrawings ∧
      (Overload.unifiedDrawings.merge repeatedSketch "Tools@Kit.symbols.json" false).merge
          repeatedSketch "Tools@Kit.symbols.json" false =
        Overload.unifiedDrawings.merge repeatedSketch "Tools@Kit.symbols.json" false :=
  have reachable : Overload.unifiedDrawings.Reachable := .merge _ _ _ (.empty "Kit")
  ⟨reachable, by decide +kernel, (merge_merge_self reachable _ _ _).1⟩

end UnifiedGraph

end ApiAtlas
