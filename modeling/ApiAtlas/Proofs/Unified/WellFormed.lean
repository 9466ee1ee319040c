import ApiAtlas.Proofs.Unified.Merging

/-!
# Well-formed unified graphs

In a unified graph every symbol stands under its own identifier and is known in
some view, and the groups are the symbols whose identifiers have the ending of
groups. Merging and collecting orphans keep it so (`WellFormed.merge`,
`WellFormed.collectOrphans`).

A well-formed graph has nothing that its look-ups do not show: if two of them
have the same facets and relationships, they are equal (`WellFormed.ext`).
-/

set_option autoImplicit false

namespace ApiAtlas

/-! ## Identifiers of groups -/

theorem isGroupIdentifier_iff {identifier : String} :
    isGroupIdentifier identifier = true ↔ groupSuffix.toList <:+ identifier.toList :=
  List.isSuffixOf_iff_suffix

/-- The identifier of a group has the ending of groups. -/
@[simp]
theorem isGroupIdentifier_groupIdentifier (representative : String) :
    isGroupIdentifier (groupIdentifier representative) = true := by
  rw [isGroupIdentifier_iff, groupIdentifier, String.toList_append]
  exact List.suffix_append _ _

/-- Groups that are named after different symbols have different identifiers. -/
theorem groupIdentifier_injective {first second : String}
    (same : groupIdentifier first = groupIdentifier second) : first = second := by
  have lists := congrArg String.toList same
  rw [groupIdentifier, groupIdentifier, String.toList_append, String.toList_append] at lists
  exact String.toList_inj.1 (List.append_cancel_right lists)

/-- A symbol that is no group is not the group of another one. -/
theorem ne_groupIdentifier {identifier : String} (plain : isGroupIdentifier identifier = false)
    (representative : String) : identifier ≠ groupIdentifier representative := by
  rintro rfl
  rw [isGroupIdentifier_groupIdentifier] at plain
  cases plain

/-! ## The invariant -/

namespace UnifiedSymbol

/-- Symbols with the same identifier and the same facets are equal. -/
theorem ext_facet? {first second : UnifiedSymbol}
    (identifier : first.identifier = second.identifier)
    (facets : ∀ view, first.facet? view = second.facet? view) : first = second := by
  have tables : first.facets = second.facets := Table.ext_get? facets
  cases first
  cases second
  cases identifier
  cases tables
  rfl

theorem isEmpty_eq_false_iff {symbol : UnifiedSymbol} :
    symbol.isEmpty = false ↔ ∃ view facet, symbol.facet? view = some facet :=
  Table.isEmpty_eq_false_iff

end UnifiedSymbol

namespace UnifiedGraph

/-- What holds of a unified graph at all times. -/
structure WellFormed (unified : UnifiedGraph) : Prop where
  /-- Symbols stand under their own identifiers. -/
  identifier_eq : ∀ {identifier : String} {symbol : UnifiedSymbol},
    unified.symbols.get? identifier = some symbol → symbol.identifier = identifier
  /-- Something is known about every symbol. -/
  known : ∀ {identifier : String} {symbol : UnifiedSymbol},
    unified.symbols.get? identifier = some symbol → symbol.isEmpty = false
  /-- The groups are the symbols with identifiers of groups. -/
  groups_iff : ∀ identifier : String, unified.groups.contains identifier = true ↔
    unified.symbols.contains identifier = true ∧ isGroupIdentifier identifier = true

namespace WellFormed

variable {first second unified : UnifiedGraph}

/-- A symbol is there exactly if it is known in some view. -/
theorem contains_iff (wellFormed : unified.WellFormed) {identifier : String} :
    unified.symbols.contains identifier = true ↔
      ∃ view facet, unified.facetAt identifier view = some facet := by
  rw [Table.contains_iff]
  constructor
  · rintro ⟨symbol, found⟩
    obtain ⟨view, facet, known⟩ := UnifiedSymbol.isEmpty_eq_false_iff.1 (wellFormed.known found)
    exact ⟨view, facet, (facetIn_of_get? found view).trans known⟩
  · rintro ⟨view, facet, known⟩
    obtain ⟨symbol, found, -⟩ := exists_of_facetIn known
    exact ⟨symbol, found⟩

/-- A group is a symbol that some view knows under the identifier of a group. -/
theorem contains_groups_iff (wellFormed : unified.WellFormed) {identifier : String} :
    unified.groups.contains identifier = true ↔
      (∃ view facet, unified.facetAt identifier view = some facet) ∧
        isGroupIdentifier identifier = true := by
  rw [wellFormed.groups_iff, wellFormed.contains_iff]

/-- A symbol that is no group by its identifier is none. -/
theorem contains_groups_eq_false (wellFormed : unified.WellFormed) {identifier : String}
    (plain : isGroupIdentifier identifier = false) :
    unified.groups.contains identifier = false := by
  refine Bool.eq_false_iff.2 fun group => ?_
  rw [((wellFormed.groups_iff identifier).1 group).2] at plain
  cases plain

/-- Well-formed graphs with the same facets have the same symbols. -/
theorem symbols_eq (ofFirst : first.WellFormed) (ofSecond : second.WellFormed)
    (facets : ∀ identifier view, first.facetAt identifier view = second.facetAt identifier view) :
    first.symbols = second.symbols := by
  have present : ∀ identifier, first.symbols.contains identifier = true ↔
      second.symbols.contains identifier = true := by
    intro identifier
    simp only [ofFirst.contains_iff, ofSecond.contains_iff, facets]
  refine Table.ext_get? fun identifier => ?_
  cases left : first.symbols.get? identifier with
  | none =>
    cases right : second.symbols.get? identifier with
    | none => rfl
    | some symbol =>
      obtain ⟨held, found⟩ :=
        Table.contains_iff.1 ((present identifier).2 (Table.contains_iff.2 ⟨symbol, right⟩))
      rw [left] at found
      cases found
  | some symbol =>
    obtain ⟨other, right⟩ :=
      Table.contains_iff.1 ((present identifier).1 (Table.contains_iff.2 ⟨symbol, left⟩))
    rw [right]
    refine congrArg some (UnifiedSymbol.ext_facet? ?_ fun view => ?_)
    · rw [ofFirst.identifier_eq left, ofSecond.identifier_eq right]
    · have same := facets identifier view
      rwa [facetAt, facetAt, facetIn_of_get? left, facetIn_of_get? right] at same

/-- **Well-formed graphs that answer all look-ups alike are equal.** -/
theorem ext (ofFirst : first.WellFormed) (ofSecond : second.WellFormed)
    (moduleName : first.moduleName = second.moduleName) (sources : first.sources = second.sources)
    (facets : ∀ identifier view, first.facetAt identifier view = second.facetAt identifier view)
    (edges : first.edges = second.edges) (orphans : first.orphans = second.orphans) :
    first = second := by
  have symbols := ofFirst.symbols_eq ofSecond facets
  have groups : first.groups = second.groups := by
    refine KeySet.ext_contains fun identifier => ?_
    rw [ofFirst.groups_iff, ofSecond.groups_iff, symbols]
  cases first
  cases second
  cases moduleName
  cases sources
  cases symbols
  cases edges
  cases orphans
  cases groups
  rfl

/-! ## Steps that keep it -/

theorem empty (moduleName : String) : (UnifiedGraph.empty moduleName).WellFormed where
  identifier_eq found := by cases found
  known found := by cases found
  groups_iff identifier := by simp [UnifiedGraph.empty, Table.contains]

/-- Something is known about a symbol of which a facet has arrived. -/
theorem isEmpty_record (symbol : UnifiedSymbol) (view : View) (facet : Facet) :
    (symbol.record view facet).isEmpty = false := by
  refine UnifiedSymbol.isEmpty_eq_false_iff.2 ⟨view, ?_⟩
  rw [UnifiedSymbol.facet?_record, if_pos rfl]
  exact ⟨_, rfl⟩

theorem merge (wellFormed : unified.WellFormed) (graph : SymbolGraph) (source : String)
    (isMain : Bool) : (unified.merge graph source isMain).WellFormed where
  identifier_eq {identifier symbol} found := by
    rw [get?_symbols_merge] at found
    cases arrived : (wellKeyed graph).get? identifier with
    | none =>
      rw [arrived] at found
      exact wellFormed.identifier_eq found
    | some record =>
      rw [arrived, Option.some.injEq] at found
      subst found
      show ((unified.symbols.get? identifier).getD (.empty identifier)).identifier = identifier
      cases held : unified.symbols.get? identifier with
      | none => rfl
      | some symbol => exact wellFormed.identifier_eq held
  known {identifier symbol} found := by
    rw [get?_symbols_merge] at found
    cases arrived : (wellKeyed graph).get? identifier with
    | none =>
      rw [arrived] at found
      exact wellFormed.known found
    | some record =>
      rw [arrived, Option.some.injEq] at found
      subst found
      exact isEmpty_record _ _ _
  groups_iff identifier := by
    have present : (unified.merge graph source isMain).symbols.contains identifier = true ↔
        (wellKeyed graph).contains identifier = true ∨
          unified.symbols.contains identifier = true := by
      rw [Table.contains, get?_symbols_merge, Table.contains, Table.contains]
      cases (wellKeyed graph).get? identifier <;> simp
    rw [contains_groups_merge, present, wellFormed.groups_iff]
    tauto

theorem collectOrphans (wellFormed : unified.WellFormed) : unified.collectOrphans.WellFormed :=
  ⟨wellFormed.identifier_eq, wellFormed.known, wellFormed.groups_iff⟩

end WellFormed

end UnifiedGraph

end ApiAtlas
