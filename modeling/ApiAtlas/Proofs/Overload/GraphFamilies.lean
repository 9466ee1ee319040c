import ApiAtlas.Overload.Graph
import ApiAtlas.Proofs.Overload.Planning

/-!
# Families of one graph

The overloads of one graph can be grouped before the graph is unified or after
it. Both ways find the same families (`unifiedFamilies_unified`) with the same
members that count (`eligible_unified`), and make the same candidates of them
(`unifiedCandidate_unified`). This is said of graphs without groups
(`HasNoGroups`), and a graph has none once its groups are removed
(`hasNoGroups_prune`).

That both ways also remove the same (`unified_prune`) is said of graphs that
mention no group in their relationships either (`IsUngrouped`).
-/

set_option autoImplicit false

namespace ApiAtlas

/-- The symbol without a place in a group. -/
def Symbol.withoutPlace (symbol : Symbol) : Symbol :=
  { symbol with mixins := Table.erase symbol.mixins Mixin.overloadKey }

theorem Symbol.withoutPlace_withoutPlace (symbol : Symbol) :
    symbol.withoutPlace.withoutPlace = symbol.withoutPlace := by
  rw [withoutPlace, withoutPlace, Table.erase_erase]

namespace SymbolGraph

/-- No symbol of the graph is a group. -/
def HasNoGroups (graph : SymbolGraph) : Prop :=
  ∀ identifier symbol, graph.symbols.get? identifier = some symbol →
    isGroupIdentifier identifier = false

/-- The graph mentions no group, neither as a symbol nor as an end of a relationship. -/
structure IsUngrouped (graph : SymbolGraph) : Prop where
  symbols : ∀ {identifier : String} {symbol : Symbol},
    graph.symbols.get? identifier = some symbol → isGroupIdentifier identifier = false
  ends : ∀ relationship ∈ graph.relationships,
    isGroupIdentifier relationship.link.source = false ∧
      isGroupIdentifier relationship.link.target = false

variable {graph : SymbolGraph}

theorem IsUngrouped.hasNoGroups (ungrouped : graph.IsUngrouped) : graph.HasNoGroups :=
  fun _ _ found => ungrouped.symbols found

/-- Whether a graph mentions groups can be read off its entries. -/
theorem IsUngrouped.of_entries
    (symbols : ∀ entry ∈ graph.symbols.entries, isGroupIdentifier entry.1 = false)
    (ends : ∀ relationship ∈ graph.relationships,
      isGroupIdentifier relationship.link.source = false ∧
        isGroupIdentifier relationship.link.target = false) : graph.IsUngrouped where
  symbols found := symbols _ (Table.get?_eq_some_iff.1 found)
  ends := ends

theorem facet?_eq_bind (keyed : graph.IsWellKeyed) (isMain : Bool) (identifier : String)
    (view : View) :
    graph.facet? isMain identifier view =
      (graph.symbols.get? identifier).bind fun symbol =>
        if View.ofSymbol symbol graph.module = view then
          some (Facet.ofSymbol symbol graph.module isMain)
        else
          none := by
  rw [facet?, UnifiedGraph.wellKeyed_eq keyed]

theorem viewsOf_eq (keyed : graph.IsWellKeyed) (link : Link) :
    graph.viewsOf link = UnifiedGraph.viewsOf graph.module graph.symbols link := by
  rw [viewsOf, UnifiedGraph.wellKeyed_eq keyed]

/-- A graph without groups has none once unified. -/
theorem HasNoGroups.groups_contains (bare : graph.HasNoGroups) (identifier : String) :
    graph.unified.groups.contains identifier = false := by
  refine Bool.eq_false_iff.2 fun group => ?_
  rcases (UnifiedGraph.contains_groups_merge _ _ _ _ _).1 group with ⟨present, isGroup⟩ | absent
  · obtain ⟨symbol, found⟩ := Table.contains_iff.1 present
    rw [bare _ _ (UnifiedGraph.get?_wellKeyed.1 found).1] at isGroup
    cases isGroup
  · cases absent

theorem wellFormed_unified (graph : SymbolGraph) : graph.unified.WellFormed :=
  (UnifiedGraph.WellFormed.empty graph.module.name).merge graph graph.module.name true

end SymbolGraph

namespace Overload

variable {graph : SymbolGraph}

/-! ## Removing groups -/

/-- Groups are removed, and all other symbols lose their places. -/
theorem get?_symbols_prune (graph : SymbolGraph) (identifier : String) :
    (prune graph).symbols.get? identifier =
      if isGroupIdentifier identifier then none
      else (graph.symbols.get? identifier).map Symbol.withoutPlace := by
  rw [prune, Table.get?_map, Table.get?_filter]
  cases graph.symbols.get? identifier with
  | none => simp
  | some symbol =>
    rw [Option.filter_some]
    cases isGroupIdentifier identifier <;> rfl

theorem hasNoGroups_prune (graph : SymbolGraph) : (prune graph).HasNoGroups := by
  intro identifier symbol found
  rw [get?_symbols_prune] at found
  split at found
  · cases found
  · next plain => exact Bool.eq_false_iff.2 plain

theorem get?_symbols_prune_plain {identifier : String}
    (plain : isGroupIdentifier identifier = false) :
    (prune graph).symbols.get? identifier =
      (graph.symbols.get? identifier).map Symbol.withoutPlace := by
  rw [get?_symbols_prune, plain, if_neg Bool.false_ne_true]

/-- Of a graph without groups, removing groups takes away places alone. -/
theorem get?_symbols_prune_of_hasNoGroups (bare : graph.HasNoGroups) (identifier : String) :
    (prune graph).symbols.get? identifier =
      (graph.symbols.get? identifier).map Symbol.withoutPlace := by
  cases found : graph.symbols.get? identifier with
  | none => rw [get?_symbols_prune, found, Option.map_none, ite_self]
  | some symbol => rw [get?_symbols_prune_plain (bare _ _ found), found]

theorem isWellKeyed_prune (keyed : graph.IsWellKeyed) : (prune graph).IsWellKeyed := by
  intro key symbol found
  have plain := hasNoGroups_prune graph key symbol found
  rw [get?_symbols_prune_plain plain] at found
  obtain ⟨held, present, rfl⟩ := Option.map_eq_some_iff.1 found
  exact keyed key held present

/-- Only the relationships of members to groups are removed. -/
theorem mixinsOf_prune (ungrouped : graph.IsUngrouped) (link : Link) :
    (prune graph).mixinsOf link = if link.kind = .overloadOf then [] else graph.mixinsOf link := by
  rw [SymbolGraph.mixinsOf, prune, List.filterMap_filter, SymbolGraph.mixinsOf]
  by_cases kind : link.kind = .overloadOf
  · rw [if_pos kind, List.filterMap_eq_nil_iff]
    intro relationship _
    by_cases same : link = relationship.link
    · simp [← same, kind]
    · simp [same]
  · rw [if_neg kind]
    refine List.filterMap_congr fun relationship member => ?_
    obtain ⟨source, target⟩ := ungrouped.ends relationship member
    by_cases same : link = relationship.link
    · simp [← same, kind, same ▸ source, same ▸ target]
    · simp [same]

/-- Removing groups leaves every symbol in its language. -/
theorem viewsOf_prune (keyed : graph.IsWellKeyed) (bare : graph.HasNoGroups) (link : Link) :
    (prune graph).viewsOf link = graph.viewsOf link := by
  have language : ∀ identifier, ((prune graph).symbols.get? identifier).map (·.language) =
      (graph.symbols.get? identifier).map (·.language) := by
    intro identifier
    rw [get?_symbols_prune_of_hasNoGroups bare, Option.map_map]
    rfl
  rw [SymbolGraph.viewsOf_eq (isWellKeyed_prune keyed), SymbolGraph.viewsOf_eq keyed]
  exact UnifiedGraph.viewsOf_congr graph.module (language _) (language _) fun name => by
    simp only [language]

/-- **Removing groups before unifying is removing them after it.** -/
theorem unified_prune (keyed : graph.IsWellKeyed) (ungrouped : graph.IsUngrouped) :
    (prune graph).unified = pruneUnified none graph.unified := by
  have pruned := graph.wellFormed_unified.pruneUnified none
  have bare := ungrouped.hasNoGroups
  refine (prune graph).wellFormed_unified.ext pruned rfl rfl (fun identifier view => ?_) ?_ rfl
  · rw [facetAt_pruneUnified, bare.groups_contains, UnifiedGraph.facetAt_unified,
      UnifiedGraph.facetAt_unified, SymbolGraph.facet?_eq_bind keyed,
      SymbolGraph.facet?_eq_bind (isWellKeyed_prune keyed),
      get?_symbols_prune_of_hasNoGroups bare]
    cases graph.symbols.get? identifier with
    | none => rfl
    | some symbol =>
      by_cases own : View.ofSymbol symbol graph.module = view
      · have kept : View.ofSymbol symbol.withoutPlace (prune graph).module = view := own
        simp only [Option.map_some, Option.bind_some, if_pos own, if_pos kept]
        rfl
      · have kept : View.ofSymbol symbol.withoutPlace (prune graph).module ≠ view := own
        simp only [Option.map_some, Option.bind_some, if_neg own, if_neg kept]
        rfl
  · refine Table.ext_get? fun place => ?_
    obtain ⟨view, link⟩ := place
    have before := graph.get?_recorded view link
    have after := (prune graph).get?_recorded view link
    rw [SymbolGraph.recorded] at before after
    rw [get?_edges_pruneUnified, bare.groups_contains, bare.groups_contains, before, after,
      viewsOf_prune keyed bare, mixinsOf_prune ungrouped]
    by_cases kind : link.kind = .overloadOf
    · simp [kind, Scope.includes]
    · simp [kind]

/-! ## Families -/

section Families

variable {identifier : String} {symbol : Symbol}

/-- The family of a symbol of one graph. -/
def familyOf (symbol : Symbol) : FamilyKey :=
  { language := symbol.language, kind := symbol.description.kind.identifier,
    path := symbol.description.path }

/-- A link goes to the one view of its source if that is a symbol of the graph. -/
theorem viewsOf_of_language (keyed : graph.IsWellKeyed) {link : Link} {language : String}
    (shown : (graph.symbols.get? link.source).map (·.language) = some language) :
    graph.viewsOf link = [{ language, platform := graph.module.platform.name? }] := by
  obtain ⟨symbol, found, rfl⟩ := Option.map_eq_some_iff.1 shown
  rw [SymbolGraph.viewsOf_eq keyed, UnifiedGraph.viewsOf, found, Option.some_or]
  rfl

/-- The one graph says one thing about a symbol. -/
theorem mainIn_unified_iff (keyed : graph.IsWellKeyed)
    (found : graph.symbols.get? identifier = some symbol) {language : String} {view : View}
    {facet : Facet} :
    MainIn graph.unified language identifier view facet ↔
      symbol.language = language ∧ View.ofSymbol symbol graph.module = view ∧
        Facet.ofSymbol symbol graph.module true = facet := by
  have known : graph.unified.facetAt identifier view =
      if View.ofSymbol symbol graph.module = view then
        some (Facet.ofSymbol symbol graph.module true)
      else none := by
    rw [UnifiedGraph.facetAt_unified, SymbolGraph.facet?_eq_bind keyed, found, Option.bind_some]
  constructor
  · rintro ⟨own, shown, -⟩
    rw [known] at shown
    split at shown
    · next same =>
      rw [← same] at own
      exact ⟨own, same, Option.some.inj shown⟩
    · cases shown
  · rintro ⟨own, rfl, rfl⟩
    exact ⟨own, by rw [known, if_pos rfl], rfl⟩

theorem exists_of_mainIn_unified (keyed : graph.IsWellKeyed) {language : String} {view : View}
    {facet : Facet} (main : MainIn graph.unified language identifier view facet) :
    ∃ symbol, graph.symbols.get? identifier = some symbol := by
  have known := main.known
  rw [UnifiedGraph.facetAt_unified, SymbolGraph.facet?_eq_bind keyed,
    Option.bind_eq_some_iff] at known
  obtain ⟨symbol, found, -⟩ := known
  exact ⟨symbol, found⟩

/-- Unified or not, a symbol belongs to its own family. -/
theorem belongsTo_unified_iff (keyed : graph.IsWellKeyed) (bare : graph.HasNoGroups)
    {family : FamilyKey} :
    BelongsTo graph.unified family identifier ↔
      ∃ symbol, graph.symbols.get? identifier = some symbol ∧ familyOf symbol = family := by
  constructor
  · rintro ⟨-, view, facet, first, kind, path⟩
    obtain ⟨symbol, found⟩ := exists_of_mainIn_unified keyed first.main
    obtain ⟨language, -, rfl⟩ := (mainIn_unified_iff keyed found).1 first.main
    refine ⟨symbol, found, ?_⟩
    cases family
    cases language
    cases kind
    cases path
    rfl
  · rintro ⟨symbol, found, rfl⟩
    refine ⟨bare.groups_contains identifier, View.ofSymbol symbol graph.module,
      Facet.ofSymbol symbol graph.module true,
      ⟨(mainIn_unified_iff keyed found).2 ⟨rfl, rfl, rfl⟩, trivial, ?_⟩, rfl, rfl⟩
    intro other lower main _
    obtain ⟨-, rfl, -⟩ := (mainIn_unified_iff keyed found).1 main
    exact Key.rank_ne_lt_self _

/-- **A graph has the same families before it is unified and after it.** -/
theorem unifiedFamilies_unified (keyed : graph.IsWellKeyed) (bare : graph.HasNoGroups) :
    unifiedFamilies none graph.unified = graphFamilies graph := by
  refine familiesOf_congr fun member => ?_
  obtain ⟨family, identifier⟩ := member
  rw [← contains_familiesOf]
  refine contains_unifiedFamilies.trans ?_
  rw [belongsTo_unified_iff keyed bare]
  constructor
  · rintro ⟨-, symbol, found, rfl⟩
    exact List.mem_map.2 ⟨(identifier, symbol), Table.get?_eq_some_iff.1 found, rfl⟩
  · intro collected
    obtain ⟨entry, member, same⟩ := List.mem_map.1 collected
    cases same
    exact ⟨rfl, entry.2, Table.get?_eq_some_iff.2 member, rfl⟩

/-- A symbol is a default implementation, once its graph is unified, if the graph says so. -/
theorem implements_unified_iff (keyed : graph.IsWellKeyed)
    (found : graph.symbols.get? identifier = some symbol) {family : FamilyKey} :
    Implements graph.unified family identifier ↔ ∃ relationship ∈ graph.relationships,
      relationship.link.kind = .defaultImplementationOf ∧
        relationship.link.source = identifier ∧
          BelongsTo graph.unified family relationship.link.target := by
  constructor
  · rintro ⟨view, link, mixins, recorded, kind, source, target⟩
    obtain ⟨-, relationship, declared, rfl⟩ := SymbolGraph.exists_recorded_iff.1 ⟨mixins, recorded⟩
    exact ⟨relationship, declared, kind, source, target⟩
  · rintro ⟨relationship, declared, kind, source, target⟩
    have shown : (graph.symbols.get? relationship.link.source).map (·.language) =
        some symbol.language := by
      rw [source, found]
      rfl
    obtain ⟨mixins, recorded⟩ := SymbolGraph.exists_recorded_iff.2
      ⟨by rw [viewsOf_of_language keyed shown]; exact List.mem_singleton_self _,
        relationship, declared, rfl⟩
    exact ⟨_, relationship.link, mixins, recorded, kind, source, target⟩

/-- The same members count before a graph is unified and after it. -/
theorem eligible_unified (keyed : graph.IsWellKeyed) (bare : graph.HasNoGroups)
    {family : FamilyKey} {members : KeySet String}
    (meant : IsFamily graph.unified family members) :
    eligible graph.unified.allRelationships members = eligible graph.relationships members := by
  refine List.filter_congr fun member within => ?_
  obtain ⟨symbol, found, -⟩ := (belongsTo_unified_iff keyed bare).1
    ((meant member).1 (KeySet.mem_toList.1 within))
  refine congrArg not (Bool.eq_iff_iff.2 ?_)
  rw [isDefaultIn_iff meant, implements_unified_iff keyed found, isDefaultIn, List.any_eq_true]
  simp only [Bool.and_eq_true, decide_eq_true_eq, meant _, and_assoc]

/-- A symbol is the same candidate before its graph is unified and after it. -/
theorem unifiedCandidate_unified (keyed : graph.IsWellKeyed)
    (found : graph.symbols.get? identifier = some symbol) :
    (graph.unified.symbols.get? identifier).map (unifiedCandidate symbol.language) =
      some (candidate symbol) := by
  have own := keyed identifier symbol found
  subst own
  have made : graph.unified.symbols.get? symbol.identifier =
      some ((UnifiedSymbol.empty symbol.identifier).record (View.ofSymbol symbol graph.module)
        (Facet.ofSymbol symbol graph.module true)) := by
    rw [SymbolGraph.unified, UnifiedGraph.get?_symbols_merge, UnifiedGraph.wellKeyed_eq keyed,
      found]
    rfl
  have single : mainFacetsIn ((UnifiedSymbol.empty symbol.identifier).record
        (View.ofSymbol symbol graph.module) (Facet.ofSymbol symbol graph.module true))
        symbol.language = [Facet.ofSymbol symbol graph.module true] := by
    show ([(View.ofSymbol symbol graph.module, Facet.ofSymbol symbol graph.module true)].filter
      fun entry => entry.1.language = symbol.language).map (·.2) = _
    simp [View.ofSymbol]
  rw [made, Option.map_some, unifiedCandidate, single]
  refine congrArg some ?_
  simp only [List.any_cons, List.any_nil, Bool.or_false, List.findSome?_singleton]
  rfl

end Families

end Overload

end ApiAtlas
