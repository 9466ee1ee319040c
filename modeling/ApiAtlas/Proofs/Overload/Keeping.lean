import ApiAtlas.Proofs.Graph.ReadBack
import ApiAtlas.Proofs.Overload.Agreement

/-!
# What grouping keeps

Grouping the overloads of a graph does four things, over and over: it removes
groups, repeats the relationships that place a representative for its group,
gives members their places, and adds the group. A property that each of them
keeps is kept by the whole (`IsKept.groupGraph`), however often it is done
(`IsKept.regrouped`).

Two properties are: that the graph can be read back (`isKept_isReadable`), and
that its symbols which are no groups are the same but for their places
(`isKept_sameButPlaces`).
-/

set_option autoImplicit false

namespace ApiAtlas.Overload

/-- The graph after so many passes of grouping. -/
def regrouped : Nat → SymbolGraph → SymbolGraph
  | 0, graph => graph
  | passes + 1, graph => regrouped passes (groupGraph graph).graph

/-! ## Step by step -/

/-- A property of graphs that is kept by everything that grouping does. -/
structure IsKept (property : SymbolGraph → Prop) : Prop where
  prune : ∀ graph, property graph → property (prune graph)
  repeated : ∀ graph representative group, property graph →
    property { graph with
      relationships := graph.relationships ++
        (graph.relationships.filter (placesSymbol representative)).map (withSource group) }
  placed : ∀ graph group member, property graph → property (placeMember group graph member)
  added : ∀ graph later identifier representative, property graph →
    graph.symbols.get? identifier = some representative → property later →
      property (later.addSymbol (groupSymbol (groupIdentifier identifier) representative))

namespace IsKept

variable {property : SymbolGraph → Prop} (kept : IsKept property)

include kept

theorem foldl_placeMember (group : String) (members : List (Candidate × Nat)) {graph : SymbolGraph}
    (held : property graph) : property (members.foldl (placeMember group) graph) := by
  induction members generalizing graph with
  | nil => exact held
  | cons member rest ih => exact ih (kept.placed graph group member held)

theorem addGroup? {graph after : SymbolGraph} {ranked : List Candidate} (held : property graph)
    (made : addGroup? graph ranked = some after) : property after := by
  obtain ⟨first, -, made⟩ := Option.bind_eq_some_iff.1 made
  obtain ⟨representative, found, made⟩ := Option.bind_eq_some_iff.1 made
  cases made
  exact kept.added graph _ _ _ held found
    (kept.foldl_placeMember _ _ (kept.repeated graph _ _ held))

theorem addFamily (relationships : List Relationship) (family : KeySet String)
    {grouping : Grouping} (held : property grouping.graph) :
    property (grouping.addFamily relationships family).graph := by
  unfold Grouping.addFamily
  dsimp only
  split
  · exact held
  · split
    · next made => exact kept.addGroup? held made
    · exact held

/-- **What every step keeps, grouping keeps.** -/
theorem groupGraph {graph : SymbolGraph} (held : property graph) :
    property (groupGraph graph).graph := by
  have run : ∀ (families : List (KeySet String)) (grouping : Grouping), property grouping.graph →
      property (families.foldl (Grouping.addFamily (Overload.prune graph).relationships)
        grouping).graph := by
    intro families
    induction families with
    | nil => exact fun _ held => held
    | cons family rest ih => exact fun grouping held => ih _ (kept.addFamily _ family held)
  exact run _ _ (kept.prune graph held)

/-- However often it is done. -/
theorem regrouped (passes : Nat) {graph : SymbolGraph} (held : property graph) :
    property (regrouped passes graph) := by
  induction passes generalizing graph with
  | zero => exact held
  | succ passes ih => exact ih (kept.groupGraph held)

end IsKept

/-! ## Reading back -/

/-- The identifier of a group is not empty. -/
theorem groupIdentifier_ne_empty (representative : String) :
    groupIdentifier representative ≠ "" := by
  intro empty
  have length := congrArg String.length empty
  rw [groupIdentifier, String.length_append] at length
  have suffix : 0 < groupSuffix.length := by decide
  have none : "".length = 0 := rfl
  omega

/-- The labels of a signature are fragments of known kinds. -/
theorem isResolved_of_mem_labelFragments {labels : List String} :
    ∀ fragment ∈ Declaration.Signature.labelFragments labels, fragment.kind.IsResolved := by
  fun_induction Declaration.Signature.labelFragments labels with
  | case1 => simp
  | case2 last => simp
  | case3 label rest _ ih => simpa using ih

/-- A signature is written as fragments of known kinds. -/
theorem isResolved_of_mem_fragments (signature : Declaration.Signature) :
    ∀ fragment ∈ signature.fragments, fragment.kind.IsResolved := by
  obtain ⟨keyword, name, labels⟩ := signature
  refine List.forall_mem_append.2 ⟨?_, ?_⟩
  · cases keyword <;> cases name <;> simp [Declaration.Signature.headingFragments]
  · rcases labels with _ | _ | ⟨label, rest⟩
    · simp [Declaration.Signature.parameterFragments]
    · simp [Declaration.Signature.parameterFragments]
    · exact List.forall_mem_cons.2 ⟨Fragment.isResolved_text _, isResolved_of_mem_labelFragments⟩

/-- The names of a group have kinds whose names mean them. -/
theorem areResolved_groupNames {names : Names} (resolved : names.AreResolved)
    (declaration : Option (List Fragment)) : (groupNames names declaration).AreResolved := by
  cases declaration with
  | none => exact resolved
  | some fragments =>
    have simplified := isResolved_of_mem_fragments (Declaration.signature fragments)
    constructor
    · rintro shown ⟨⟩
      exact simplified
    · rintro shown ⟨⟩
      exact simplified

variable {registry : KindRegistry}

/-- The relationship of a member to its group can be read back. -/
theorem isReadable_membership (member group : String) : (membership member group).IsReadable where
  kind := rfl
  mixins := fun _ _ => nofun

/-- A symbol with a place in a group can still be read back. -/
theorem isReadable_placed {symbol : Symbol} (readable : symbol.IsReadable registry) (group : String)
    (index : Nat) :
    ({ symbol with
      mixins := Table.insert symbol.mixins Mixin.overloadKey (placeMixin group index) } :
        Symbol).IsReadable registry where
  kind := readable.kind
  names := readable.names
  mixins := readable.mixins.insert (by decide) (Mixin.isReadable_overload _)

/-- **Everything that grouping does leaves a graph that can be read back.** -/
theorem isKept_isReadable (registry : KindRegistry) :
    IsKept (SymbolGraph.IsReadable registry) where
  prune graph readable := by
    -- Every symbol that is left was there before, apart from its place.
    have origin : ∀ identifier symbol, (prune graph).symbols.get? identifier = some symbol →
        ∃ held, graph.symbols.get? identifier = some held ∧ held.withoutPlace = symbol := by
      intro identifier symbol found
      rw [get?_symbols_prune_plain (hasNoGroups_prune graph identifier symbol found),
        Option.map_eq_some_iff] at found
      exact found
    refine ⟨fun identifier symbol found => ?_, fun identifier symbol found => ?_, ?_⟩
    · obtain ⟨held, present, rfl⟩ := origin identifier symbol found
      exact readable.identified identifier held present
    · obtain ⟨held, present, rfl⟩ := origin identifier symbol found
      have own := readable.symbols identifier held present
      exact ⟨own.kind, own.names, own.mixins.erase _⟩
    · intro relationship member
      exact readable.relationships relationship (List.mem_filter.1 member).1
  repeated graph representative group readable := by
    refine ⟨readable.identified, readable.symbols, ?_⟩
    refine List.forall_mem_append.2 ⟨readable.relationships, List.forall_mem_map.2 ?_⟩
    intro relationship member
    have own := readable.relationships relationship (List.mem_filter.1 member).1
    exact ⟨own.kind, own.mixins⟩
  placed graph group member readable := by
    have origin : ∀ identifier symbol,
        (placeMember group graph member).symbols.get? identifier = some symbol →
          graph.symbols.get? identifier = some symbol ∨
            ∃ held, graph.symbols.get? identifier = some held ∧
              held.withPlace (placeMixin group member.2) = symbol := by
      intro identifier symbol found
      rw [placeMember, Table.modify, Table.get?_alter] at found
      split at found
      · next same =>
        subst same
        exact .inr (Option.map_eq_some_iff.1 found)
      · exact .inl found
    refine ⟨fun identifier symbol found => ?_, fun identifier symbol found => ?_, ?_⟩
    · rcases origin identifier symbol found with present | ⟨held, present, rfl⟩
      · exact readable.identified identifier symbol present
      · exact readable.identified identifier held present
    · rcases origin identifier symbol found with present | ⟨held, present, rfl⟩
      · exact readable.symbols identifier symbol present
      · exact isReadable_placed (readable.symbols identifier held present) _ _
    · refine List.forall_mem_append.2 ⟨readable.relationships, ?_⟩
      exact List.forall_mem_singleton.2 (isReadable_membership _ _)
  added graph later identifier representative readable found reached := by
    -- The group is like its representative, as it was before the members got their places.
    have own := readable.symbols identifier representative found
    refine ⟨fun other symbol held => ?_, fun other symbol held => ?_, reached.relationships⟩
    · rw [SymbolGraph.addSymbol, Table.get?_insert] at held
      split at held
      · next same =>
        cases held
        exact ⟨same.symm, same ▸ groupIdentifier_ne_empty identifier⟩
      · exact reached.identified other symbol held
    · rw [SymbolGraph.addSymbol, Table.get?_insert] at held
      split at held
      · cases held
        exact ⟨own.kind, areResolved_groupNames own.names _, own.mixins⟩
      · exact reached.symbols other symbol held

/-! ## Symbols that are no groups -/

/-- **Everything that grouping does leaves symbols that are no groups the same but for their
places.** -/
theorem isKept_sameButPlaces (original : SymbolGraph) :
    IsKept fun graph => SameButPlaces graph original where
  prune graph same identifier plain := by
    rw [← same identifier plain, get?_symbols_prune_plain plain, Option.map_map]
    exact congrArg (Option.map · _) (funext Symbol.withoutPlace_withoutPlace)
  repeated graph representative group same := same
  placed graph group member same identifier plain := by
    rw [← same identifier plain, placeMember, Table.modify, Table.get?_alter]
    split
    · next own =>
      subst own
      rw [Option.map_map]
      exact congrArg (Option.map · _) (funext fun symbol => symbol.withoutPlace_withPlace _)
    · rfl
  added graph later representative symbol same found reached identifier plain := by
    have other : identifier ≠ (groupSymbol (groupIdentifier representative) symbol).identifier :=
      ne_groupIdentifier plain _
    rw [← reached identifier plain, SymbolGraph.addSymbol, Table.get?_insert, if_neg other]

/-- The symbols that are no groups keep their mixins, but for their places, however often a graph is
grouped. -/
theorem get?_mixins_regrouped {graph : SymbolGraph} (passes : Nat) {identifier : String}
    {symbol : Symbol} (plain : isGroupIdentifier identifier = false)
    (found : graph.symbols.get? identifier = some symbol) :
    ∃ after, (regrouped passes graph).symbols.get? identifier = some after ∧
      ∀ key, key ≠ Mixin.overloadKey →
        Table.get? after.mixins key = Table.get? symbol.mixins key := by
  have same : SameButPlaces (regrouped passes graph) graph :=
    (isKept_sameButPlaces graph).regrouped passes fun _ _ => rfl
  have alike := same identifier plain
  rw [found, Option.map_some, Option.map_eq_some_iff] at alike
  obtain ⟨after, present, equal⟩ := alike
  refine ⟨after, present, fun key other => ?_⟩
  have mixins := congrArg (fun symbol : Symbol => Table.get? symbol.mixins key) equal
  simpa only [Symbol.withoutPlace, Table.get?_erase, if_neg other] using mixins

/-! ## Relationships that touch no group -/

/-- Everything that grouping does leaves the relationships that neither lead to groups nor touch
them. -/
theorem isKept_mem {relationship : Relationship} (kind : relationship.link.kind ≠ .overloadOf)
    (source : isGroupIdentifier relationship.link.source = false)
    (target : isGroupIdentifier relationship.link.target = false) :
    IsKept fun graph => relationship ∈ graph.relationships where
  prune graph member := List.mem_filter.2 ⟨member, by simp [kind, source, target]⟩
  repeated graph representative group member := List.mem_append_left _ member
  placed graph group placed member := List.mem_append_left _ member
  added graph later identifier representative _ _ member := member

end ApiAtlas.Overload
