import ApiAtlas.Proofs.Overload.Agreement

/-!
# Giving a graph its groups

A graph is given its groups one after the other, and each time it is read anew:
who represents the next group, which relationships place this symbol, and where
the members stand. Nothing that earlier groups brought is ever found there.
Copies lead from groups and no group represents another one, relationships of
members place nothing (`broughtBy_append`), and no symbol is a member twice
(`get?_symbols_withGroup_member`).

So at the end the relationships are those the graph had and, group by group,
those that each group brings to them (`Ready.relationships`); symbols that are
no groups have gained their one place (`Ready.symbols_plain`); and the groups
are symbols like those that represented them at the start
(`Ready.symbols_group`).
-/

set_option autoImplicit false

namespace ApiAtlas.Overload

/-! ## Relationships -/

/-- The relationships that a group brings: those that place it where its representative is, then
those of its members. -/
def broughtBy (relationships : List Relationship) (group : PlannedGroup) : List Relationship :=
  (relationships.filter (placesSymbol group.representative.identifier)).map
      (withSource group.identifier) ++
    group.members.map fun member => membership member.identifier group.identifier

variable {original graph : SymbolGraph} {group : PlannedGroup} {representative : Symbol}

theorem relationships_withGroup :
    (withGroup graph group representative).relationships =
      graph.relationships ++ broughtBy graph.relationships group :=
  List.append_assoc ..

/-- What a group brings places no symbol but the group. -/
theorem filter_placesSymbol_broughtBy (relationships : List Relationship) (group : PlannedGroup)
    {identifier : String} (plain : isGroupIdentifier identifier = false) :
    (broughtBy relationships group).filter (placesSymbol identifier) = [] := by
  rw [List.filter_eq_nil_iff]
  intro relationship brought placing
  obtain ⟨source, structural⟩ := placesSymbol_iff.1 placing
  rcases List.mem_append.1 brought with copied | related
  · obtain ⟨held, -, rfl⟩ := List.mem_map.1 copied
    exact ne_groupIdentifier plain _ source.symm
  · obtain ⟨member, -, rfl⟩ := List.mem_map.1 related
    cases structural

/-- A group brings the same after another one has brought something. -/
theorem broughtBy_append (relationships : List Relationship) (group : PlannedGroup)
    {other : PlannedGroup} (sound : other.IsSound) :
    broughtBy (relationships ++ broughtBy relationships group) other =
      broughtBy relationships other := by
  have plain := sound.plain _ other.representative_mem
  rw [broughtBy, List.filter_append, filter_placesSymbol_broughtBy _ _ plain, List.append_nil,
    broughtBy]

/-- **The relationships of a graph that has been given groups**: those it had, then those that the
groups bring, one group after the other. -/
theorem Ready.relationships {groups : List PlannedGroup} (ready : Ready original graph groups) :
    (groups.foldl giveGroup graph).relationships =
      graph.relationships ++ groups.flatMap (broughtBy graph.relationships) := by
  induction groups generalizing graph with
  | nil => rw [List.flatMap_nil, List.append_nil, List.foldl_nil]
  | cons group rest ih =>
    obtain ⟨representative, represented, later⟩ := ready.step
    have same : rest.flatMap (broughtBy (withGroup graph group representative).relationships) =
        rest.flatMap (broughtBy graph.relationships) := by
      rw [relationships_withGroup, List.flatMap_def, List.flatMap_def]
      refine congrArg List.flatten (List.map_congr_left fun other member => ?_)
      exact broughtBy_append _ group (later.plan.sound other member)
    rw [List.foldl_cons, represented.giveGroup_eq, ih later, same, relationships_withGroup,
      List.flatMap_cons, List.append_assoc]

/-! ## Symbols -/

theorem ofSymbol_placed (symbol : Symbol) (place : Option Mixin) (module : Module) :
    View.ofSymbol (symbol.placed place) module = View.ofSymbol symbol module := by
  cases place <;> rfl

/-- **The symbols of a graph that has been given groups, but for the groups**: those it had, with
the place that one of the groups gives them. -/
theorem Ready.symbols_plain {groups : List PlannedGroup} (ready : Ready original graph groups)
    {identifier : String} (plain : isGroupIdentifier identifier = false) :
    (groups.foldl giveGroup graph).symbols.get? identifier =
      (graph.symbols.get? identifier).map fun symbol => symbol.placed
        (groups.findSome? (·.place? (View.ofSymbol symbol graph.module) identifier)) := by
  induction groups generalizing graph with
  | nil => exact Option.map_id_apply.symm
  | cons group rest ih =>
    obtain ⟨representative, represented, later⟩ := ready.step
    rw [List.foldl_cons, represented.giveGroup_eq, ih later,
      represented.get?_symbols_withGroup_plain plain, Option.map_map]
    refine congrArg (Option.map · _) (funext fun symbol => ?_)
    obtain ⟨first, alone⟩ := findSome?_cons_of_apart
      (·.place? (View.ofSymbol symbol graph.module) identifier)
      fun place placed other member => (ready.plan.apart_head other member).place?_eq_none placed
    rw [Function.comp_apply, ofSymbol_placed, first]
    cases placed : group.place? (View.ofSymbol symbol graph.module) identifier with
    | none => rfl
    | some place =>
      have nothing : rest.findSome? (·.place? (View.ofSymbol symbol graph.module) identifier) =
          none := alone (by rw [placed]; rfl)
      exact congrArg (Symbol.placed _) nothing

/-- **The groups of a graph that has been given groups**: those it had, and symbols like the
representatives of those given. -/
theorem Ready.symbols_group {groups : List PlannedGroup} (ready : Ready original graph groups)
    {identifier : String} (isGroup : isGroupIdentifier identifier = true) {symbol : Symbol} :
    (groups.foldl giveGroup graph).symbols.get? identifier = some symbol ↔
      graph.symbols.get? identifier = some symbol ∨
        ∃ group ∈ groups, identifier = group.identifier ∧ ∃ representative,
          graph.symbols.get? group.representative.identifier = some representative ∧
            symbol = groupSymbol group.identifier representative := by
  induction groups generalizing graph with
  | nil => simp
  | cons group rest ih =>
    obtain ⟨representative, represented, later⟩ := ready.step
    have found : ∀ other ∈ rest,
        (withGroup graph group representative).symbols.get? other.representative.identifier =
          graph.symbols.get? other.representative.identifier := fun other member =>
      represented.get?_symbols_withGroup_member (later.plan.sound other member)
        (ready.plan.apart_head other member) (ready.awaits other (List.mem_cons_of_mem _ member))
        other.representative_mem
    have first : (withGroup graph group representative).symbols.get? identifier = some symbol ↔
        graph.symbols.get? identifier = some symbol ∨
          identifier = group.identifier ∧ symbol = groupSymbol group.identifier representative := by
      rw [get?_symbols_withGroup represented.sound,
        represented.sound.position?_eq_none isGroup]
      by_cases own : identifier = group.identifier
      · rw [if_pos own, own, represented.awaits.absent]
        simp [eq_comm]
      · rw [if_neg own]
        simp [own]
    rw [List.foldl_cons, represented.giveGroup_eq, ih later, first]
    simp only [List.mem_cons, exists_eq_or_imp, represented.found, Option.some.injEq,
      exists_eq_left', or_assoc]
    refine or_congr_right (or_congr_right (exists_congr fun other => ?_))
    refine and_congr_right fun member => ?_
    rw [found other member]

end ApiAtlas.Overload
