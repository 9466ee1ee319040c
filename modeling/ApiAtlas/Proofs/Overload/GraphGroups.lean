import ApiAtlas.Proofs.Overload.GraphFamilies

/-!
# Grouping one graph

A graph is given a group at once (`withGroup`): its members get their places,
and it becomes a symbol like its representative, with the relationships of the
members to it and those that place it where the representative is. Once unified,
this is what adding the group to the unified graph does (`unified_withGroup`).

A group can be added where its members have no places yet and the group is not
there (`Awaits`). After one group has been added, further ones can be
(`awaits_withGroup`). What this does to the graph itself is the same whatever
its relationships mention; for the unified graph they may not mention groups
that are no symbols (`KnowsGroups`).
-/

set_option autoImplicit false

namespace ApiAtlas

/-- The symbol with a place in a group. -/
def Symbol.withPlace (symbol : Symbol) (place : Mixin) : Symbol :=
  { symbol with mixins := Table.insert symbol.mixins Mixin.overloadKey place }

/-- The symbol with a place in a group, if there is one for it. -/
def Symbol.placed (symbol : Symbol) : Option Mixin → Symbol
  | none => symbol
  | some place => symbol.withPlace place

theorem Symbol.withoutPlace_withPlace (symbol : Symbol) (place : Mixin) :
    (symbol.withPlace place).withoutPlace = symbol.withoutPlace := by
  rw [withPlace, withoutPlace, Table.erase_insert, withoutPlace]

theorem Symbol.withoutPlace_placed (symbol : Symbol) (place : Option Mixin) :
    (symbol.placed place).withoutPlace = symbol.withoutPlace := by
  cases place with
  | none => rfl
  | some place => exact symbol.withoutPlace_withPlace place

/-- A symbol without a place has the place that it is given. -/
theorem Symbol.get?_mixins_placed {symbol : Symbol}
    (bare : Table.get? symbol.mixins Mixin.overloadKey = none) (place : Option Mixin) :
    Table.get? (symbol.placed place).mixins Mixin.overloadKey = place := by
  cases place with
  | none => exact bare
  | some place => exact (Table.get?_insert ..).trans (if_pos rfl)

namespace Overload

variable {graph : SymbolGraph} {group : PlannedGroup} {representative : Symbol}

/-! ## A graph with one more group -/

/-- The graph with a group that has this representative. -/
def withGroup (graph : SymbolGraph) (group : PlannedGroup) (representative : Symbol) :
    SymbolGraph :=
  { graph with
    symbols := Table.insert
      (group.members.zipIdx.foldl
        (fun sofar member => sofar.modify member.1.identifier
          (Symbol.withPlace · (placeMixin group.identifier member.2)))
        graph.symbols)
      group.identifier (groupSymbol group.identifier representative)
    relationships := graph.relationships ++
      (graph.relationships.filter (placesSymbol group.representative.identifier)).map
        (withSource group.identifier) ++
      group.members.map fun member => membership member.identifier group.identifier }

/-- Placing members changes the symbols one by one and adds the relationships one by one. -/
theorem foldl_placeMember (identifier : String) (members : List (Candidate × Nat))
    (graph : SymbolGraph) :
    members.foldl (placeMember identifier) graph =
      { graph with
        symbols := members.foldl
          (fun sofar member => sofar.modify member.1.identifier
            (Symbol.withPlace · (placeMixin identifier member.2)))
          graph.symbols
        relationships := graph.relationships ++
          members.map fun member => membership member.1.identifier identifier } := by
  induction members generalizing graph with
  | nil => rw [List.map_nil, List.append_nil]; rfl
  | cons member rest ih =>
    rw [List.foldl_cons, ih]
    simp only [placeMember, List.foldl_cons, List.map_cons, List.append_assoc,
      List.singleton_append]
    rfl

/-- A group is added if its representative is there. -/
theorem addGroup?_eq
    (found : graph.symbols.get? group.representative.identifier = some representative) :
    addGroup? graph group.members = some (withGroup graph group representative) := by
  have ranked : (group.members.zipIdx.map fun member =>
      membership member.1.identifier group.identifier) =
        group.members.map fun member => membership member.identifier group.identifier := by
    have members := congrArg (List.map fun member : Candidate =>
      membership member.identifier group.identifier) (List.zipIdx_map_fst 0 group.members)
    rwa [List.map_map] at members
  have steps : addGroup? graph group.members =
      some ((group.members.zipIdx.foldl (placeMember group.identifier)
        { graph with
          relationships := graph.relationships ++
            (graph.relationships.filter (placesSymbol group.representative.identifier)).map
              (withSource group.identifier) }).addSymbol
        (groupSymbol group.identifier representative)) := by
    show (graph.symbols.get? group.representative.identifier).bind _ = _
    rw [found]
    rfl
  rw [steps, foldl_placeMember, ranked]
  rfl

/-! ## What is found in it -/

section Found

variable (sound : group.IsSound)

include sound

theorem get?_symbols_withGroup (identifier : String) :
    (withGroup graph group representative).symbols.get? identifier =
      if identifier = group.identifier then some (groupSymbol group.identifier representative)
      else ((group.position? identifier).map fun index =>
        (graph.symbols.get? identifier).map
          (Symbol.withPlace · (placeMixin group.identifier index))).getD
            (graph.symbols.get? identifier) := by
  rw [withGroup, Table.get?_insert, get?_foldl_modify sound.distinct fun index symbol =>
    Symbol.withPlace symbol (placeMixin group.identifier index)]
  rfl

theorem contains_symbols_withGroup (identifier : String) :
    (withGroup graph group representative).symbols.contains identifier = true ↔
      identifier = group.identifier ∨ graph.symbols.contains identifier = true := by
  rw [Table.contains, get?_symbols_withGroup sound, Table.contains]
  by_cases own : identifier = group.identifier
  · simp [own]
  · rw [if_neg own, or_iff_right own]
    cases group.position? identifier <;> simp

/-- A group has the language of its representative, and members keep theirs. -/
theorem language_withGroup (identifier : String) :
    ((withGroup graph group representative).symbols.get? identifier).map (·.language) =
      if identifier = group.identifier then some representative.language
      else (graph.symbols.get? identifier).map (·.language) := by
  rw [get?_symbols_withGroup sound]
  by_cases own : identifier = group.identifier
  · rw [if_pos own, if_pos own]
    rfl
  · rw [if_neg own, if_neg own]
    cases group.position? identifier with
    | none => rfl
    | some index => cases graph.symbols.get? identifier <;> rfl

theorem isWellKeyed_withGroup (keyed : graph.IsWellKeyed) :
    (withGroup graph group representative).IsWellKeyed := by
  intro identifier symbol found
  rw [get?_symbols_withGroup sound] at found
  split at found
  · next own =>
    rw [← Option.some.inj found, own]
    rfl
  · cases position : group.position? identifier with
    | none =>
      rw [position] at found
      exact keyed identifier symbol found
    | some index =>
      rw [position] at found
      obtain ⟨held, present, rfl⟩ := Option.map_eq_some_iff.1 found
      exact (keyed identifier held present : held.identifier = identifier)

end Found

/-- The relationships of the representative that place it are those that place the group. -/
theorem mixinsOf_structural (graph : SymbolGraph) (group : PlannedGroup) (link : Link) :
    ((graph.relationships.filter (placesSymbol group.representative.identifier)).map
        (withSource group.identifier)).filterMap
          (fun relationship =>
            if link = relationship.link then some relationship.mixins else none) =
      if link.source = group.identifier ∧ link.kind.isStructural = true then
        graph.mixinsOf (link.movedTo group.representative.identifier)
      else [] := by
  have single : ∀ relationship : Relationship,
      (if placesSymbol group.representative.identifier relationship = true then
        (if link = (withSource group.identifier relationship).link then some relationship.mixins
          else none)
        else none) =
      if link.source = group.identifier ∧ link.kind.isStructural = true then
        (if link.movedTo group.representative.identifier = relationship.link then
          some relationship.mixins else none)
      else none := by
    intro relationship
    rw [← ite_and, ← ite_and]
    refine if_congr ?_ rfl rfl
    rw [placesSymbol_iff]
    exact Link.eq_movedTo_iff
  rw [List.filterMap_map, List.filterMap_filter]
  refine (congrArg (List.filterMap · graph.relationships) (funext single)).trans ?_
  by_cases copied : link.source = group.identifier ∧ link.kind.isStructural = true
  · simp only [if_pos copied]
    rfl
  · simp only [if_neg copied]
    exact List.filterMap_eq_nil_iff.2 fun _ _ => rfl

theorem mixinsOf_withGroup (link : Link) :
    (withGroup graph group representative).mixinsOf link =
      graph.mixinsOf link ++
        (if link.source = group.identifier ∧ link.kind.isStructural = true then
          graph.mixinsOf (link.movedTo group.representative.identifier)
        else []) ++
        group.members.filterMap fun member =>
          if link = (membership member.identifier group.identifier).link then some Table.empty
          else none := by
  rw [← mixinsOf_structural, SymbolGraph.mixinsOf, withGroup, List.filterMap_append,
    List.filterMap_append, List.filterMap_map (l := group.members)]
  rfl

/-! ## When a group can be added -/

/-- Groups that the relationships of a graph mention are symbols of the graph. -/
def KnowsGroups (graph : SymbolGraph) : Prop :=
  ∀ relationship ∈ graph.relationships, ∀ identifier,
    relationship.link.source = identifier ∨ relationship.link.target = identifier →
      isGroupIdentifier identifier = true → graph.symbols.contains identifier = true

/-- The graph has the members of a group, in its language and without places, but not the group. -/
structure Awaits (graph : SymbolGraph) (group : PlannedGroup) : Prop where
  members : ∀ member ∈ group.members, ∃ symbol,
    graph.symbols.get? member.identifier = some symbol ∧ symbol.language = group.language ∧
      Table.get? symbol.mixins Mixin.overloadKey = none
  absent : graph.symbols.get? group.identifier = none

/-- A group that a graph awaits, with the symbol that represents it. -/
structure Represented (graph : SymbolGraph) (group : PlannedGroup) (representative : Symbol) :
    Prop where
  sound : group.IsSound
  awaits : Awaits graph group
  found : graph.symbols.get? group.representative.identifier = some representative

theorem exists_represented (sound : group.IsSound) (awaits : Awaits graph group) :
    ∃ representative, Represented graph group representative := by
  obtain ⟨representative, found, -⟩ := awaits.members _ group.representative_mem
  exact ⟨representative, sound, awaits, found⟩

namespace Represented

variable (represented : Represented graph group representative)

include represented

theorem language_eq : representative.language = group.language := by
  obtain ⟨symbol, found, language, -⟩ := represented.awaits.members _ group.representative_mem
  rw [represented.found, Option.some.injEq] at found
  rwa [found]

theorem bare : Table.get? representative.mixins Mixin.overloadKey = none := by
  obtain ⟨symbol, found, -, bare⟩ := represented.awaits.members _ group.representative_mem
  rw [represented.found, Option.some.injEq] at found
  rwa [found]

theorem language_member {member : Candidate} (within : member ∈ group.members) :
    (graph.symbols.get? member.identifier).map (·.language) = some group.language := by
  obtain ⟨symbol, found, language, -⟩ := represented.awaits.members member within
  rw [found, Option.map_some, language]

/-- **Symbols that are no groups keep everything, and have the place that the group gives them.** -/
theorem get?_symbols_withGroup_plain {identifier : String}
    (plain : isGroupIdentifier identifier = false) :
    (withGroup graph group representative).symbols.get? identifier =
      (graph.symbols.get? identifier).map fun symbol =>
        symbol.placed (group.place? (View.ofSymbol symbol graph.module) identifier) := by
  have other : identifier ≠ group.identifier := ne_groupIdentifier plain _
  rw [get?_symbols_withGroup represented.sound, if_neg other]
  simp only [PlannedGroup.place?]
  cases position : group.position? identifier with
  | none =>
    simp only [Option.map_none, ite_self]
    exact Option.map_id_apply.symm
  | some index =>
    obtain ⟨member, within, rfl⟩ := PlannedGroup.exists_of_position? position
    obtain ⟨symbol, found, language, -⟩ := represented.awaits.members member within
    have own : (View.ofSymbol symbol graph.module).language = group.language := language
    simp only [found, Option.map_some, Option.getD_some, if_pos own]
    rfl

/-- Members of further groups are found as before. -/
theorem get?_symbols_withGroup_member {other : PlannedGroup} (sound : other.IsSound)
    (apart : group.Apart other) (awaits : Awaits graph other) {member : Candidate}
    (within : member ∈ other.members) :
    (withGroup graph group representative).symbols.get? member.identifier =
      graph.symbols.get? member.identifier := by
  obtain ⟨symbol, found, language, -⟩ := awaits.members member within
  rw [represented.get?_symbols_withGroup_plain (sound.plain member within), found, Option.map_some]
  cases placed : group.place? (View.ofSymbol symbol graph.module) member.identifier with
  | none => rfl
  | some place =>
    obtain ⟨own, one, present, same⟩ := PlannedGroup.exists_of_place? placed
    exact absurd same (apart (own.symm.trans language) one present member within)

/-- The graph awaits a further group that is apart from the one added. -/
theorem awaits_withGroup {other : PlannedGroup} (sound : other.IsSound)
    (apart : group.Apart other) (awaits : Awaits graph other) :
    Awaits (withGroup graph group representative) other where
  members one within := by
    rw [represented.get?_symbols_withGroup_member sound apart awaits within]
    exact awaits.members one within
  absent := by
    have differs : other.identifier ≠ group.identifier := by
      intro same
      have representatives := groupIdentifier_injective same
      obtain ⟨symbol, found, language, -⟩ := awaits.members _ other.representative_mem
      rw [representatives, represented.found, Option.some.injEq] at found
      rw [← found, represented.language_eq] at language
      exact apart language _ group.representative_mem _ other.representative_mem
        representatives.symm
    rw [get?_symbols_withGroup represented.sound, if_neg differs,
      represented.sound.position?_eq_none other.isGroupIdentifier_identifier]
    exact awaits.absent

end Represented

/-- What a group can be added to before the graph is unified. -/
structure Prepared (graph : SymbolGraph) (group : PlannedGroup) (representative : Symbol) : Prop
    extends Represented graph group representative where
  keyed : graph.IsWellKeyed
  knows : KnowsGroups graph

namespace Prepared

variable (prepared : Prepared graph group representative)

include prepared

/-- No relationship leads from the group or to it before it is added. -/
theorem ends_ne {relationship : Relationship} (member : relationship ∈ graph.relationships) :
    relationship.link.source ≠ group.identifier ∧
      relationship.link.target ≠ group.identifier := by
  have unknown : ¬graph.symbols.contains group.identifier = true := by
    rw [Table.contains, prepared.awaits.absent]
    exact Bool.false_ne_true
  exact ⟨fun same => unknown (prepared.knows _ member _ (.inl same)
      group.isGroupIdentifier_identifier),
    fun same => unknown (prepared.knows _ member _ (.inr same)
      group.isGroupIdentifier_identifier)⟩

/-! ### Views -/

/-- Links of other symbols go where they went before. -/
theorem viewsOf_withGroup {link : Link} (source : link.source ≠ group.identifier)
    (target : link.target ≠ group.identifier) :
    (withGroup graph group representative).viewsOf link = graph.viewsOf link := by
  have language (identifier : String) :
      ((withGroup graph group representative).symbols.get? identifier).map (·.language) = _ :=
    language_withGroup prepared.sound identifier
  rw [SymbolGraph.viewsOf_eq (isWellKeyed_withGroup prepared.sound prepared.keyed),
    SymbolGraph.viewsOf_eq prepared.keyed]
  refine UnifiedGraph.viewsOf_congr graph.module ?_ ?_ fun name => ?_
  · rw [language, if_neg source]
  · rw [language, if_neg target]
  · constructor
    · rintro ⟨identifier, shown⟩
      rw [language] at shown
      split at shown
      · exact ⟨group.representative.identifier, by rw [prepared.found]; exact shown⟩
      · exact ⟨identifier, shown⟩
    · rintro ⟨identifier, shown⟩
      refine ⟨identifier, ?_⟩
      rw [language, if_neg]
      · exact shown
      · rintro rfl
        rw [prepared.awaits.absent] at shown
        cases shown

/-- The view in which members and their group are known. -/
def view (_prepared : Prepared graph group representative) : View :=
  { language := group.language, platform := graph.module.platform.name? }

/-- Links from the group go to the view of its members. -/
theorem viewsOf_group {link : Link} (source : link.source = group.identifier) :
    (withGroup graph group representative).viewsOf link = [prepared.view] := by
  refine viewsOf_of_language (isWellKeyed_withGroup prepared.sound prepared.keyed) ?_
  rw [language_withGroup prepared.sound, if_pos source, prepared.language_eq]

/-- Links from a member go to that view, before the group is added and after it. -/
theorem viewsOf_member {link : Link} {member : Candidate} (within : member ∈ group.members)
    (source : link.source = member.identifier) :
    graph.viewsOf link = [prepared.view] ∧
      (withGroup graph group representative).viewsOf link = [prepared.view] := by
  have other : link.source ≠ group.identifier := by
    rw [source]
    exact ne_groupIdentifier (prepared.sound.plain member within) _
  have before : (graph.symbols.get? link.source).map (·.language) = some group.language := by
    rw [source, prepared.language_member within]
  refine ⟨viewsOf_of_language prepared.keyed before,
    viewsOf_of_language (isWellKeyed_withGroup prepared.sound prepared.keyed) ?_⟩
  rw [language_withGroup prepared.sound, if_neg other, before]

/-- A member is known in that view alone. -/
theorem exists_facetAt_member {member : Candidate} (within : member ∈ group.members)
    (view : View) :
    (∃ facet, graph.unified.facetAt member.identifier view = some facet) ↔
      view = prepared.view := by
  obtain ⟨symbol, found, language, -⟩ := prepared.awaits.members member within
  have own : View.ofSymbol symbol graph.module = prepared.view :=
    congrArg (fun language : String => View.mk language graph.module.platform.name?) language
  rw [UnifiedGraph.facetAt_unified, SymbolGraph.facet?_eq_bind prepared.keyed, found,
    Option.bind_some, own]
  by_cases same : view = prepared.view
  · rw [if_pos same.symm]
    exact ⟨fun _ => same, fun _ => ⟨_, rfl⟩⟩
  · rw [if_neg (Ne.symm same)]
    constructor
    · rintro ⟨facet, known⟩
      cases known
    · exact fun equal => absurd equal same

/-! ### Relationships -/

/-- Nothing leads from the group or to it before it is added. -/
theorem mixinsOf_eq_nil {link : Link}
    (touches : link.source = group.identifier ∨ link.target = group.identifier) :
    graph.mixinsOf link = [] := by
  rw [SymbolGraph.mixinsOf_eq_nil_iff]
  rintro relationship member rfl
  obtain ⟨source, target⟩ := prepared.ends_ne member
  exact touches.elim source target

theorem get?_recorded_eq_none {link : Link}
    (touches : link.source = group.identifier ∨ link.target = group.identifier) (view : View) :
    Table.get? graph.recorded (view, link) = none := by
  rw [SymbolGraph.get?_recorded, prepared.mixinsOf_eq_nil touches]
  exact ite_self none

/-- A member's relationship to the group is recorded where the member is known. -/
theorem get?_recorded_member {member : Candidate} (within : member ∈ group.members) {link : Link}
    (related : link = (membership member.identifier group.identifier).link) (view : View) :
    Table.get? (withGroup graph group representative).recorded (view, link) =
      addedAt graph.unified view link group := by
  have kind : link.kind = .overloadOf := by rw [related]; rfl
  have source : link.source = member.identifier := by rw [related]; rfl
  have target : link.target = group.identifier := by rw [related]; rfl
  have unplaced : ¬(link.source = group.identifier ∧ link.kind.isStructural = true) := by
    rw [kind]
    exact fun placed => Bool.false_ne_true placed.2
  have bare : ∀ mixins ∈ (withGroup graph group representative).mixinsOf link,
      mixins = Table.empty := by
    rw [mixinsOf_withGroup, prepared.mixinsOf_eq_nil (.inr target), if_neg unplaced]
    intro mixins brought
    obtain ⟨other, -, shown⟩ := List.mem_filterMap.1 brought
    split at shown
    · exact (Option.some.inj shown).symm
    · cases shown
  have present : (withGroup graph group representative).mixinsOf link ≠ [] := by
    refine List.ne_nil_of_mem (a := Table.empty) ?_
    rw [mixinsOf_withGroup]
    exact List.mem_append_right _ (List.mem_filterMap.2 ⟨member, within, if_pos related⟩)
  rw [SymbolGraph.get?_recorded, (prepared.viewsOf_member within source).2,
    EdgeTable.foldl_pile_of_empty bare, List.isEmpty_eq_false_iff.2 present]
  refine Option.ext fun mixins => ?_
  rw [addedAt_eq_some_iff kind]
  by_cases own : view = prepared.view
  · rw [if_pos (List.mem_singleton.2 own)]
    constructor
    · intro shown
      refine ⟨(Option.some.inj shown).symm, by rw [own]; rfl, member, within, related, ?_⟩
      exact (prepared.exists_facetAt_member within view).2 own
    · rintro ⟨rfl, -⟩
      rfl
  · rw [if_neg fun within => own (List.mem_singleton.1 within)]
    constructor
    · intro shown
      cases shown
    · rintro ⟨-, -, other, present, -, known⟩
      exact absurd ((prepared.exists_facetAt_member present view).1 known) own

/-- What places the group is recorded where what places its representative is. -/
theorem get?_recorded_structural {link : Link} (source : link.source = group.identifier)
    (structural : link.kind.isStructural = true) (view : View) :
    Table.get? (withGroup graph group representative).recorded (view, link) =
      addedAt graph.unified view link group := by
  have unrelated : group.relates graph.unified view link = false := by
    refine PlannedGroup.relates_eq_false (fun kind => ?_) group view
    rw [kind] at structural
    cases structural
  have other : ∀ member ∈ group.members,
      link ≠ (membership member.identifier group.identifier).link := by
    rintro member - rfl
    cases structural
  have copies : (withGroup graph group representative).mixinsOf link =
      graph.mixinsOf (link.movedTo group.representative.identifier) := by
    have placed : link.source = group.identifier ∧ link.kind.isStructural = true :=
      ⟨source, structural⟩
    rw [mixinsOf_withGroup, prepared.mixinsOf_eq_nil (.inl source), if_pos placed,
      List.filterMap_eq_nil_iff.2 fun member within => if_neg (other member within),
      List.nil_append, List.append_nil]
  have added : addedAt graph.unified view link group =
      if view.language = group.language then
        Table.get? graph.recorded (view, link.movedTo group.representative.identifier)
      else none := by
    rw [addedAt, unrelated, if_neg Bool.false_ne_true]
    exact if_congr Iff.rfl (if_pos ⟨source, structural⟩) rfl
  rw [SymbolGraph.get?_recorded, copies, prepared.viewsOf_group source, added,
    SymbolGraph.get?_recorded, (prepared.viewsOf_member group.representative_mem rfl).1]
  by_cases own : view = prepared.view
  · have language : view.language = group.language := by rw [own]; rfl
    rw [if_pos language]
  · rw [if_neg fun within => own (List.mem_singleton.1 within), ite_self]

/-- Other relationships are recorded as before. -/
theorem get?_recorded_other {link : Link}
    (unrelated : ∀ member ∈ group.members,
      link ≠ (membership member.identifier group.identifier).link)
    (unplaced : ¬(link.source = group.identifier ∧ link.kind.isStructural = true)) (view : View) :
    Table.get? (withGroup graph group representative).recorded (view, link) =
        Table.get? graph.recorded (view, link) ∧
      addedAt graph.unified view link group = none := by
  constructor
  · rw [SymbolGraph.get?_recorded, SymbolGraph.get?_recorded, mixinsOf_withGroup, if_neg unplaced,
      List.filterMap_eq_nil_iff.2 fun member within => if_neg (unrelated member within),
      List.append_nil, List.append_nil]
    by_cases touches : link.source = group.identifier ∨ link.target = group.identifier
    · rw [prepared.mixinsOf_eq_nil touches]
      exact (ite_self none).trans (ite_self none).symm
    · rw [prepared.viewsOf_withGroup (fun same => touches (.inl same))
        (fun same => touches (.inr same))]
  · refine addedAt_eq_none (Bool.eq_false_iff.2 fun related => ?_) unplaced
    obtain ⟨member, within, shown⟩ := List.any_eq_true.1 related
    exact unrelated member within (of_decide_eq_true (Bool.and_eq_true_iff.1 shown).1)

/-- **What a group adds to the relationships of a graph it adds once the graph is unified.** -/
theorem get?_recorded_withGroup (view : View) (link : Link) :
    Table.get? (withGroup graph group representative).recorded (view, link) =
      EdgeTable.join (Table.get? graph.recorded (view, link))
        (addedAt graph.unified view link group) := by
  by_cases related : ∃ member ∈ group.members,
      link = (membership member.identifier group.identifier).link
  · obtain ⟨member, within, same⟩ := related
    have target : link.target = group.identifier := by rw [same]; rfl
    rw [prepared.get?_recorded_member within same, prepared.get?_recorded_eq_none (.inr target)]
    exact Option.merge_none_left.symm
  · by_cases placed : link.source = group.identifier ∧ link.kind.isStructural = true
    · rw [prepared.get?_recorded_structural placed.1 placed.2,
        prepared.get?_recorded_eq_none (.inl placed.1)]
      exact Option.merge_none_left.symm
    · obtain ⟨kept, nothing⟩ := prepared.get?_recorded_other
        (fun member within same => related ⟨member, within, same⟩) placed view
      rw [kept, nothing]
      exact Option.merge_none_right.symm

/-! ### Symbols -/

theorem facetAt_withGroup_self (view : View) :
    (withGroup graph group representative).unified.facetAt group.identifier view =
      (addGroup graph.unified group).facetAt group.identifier view := by
  have made : groupFacet (Facet.ofSymbol representative graph.module true) =
      Facet.ofSymbol (groupSymbol group.identifier representative) graph.module true := by
    simp only [groupFacet, Facet.ofSymbol, Table.erase_eq_self prepared.bare]
    rfl
  have before : graph.unified.facetAt group.identifier view = none := by
    rw [UnifiedGraph.facetAt_unified, SymbolGraph.facet?_eq_bind prepared.keyed,
      prepared.awaits.absent]
    rfl
  rw [facetAt_addGroup_self prepared.sound, before, UnifiedGraph.facetAt_unified,
    UnifiedGraph.facetAt_unified, SymbolGraph.facet?_eq_bind prepared.keyed, prepared.found,
    SymbolGraph.facet?_eq_bind (isWellKeyed_withGroup prepared.sound prepared.keyed),
    get?_symbols_withGroup prepared.sound, if_pos rfl, Option.bind_some, Option.bind_some]
  by_cases own : View.ofSymbol representative graph.module = view
  · have copied : View.ofSymbol (groupSymbol group.identifier representative)
        (withGroup graph group representative).module = view := own
    have language : view.language = group.language := by
      rw [← own, ← prepared.language_eq]
      rfl
    rw [if_pos own, if_pos copied, if_pos language, Option.map_some, made]
    rfl
  · have copied : View.ofSymbol (groupSymbol group.identifier representative)
        (withGroup graph group representative).module ≠ view := own
    rw [if_neg own, if_neg copied, Option.map_none, ite_self]
    rfl

theorem facetAt_withGroup {identifier : String} (other : identifier ≠ group.identifier)
    (view : View) :
    (withGroup graph group representative).unified.facetAt identifier view =
      (addGroup graph.unified group).facetAt identifier view := by
  rw [facetAt_addGroup prepared.sound _ other, PlannedGroup.place?, UnifiedGraph.facetAt_unified,
    UnifiedGraph.facetAt_unified, SymbolGraph.facet?_eq_bind prepared.keyed,
    SymbolGraph.facet?_eq_bind (isWellKeyed_withGroup prepared.sound prepared.keyed),
    get?_symbols_withGroup prepared.sound, if_neg other]
  cases position : group.position? identifier with
  | none =>
    have same : ∀ known : Option Facet, known = known.map (·.withPlace none) := by
      intro known
      cases known <;> rfl
    rw [Option.map_none, Option.map_none, ite_self, Option.getD_none]
    exact same _
  | some index =>
    obtain ⟨member, within, rfl⟩ := PlannedGroup.exists_of_position? position
    obtain ⟨symbol, found, language, -⟩ := prepared.awaits.members member within
    rw [found, Option.map_some, Option.getD_some, Option.map_some, Option.bind_some,
      Option.bind_some]
    by_cases own : View.ofSymbol symbol graph.module = view
    · have placed : View.ofSymbol (symbol.withPlace (placeMixin group.identifier index))
          (withGroup graph group representative).module = view := own
      have here : view.language = group.language := by
        rw [← own, ← language]
        rfl
      rw [if_pos own, if_pos placed, if_pos here]
      rfl
    · have placed : View.ofSymbol (symbol.withPlace (placeMixin group.identifier index))
          (withGroup graph group representative).module ≠ view := own
      rw [if_neg own, if_neg placed]
      rfl

/-- **A group may be added before a graph is unified or after it.** -/
theorem unified_withGroup :
    (withGroup graph group representative).unified = addGroup graph.unified group := by
  have known : group.IsKnown graph.unified := by
    obtain ⟨facet, shown⟩ := (prepared.exists_facetAt_member group.representative_mem
      prepared.view).2 rfl
    exact ⟨prepared.view, facet, rfl, shown⟩
  refine (withGroup graph group representative).wellFormed_unified.ext
    (graph.wellFormed_unified.addGroup prepared.sound known) rfl rfl (fun identifier view => ?_)
    (Table.ext_get? fun place => ?_) rfl
  · by_cases own : identifier = group.identifier
    · rw [own, prepared.facetAt_withGroup_self]
    · exact prepared.facetAt_withGroup own view
  · obtain ⟨view, link⟩ := place
    rw [get?_edges_addGroup prepared.sound]
    exact prepared.get?_recorded_withGroup view link

/-! ### What comes after -/

/-- The graph knows its groups once a group has been added. -/
theorem knowsGroups_withGroup : KnowsGroups (withGroup graph group representative) := by
  intro relationship member identifier touches isGroup
  rw [contains_symbols_withGroup prepared.sound]
  by_cases own : identifier = group.identifier
  · exact .inl own
  · refine .inr ?_
    rcases List.mem_append.1 member with earlier | related
    · rcases List.mem_append.1 earlier with held | copied
      · exact prepared.knows relationship held identifier touches isGroup
      · obtain ⟨original, placing, rfl⟩ := List.mem_map.1 copied
        have target := touches.resolve_left fun source => own source.symm
        exact prepared.knows original (List.mem_filter.1 placing).1 identifier (.inr target) isGroup
    · obtain ⟨one, within, rfl⟩ := List.mem_map.1 related
      have source := touches.resolve_right fun target => own target.symm
      have plain := prepared.sound.plain one within
      rw [show one.identifier = identifier from source, isGroup] at plain
      cases plain

end Prepared

end Overload

end ApiAtlas
