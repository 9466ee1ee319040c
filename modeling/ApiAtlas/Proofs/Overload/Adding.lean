import ApiAtlas.Proofs.Overload.Pruning

/-!
# What adding groups changes

Adding a group is seen at three places. The members get their places in all
their views of the group's language (`PlannedGroup.place?`), the group is known
where its representative is known in that language (`facetAt_addGroup`), and two
sorts of relationships are new, those of the members to the group and those that
place the group where its representative is (`addedAt`).

A group whose representative is known leaves a well-formed graph
(`WellFormed.addGroup`).
-/

set_option autoImplicit false

namespace ApiAtlas

/-- The facet with a place in a group, if there is one for it. -/
def Facet.withPlace (facet : Facet) : Option Mixin → Facet
  | none => facet
  | some place => { facet with mixins := Table.insert facet.mixins Mixin.overloadKey place }

theorem Facet.withoutPlace_withPlace (facet : Facet) (place : Option Mixin) :
    (facet.withPlace place).withoutPlace = facet.withoutPlace := by
  cases place with
  | none => rfl
  | some place => rw [withPlace, withoutPlace, Table.erase_insert, withoutPlace]

/-- A facet without a place has the place that it is given. -/
theorem Facet.get?_mixins_withPlace {facet : Facet}
    (bare : Table.get? facet.mixins Mixin.overloadKey = none) (place : Option Mixin) :
    Table.get? (facet.withPlace place).mixins Mixin.overloadKey = place := by
  cases place with
  | none => exact bare
  | some place => exact (Table.get?_insert ..).trans (if_pos rfl)

/-- The facet that a newer one replaces, if there is a newer one. -/
abbrev Facet.takenOver : Option Facet → Option Facet → Option Facet :=
  Option.merge Facet.replacedBy

theorem UnifiedSymbol.facet?_absorb (symbol newer : UnifiedSymbol) (view : View) :
    (symbol.absorb newer).facet? view =
      Facet.takenOver (symbol.facet? view) (newer.facet? view) := by
  have run := Table.get?_foldl_alter (fun entry : View × Facet => entry.1)
    (fun entry held => Facet.takenOver held (some entry.2)) newer.facets.entries symbol.facets view
  rw [Table.foldl_entries_at newer.facets view
    (fun held entry => Facet.takenOver held (some entry.2))] at run
  have steps : (symbol.absorb newer).facets = newer.facets.entries.foldl
      (fun sofar entry => sofar.alter entry.1 fun held => Facet.takenOver held (some entry.2))
      symbol.facets := by
    refine congrArg (fun step => newer.facets.entries.foldl step symbol.facets)
      (funext fun sofar => funext fun entry => congrArg (sofar.alter entry.1) ?_)
    funext held
    cases held <;> rfl
  rw [UnifiedSymbol.facet?, steps, run, UnifiedSymbol.facet?, UnifiedSymbol.facet?]
  cases newer.facets.get? view with
  | none => exact Option.merge_none_right.symm
  | some facet => rfl

/-- The link with another source. -/
def Link.movedTo (link : Link) (source : String) : Link :=
  { link with source }

theorem Link.kind_movedTo (link : Link) (source : String) :
    (link.movedTo source).kind = link.kind :=
  rfl

/-- What is moved from one source to another is found again by moving it back. -/
theorem Link.eq_movedTo_iff {link held : Link} {first second : String} :
    (held.source = first ∧ held.kind.isStructural = true) ∧ link = held.movedTo second ↔
      (link.source = second ∧ link.kind.isStructural = true) ∧ link.movedTo first = held := by
  constructor
  · rintro ⟨⟨rfl, structural⟩, rfl⟩
    exact ⟨⟨rfl, structural⟩, rfl⟩
  · rintro ⟨⟨rfl, structural⟩, rfl⟩
    exact ⟨⟨rfl, structural⟩, rfl⟩

namespace Overload

theorem placesSymbol_iff {symbol : String} {relationship : Relationship} :
    placesSymbol symbol relationship = true ↔
      relationship.link.source = symbol ∧ relationship.link.kind.isStructural = true := by
  rw [placesSymbol, Bool.and_eq_true, decide_eq_true_eq]

/-! ## Places -/

namespace PlannedGroup

/-- The place of a symbol among the members as they are ranked. -/
def position? (group : PlannedGroup) (identifier : String) : Option Nat :=
  group.members.findIdx? fun member => member.identifier = identifier

/-- The place that the group gives to a symbol in a view. -/
def place? (group : PlannedGroup) (view : View) (identifier : String) : Option Mixin :=
  if view.language = group.language then
    (group.position? identifier).map (placeMixin group.identifier)
  else
    none

/-- Members are no groups, and no symbol is a member twice. -/
structure IsSound (group : PlannedGroup) : Prop where
  plain : ∀ member ∈ group.members, isGroupIdentifier member.identifier = false
  distinct : (group.members.map (·.identifier)).Nodup

theorem representative_mem (group : PlannedGroup) : group.representative ∈ group.members :=
  List.mem_cons_self ..

theorem isGroupIdentifier_identifier (group : PlannedGroup) :
    isGroupIdentifier group.identifier = true :=
  isGroupIdentifier_groupIdentifier _

/-- A group has no place in a sound group. -/
theorem IsSound.position?_eq_none {group : PlannedGroup} (sound : group.IsSound)
    {identifier : String} (isGroup : isGroupIdentifier identifier = true) :
    group.position? identifier = none := by
  rw [position?, List.findIdx?_eq_none_iff]
  intro member within
  refine decide_eq_false fun same => ?_
  rw [← same, sound.plain member within] at isGroup
  cases isGroup

/-- Who has a place is a member. -/
theorem exists_of_position? {group : PlannedGroup} {identifier : String} {index : Nat}
    (placed : group.position? identifier = some index) :
    ∃ member ∈ group.members, member.identifier = identifier := by
  obtain ⟨within, same, -⟩ := List.findIdx?_eq_some_iff_getElem.1 placed
  exact ⟨group.members[index], List.getElem_mem within, of_decide_eq_true same⟩

/-- Who has a place in a view is a member, and the view is one of the group's language. -/
theorem exists_of_place? {group : PlannedGroup} {view : View} {identifier : String}
    {place : Mixin} (placed : group.place? view identifier = some place) :
    view.language = group.language ∧ ∃ member ∈ group.members, member.identifier = identifier := by
  rw [place?] at placed
  split at placed
  · next language =>
    obtain ⟨index, position, -⟩ := Option.map_eq_some_iff.1 placed
    exact ⟨language, exists_of_position? position⟩
  · cases placed

/-- The members of a sound group stand at their places. -/
theorem IsSound.position?_eq_some_iff {group : PlannedGroup} (sound : group.IsSound)
    {identifier : String} {index : Nat} :
    group.position? identifier = some index ↔
      (group.members.map (·.identifier))[index]? = some identifier := by
  rw [position?, List.findIdx?_eq_some_iff_getElem, List.getElem?_eq_some_iff]
  simp only [List.length_map, List.getElem_map, decide_eq_true_eq]
  constructor
  · rintro ⟨within, same, -⟩
    exact ⟨within, same⟩
  · rintro ⟨within, same⟩
    refine ⟨within, same, fun earlier before repeated => ?_⟩
    have equal : earlier = index := by
      refine (List.getElem?_inj (by rw [List.length_map]; omega) sound.distinct).1 ?_
      simp only [List.getElem?_map, List.getElem?_eq_getElem within,
        List.getElem?_eq_getElem (Nat.lt_trans before within), Option.map_some, repeated, same]
    omega

/-- The members of a sound group have their places in the views of its language. -/
theorem IsSound.place?_eq_some_iff {group : PlannedGroup} (sound : group.IsSound) {view : View}
    {identifier : String} {place : Mixin} :
    group.place? view identifier = some place ↔
      view.language = group.language ∧ ∃ index : Nat,
        (group.members.map (·.identifier))[index]? = some identifier ∧
          place = placeMixin group.identifier index := by
  rw [place?]
  split
  · next own =>
    rw [Option.map_eq_some_iff]
    simp only [sound.position?_eq_some_iff, own, true_and, eq_comm]
  · next other =>
    constructor
    · intro placed
      cases placed
    · rintro ⟨own, -⟩
      exact absurd own other

end PlannedGroup

/-- Of ranked members with different identifiers one counts at most. -/
theorem foldl_zipIdx_at {β : Type} {members : List Candidate}
    (distinct : (members.map (·.identifier)).Nodup) (identifier : String) (step : β → Nat → β)
    (held : β) (start : Nat) :
    (members.zipIdx start).foldl
        (fun sofar member => if identifier = member.1.identifier then step sofar member.2
          else sofar) held =
      ((members.findIdx? fun member => member.identifier = identifier).map
        fun index => step held (start + index)).getD held := by
  induction members generalizing held start with
  | nil => rfl
  | cons member rest ih =>
    obtain ⟨fresh, others⟩ := List.nodup_cons.1 distinct
    rw [List.zipIdx_cons, List.foldl_cons, ih others, List.findIdx?_cons]
    by_cases same : member.identifier = identifier
    · subst same
      have absent : rest.findIdx? (fun other => other.identifier = member.identifier) = none := by
        rw [List.findIdx?_eq_none_iff]
        intro other within
        exact decide_eq_false fun same => fresh (List.mem_map.2 ⟨other, within, same⟩)
      rw [absent]
      simp
    · rw [if_neg fun equal => same equal.symm, if_neg (by simpa using same), Option.map_map]
      refine congrArg (Option.getD · held) (congrArg (Option.map · _) (funext fun index => ?_))
      exact congrArg (step held) (by simp only [Nat.add_comm index 1, Nat.add_assoc])

/-- Of ranked members with different identifiers each is changed once, by its own place. -/
theorem get?_foldl_modify {ν : Type} {members : List Candidate}
    (distinct : (members.map (·.identifier)).Nodup) (change : Nat → ν → ν)
    (table : Table String ν) (identifier : String) :
    (members.zipIdx.foldl
        (fun sofar member => sofar.modify member.1.identifier (change member.2)) table).get?
          identifier =
      ((members.findIdx? fun member => member.identifier = identifier).map fun index =>
        (table.get? identifier).map (change index)).getD (table.get? identifier) := by
  have run := Table.get?_foldl_alter (fun member : Candidate × Nat => member.1.identifier)
    (fun member held => held.map (change member.2)) members.zipIdx table identifier
  rw [foldl_zipIdx_at distinct identifier (fun held index => Option.map (change index) held)] at run
  refine run.trans ?_
  simp only [Nat.zero_add]

/-- Only members are changed when members are placed. -/
theorem get?_placeMembers {group : PlannedGroup} (sound : group.IsSound)
    (symbols : Table String UnifiedSymbol) (identifier : String) :
    (group.members.zipIdx.foldl
        (fun sofar member => sofar.modify member.1.identifier (placeIn group member.2))
        symbols).get? identifier =
      ((group.position? identifier).map fun index =>
        (symbols.get? identifier).map (placeIn group index)).getD (symbols.get? identifier) :=
  get?_foldl_modify sound.distinct (placeIn group) symbols identifier

theorem facet?_placeIn (group : PlannedGroup) (index : Nat) (symbol : UnifiedSymbol)
    (view : View) :
    (placeIn group index symbol).facet? view =
      (symbol.facet? view).map (·.withPlace
        (if view.language = group.language then some (placeMixin group.identifier index)
          else none)) := by
  rw [UnifiedSymbol.facet?, placeIn, Table.get?_map, UnifiedSymbol.facet?]
  by_cases same : view.language = group.language <;> simp only [same, if_true, if_false] <;> rfl

/-- Members are known with their places, and all others as before. -/
theorem facetIn_placeMembers {group : PlannedGroup} (sound : group.IsSound)
    (symbols : Table String UnifiedSymbol) (identifier : String) (view : View) :
    facetIn (group.members.zipIdx.foldl
        (fun sofar member => sofar.modify member.1.identifier (placeIn group member.2)) symbols)
        identifier view =
      (facetIn symbols identifier view).map (·.withPlace (group.place? view identifier)) := by
  rw [facetIn, get?_placeMembers sound, facetIn, PlannedGroup.place?]
  cases group.position? identifier with
  | none => cases symbols.get? identifier <;> simp [Facet.withPlace]
  | some index =>
    cases symbols.get? identifier with
    | none => rfl
    | some symbol => exact facet?_placeIn group index symbol view

/-- The symbol of a group is known where its representative is known in its language. -/
theorem facetIn_addGroupSymbol (group : PlannedGroup) (symbols : Table String UnifiedSymbol)
    (identifier : String) (view : View) :
    facetIn (addGroupSymbol group symbols) identifier view =
      if identifier = group.identifier then
        Facet.takenOver (facetIn symbols identifier view)
          (if view.language = group.language then
            (facetIn symbols group.representative.identifier view).map groupFacet else none)
      else facetIn symbols identifier view := by
  have made : (unifiedGroupSymbol group ((symbols.get? group.representative.identifier).getD
        (.empty group.representative.identifier))).facet? view =
      if view.language = group.language then
        (facetIn symbols group.representative.identifier view).map groupFacet else none := by
    rw [UnifiedSymbol.facet?, unifiedGroupSymbol, Table.get?_filterMap, facetIn]
    cases symbols.get? group.representative.identifier with
    | none => simp [UnifiedSymbol.empty]
    | some representative =>
      simp only [Option.getD_some, Option.bind_some, UnifiedSymbol.facet?]
      by_cases same : view.language = group.language <;>
        cases representative.facets.get? view <;> simp [same]
  rw [facetIn, addGroupSymbol, Table.get?_alter]
  by_cases own : identifier = group.identifier
  · subst own
    rw [if_pos rfl, if_pos rfl, ← made, facetIn]
    cases symbols.get? group.identifier with
    | none => exact Option.merge_none_left.symm
    | some held =>
      simp only [Option.bind_some]
      exact held.facet?_absorb _ view
  · rw [if_neg own, if_neg own, facetIn]

/-- **What is known of a symbol once a group has been added**: the same as before, with the place
in the group if it is a member. -/
theorem facetAt_addGroup {group : PlannedGroup} (sound : group.IsSound) (graph : UnifiedGraph)
    {identifier : String} (other : identifier ≠ group.identifier) (view : View) :
    (addGroup graph group).facetAt identifier view =
      (graph.facetAt identifier view).map (·.withPlace (group.place? view identifier)) := by
  rw [UnifiedGraph.facetAt, addGroup, facetIn_placeMembers sound, facetIn_addGroupSymbol,
    if_neg other]

/-- **What is known of a group once it has been added**: in its language what it has from its
representative. -/
theorem facetAt_addGroup_self {group : PlannedGroup} (sound : group.IsSound)
    (graph : UnifiedGraph) (view : View) :
    (addGroup graph group).facetAt group.identifier view =
      Facet.takenOver (graph.facetAt group.identifier view)
        (if view.language = group.language then
          (graph.facetAt group.representative.identifier view).map groupFacet else none) := by
  have unplaced : group.place? view group.identifier = none := by
    rw [PlannedGroup.place?, sound.position?_eq_none group.isGroupIdentifier_identifier]
    simp
  rw [UnifiedGraph.facetAt, addGroup, facetIn_placeMembers sound, facetIn_addGroupSymbol,
    if_pos rfl, unplaced]
  simp [Facet.withPlace]

/-- Places say nothing about what a group has from its representative. -/
@[simp]
theorem groupFacet_withPlace (facet : Facet) (place : Option Mixin) :
    groupFacet (facet.withPlace place) = groupFacet facet := by
  cases place with
  | none => rfl
  | some place =>
    have declaration : Mixins.declaration? (Table.insert facet.mixins Mixin.overloadKey place) =
        Mixins.declaration? facet.mixins := by
      rw [Mixins.declaration?, Table.get?_insert, if_neg (by decide), Mixins.declaration?]
    simp only [groupFacet, Facet.withPlace, declaration, Table.erase_insert]

/-! ## Relationships -/

/-- The relationship of a member to a group, if the member is known in a view. -/
def PlannedGroup.relates (group : PlannedGroup) (graph : UnifiedGraph) (view : View)
    (link : Link) : Bool :=
  group.members.any fun member =>
    link = (membership member.identifier group.identifier).link &&
      (graph.facetAt member.identifier view).isSome

/-- The mixins with which a group adds a relationship in a view, if it adds it. -/
def addedAt (graph : UnifiedGraph) (view : View) (link : Link) (group : PlannedGroup) :
    Option Mixins :=
  if view.language = group.language then
    if group.relates graph view link then
      some Table.empty
    else if link.source = group.identifier ∧ link.kind.isStructural = true then
      Table.get? graph.edges (view, link.movedTo group.representative.identifier)
    else
      none
  else
    none

/-- Members are related to their group by one kind of relationship. -/
theorem PlannedGroup.kind_of_relates {group : PlannedGroup} {graph : UnifiedGraph} {view : View}
    {link : Link} (related : group.relates graph view link = true) : link.kind = .overloadOf := by
  obtain ⟨member, -, shown⟩ := List.any_eq_true.1 related
  rw [of_decide_eq_true (Bool.and_eq_true_iff.1 shown).1]
  rfl

theorem PlannedGroup.relates_eq_false {graph : UnifiedGraph} {link : Link}
    (other : link.kind ≠ .overloadOf) (group : PlannedGroup) (view : View) :
    group.relates graph view link = false :=
  Bool.eq_false_iff.2 fun related => other (kind_of_relates related)

/-- A group adds nothing but relationships of its members and what places it. -/
theorem addedAt_eq_none {graph : UnifiedGraph} {view : View} {link : Link} {group : PlannedGroup}
    (unrelated : group.relates graph view link = false)
    (unplaced : ¬(link.source = group.identifier ∧ link.kind.isStructural = true)) :
    addedAt graph view link group = none := by
  rw [addedAt, unrelated, if_neg Bool.false_ne_true, if_neg unplaced, ite_self]

/-- What a group adds in the views of its language leads to it or places it. -/
theorem touches_of_addedAt {graph : UnifiedGraph} {view : View} {link : Link}
    {group : PlannedGroup} {mixins : Mixins} (added : addedAt graph view link group = some mixins) :
    view.language = group.language ∧
      (link.kind = .overloadOf ∧ link.target = group.identifier ∨
        link.kind.isStructural = true ∧ link.source = group.identifier) := by
  rw [addedAt] at added
  split at added
  · next language =>
    refine ⟨language, ?_⟩
    split at added
    · next related =>
      obtain ⟨member, -, shown⟩ := List.any_eq_true.1 related
      rw [of_decide_eq_true (Bool.and_eq_true_iff.1 shown).1]
      exact .inl ⟨rfl, rfl⟩
    · split at added
      · next placed => exact .inr ⟨placed.2, placed.1⟩
      · cases added
  · cases added

/-- Of relationships to groups, a group adds those of its members in the views that know them. -/
theorem addedAt_eq_some_iff {graph : UnifiedGraph} {view : View} {link : Link}
    (kind : link.kind = .overloadOf) {group : PlannedGroup} {mixins : Mixins} :
    addedAt graph view link group = some mixins ↔
      mixins = Table.empty ∧ view.language = group.language ∧ ∃ member ∈ group.members,
        link = (membership member.identifier group.identifier).link ∧
          ∃ facet, graph.facetAt member.identifier view = some facet := by
  have related : group.relates graph view link = true ↔ ∃ member ∈ group.members,
      link = (membership member.identifier group.identifier).link ∧
        ∃ facet, graph.facetAt member.identifier view = some facet := by
    simp only [PlannedGroup.relates, List.any_eq_true, Bool.and_eq_true, decide_eq_true_eq,
      Option.isSome_iff_exists]
  have unplaced : ¬(link.source = group.identifier ∧ link.kind.isStructural = true) := by
    rw [kind]
    exact fun placed => Bool.false_ne_true placed.2
  rw [addedAt, if_neg unplaced, ← related]
  by_cases own : view.language = group.language
  · cases group.relates graph view link <;> simp [own, eq_comm]
  · simp [own]

/-- Of other relationships, a group adds those that place its representative. -/
theorem addedAt_eq_some_iff_of_ne {graph : UnifiedGraph} {view : View} {link : Link}
    (other : link.kind ≠ .overloadOf) {group : PlannedGroup} {mixins : Mixins} :
    addedAt graph view link group = some mixins ↔
      view.language = group.language ∧ link.source = group.identifier ∧
        link.kind.isStructural = true ∧
          Table.get? graph.edges (view, link.movedTo group.representative.identifier) =
            some mixins := by
  rw [addedAt, PlannedGroup.relates_eq_false other, if_neg Bool.false_ne_true]
  by_cases language : view.language = group.language
  · by_cases placed : link.source = group.identifier ∧ link.kind.isStructural = true
    · simp [language, placed]
    · simp only [if_pos language, if_neg placed, reduceCtorEq, false_iff]
      intro wanted
      exact placed ⟨wanted.2.1, wanted.2.2.1⟩
  · simp [language]

theorem mem_viewsIn {symbols : Table String UnifiedSymbol} {language identifier : String}
    {view : View} :
    view ∈ viewsIn symbols language identifier ↔
      view.language = language ∧ (facetIn symbols identifier view).isSome = true := by
  rw [viewsIn, facetIn]
  cases symbols.get? identifier with
  | none => simp
  | some symbol =>
    simp only [List.mem_filter, UnifiedSymbol.views, Table.mem_keys, decide_eq_true_eq,
      Option.bind_some]
    exact and_comm

/-- The relationships of members to their group bring no mixins. -/
theorem eq_empty_of_mem_mixinsUnder {group : PlannedGroup} {symbols : Table String UnifiedSymbol}
    {key : View × Link} {mixins : Mixins}
    (member : mixins ∈ EdgeTable.mixinsUnder key (membershipEdges group symbols)) :
    mixins = Table.empty := by
  obtain ⟨edge, within, shown⟩ := List.mem_filterMap.1 member
  obtain ⟨candidate, -, placed⟩ := List.mem_flatMap.1 within
  obtain ⟨view, -, rfl⟩ := List.mem_map.1 placed
  split at shown
  · exact (Option.some.inj shown).symm
  · cases shown

theorem mixinsUnder_membershipEdges_eq_nil {group : PlannedGroup} (sound : group.IsSound)
    (graph : UnifiedGraph) (view : View) (link : Link) :
    EdgeTable.mixinsUnder (view, link)
        (membershipEdges group (addGroupSymbol group graph.symbols)) = [] ↔
      ¬(view.language = group.language ∧ group.relates graph view link = true) := by
  have known : ∀ member ∈ group.members,
      facetIn (addGroupSymbol group graph.symbols) member.identifier view =
        graph.facetAt member.identifier view := by
    intro member within
    have other : member.identifier ≠ group.identifier :=
      ne_groupIdentifier (sound.plain member within) _
    rw [facetIn_addGroupSymbol, if_neg other]
  rw [EdgeTable.mixinsUnder, List.filterMap_eq_nil_iff, PlannedGroup.relates, List.any_eq_true]
  constructor
  · rintro absent ⟨language, member, within, related⟩
    obtain ⟨same, present⟩ := Bool.and_eq_true_iff.1 related
    have edge : (view, membership member.identifier group.identifier) ∈
        membershipEdges group (addGroupSymbol group graph.symbols) := by
      refine List.mem_flatMap.2 ⟨member, within, List.mem_map.2 ⟨view, ?_, rfl⟩⟩
      rw [mem_viewsIn, known member within]
      exact ⟨language, present⟩
    have shown := absent _ edge
    rw [if_pos (by rw [of_decide_eq_true same])] at shown
    cases shown
  · intro absent edge within
    obtain ⟨member, ofGroup, placed⟩ := List.mem_flatMap.1 within
    obtain ⟨other, inView, rfl⟩ := List.mem_map.1 placed
    rw [mem_viewsIn] at inView
    rw [if_neg]
    rintro ⟨rfl, rfl⟩
    rw [known member ofGroup] at inView
    exact absent ⟨inView.1, member, ofGroup, by simp [inView.2]⟩

/-- A group adds the relationships of its members in the views that know them. -/
theorem foldl_pile_membershipEdges {group : PlannedGroup} (sound : group.IsSound)
    (graph : UnifiedGraph) (view : View) (link : Link) (held : Option Mixins) :
    (EdgeTable.mixinsUnder (view, link)
        (membershipEdges group (addGroupSymbol group graph.symbols))).foldl EdgeTable.pile held =
      EdgeTable.join held (if view.language = group.language ∧
        group.relates graph view link = true then some Table.empty else none) := by
  have absent := mixinsUnder_membershipEdges_eq_nil sound graph view link
  have bare : ∀ mixins ∈ EdgeTable.mixinsUnder (view, link)
      (membershipEdges group (addGroupSymbol group graph.symbols)), mixins = Table.empty :=
    fun _ member => eq_empty_of_mem_mixinsUnder member
  rw [EdgeTable.foldl_pile_of_empty bare]
  by_cases related : view.language = group.language ∧ group.relates graph view link = true
  · have present := mt absent.1 (not_not_intro related)
    rw [if_pos related, List.isEmpty_eq_false_iff.2 present]
    rfl
  · rw [if_neg related, absent.2 related]
    rfl

/-- A group is placed where its representative is. -/
theorem mixinsUnder_structuralEdges (group : PlannedGroup) (edges : EdgeTable) (view : View)
    (link : Link) :
    EdgeTable.mixinsUnder (view, link) (structuralEdges group edges) =
      (if view.language = group.language ∧ link.source = group.identifier ∧
          link.kind.isStructural = true then
        Table.get? edges (view, link.movedTo group.representative.identifier)
      else none).toList := by
  have entrywise : ∀ entry : (View × Link) × Mixins,
      (if (decide (entry.1.1.language = group.language) &&
          placesSymbol group.representative.identifier (EdgeTable.relationshipOf entry)) = true then
        (if (view, link) = (entry.1.1, entry.1.2.movedTo group.identifier) then some entry.2
          else none)
        else none) =
      if view.language = group.language ∧ link.source = group.identifier ∧
          link.kind.isStructural = true then
        (if (view, link.movedTo group.representative.identifier) = entry.1 then some entry.2
          else none)
      else none := by
    rintro ⟨⟨other, held⟩, mixins⟩
    simp only [Bool.and_eq_true, decide_eq_true_eq, placesSymbol_iff, EdgeTable.relationshipOf,
      Prod.mk.injEq, ← ite_and]
    refine if_congr ?_ rfl rfl
    constructor
    · rintro ⟨⟨language, own⟩, rfl, moved⟩
      obtain ⟨copied, same⟩ := Link.eq_movedTo_iff.1 ⟨own, moved⟩
      exact ⟨⟨language, copied⟩, rfl, same⟩
    · rintro ⟨⟨language, copied⟩, rfl, same⟩
      obtain ⟨own, moved⟩ := Link.eq_movedTo_iff.2 ⟨copied, same⟩
      exact ⟨⟨language, own⟩, rfl, moved⟩
  rw [EdgeTable.mixinsUnder, structuralEdges, List.filterMap_map, List.filterMap_filter]
  refine (congrArg (List.filterMap · edges.entries) (funext entrywise)).trans ?_
  by_cases wanted : view.language = group.language ∧ link.source = group.identifier ∧
      link.kind.isStructural = true
  · simp only [if_pos wanted]
    have original := Table.filterMap_entries_at edges
      (view, link.movedTo group.representative.identifier) id
    rwa [Option.map_id] at original
  · simp only [if_neg wanted]
    rw [List.filterMap_eq_nil_iff.2 fun _ _ => rfl]
    rfl

/-- **What a group adds to the relationships.** -/
theorem get?_edges_addGroup {group : PlannedGroup} (sound : group.IsSound) (graph : UnifiedGraph)
    (view : View) (link : Link) :
    Table.get? (addGroup graph group).edges (view, link) =
      EdgeTable.join (Table.get? graph.edges (view, link)) (addedAt graph view link group) := by
  have run := EdgeTable.get?_insertEdges graph.edges
    (membershipEdges group (addGroupSymbol group graph.symbols) ++
      structuralEdges group graph.edges) (view, link)
  rw [EdgeTable.mixinsUnder_append, List.foldl_append, mixinsUnder_structuralEdges,
    foldl_pile_membershipEdges sound, EdgeTable.foldl_pile_toList] at run
  refine run.trans ?_
  rw [addedAt]
  by_cases language : view.language = group.language
  · cases related : group.relates graph view link with
    | false => simp [language]
    | true =>
      have unplaced : link.kind.isStructural = false := by
        rw [PlannedGroup.kind_of_relates related]
        rfl
      simp [language, unplaced]
  · simp [language]

/-! ## Symbols and groups -/

theorem contains_symbols_addGroup {group : PlannedGroup} (sound : group.IsSound)
    (graph : UnifiedGraph) (identifier : String) :
    (addGroup graph group).symbols.contains identifier = true ↔
      identifier = group.identifier ∨ graph.symbols.contains identifier = true := by
  have made : (addGroupSymbol group graph.symbols).contains identifier = true ↔
      identifier = group.identifier ∨ graph.symbols.contains identifier = true := by
    rw [Table.contains, addGroupSymbol, Table.get?_alter]
    by_cases own : identifier = group.identifier
    · rw [if_pos own]
      cases graph.symbols.get? group.identifier <;> simp [own]
    · rw [if_neg own]
      simp [own, Table.contains]
  rw [← made, addGroup, Table.contains, get?_placeMembers sound, Table.contains]
  cases group.position? identifier <;> simp

theorem contains_groups_addGroup (graph : UnifiedGraph) (group : PlannedGroup)
    (identifier : String) :
    (addGroup graph group).groups.contains identifier = true ↔
      identifier = group.identifier ∨ graph.groups.contains identifier = true :=
  KeySet.contains_add graph.groups group.identifier identifier

/-- The representative is known in some view of the group's language. -/
def PlannedGroup.IsKnown (group : PlannedGroup) (graph : UnifiedGraph) : Prop :=
  ∃ view facet, view.language = group.language ∧
    graph.facetAt group.representative.identifier view = some facet

end Overload

open Overload in
/-- Adding a group whose representative is known leaves a well-formed graph. -/
theorem UnifiedGraph.WellFormed.addGroup {graph : UnifiedGraph} (wellFormed : graph.WellFormed)
    {group : PlannedGroup} (sound : group.IsSound) (known : group.IsKnown graph) :
    (addGroup graph group).WellFormed where
  identifier_eq {identifier symbol} found := by
    have named : ∀ {held : UnifiedSymbol},
        (addGroupSymbol group graph.symbols).get? identifier = some held →
          held.identifier = identifier := by
      intro held present
      rw [addGroupSymbol, Table.get?_alter] at present
      split at present
      · next own =>
        subst own
        cases before : graph.symbols.get? group.identifier with
        | none =>
          rw [before] at present
          rw [← Option.some.inj present]
          rfl
        | some other =>
          rw [before] at present
          rw [← Option.some.inj present]
          exact (wellFormed.identifier_eq before : other.identifier = _)
      · exact wellFormed.identifier_eq present
    rw [Overload.addGroup, get?_placeMembers sound] at found
    cases position : group.position? identifier with
    | none =>
      rw [position] at found
      exact named found
    | some index =>
      rw [position] at found
      obtain ⟨held, present, placed⟩ := Option.map_eq_some_iff.1 found
      rw [← placed]
      exact (named present : held.identifier = _)
  known {identifier symbol} found := by
    have present : (Overload.addGroup graph group).symbols.contains identifier = true :=
      Table.contains_iff.2 ⟨symbol, found⟩
    rw [UnifiedSymbol.isEmpty_eq_false_iff]
    by_cases own : identifier = group.identifier
    · subst own
      obtain ⟨view, facet, language, shown⟩ := known
      have made := facetAt_addGroup_self sound graph view
      rw [if_pos language, shown, UnifiedGraph.facetAt, facetIn_of_get? found] at made
      refine ⟨view, Option.isSome_iff_exists.1 ?_⟩
      rw [made, Option.isSome_merge, Option.map_some, Option.isSome_some, Bool.or_true]
    · obtain ⟨view, facet, shown⟩ := wellFormed.contains_iff.1
        (((contains_symbols_addGroup sound graph identifier).1 present).resolve_left own)
      have kept := facetAt_addGroup sound graph own view
      rw [shown, UnifiedGraph.facetAt, facetIn_of_get? found] at kept
      exact ⟨view, _, kept⟩
  groups_iff identifier := by
    rw [contains_groups_addGroup, contains_symbols_addGroup sound, wellFormed.groups_iff]
    constructor
    · rintro (rfl | ⟨present, suffixed⟩)
      · exact ⟨.inl rfl, group.isGroupIdentifier_identifier⟩
      · exact ⟨.inr present, suffixed⟩
    · rintro ⟨rfl | present, suffixed⟩
      · exact .inl rfl
      · exact .inr ⟨present, suffixed⟩

end ApiAtlas
