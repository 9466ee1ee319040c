import ApiAtlas.Proofs.Overload.Adding
import Mathlib.Data.List.Basic

/-!
# Adding the groups of a plan

The groups of a plan are added one after the other. Members are no groups, and
within one language no symbol is a member of two groups (`IsPlan`). So adding
one group does not change what another one reads, and after all have been added
every symbol has the place that one group gives it (`facetAt_addGroups`), every
group has what its representative knows (`facetAt_addGroups_group`), and every
relationship is joined by what one group adds (`get?_edges_addGroups`).
-/

set_option autoImplicit false

namespace ApiAtlas.Overload

/-- No symbol is a member of both groups if they are of one language. -/
def PlannedGroup.Apart (first second : PlannedGroup) : Prop :=
  first.language = second.language →
    ∀ one ∈ first.members, ∀ other ∈ second.members, one.identifier ≠ other.identifier

/-- Groups that can be added one after the other. -/
structure IsPlan (groups : List PlannedGroup) : Prop where
  sound : ∀ group ∈ groups, group.IsSound
  apart : groups.Pairwise PlannedGroup.Apart

theorem IsPlan.tail {group : PlannedGroup} {rest : List PlannedGroup}
    (plan : IsPlan (group :: rest)) : IsPlan rest :=
  ⟨fun other member => plan.sound other (List.mem_cons_of_mem _ member),
    (List.pairwise_cons.1 plan.apart).2⟩

/-- The first group of a plan is sound. -/
theorem IsPlan.sound_head {group : PlannedGroup} {rest : List PlannedGroup}
    (plan : IsPlan (group :: rest)) : group.IsSound :=
  plan.sound group (List.mem_cons_self ..)

/-- The first group of a plan is apart from all others. -/
theorem IsPlan.apart_head {group : PlannedGroup} {rest : List PlannedGroup}
    (plan : IsPlan (group :: rest)) : ∀ other ∈ rest, group.Apart other :=
  (List.pairwise_cons.1 plan.apart).1

namespace PlannedGroup

/-- Groups of one language that are apart have different identifiers. -/
theorem Apart.identifier_ne {first second : PlannedGroup} (apart : first.Apart second)
    (language : first.language = second.language) : first.identifier ≠ second.identifier :=
  fun same => apart language _ first.representative_mem _ second.representative_mem
    (groupIdentifier_injective same)

/-- Of groups that are apart one at most has a place for a symbol in a view. -/
theorem Apart.place?_eq_none {first second : PlannedGroup} (apart : first.Apart second)
    {view : View} {identifier : String} {place : Mixin}
    (placed : first.place? view identifier = some place) :
    second.place? view identifier = none := by
  cases other : second.place? view identifier with
  | none => rfl
  | some held =>
    obtain ⟨language, one, within, own⟩ := exists_of_place? placed
    obtain ⟨shared, member, present, same⟩ := exists_of_place? other
    exact absurd (own.trans same.symm)
      (apart (language.symm.trans shared) one within member present)

/-- A group reads the same of its members' views after another one has been added. -/
theorem relates_addGroup {first second : PlannedGroup} (ofFirst : first.IsSound)
    (ofSecond : second.IsSound) (graph : UnifiedGraph) (view : View) (link : Link) :
    second.relates (addGroup graph first) view link = second.relates graph view link := by
  rw [relates, relates, Bool.eq_iff_iff, List.any_eq_true, List.any_eq_true]
  refine exists_congr fun member => and_congr_right fun within => ?_
  rw [facetAt_addGroup ofFirst graph (ne_groupIdentifier (ofSecond.plain member within) _),
    Option.isSome_map]

end PlannedGroup

/-- A group adds the same relationships after another one has been added. -/
theorem addedAt_addGroup {first second : PlannedGroup} (ofFirst : first.IsSound)
    (ofSecond : second.IsSound) (graph : UnifiedGraph) (view : View) (link : Link) :
    addedAt (addGroup graph first) view link second = addedAt graph view link second := by
  rw [addedAt, addedAt, PlannedGroup.relates_addGroup ofFirst ofSecond]
  by_cases copied : link.source = second.identifier ∧ link.kind.isStructural = true
  · have plain := ofSecond.plain _ second.representative_mem
    have nothing : addedAt graph view (link.movedTo second.representative.identifier) first =
        none := by
      refine addedAt_eq_none (PlannedGroup.relates_eq_false (fun kind => ?_) first view)
        fun wanted => ne_groupIdentifier plain _ wanted.1
      rw [Link.kind_movedTo] at kind
      rw [kind] at copied
      cases copied.2
    have original : Table.get? (addGroup graph first).edges
          (view, link.movedTo second.representative.identifier) =
        Table.get? graph.edges (view, link.movedTo second.representative.identifier) := by
      rw [get?_edges_addGroup ofFirst, nothing]
      exact Option.merge_none_right
    rw [original]
  · rw [if_neg copied, if_neg copied]

/-- Of groups that are apart one at most adds a relationship in a view. -/
theorem PlannedGroup.Apart.addedAt_eq_none {first second : PlannedGroup}
    (apart : first.Apart second) {graph : UnifiedGraph} {view : View} {link : Link}
    {mixins : Mixins} (added : addedAt graph view link first = some mixins) :
    addedAt graph view link second = none := by
  cases other : addedAt graph view link second with
  | none => rfl
  | some others =>
    obtain ⟨language, one⟩ := touches_of_addedAt added
    obtain ⟨shared, another⟩ := touches_of_addedAt other
    have differ := apart.identifier_ne (language.symm.trans shared)
    rcases one with ⟨kind, target⟩ | ⟨structural, source⟩
    · rcases another with ⟨-, same⟩ | ⟨structural, -⟩
      · exact absurd (target.symm.trans same) differ
      · rw [kind] at structural
        cases structural
    · rcases another with ⟨kind, -⟩ | ⟨-, same⟩
      · rw [kind] at structural
        cases structural
      · exact absurd (source.symm.trans same) differ

/-! ## Runs -/

section Runs

variable {groups : List PlannedGroup}

/-- Of the groups of a plan the first that gives something is the only one. -/
theorem findSome?_cons_of_apart {α : Type} {group : PlannedGroup} {rest : List PlannedGroup}
    (given : PlannedGroup → Option α)
    (alone : ∀ found, given group = some found → ∀ other ∈ rest, given other = none) :
    (group :: rest).findSome? given = (given group).or (rest.findSome? given) ∧
      ((given group).isSome = true → rest.findSome? given = none) := by
  rw [List.findSome?_cons]
  cases own : given group with
  | none => exact ⟨rfl, fun some => by cases some⟩
  | some found => exact ⟨rfl, fun _ => List.findSome?_eq_none_iff.2 (alone found own)⟩

/-- If each thing is given by one group at most, it is found at whichever group gives it. -/
theorem findSome?_eq_some_iff_of_alone {α : Type} (given : PlannedGroup → Option α)
    (alone : groups.Pairwise fun first second =>
      ∀ found, given first = some found → given second = none) {found : α} :
    groups.findSome? given = some found ↔ ∃ group ∈ groups, given group = some found := by
  induction groups with
  | nil => simp
  | cons group rest ih =>
    obtain ⟨apart, others⟩ := List.pairwise_cons.1 alone
    simp only [List.findSome?_cons, List.mem_cons, exists_eq_or_imp]
    cases own : given group with
    | none => simp only [ih others, reduceCtorEq, false_or]
    | some held =>
      constructor
      · exact .inl
      · rintro (same | ⟨other, member, shown⟩)
        · exact same
        · rw [apart other member held own] at shown
          cases shown

/-- The groups of a plan give a symbol one place at most in a view. -/
theorem IsPlan.place?_alone (plan : IsPlan groups) (view : View) (identifier : String) :
    groups.Pairwise fun first second => ∀ place,
      first.place? view identifier = some place → second.place? view identifier = none :=
  plan.apart.imp fun apart _ placed => apart.place?_eq_none placed

/-- The groups of a plan add a relationship once at most in a view. -/
theorem IsPlan.addedAt_alone (plan : IsPlan groups) (graph : UnifiedGraph) (view : View)
    (link : Link) :
    groups.Pairwise fun first second => ∀ mixins,
      addedAt graph view link first = some mixins → addedAt graph view link second = none :=
  plan.apart.imp fun apart _ added => apart.addedAt_eq_none added

/-- What a plan adds at a place is what one of its groups adds there. -/
theorem findSome?_addedAt_eq_some_iff (plan : IsPlan groups) {graph : UnifiedGraph} {view : View}
    {link : Link} {mixins : Mixins} :
    groups.findSome? (addedAt graph view link) = some mixins ↔
      ∃ group ∈ groups, addedAt graph view link group = some mixins :=
  findSome?_eq_some_iff_of_alone _ (plan.addedAt_alone graph view link)

/-- Two plans find the same if, of the groups that give something, they have the same. -/
theorem findSome?_congr_of_alone {α : Type} {others : List PlannedGroup}
    (given : PlannedGroup → Option α)
    (alone : groups.Pairwise fun first second =>
      ∀ found, given first = some found → given second = none)
    (aloneToo : others.Pairwise fun first second =>
      ∀ found, given first = some found → given second = none)
    (same : ∀ group found, given group = some found → (group ∈ groups ↔ group ∈ others)) :
    groups.findSome? given = others.findSome? given := by
  apply Option.ext
  intro found
  rw [findSome?_eq_some_iff_of_alone given alone, findSome?_eq_some_iff_of_alone given aloneToo]
  exact exists_congr fun group => and_congr_left fun gives => same group found gives

/-- **What is known of a symbol once all groups have been added**: the same as before, with the
place that one of the groups gives it. -/
theorem facetAt_addGroups (plan : IsPlan groups) (graph : UnifiedGraph) {identifier : String}
    (plain : isGroupIdentifier identifier = false) (view : View) :
    (groups.foldl addGroup graph).facetAt identifier view =
      (graph.facetAt identifier view).map
        (·.withPlace (groups.findSome? (·.place? view identifier))) := by
  induction groups generalizing graph with
  | nil =>
    rw [List.foldl_nil]
    cases graph.facetAt identifier view <;> rfl
  | cons group rest ih =>
    obtain ⟨first, alone⟩ := findSome?_cons_of_apart (·.place? view identifier)
      fun place placed other member => (plan.apart_head other member).place?_eq_none placed
    rw [List.foldl_cons, ih plan.tail, facetAt_addGroup plan.sound_head graph
      (ne_groupIdentifier plain _), Option.map_map, first]
    cases placed : group.place? view identifier with
    | none => rfl
    | some place =>
      rw [alone (by rw [placed]; rfl)]
      rfl

/-- The group of a plan with an identifier and a language. -/
def groupIn? (groups : List PlannedGroup) (identifier language : String) : Option PlannedGroup :=
  groups.find? fun group => group.identifier = identifier && group.language = language

/-- A plan has one group at most with an identifier and a language. -/
theorem IsPlan.groupIn?_eq_some_iff (plan : IsPlan groups) {identifier language : String}
    {group : PlannedGroup} :
    groupIn? groups identifier language = some group ↔
      group ∈ groups ∧ group.identifier = identifier ∧ group.language = language := by
  have alone : groups.Pairwise fun first second => ∀ found,
      Option.guard (fun group : PlannedGroup => group.identifier = identifier &&
        group.language = language) first = some found →
      Option.guard (fun group : PlannedGroup => group.identifier = identifier &&
        group.language = language) second = none := by
    refine plan.apart.imp fun {first second} apart found shown => ?_
    simp only [Option.guard_eq_some_iff, Option.guard_eq_none_iff, Bool.and_eq_true,
      decide_eq_true_eq, Bool.and_eq_false_iff, decide_eq_false_iff_not] at shown ⊢
    obtain ⟨-, same, shared⟩ := shown
    by_cases tongue : second.language = language
    · exact .inl fun alike =>
        apart.identifier_ne (shared.trans tongue.symm) (same.trans alike.symm)
    · exact .inr tongue
  rw [groupIn?, List.find?_eq_findSome?_guard, findSome?_eq_some_iff_of_alone _ alone]
  simp only [Option.guard_eq_some_iff, Bool.and_eq_true, decide_eq_true_eq]
  constructor
  · rintro ⟨_, member, rfl, named⟩
    exact ⟨member, named⟩
  · rintro ⟨member, named⟩
    exact ⟨group, member, rfl, named⟩

/-- Nothing is known yet of the groups in their languages. -/
def AreFresh (groups : List PlannedGroup) (graph : UnifiedGraph) : Prop :=
  ∀ group ∈ groups, ∀ view : View, view.language = group.language →
    graph.facetAt group.identifier view = none

/-- Groups that come later are still unknown once the first has been added. -/
theorem AreFresh.addGroup {group : PlannedGroup} {rest : List PlannedGroup} {graph : UnifiedGraph}
    (fresh : AreFresh (group :: rest) graph) (plan : IsPlan (group :: rest)) :
    AreFresh rest (addGroup graph group) := by
  intro other member view language
  have before := fresh other (List.mem_cons_of_mem _ member) view language
  by_cases same : other.identifier = group.identifier
  · have differs : view.language ≠ group.language := fun shared =>
      (plan.apart_head other member).identifier_ne (shared.symm.trans language) same.symm
    rw [same] at before
    rw [same, facetAt_addGroup_self plan.sound_head, before, if_neg differs]
    rfl
  · rw [facetAt_addGroup plan.sound_head graph same, before, Option.map_none]

/-- No later group of a plan has the identifier and the language of the first. -/
theorem IsPlan.groupIn?_eq_none {group : PlannedGroup} {rest : List PlannedGroup}
    (plan : IsPlan (group :: rest)) : groupIn? rest group.identifier group.language = none := by
  rw [groupIn?, List.find?_eq_none]
  intro other member shown
  obtain ⟨same, shared⟩ := Bool.and_eq_true_iff.1 shown
  exact (plan.apart_head other member).identifier_ne (of_decide_eq_true shared).symm
    (of_decide_eq_true same).symm

/-- **What is known of a group once all groups have been added**: in its language what it has from
its representative, if nothing was known of it before. -/
theorem facetAt_addGroups_group (plan : IsPlan groups) (graph : UnifiedGraph)
    (fresh : AreFresh groups graph) {identifier : String}
    (isGroup : isGroupIdentifier identifier = true) (view : View) :
    (groups.foldl addGroup graph).facetAt identifier view =
      match groupIn? groups identifier view.language with
      | none => graph.facetAt identifier view
      | some group => (graph.facetAt group.representative.identifier view).map groupFacet := by
  induction groups generalizing graph with
  | nil => rfl
  | cons group rest ih =>
    have sound := plan.sound_head
    have unplaced : group.place? view identifier = none := by
      rw [PlannedGroup.place?, sound.position?_eq_none isGroup, Option.map_none, ite_self]
    rw [List.foldl_cons, ih plan.tail _ (fresh.addGroup plan)]
    by_cases own : group.identifier = identifier ∧ group.language = view.language
    · obtain ⟨rfl, language⟩ := own
      have here : groupIn? (group :: rest) group.identifier view.language = some group :=
        List.find?_cons_of_pos (by simp [language])
      rw [here, ← language, plan.groupIn?_eq_none]
      refine (facetAt_addGroup_self sound graph view).trans ?_
      rw [fresh group (List.mem_cons_self ..) view language.symm, if_pos language.symm]
      exact Option.merge_none_left
    · have passed : groupIn? (group :: rest) identifier view.language =
          groupIn? rest identifier view.language :=
        List.find?_cons_of_neg (by simpa using own)
      rw [passed]
      cases found : groupIn? rest identifier view.language with
      | none =>
        by_cases same : identifier = group.identifier
        · subst same
          have differs : view.language ≠ group.language := fun shared => own ⟨rfl, shared.symm⟩
          refine (facetAt_addGroup_self sound graph view).trans ?_
          rw [if_neg differs]
          exact Option.merge_none_right
        · refine (facetAt_addGroup sound graph same view).trans ?_
          rw [unplaced]
          exact Option.map_id_apply
      | some other =>
        have plain := (plan.tail.sound other (List.mem_of_find?_eq_some found)).plain _
          other.representative_mem
        simp only [facetAt_addGroup sound graph (ne_groupIdentifier plain _), Option.map_map]
        refine congrArg (Option.map · _) (funext fun facet => ?_)
        exact groupFacet_withPlace facet _

/-- **What is recorded once all groups have been added**: what was recorded before, joined by what
one of the groups adds. -/
theorem get?_edges_addGroups (plan : IsPlan groups) (graph : UnifiedGraph) (view : View)
    (link : Link) :
    Table.get? (groups.foldl addGroup graph).edges (view, link) =
      EdgeTable.join (Table.get? graph.edges (view, link))
        (groups.findSome? (addedAt graph view link)) := by
  induction groups generalizing graph with
  | nil => exact Option.merge_none_right.symm
  | cons group rest ih =>
    have sound := plan.sound_head
    obtain ⟨first, alone⟩ := findSome?_cons_of_apart (addedAt graph view link)
      fun mixins added other member => (plan.apart_head other member).addedAt_eq_none added
    have unchanged : rest.findSome? (addedAt (addGroup graph group) view link) =
        rest.findSome? (addedAt graph view link) := by
      rw [← List.head?_filterMap, ← List.head?_filterMap]
      refine congrArg List.head? (List.filterMap_congr fun other member => ?_)
      exact addedAt_addGroup sound (plan.tail.sound other member) graph view link
    rw [List.foldl_cons, ih plan.tail, unchanged, get?_edges_addGroup sound, first]
    cases added : addedAt graph view link group with
    | none => exact congrArg (EdgeTable.join · _) Option.merge_none_right
    | some mixins =>
      rw [alone (by rw [added]; rfl)]
      exact Option.merge_none_right

/-- The groups of a plan add nothing that leads from a symbol that is no group, but for the
relationships of members. -/
theorem findSome?_addedAt_eq_none (groups : List PlannedGroup) (graph : UnifiedGraph) {link : Link}
    (kind : link.kind ≠ .overloadOf) (source : isGroupIdentifier link.source = false)
    (view : View) : groups.findSome? (addedAt graph view link) = none := by
  rw [List.findSome?_eq_none_iff]
  intro group _
  apply addedAt_eq_none (PlannedGroup.relates_eq_false kind group view)
  exact fun placed => ne_groupIdentifier source _ placed.1

/-- The groups once all have been added. -/
theorem contains_groups_addGroups (groups : List PlannedGroup) (graph : UnifiedGraph)
    (identifier : String) :
    (groups.foldl addGroup graph).groups.contains identifier = true ↔
      (∃ group ∈ groups, identifier = group.identifier) ∨
        graph.groups.contains identifier = true := by
  induction groups generalizing graph with
  | nil => simp
  | cons group rest ih =>
    rw [List.foldl_cons, ih, contains_groups_addGroup]
    simp only [List.mem_cons, exists_eq_or_imp]
    exact or_left_comm.trans or_assoc.symm

/-- A representative is known after another group has been added if it was before. -/
theorem PlannedGroup.IsKnown.addGroup {first second : PlannedGroup} (ofFirst : first.IsSound)
    (ofSecond : second.IsSound) {graph : UnifiedGraph} (known : second.IsKnown graph) :
    second.IsKnown (addGroup graph first) := by
  obtain ⟨view, facet, language, shown⟩ := known
  have plain := ofSecond.plain _ second.representative_mem
  refine ⟨view, facet.withPlace (first.place? view second.representative.identifier), language, ?_⟩
  rw [facetAt_addGroup ofFirst graph (ne_groupIdentifier plain _), shown]
  rfl

/-- Adding the groups of a plan whose representatives are known leaves a well-formed graph. -/
theorem wellFormed_addGroups {graph : UnifiedGraph} (wellFormed : graph.WellFormed)
    (plan : IsPlan groups) (known : ∀ group ∈ groups, group.IsKnown graph) :
    (groups.foldl addGroup graph).WellFormed := by
  induction groups generalizing graph with
  | nil => exact wellFormed
  | cons group rest ih =>
    refine ih (wellFormed.addGroup plan.sound_head (known group (List.mem_cons_self ..)))
      plan.tail fun other member => ?_
    exact (known other (List.mem_cons_of_mem _ member)).addGroup plan.sound_head
      (plan.tail.sound other member)

end Runs

end ApiAtlas.Overload
