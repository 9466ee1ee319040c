import ApiAtlas.Proofs.Overload.GraphFamilies
import ApiAtlas.Proofs.Overload.Untouched

/-!
# Scopes compose

Grouping the languages of one scope and then those of another one comes to the
same as grouping the languages of both at once (`groupUnified_union`), also
where the scopes overlap. So the order of the two does not matter.

The second grouping has to take groups apart that the first one made: a group
is one symbol in all languages that share its representative. What a grouping
leaves in a view is decided, however, by what the languages say of symbols that
are no groups and by the relationships that the removal leaves in this view
(`alikeIn_groupUnified`). The first grouping changes neither, if every
relationship that refers to a group refers to one that is known, so that the
second removal finds it (`groupEndsAreKnown_groupUnified`).

It is here that graphs must not mention groups to begin with. A relationship to
a group to be outlives the first removal but not the second
(`groupUnified_again_ne_dangling`).
-/

set_option autoImplicit false

namespace ApiAtlas

namespace Overload

/-! ## Unions of scopes -/

/-- The languages of either scope. -/
def Scope.union : Scope → Scope → Scope
  | some first, some second => some (Table.union first second)
  | none, _ => none
  | some _, none => none

theorem Scope.includes_union (first second : Scope) (language : String) :
    (first.union second).includes language =
      (first.includes language || second.includes language) := by
  cases first with
  | none => rfl
  | some languages =>
    cases second with
    | none => exact (Bool.or_true _).symm
    | some others =>
      show (Table.union languages others).contains language = _
      rw [Table.contains, Table.get?_union, Option.isSome_or, Bool.or_comm]
      rfl

theorem Scope.union_comm (first second : Scope) : first.union second = second.union first := by
  cases first with
  | none => cases second <;> rfl
  | some languages =>
    cases second with
    | none => rfl
    | some others =>
      refine congrArg some (KeySet.ext_contains fun language => ?_)
      rw [Table.contains, Table.get?_union, Option.isSome_or, Table.contains, Table.get?_union,
        Option.isSome_or, Bool.or_comm]

/-! ## What decides a grouping in a view -/

section Alike

variable {first second : UnifiedGraph} {one other : Scope} {view : View}

/-- Graphs that say the same in a language plan the same groups for it. -/
theorem mem_groupsOf_iff_of_alike {language : String} (alike : ReadAlike language first second)
    (inFirst : one.includes language = true) (inSecond : other.includes language = true)
    {group : PlannedGroup} (own : group.language = language) :
    group ∈ groupsOf one first ↔ group ∈ groupsOf other second := by
  have pruned : ReadAlike language (pruneUnified one first) (pruneUnified other second) :=
    (readAlike_pruneUnified alike.ofFirst one language).symm.trans
      (alike.trans (readAlike_pruneUnified alike.ofSecond other language))
  rw [groupsOf, groupsOf, mem_plan_iff pruned.ofFirst, mem_plan_iff pruned.ofSecond, own, inFirst,
    inSecond]
  refine and_congr_right fun _ => and_congr_right fun _ => exists_congr fun kind => ?_
  exact pruned.ranking_iff rfl

/-- A group adds the same in a view to graphs that are alike there. -/
theorem addedAt_congr (alike : UnifiedGraph.AlikeIn view first second) (link : Link)
    (group : PlannedGroup) : addedAt first view link group = addedAt second view link group := by
  have relates : group.relates first view link = group.relates second view link := by
    simp only [PlannedGroup.relates, alike.facets]
  rw [addedAt, addedAt, relates, alike.edges]

section Language

variable (alike : ReadAlike view.language first second)
  (inFirst : one.includes view.language = true) (inSecond : other.includes view.language = true)

include alike inFirst inSecond

/-- What a grouping makes known in a view is decided by what its language says of symbols that are
no groups. -/
theorem facetAt_groupUnified_congr (identifier : String) :
    (groupUnified one first).facetAt identifier view =
      (groupUnified other second).facetAt identifier view := by
  have facets := facetAt_pruneUnified_congr alike inFirst inSecond
  have plan := isPlan_groupsOf alike.ofFirst one
  have planToo := isPlan_groupsOf alike.ofSecond other
  cases isGroup : isGroupIdentifier identifier with
  | true =>
    have found : groupIn? (groupsOf one first) identifier view.language =
        groupIn? (groupsOf other second) identifier view.language := by
      apply Option.ext
      intro group
      rw [plan.groupIn?_eq_some_iff, planToo.groupIn?_eq_some_iff]
      exact and_congr_left fun named => mem_groupsOf_iff_of_alike alike inFirst inSecond named.2
    rw [facetAt_groupUnified_group alike.ofFirst inFirst isGroup,
      facetAt_groupUnified_group alike.ofSecond inSecond isGroup, found]
    exact congrArg _ (funext fun group => by rw [facets])
  | false =>
    have places : (groupsOf one first).findSome? (·.place? view identifier) =
        (groupsOf other second).findSome? (·.place? view identifier) := by
      apply findSome?_congr_of_alone _ (plan.place?_alone view identifier)
        (planToo.place?_alone view identifier)
      intro group place placed
      have own := (PlannedGroup.exists_of_place? placed).1
      exact mem_groupsOf_iff_of_alike alike inFirst inSecond own.symm
    rw [facetAt_groupUnified_plain alike.ofFirst isGroup,
      facetAt_groupUnified_plain alike.ofSecond isGroup, facets, places]

/-- **What a grouping leaves in a view is decided by what its language says of symbols that are no
groups, and by the relationships that the removal leaves in the view.** -/
theorem alikeIn_groupUnified
    (edges : ∀ link, Table.get? (pruneUnified one first).edges (view, link) =
      Table.get? (pruneUnified other second).edges (view, link)) :
    UnifiedGraph.AlikeIn view (groupUnified one first) (groupUnified other second) := by
  have plan := isPlan_groupsOf alike.ofFirst one
  have planToo := isPlan_groupsOf alike.ofSecond other
  have removed : UnifiedGraph.AlikeIn view (pruneUnified one first) (pruneUnified other second) :=
    ⟨facetAt_pruneUnified_congr alike inFirst inSecond, edges⟩
  refine ⟨facetAt_groupUnified_congr alike inFirst inSecond, fun link => ?_⟩
  have additions :
      (groupsOf one first).findSome? (addedAt (pruneUnified one first) view link) =
        (groupsOf other second).findSome? (addedAt (pruneUnified other second) view link) := by
    rw [funext (addedAt_congr removed link)]
    apply findSome?_congr_of_alone _ (plan.addedAt_alone _ view link)
      (planToo.addedAt_alone _ view link)
    intro group mixins added
    have own := (touches_of_addedAt added).1
    exact mem_groupsOf_iff_of_alike alike inFirst inSecond own.symm
  rw [get?_edges_groupUnified alike.ofFirst, get?_edges_groupUnified alike.ofSecond, edges,
    additions]

end Language

end Alike

/-! ## Relationships that refer to groups -/

variable {graph : UnifiedGraph}

/-- No relationship refers to a group. -/
def RefersToNoGroup (graph : UnifiedGraph) : Prop :=
  ∀ view link mixins, Table.get? graph.edges (view, link) = some mixins →
    isGroupIdentifier link.source = false ∧ isGroupIdentifier link.target = false

/-- Every relationship that refers to a group refers to one of the graph. -/
def GroupEndsAreKnown (graph : UnifiedGraph) : Prop :=
  ∀ view link mixins, Table.get? graph.edges (view, link) = some mixins →
    (isGroupIdentifier link.source = true → graph.groups.contains link.source = true) ∧
      (isGroupIdentifier link.target = true → graph.groups.contains link.target = true)

/-- A graph that refers to no group refers to none that is unknown. -/
theorem RefersToNoGroup.groupEndsAreKnown (bare : RefersToNoGroup graph) :
    GroupEndsAreKnown graph := by
  intro view link mixins recorded
  obtain ⟨source, target⟩ := bare view link mixins recorded
  rw [source, target]
  exact ⟨nofun, nofun⟩

/-- The removal leaves of a graph's relationships those that do not concern groups, if the groups to
which they refer are known. -/
theorem get?_edges_pruneUnified_of_known (wellFormed : graph.WellFormed)
    (known : GroupEndsAreKnown graph) {scope : Scope} {view : View}
    (included : scope.includes view.language = true) (link : Link) :
    Table.get? (pruneUnified scope graph).edges (view, link) =
      if link.concernsGroups then none else Table.get? graph.edges (view, link) := by
  cases concerns : link.concernsGroups with
  | false =>
    rw [if_neg Bool.false_ne_true]
    exact get?_edges_pruneUnified_of_plain wellFormed concerns view
  | true =>
    rw [if_pos rfl]
    cases recorded : Table.get? graph.edges (view, link) with
    | none => rw [get?_edges_pruneUnified, recorded, ite_self]
    | some mixins =>
      obtain ⟨source, target⟩ := known view link mixins recorded
      refine get?_edges_pruneUnified_eq_none included ?_
      exact (Link.concernsGroups_iff.1 concerns).imp_right (Or.imp source target)

/-- **The groups to which relationships refer after a grouping are known, if no relationship
referred to a group before.** -/
theorem groupEndsAreKnown_groupUnified (wellFormed : graph.WellFormed)
    (bare : RefersToNoGroup graph) (scope : Scope) :
    GroupEndsAreKnown (groupUnified scope graph) := by
  have plan := isPlan_groupsOf wellFormed scope
  -- The removal adds nothing, so what it leaves refers to no group either.
  have left : RefersToNoGroup (pruneUnified scope graph) := by
    intro view link mixins recorded
    rw [get?_edges_pruneUnified] at recorded
    split at recorded
    · cases recorded
    · exact bare view link mixins recorded
  have present : ∀ group ∈ groupsOf scope graph,
      (groupUnified scope graph).groups.contains group.identifier = true :=
    fun group member => (contains_groups_groupUnified ..).2 (.inl ⟨group, member, rfl⟩)
  intro view link mixins recorded
  cases before : Table.get? (pruneUnified scope graph).edges (view, link) with
  | some held =>
    obtain ⟨source, target⟩ := left view link held before
    rw [source, target]
    exact ⟨nofun, nofun⟩
  | none =>
    rw [get?_edges_groupUnified wellFormed, before, EdgeTable.join, Option.merge_none_left,
      findSome?_addedAt_eq_some_iff plan] at recorded
    obtain ⟨group, member, added⟩ := recorded
    by_cases kind : link.kind = .overloadOf
    · obtain ⟨-, -, one, within, rfl, -⟩ := (addedAt_eq_some_iff kind).1 added
      have plain : isGroupIdentifier one.identifier = false :=
        (plan.sound group member).plain one within
      constructor
      · intro isGroup
        exact absurd isGroup (Bool.eq_false_iff.1 plain)
      · intro _
        exact present group member
    · obtain ⟨-, own, -, original⟩ := (addedAt_eq_some_iff_of_ne kind).1 added
      have plain : isGroupIdentifier link.target = false :=
        (left view _ mixins original).2
      rw [own, plain]
      exact ⟨fun _ => present group member, nofun⟩

/-! ## Two groupings -/

/-- In every view, two groupings leave what one grouping of both scopes leaves. -/
theorem alikeIn_groupUnified_union (wellFormed : graph.WellFormed) (bare : RefersToNoGroup graph)
    (first second : Scope) (view : View) :
    UnifiedGraph.AlikeIn view (groupUnified second (groupUnified first graph))
      (groupUnified (first.union second) graph) := by
  have grouped := wellFormed_groupUnified wellFormed first
  have both := Scope.includes_union first second view.language
  -- The second grouping decides the views of its languages, whatever the first one left there; in
  -- the other views it leaves what the first one decided.
  cases inSecond : second.includes view.language with
  | true =>
    rw [inSecond, Bool.or_true] at both
    have known := groupEndsAreKnown_groupUnified wellFormed bare first
    apply alikeIn_groupUnified (readAlike_groupUnified wellFormed first view.language).symm
      inSecond both
    intro link
    rw [get?_edges_pruneUnified_of_known grouped known inSecond,
      get?_edges_pruneUnified_of_known wellFormed bare.groupEndsAreKnown both]
    cases concerns : link.concernsGroups with
    | true => rfl
    | false => exact get?_edges_groupUnified_of_plain wellFormed concerns view
  | false =>
    rw [inSecond, Bool.or_false] at both
    refine (alikeIn_groupUnified_of_outside grouped inSecond).trans ?_
    cases inFirst : first.includes view.language with
    | true =>
      apply alikeIn_groupUnified (.refl wellFormed _) inFirst (both.trans inFirst)
      intro link
      rw [get?_edges_pruneUnified_of_known wellFormed bare.groupEndsAreKnown inFirst,
        get?_edges_pruneUnified_of_known wellFormed bare.groupEndsAreKnown (both.trans inFirst)]
    | false =>
      exact (alikeIn_groupUnified_of_outside wellFormed inFirst).trans
        (alikeIn_groupUnified_of_outside wellFormed (both.trans inFirst)).symm

/-- Two groupings of a graph that refers to no group are one grouping of both scopes. -/
theorem groupUnified_groupUnified_eq_union (wellFormed : graph.WellFormed)
    (bare : RefersToNoGroup graph) (first second : Scope) :
    groupUnified second (groupUnified first graph) =
      groupUnified (first.union second) graph := by
  have alike := alikeIn_groupUnified_union wellFormed bare first second
  obtain ⟨moduleName, sources, orphans⟩ := frame_groupUnified first graph
  obtain ⟨moduleName', sources', orphans'⟩ := frame_groupUnified second (groupUnified first graph)
  obtain ⟨unitedName, unitedSources, unitedOrphans⟩ :=
    frame_groupUnified (first.union second) graph
  apply (wellFormed_groupUnified (wellFormed_groupUnified wellFormed first) second).ext
    (wellFormed_groupUnified wellFormed (first.union second))
  · exact (moduleName'.trans moduleName).trans unitedName.symm
  · exact (sources'.trans sources).trans unitedSources.symm
  · exact fun identifier view => (alike view).facets identifier
  · refine Table.ext_get? fun place => ?_
    obtain ⟨view, link⟩ := place
    exact (alike view).edges link
  · exact (orphans'.trans orphans).trans unitedOrphans.symm

/-- Graphs that mention no group are unified to one that refers to none. -/
theorem refersToNoGroup_mergeAll (moduleName : String) {arrivals : List Arrival}
    (ungrouped : ∀ arrival ∈ arrivals, arrival.graph.IsUngrouped) :
    RefersToNoGroup ((UnifiedGraph.empty moduleName).mergeAll arrivals) := by
  intro view link mixins recorded
  obtain ⟨arrival, member, brought⟩ :=
    (UnifiedGraph.exists_edges_mergeAll moduleName).1 ⟨mixins, recorded⟩
  obtain ⟨-, relationship, declared, rfl⟩ := SymbolGraph.exists_recorded_iff.1 brought
  exact (ungrouped arrival member).ends relationship declared

/-- **Scopes compose**: to group graphs that mention no group in the languages of one scope, and
then in those of another one, is to group them once in the languages of both. -/
theorem groupUnified_union (moduleName : String) {arrivals : List Arrival}
    (ungrouped : ∀ arrival ∈ arrivals, arrival.graph.IsUngrouped) (first second : Scope) :
    groupUnified second
          (groupUnified first ((UnifiedGraph.empty moduleName).mergeAll arrivals)) =
        groupUnified (first.union second) ((UnifiedGraph.empty moduleName).mergeAll arrivals) ∧
      groupUnified second
          (groupUnified first ((UnifiedGraph.empty moduleName).mergeAll arrivals)) =
        groupUnified first
          (groupUnified second ((UnifiedGraph.empty moduleName).mergeAll arrivals)) := by
  have wellFormed := (UnifiedGraph.WellFormed.empty moduleName).mergeAll arrivals
  have compose := groupUnified_groupUnified_eq_union wellFormed
    (refersToNoGroup_mergeAll moduleName ungrouped)
  refine ⟨compose first second, ?_⟩
  rw [compose first second, compose second first, Scope.union_comm]

/-- The overloads as two languages show them. -/
def bilingualDrawings : List Arrival :=
  [{ graph := drawings, source := "Kit.symbols.json", role := .main },
    { graph := translatedDrawings, source := "Kit.occ.symbols.json", role := .main }]

theorem groupUnified_union_bilingual :
    (∀ arrival ∈ bilingualDrawings, arrival.graph.IsUngrouped) ∧
      groupUnified (some (KeySet.ofList ["occ", "swift"])) (groupUnified
          (some (KeySet.ofList ["swift"]))
          ((UnifiedGraph.empty "Kit").mergeAll bilingualDrawings)) =
        groupUnified (some (KeySet.ofList ["occ", "swift"]))
          ((UnifiedGraph.empty "Kit").mergeAll bilingualDrawings) := by
  have ungrouped : ∀ arrival ∈ bilingualDrawings, arrival.graph.IsUngrouped := by
    intro arrival member
    simp only [bilingualDrawings, List.mem_cons, List.not_mem_nil, or_false] at member
    rcases member with rfl | rfl
    · exact .of_entries (by decide +kernel) (by decide +kernel)
    · exact .of_entries (by decide +kernel) (by decide +kernel)
  have united : Scope.union (some (KeySet.ofList ["swift"]))
      (some (KeySet.ofList ["occ", "swift"])) = some (KeySet.ofList ["occ", "swift"]) := by
    decide +kernel
  have compose := (groupUnified_union "Kit" ungrouped (some (KeySet.ofList ["swift"]))
    (some (KeySet.ofList ["occ", "swift"]))).1
  rw [united] at compose
  exact ⟨ungrouped, compose⟩

end Overload

end ApiAtlas
