import ApiAtlas.Proofs.Overload.ExactGroups

/-!
# Grouping again

A second grouping plans the groups of the first one (`groupsOf_groupUnified`),
because a grouping changes no family. So what it changes it changes by its
removal of groups. That removal knows the groups that the first grouping made,
and takes away what the first removal could not: relationships that refer to
such a group though it was not there yet (`get?_edges_pruneUnified_again`).

A relationship of this sort is lost unless the group has it anyway, as a copy of
one that places its representative. So a second grouping changes nothing exactly
if there are no others (`groupUnified_again_iff`), and a third one never changes
anything (`groupUnified_settles`).
-/

set_option autoImplicit false

namespace ApiAtlas.Overload

variable {scope : Scope} {graph : UnifiedGraph}

/-! ## The groups of a second grouping -/

/-- Graphs that say the same have the same families. -/
theorem unifiedFamilies_congr {first second : UnifiedGraph}
    (alike : ∀ language, ReadAlike language first second) :
    unifiedFamilies scope first = unifiedFamilies scope second := by
  apply familiesOf_congr
  rintro ⟨family, identifier⟩
  rw [← contains_familiesOf, ← contains_familiesOf]
  refine contains_unifiedFamilies.trans (Iff.trans ?_ contains_unifiedFamilies.symm)
  refine and_congr_right fun _ => ⟨?_, ?_⟩
  · exact (alike family.language).belongsTo rfl
  · exact (alike family.language).symm.belongsTo rfl

/-- Graphs that say the same have the same plan. -/
theorem plan_congr {first second : UnifiedGraph}
    (alike : ∀ language, ReadAlike language first second) :
    plan scope first = plan scope second := by
  have ofFirst := (alike "").ofFirst
  have ofSecond := (alike "").ofSecond
  have families : unifiedFamilies scope first = unifiedFamilies scope second :=
    unifiedFamilies_congr alike
  rw [plan, plan, ← families]
  apply List.filterMap_congr
  rintro ⟨family, members⟩ entry
  have found := Table.get?_eq_some_iff.2 entry
  have meant := (isFamily_of_get? found).2
  have named := (isFamily_of_get? (families ▸ found)).2
  apply Option.ext
  intro group
  rw [planFamily_eq_some_iff ofFirst meant, planFamily_eq_some_iff ofSecond named,
    (alike family.language).ranking_iff rfl]

/-- **A second grouping plans the groups of the first one.** -/
theorem groupsOf_groupUnified (wellFormed : graph.WellFormed) (scope : Scope) :
    groupsOf scope (groupUnified scope graph) = groupsOf scope graph := by
  apply plan_congr
  intro language
  have again := readAlike_pruneUnified (wellFormed_groupUnified wellFormed scope) scope language
  exact again.symm.trans ((readAlike_groupUnified wellFormed scope language).symm.trans
    (readAlike_pruneUnified wellFormed scope language))

/-! ## What a second removal leaves -/

/-- A link leads to or from a group of a plan. -/
def RefersTo (groups : List PlannedGroup) (link : Link) : Prop :=
  ∃ group ∈ groups, link.source = group.identifier ∨ link.target = group.identifier

instance (groups : List PlannedGroup) (link : Link) : Decidable (RefersTo groups link) :=
  inferInstanceAs (Decidable (∃ group ∈ groups, _ ∨ _))

/-- Outside the languages of its scope a grouping adds no relationships. -/
theorem addedAt_eq_none_of_outside (wellFormed : graph.WellFormed) {view : View}
    (outside : scope.includes view.language = false) (held : UnifiedGraph) (link : Link) :
    ∀ group ∈ groupsOf scope graph, addedAt held view link group = none := by
  intro group member
  by_contra added
  obtain ⟨mixins, shown⟩ := Option.ne_none_iff_exists'.1 added
  have included := includes_of_mem_groupsOf wellFormed member
  rw [← (touches_of_addedAt shown).1, outside] at included
  cases included

/-- What a plan adds refers to one of its groups. -/
theorem addedAt_eq_none_of_not_refersTo {groups : List PlannedGroup} {link : Link}
    (other : ¬RefersTo groups link) (held : UnifiedGraph) (view : View) :
    ∀ group ∈ groups, addedAt held view link group = none := by
  intro group member
  by_contra added
  obtain ⟨mixins, shown⟩ := Option.ne_none_iff_exists'.1 added
  rcases (touches_of_addedAt shown).2 with ⟨-, target⟩ | ⟨-, source⟩
  · exact other ⟨group, member, .inr target⟩
  · exact other ⟨group, member, .inl source⟩

/-- Outside its scope a grouping changes nothing of what is known. -/
theorem facetAt_groupUnified_of_outside (wellFormed : graph.WellFormed) {view : View}
    (outside : scope.includes view.language = false) (identifier : String) :
    (groupUnified scope graph).facetAt identifier view = graph.facetAt identifier view := by
  have plan := isPlan_groupsOf wellFormed scope
  have elsewhere : ∀ group ∈ groupsOf scope graph, view.language ≠ group.language := by
    intro group member own
    have included := includes_of_mem_groupsOf wellFormed member
    rw [← own, outside] at included
    cases included
  have left : (pruneUnified scope graph).facetAt identifier view =
      graph.facetAt identifier view := by
    rw [facetAt_pruneUnified, outside, if_neg Bool.false_ne_true]
  cases isGroup : isGroupIdentifier identifier with
  | true =>
    have none : groupIn? (groupsOf scope graph) identifier view.language = none := by
      rw [Option.eq_none_iff_forall_ne_some]
      intro group found
      obtain ⟨member, -, own⟩ := plan.groupIn?_eq_some_iff.1 found
      exact elsewhere group member own.symm
    have known := facetAt_addGroups_group plan _ (areFresh_groupsOf wellFormed scope) isGroup view
    rw [none] at known
    exact known.trans left
  | false =>
    have none : (groupsOf scope graph).findSome? (·.place? view identifier) = none := by
      rw [List.findSome?_eq_none_iff]
      intro group member
      rw [PlannedGroup.place?, if_neg (elsewhere group member)]
    rw [facetAt_groupUnified_plain wellFormed isGroup, none, left]
    exact Option.map_id_apply

/-- Where two graphs say the same but for their groups, removals leave the same of what is known. -/
theorem facetAt_pruneUnified_congr {first second : UnifiedGraph} {one other : Scope} {view : View}
    (alike : ReadAlike view.language first second) (inFirst : one.includes view.language = true)
    (inSecond : other.includes view.language = true) (identifier : String) :
    (pruneUnified one first).facetAt identifier view =
      (pruneUnified other second).facetAt identifier view := by
  cases isGroup : isGroupIdentifier identifier with
  | true =>
    rw [facetAt_pruneUnified_group alike.ofFirst inFirst isGroup,
      facetAt_pruneUnified_group alike.ofSecond inSecond isGroup]
  | false =>
    rw [facetAt_pruneUnified_plain alike.ofFirst inFirst isGroup,
      facetAt_pruneUnified_plain alike.ofSecond inSecond isGroup,
      alike.facets identifier view isGroup rfl]

/-- **A second removal leaves what is known as the first one did.** -/
theorem facetAt_pruneUnified_again (wellFormed : graph.WellFormed) (identifier : String)
    (view : View) :
    (pruneUnified scope (groupUnified scope graph)).facetAt identifier view =
      (pruneUnified scope graph).facetAt identifier view := by
  cases included : scope.includes view.language with
  | false =>
    rw [facetAt_pruneUnified, facetAt_pruneUnified, included, if_neg Bool.false_ne_true,
      if_neg Bool.false_ne_true, facetAt_groupUnified_of_outside wellFormed included]
  | true =>
    have again := readAlike_groupUnified wellFormed scope view.language
    exact facetAt_pruneUnified_congr again.symm included included identifier

/-- After a grouping the groups are those of the plan and those that the removal left. -/
theorem contains_groups_groupUnified (scope : Scope) (graph : UnifiedGraph)
    (identifier : String) :
    (groupUnified scope graph).groups.contains identifier = true ↔
      (∃ group ∈ groupsOf scope graph, identifier = group.identifier) ∨
        (pruneUnified scope graph).groups.contains identifier = true :=
  contains_groups_addGroups _ _ _

/-- The first removal leaves no relationship that is or touches a group known to it. -/
theorem get?_edges_pruneUnified_eq_none {view : View}
    (included : scope.includes view.language = true) {link : Link}
    (touched : link.kind = .overloadOf ∨ graph.groups.contains link.source = true ∨
      graph.groups.contains link.target = true) :
    Table.get? (pruneUnified scope graph).edges (view, link) = none := by
  rw [get?_edges_pruneUnified, if_pos]
  simpa only [included, Bool.true_and, Bool.or_eq_true, decide_eq_true_eq, or_assoc] using touched

/-- **A second removal takes away all that refers to a group of the plan**, also what the first one
left. -/
theorem get?_edges_pruneUnified_again (wellFormed : graph.WellFormed) (view : View)
    (link : Link) :
    Table.get? (pruneUnified scope (groupUnified scope graph)).edges (view, link) =
      if scope.includes view.language = true ∧ RefersTo (groupsOf scope graph) link then none
      else Table.get? (pruneUnified scope graph).edges (view, link) := by
  have plan := isPlan_groupsOf wellFormed scope
  have added := get?_edges_addGroups plan (pruneUnified scope graph) view link
  have unchanged : (∀ group ∈ groupsOf scope graph,
      addedAt (pruneUnified scope graph) view link group = none) →
        Table.get? (groupUnified scope graph).edges (view, link) =
          Table.get? (pruneUnified scope graph).edges (view, link) := by
    intro nothing
    rw [List.findSome?_eq_none_iff.2 nothing] at added
    exact added.trans Option.merge_none_right
  cases included : scope.includes view.language with
  | false =>
    rw [if_neg (fun both => Bool.false_ne_true both.1), get?_edges_pruneUnified, included,
      Bool.false_and, if_neg Bool.false_ne_true]
    exact unchanged (addedAt_eq_none_of_outside wellFormed included _ link)
  | true =>
    by_cases refers : RefersTo (groupsOf scope graph) link
    · rw [if_pos ⟨rfl, refers⟩]
      obtain ⟨group, member, source | target⟩ := refers
      · refine get?_edges_pruneUnified_eq_none included (.inr (.inl ?_))
        exact (contains_groups_groupUnified ..).2 (.inl ⟨group, member, source⟩)
      · refine get?_edges_pruneUnified_eq_none included (.inr (.inr ?_))
        exact (contains_groups_groupUnified ..).2 (.inl ⟨group, member, target⟩)
    · rw [if_neg fun both => refers both.2]
      -- What the second removal takes away of the rest, the first one has taken away already.
      by_cases touched : link.kind = .overloadOf ∨
          (groupUnified scope graph).groups.contains link.source = true ∨
            (groupUnified scope graph).groups.contains link.target = true
      · rw [get?_edges_pruneUnified_eq_none included touched]
        refine (get?_edges_pruneUnified_eq_none included ?_).symm
        simp only [contains_groups_groupUnified, contains_groups_pruneUnified] at touched
        rcases touched with kind | (⟨group, member, same⟩ | held) | (⟨group, member, same⟩ | held)
        · exact .inl kind
        · exact absurd ⟨group, member, .inl same⟩ refers
        · exact .inr (.inl held.1)
        · exact absurd ⟨group, member, .inr same⟩ refers
        · exact .inr (.inr held.1)
      · rw [get?_edges_pruneUnified, if_neg]
        · exact unchanged (addedAt_eq_none_of_not_refersTo refers _ view)
        · simpa only [included, Bool.true_and, Bool.or_eq_true, decide_eq_true_eq,
            or_assoc] using touched

/-! ## What a second grouping changes -/

/-- Adding groups changes nothing but symbols, relationships and groups. -/
theorem frame_addGroups (groups : List PlannedGroup) (graph : UnifiedGraph) :
    (groups.foldl addGroup graph).moduleName = graph.moduleName ∧
      (groups.foldl addGroup graph).sources = graph.sources ∧
        (groups.foldl addGroup graph).orphans = graph.orphans := by
  induction groups generalizing graph with
  | nil => exact ⟨rfl, rfl, rfl⟩
  | cons group rest ih => exact ih (addGroup graph group)

/-- A grouping changes nothing but symbols, relationships and groups. -/
theorem frame_groupUnified (scope : Scope) (graph : UnifiedGraph) :
    (groupUnified scope graph).moduleName = graph.moduleName ∧
      (groupUnified scope graph).sources = graph.sources ∧
        (groupUnified scope graph).orphans = graph.orphans :=
  frame_addGroups (groupsOf scope graph) (pruneUnified scope graph)

/-- The groups of a plan make the same known in graphs that know the same. -/
theorem facetAt_addGroups_congr {groups : List PlannedGroup} (plan : IsPlan groups)
    {first second : UnifiedGraph} (fresh : AreFresh groups second)
    (same : ∀ identifier view, first.facetAt identifier view = second.facetAt identifier view)
    (identifier : String) (view : View) :
    (groups.foldl addGroup first).facetAt identifier view =
      (groups.foldl addGroup second).facetAt identifier view := by
  cases isGroup : isGroupIdentifier identifier with
  | false => rw [facetAt_addGroups plan _ isGroup, facetAt_addGroups plan _ isGroup, same]
  | true =>
    have freshToo : AreFresh groups first := by
      intro group member view language
      rw [same]
      exact fresh group member view language
    rw [facetAt_addGroups_group plan _ freshToo isGroup,
      facetAt_addGroups_group plan _ fresh isGroup]
    cases groupIn? groups identifier view.language with
    | none => exact same identifier view
    | some group => exact congrArg (Option.map groupFacet) (same _ view)

/-- A second grouping adds the groups of the first one to what its removal leaves. -/
theorem groupUnified_groupUnified (wellFormed : graph.WellFormed) (scope : Scope) :
    groupUnified scope (groupUnified scope graph) =
      (groupsOf scope graph).foldl addGroup
        (pruneUnified scope (groupUnified scope graph)) := by
  rw [groupUnified, groupsOf_groupUnified wellFormed]

/-- **Two groupings in a row make one exactly if they record the same relationships.** -/
theorem groupUnified_again_iff_edges (wellFormed : graph.WellFormed) :
    groupUnified scope (groupUnified scope graph) = groupUnified scope graph ↔
      ∀ view link,
        Table.get? (groupUnified scope (groupUnified scope graph)).edges (view, link) =
          Table.get? (groupUnified scope graph).edges (view, link) := by
  constructor
  · intro same view link
    rw [same]
  · intro recorded
    have once := wellFormed_groupUnified wellFormed scope
    have twice := wellFormed_groupUnified once scope
    obtain ⟨moduleName, sources, orphans⟩ := frame_groupUnified scope (groupUnified scope graph)
    apply twice.ext once moduleName sources
    · intro identifier view
      rw [groupUnified_groupUnified wellFormed]
      exact facetAt_addGroups_congr (isPlan_groupsOf wellFormed scope)
        (areFresh_groupsOf wellFormed scope) (facetAt_pruneUnified_again wellFormed) identifier view
    · exact Table.ext_get? fun key => recorded key.1 key.2
    · exact orphans

/-- A relationship that the first removal left is made again with the groups: it leads from a group
of the view's language to no group of the plan, and the representative has the same with all its
mixins. -/
structure IsCopied (groups : List PlannedGroup) (left : EdgeTable) (view : View) (link : Link)
    (mixins : Mixins) : Prop where
  target : ∀ group ∈ groups, link.target ≠ group.identifier
  source : ∃ group ∈ groups, view.language = group.language ∧ link.source = group.identifier ∧
    link.kind.isStructural = true ∧
      ∃ copied, Table.get? left (view, link.movedTo group.representative.identifier) =
        some copied ∧ ∀ key, Table.contains mixins key = true → Table.contains copied key = true

/-- In the languages of a scope the removal leaves no relationship to or from a group of the plan
but those that are made again. -/
def LeavesCopies (scope : Scope) (graph : UnifiedGraph) : Prop :=
  ∀ view link mixins, scope.includes view.language = true → RefersTo (groupsOf scope graph) link →
    Table.get? (pruneUnified scope graph).edges (view, link) = some mixins →
      IsCopied (groupsOf scope graph) (pruneUnified scope graph).edges view link mixins

/-- The groups add the same relationships to groups again. -/
theorem addedAt_again (wellFormed : graph.WellFormed) {view : View} {link : Link}
    (kind : link.kind = .overloadOf) (group : PlannedGroup) :
    addedAt (pruneUnified scope (groupUnified scope graph)) view link group =
      addedAt (pruneUnified scope graph) view link group := by
  apply Option.ext
  intro mixins
  simp only [addedAt_eq_some_iff kind, facetAt_pruneUnified_again wellFormed]

/-- The groups add other relationships again unless these lead to a group of the plan. -/
theorem addedAt_again_iff (wellFormed : graph.WellFormed) {view : View} {link : Link}
    (other : link.kind ≠ .overloadOf) {group : PlannedGroup}
    (member : group ∈ groupsOf scope graph) {mixins : Mixins} :
    addedAt (pruneUnified scope (groupUnified scope graph)) view link group = some mixins ↔
      addedAt (pruneUnified scope graph) view link group = some mixins ∧
        ∀ planned ∈ groupsOf scope graph, link.target ≠ planned.identifier := by
  have included := includes_of_mem_groupsOf wellFormed member
  have sound := (isPlan_groupsOf wellFormed scope).sound group member
  have plain := sound.plain _ group.representative_mem
  have refers : RefersTo (groupsOf scope graph)
        (link.movedTo group.representative.identifier) ↔
      ∃ planned ∈ groupsOf scope graph, link.target = planned.identifier := by
    refine exists_congr fun planned => and_congr_right fun _ => ?_
    exact or_iff_right (ne_groupIdentifier plain _)
  rw [addedAt_eq_some_iff_of_ne other, addedAt_eq_some_iff_of_ne other,
    get?_edges_pruneUnified_again wellFormed, and_assoc, and_assoc, and_assoc]
  refine and_congr_right fun language => and_congr_right fun _ => and_congr_right fun _ => ?_
  rw [language, included]
  by_cases led : RefersTo (groupsOf scope graph) (link.movedTo group.representative.identifier)
  · rw [if_pos ⟨rfl, led⟩]
    obtain ⟨planned, within, same⟩ := refers.1 led
    constructor
    · intro shown
      cases shown
    · intro both
      exact absurd same (both.2 planned within)
  · rw [if_neg fun both => led both.2]
    refine (and_iff_left ?_).symm
    intro planned within same
    exact led (refers.2 ⟨planned, within, same⟩)

section Again

variable {view : View} {link : Link}

/-- What is recorded once a second grouping is done. -/
theorem get?_edges_groupUnified_again (wellFormed : graph.WellFormed) (view : View)
    (link : Link) :
    Table.get? (groupUnified scope (groupUnified scope graph)).edges (view, link) =
      EdgeTable.join
        (if scope.includes view.language = true ∧ RefersTo (groupsOf scope graph) link then none
          else Table.get? (pruneUnified scope graph).edges (view, link))
        ((groupsOf scope graph).findSome?
          (addedAt (pruneUnified scope (groupUnified scope graph)) view link)) := by
  rw [get?_edges_groupUnified (wellFormed_groupUnified wellFormed scope),
    groupsOf_groupUnified wellFormed, get?_edges_pruneUnified_again wellFormed]

/-- What a grouping records for good is a copy if it refers to a group of the plan. -/
theorem IsCopied.of_again (wellFormed : graph.WellFormed)
    (recorded : Table.get? (groupUnified scope (groupUnified scope graph)).edges (view, link) =
      Table.get? (groupUnified scope graph).edges (view, link))
    (included : scope.includes view.language = true)
    (refers : RefersTo (groupsOf scope graph) link) {mixins : Mixins}
    (left : Table.get? (pruneUnified scope graph).edges (view, link) = some mixins) :
    IsCopied (groupsOf scope graph) (pruneUnified scope graph).edges view link mixins := by
  have plan := isPlan_groupsOf wellFormed scope
  have other : link.kind ≠ .overloadOf := by
    intro kind
    rw [get?_edges_pruneUnified_eq_none included (.inl kind)] at left
    cases left
  rw [get?_edges_groupUnified_again wellFormed, if_pos ⟨included, refers⟩,
    get?_edges_groupUnified wellFormed, left, EdgeTable.join, Option.merge_none_left] at recorded
  -- Something is recorded the first time, so some group adds it the second time.
  have present : ∃ copied, (groupsOf scope graph).findSome?
      (addedAt (pruneUnified scope (groupUnified scope graph)) view link) = some copied := by
    rw [← Option.isSome_iff_exists, recorded, Option.isSome_merge]
    rfl
  obtain ⟨copied, again⟩ := present
  obtain ⟨group, member, added⟩ := (findSome?_addedAt_eq_some_iff plan).1 again
  obtain ⟨before, target⟩ := (addedAt_again_iff wellFormed other member).1 added
  rw [again, (findSome?_addedAt_eq_some_iff plan).2 ⟨group, member, before⟩] at recorded
  obtain ⟨language, source, structural, original⟩ := (addedAt_eq_some_iff_of_ne other).1 before
  exact ⟨target, group, member, language, source, structural, copied, original,
    Table.union_eq_right_iff.1 (Option.some.inj recorded).symm⟩

/-- Mixins are joined without a change if they are all given anew. -/
theorem join_eq_right_iff {held added : Option Mixins} :
    EdgeTable.join held added = added ↔ ∀ mixins, held = some mixins →
      ∃ copied, added = some copied ∧
        ∀ key, Table.contains mixins key = true → Table.contains copied key = true := by
  cases held with
  | none => simp
  | some mixins =>
    cases added with
    | none => simp
    | some copied => simp [Table.union_eq_right_iff]

/-- What is left of a relationship that refers to a group of the plan is given anew. -/
theorem LeavesCopies.added (copies : LeavesCopies scope graph)
    (plan : IsPlan (groupsOf scope graph))
    (other : link.kind ≠ .overloadOf) (included : scope.includes view.language = true)
    (refers : RefersTo (groupsOf scope graph) link) :
    EdgeTable.join (Table.get? (pruneUnified scope graph).edges (view, link))
        ((groupsOf scope graph).findSome? (addedAt (pruneUnified scope graph) view link)) =
      (groupsOf scope graph).findSome? (addedAt (pruneUnified scope graph) view link) := by
  rw [join_eq_right_iff]
  intro mixins left
  obtain ⟨group, member, language, source, structural, copied, original, keys⟩ :=
    (copies view link mixins included refers left).source
  refine ⟨copied, (findSome?_addedAt_eq_some_iff plan).2 ⟨group, member, ?_⟩, keys⟩
  exact (addedAt_eq_some_iff_of_ne other).2 ⟨language, source, structural, original⟩

/-- If only copies are left, nothing that leads to a group of the plan is left or added. -/
theorem LeavesCopies.eq_none (copies : LeavesCopies scope graph)
    (included : scope.includes view.language = true) (other : link.kind ≠ .overloadOf)
    {planned : PlannedGroup} (within : planned ∈ groupsOf scope graph)
    (led : link.target = planned.identifier) :
    Table.get? (pruneUnified scope graph).edges (view, link) = none ∧
      ∀ group, addedAt (pruneUnified scope graph) view link group = none := by
  have bare : ∀ source, Table.get? (pruneUnified scope graph).edges (view, link.movedTo source) =
      none := by
    intro source
    cases left : Table.get? (pruneUnified scope graph).edges (view, link.movedTo source) with
    | none => rfl
    | some mixins =>
      have refers : RefersTo (groupsOf scope graph) (link.movedTo source) :=
        ⟨planned, within, .inr led⟩
      exact absurd led ((copies view _ mixins included refers left).target planned within)
  refine ⟨bare link.source, fun group => ?_⟩
  by_contra added
  obtain ⟨mixins, shown⟩ := Option.ne_none_iff_exists'.1 added
  obtain ⟨-, -, -, original⟩ := (addedAt_eq_some_iff_of_ne other).1 shown
  rw [bare] at original
  cases original

/-- If only copies are left, a grouping records for good what refers to a group of the plan. -/
theorem LeavesCopies.recorded (copies : LeavesCopies scope graph) (wellFormed : graph.WellFormed)
    (included : scope.includes view.language = true)
    (refers : RefersTo (groupsOf scope graph) link) :
    Table.get? (groupUnified scope (groupUnified scope graph)).edges (view, link) =
      Table.get? (groupUnified scope graph).edges (view, link) := by
  have plan := isPlan_groupsOf wellFormed scope
  rw [get?_edges_groupUnified_again wellFormed, if_pos ⟨included, refers⟩,
    get?_edges_groupUnified wellFormed]
  refine Option.merge_none_left.trans ?_
  by_cases kind : link.kind = .overloadOf
  · rw [get?_edges_pruneUnified_eq_none included (.inl kind),
      funext (addedAt_again wellFormed kind)]
    exact Option.merge_none_left.symm
  · by_cases led : ∃ planned ∈ groupsOf scope graph, link.target = planned.identifier
    · obtain ⟨planned, within, same⟩ := led
      obtain ⟨bare, nothing⟩ := copies.eq_none included kind within same
      rw [bare, List.findSome?_eq_none_iff.2 fun group _ => nothing group,
        List.findSome?_eq_none_iff.2]
      · rfl
      · intro group member
        by_contra added
        obtain ⟨mixins, shown⟩ := Option.ne_none_iff_exists'.1 added
        exact ((addedAt_again_iff wellFormed kind member).1 shown).2 planned within same
    · rw [copies.added plan kind included refers]
      apply Option.ext
      intro mixins
      rw [findSome?_addedAt_eq_some_iff plan, findSome?_addedAt_eq_some_iff plan]
      refine exists_congr fun group => and_congr_right fun member => ?_
      rw [addedAt_again_iff wellFormed kind member]
      refine and_iff_left ?_
      intro planned within same
      exact led ⟨planned, within, same⟩

/-- A grouping records for good what it does not look at. -/
theorem get?_edges_groupUnified_of_elsewhere (wellFormed : graph.WellFormed)
    (elsewhere : ¬(scope.includes view.language = true ∧ RefersTo (groupsOf scope graph) link)) :
    Table.get? (groupUnified scope (groupUnified scope graph)).edges (view, link) =
      Table.get? (groupUnified scope graph).edges (view, link) := by
  have nothing : ∀ held, (groupsOf scope graph).findSome? (addedAt held view link) = none := by
    intro held
    rw [List.findSome?_eq_none_iff]
    cases included : scope.includes view.language with
    | false => exact addedAt_eq_none_of_outside wellFormed included held link
    | true =>
      exact addedAt_eq_none_of_not_refersTo (fun refers => elsewhere ⟨included, refers⟩) held view
  rw [get?_edges_groupUnified_again wellFormed, if_neg elsewhere,
    get?_edges_groupUnified wellFormed, nothing, nothing]

end Again

/-- If the removal leaves only copies, grouping again changes nothing. -/
theorem LeavesCopies.groupUnified_again (copies : LeavesCopies scope graph)
    (wellFormed : graph.WellFormed) :
    groupUnified scope (groupUnified scope graph) = groupUnified scope graph := by
  rw [groupUnified_again_iff_edges wellFormed]
  intro view link
  by_cases both : scope.includes view.language = true ∧ RefersTo (groupsOf scope graph) link
  · exact copies.recorded wellFormed both.1 both.2
  · exact get?_edges_groupUnified_of_elsewhere wellFormed both

/-- **Grouping again changes nothing exactly if the removal leaves only copies.** -/
theorem groupUnified_again_iff (reachable : graph.Reachable) (scope : Scope) :
    groupUnified scope (groupUnified scope graph) = groupUnified scope graph ↔
      LeavesCopies scope graph := by
  have wellFormed := reachable.wellFormed
  constructor
  · intro same view link mixins included refers left
    have recorded := (groupUnified_again_iff_edges wellFormed).1 same view link
    exact .of_again wellFormed recorded included refers left
  · intro copies
    exact copies.groupUnified_again wellFormed

/-- **A third grouping changes nothing.** -/
theorem groupUnified_settles (wellFormed : graph.WellFormed) (scope : Scope) :
    groupUnified scope (groupUnified scope (groupUnified scope graph)) =
      groupUnified scope (groupUnified scope graph) := by
  have once := wellFormed_groupUnified wellFormed scope
  have copies : LeavesCopies scope (groupUnified scope graph) := by
    intro view link mixins included refers left
    rw [groupsOf_groupUnified wellFormed] at refers
    rw [get?_edges_pruneUnified_again wellFormed, if_pos ⟨included, refers⟩] at left
    cases left
  exact copies.groupUnified_again once

/-- The overloads, one of which refers to the group that a grouping will make. -/
def danglingDrawings : SymbolGraph :=
  drawings.addRelationship
    (Relationship.between "drawAt" (groupIdentifier "drawAt") .references)

/-- The unified graph of overloads and a relationship to their group to be. -/
def unifiedDangling : UnifiedGraph :=
  (UnifiedGraph.empty "Kit").merge danglingDrawings "Kit.symbols.json" true

/-- A relationship to a group to be outlives one grouping but not two. -/
theorem groupUnified_again_ne_dangling :
    unifiedDangling.Reachable ∧
      groupUnified none (groupUnified none unifiedDangling) ≠
        groupUnified none unifiedDangling := by
  refine ⟨.merge _ _ _ (.empty "Kit"), ?_⟩
  decide +kernel

/-- The overloads, with a relationship that places their group to be. -/
def placedDrawings : SymbolGraph :=
  drawings.addRelationship
    (Relationship.between (groupIdentifier "drawAt") "widget" .memberOf)

/-- The unified graph of overloads and a relationship that places their group to be. -/
def unifiedPlaced : UnifiedGraph :=
  (UnifiedGraph.empty "Kit").merge placedDrawings "Kit.symbols.json" true

theorem groupUnified_again_iff_placed :
    unifiedPlaced.Reachable ∧ unifiedPlaced.edges.keys.length = 2 ∧
      LeavesCopies none unifiedPlaced :=
  have reachable : unifiedPlaced.Reachable := .merge _ _ _ (.empty "Kit")
  ⟨reachable, by decide +kernel,
    (groupUnified_again_iff reachable none).1 (by decide +kernel)⟩

end ApiAtlas.Overload
