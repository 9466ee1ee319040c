import ApiAtlas.Proofs.Unified.Variants
import ApiAtlas.Report
import Mathlib.Algebra.BigOperators.Group.List.Basic
import Mathlib.Algebra.GroupWithZero.Nat

/-!
# Relationships parted by their views

The relationships of a unified graph are parted into groups, by the views that
hold them: those that exactly the same views hold form a group. The parting
(`PartsEdges`) loses nothing and repeats nothing. In each view the groups with
that view list together what the view holds (`PartsEdges.gathered_unsignedZeros`),
so the lists of all views can be had back from the groups; and the numbers that a
report gives, of the views and of the relationships of each group, account for
all the entries of these lists (`PartsEdges.sum_lengths`).

Equality is that of `Relationship.alike`. A group lists one of the relationships
that are alike, and views that hold others of them are among its views all the
same. Had a variant been matched by its link alone, a relationship with other
mixins would be listed for a view that does not hold it.
-/

set_option autoImplicit false

namespace ApiAtlas

/-! ## Partings -/

/-- A view holds a relationship: one of its own is like it. -/
def EdgeTable.Holds (edges : EdgeTable) (view : View) (relationship : Relationship) : Prop :=
  ∃ held ∈ edges.under view, held.alike relationship = true

/-- A group lists a relationship: one of its own is like it. -/
def RelationshipGroup.Lists (group : RelationshipGroup) (relationship : Relationship) : Prop :=
  ∃ listed ∈ group.relationships, listed.alike relationship = true

/-- Groups part the relationships of a table by the sets of views that hold them. -/
structure PartsEdges (edges : EdgeTable) (groups : List RelationshipGroup) : Prop where
  /-- The groups are in strictly ascending order of their views. -/
  ascending : groups.Pairwise fun first second => Key.rank first.views second.views = .lt
  /-- The views of a group are a set that is not empty, in ascending order. -/
  views : ∀ group ∈ groups, group.views ≠ [] ∧
    group.views.Pairwise fun first second => Key.rank first second = .lt
  /-- No group is without relationships. -/
  listed : ∀ group ∈ groups, group.relationships ≠ []
  /-- The relationships of a group are in strictly ascending order of their links. -/
  sorted : ∀ group ∈ groups, group.relationships.Pairwise fun first second =>
    Key.rank first.link second.link = .lt
  /-- A group lists the relationships that exactly its views hold. -/
  lists_iff : ∀ group ∈ groups, ∀ relationship,
    group.Lists relationship ↔ ∀ view, view ∈ group.views ↔ edges.Holds view relationship
  /-- Whatever some view holds some group lists. -/
  complete : ∀ view relationship, edges.Holds view relationship →
    ∃ group ∈ groups, group.Lists relationship

namespace EdgeTable

variable {edges : EdgeTable} {view : View} {first second : Relationship}

theorem holds_of_mem (member : first ∈ edges.under view) : edges.Holds view first :=
  ⟨first, member, Relationship.alike_self first⟩

theorem holds_congr (same : first.alike second = true) :
    edges.Holds view first ↔ edges.Holds view second := by
  refine exists_congr fun held => and_congr_right fun _ => ?_
  rw [Relationship.alike_comm, Relationship.alike_congr same, Relationship.alike_comm]

/-- What a view holds under one link is alike. -/
theorem Holds.alike (holds : edges.Holds view first) (also : edges.Holds view second)
    (same : first.link = second.link) : first.alike second = true := by
  obtain ⟨held, member, like⟩ := holds
  obtain ⟨other, within, alike⟩ := also
  have links : held.link = other.link := by
    rw [Relationship.link_eq_of_alike like, same, Relationship.link_eq_of_alike alike]
  rw [← eq_of_mem_under member within links] at alike
  rwa [← Relationship.alike_congr like]

/-- The relationships of a view are in strictly ascending order of their links. -/
theorem ascending_under (edges : EdgeTable) (view : View) :
    (edges.under view).Pairwise fun first second => Key.rank first.link second.link = .lt := by
  rw [under, List.pairwise_map]
  refine (edges.ascending.filter _).imp_of_mem fun {first second} one other before => ?_
  have here : first.1.1 = second.1.1 :=
    (of_decide_eq_true (List.mem_filter.1 one).2).trans
      (of_decide_eq_true (List.mem_filter.1 other).2).symm
  rcases (Key.rankPair_lt_iff _ _).1 before with earlier | ⟨-, earlier⟩
  · rw [here] at earlier
    exact absurd earlier (Key.rank_ne_lt_self _)
  · exact earlier

theorem mem_views : view ∈ edges.views ↔ ∃ relationship, relationship ∈ edges.under view := by
  rw [views, KeySet.mem_toList, KeySet.contains_ofList, List.mem_map]
  simp only [mem_under, Table.mem_keys, Table.contains_iff]
  constructor
  · rintro ⟨⟨_, link⟩, ⟨mixins, found⟩, rfl⟩
    exact ⟨⟨link, mixins⟩, found⟩
  · rintro ⟨relationship, found⟩
    exact ⟨_, ⟨_, found⟩, rfl⟩

end EdgeTable

namespace UnifiedGraph

open EdgeTable

variable {unified : UnifiedGraph} {edges : EdgeTable} {group : RelationshipGroup}

theorem contains_iff_holds {variant : Relationship × KeySet View}
    (member : variant ∈ allVariants edges) (view : View) :
    variant.2.contains view = true ↔ edges.Holds view variant.1 := by
  rw [(areVariants_allVariants edges).views variant member view]
  refine exists_congr fun held => ?_
  rw [mem_placed, Relationship.alike_comm]

/-- Variants with one link that a view has in common are alike. -/
theorem alike_of_link_eq {first second : Relationship × KeySet View}
    (member : first ∈ allVariants edges) (other : second ∈ allVariants edges) {view : View}
    (within : first.2.contains view = true) (also : second.2.contains view = true)
    (same : first.1.link = second.1.link) : first.1.alike second.1 = true :=
  ((contains_iff_holds member view).1 within).alike ((contains_iff_holds other view).1 also) same

/-- A group has the variants with its views. -/
theorem mem_relationshipGroups :
    group ∈ unified.relationshipGroups ↔
      group.relationships ≠ [] ∧ group.relationships =
        ((allVariants unified.edges).filter fun variant => group.views = variant.2.toList).map
          (·.1) := by
  rw [← Table.get?_foldl_collect_iff (fun variant : Relationship × KeySet View =>
    variant.2.toList) (·.1), Table.get?_eq_some_iff, relationshipGroups, List.mem_map]
  constructor
  · rintro ⟨entry, member, rfl⟩
    exact member
  · exact fun member => ⟨_, member, rfl⟩

theorem lists_iff_of_mem (member : group ∈ unified.relationshipGroups)
    {relationship : Relationship} :
    group.Lists relationship ↔ ∃ variant ∈ allVariants unified.edges,
      group.views = variant.2.toList ∧ variant.1.alike relationship = true := by
  rw [RelationshipGroup.Lists, (mem_relationshipGroups.1 member).2]
  simp only [List.mem_map, exists_exists_and_eq_and, List.mem_filter, decide_eq_true_eq]
  simp only [and_assoc]

/-- The views of a group are those of one of its variants. -/
theorem exists_variant (member : group ∈ unified.relationshipGroups) :
    ∃ variant ∈ allVariants unified.edges, group.views = variant.2.toList := by
  obtain ⟨some, all⟩ := mem_relationshipGroups.1 member
  obtain ⟨relationship, listed⟩ := List.exists_mem_of_ne_nil _ some
  rw [all] at listed
  obtain ⟨variant, within, -⟩ := List.mem_map.1 listed
  exact ⟨variant, (List.mem_filter.1 within).1, of_decide_eq_true (List.mem_filter.1 within).2⟩

/-- Some view holds each variant. -/
theorem exists_contains {variant : Relationship × KeySet View}
    (member : variant ∈ allVariants edges) : ∃ view, variant.2.contains view = true := by
  obtain ⟨view, was⟩ := (areVariants_allVariants edges).declared variant member
  exact ⟨view, (contains_iff_holds member view).2 (holds_of_mem (mem_placed.1 was))⟩

/-- **The groups of a unified graph part its relationships.** -/
theorem partsEdges_relationshipGroups (unified : UnifiedGraph) :
    PartsEdges unified.edges unified.relationshipGroups where
  ascending := by
    rw [relationshipGroups, List.pairwise_map]
    exact Table.ascending _
  views group member := by
    obtain ⟨variant, within, same⟩ := exists_variant member
    obtain ⟨view, there⟩ := exists_contains within
    rw [same]
    refine ⟨List.ne_nil_of_mem (KeySet.mem_toList.2 there), ?_⟩
    exact List.pairwise_map.2 variant.2.ascending
  listed group member := (mem_relationshipGroups.1 member).1
  sorted group member := by
    rw [(mem_relationshipGroups.1 member).2, List.pairwise_map]
    have apart := (areVariants_allVariants unified.edges).apart
    refine (((ascending_allVariants unified.edges).and apart).filter _).imp_of_mem ?_
    rintro first second one other ⟨ascending, differ⟩
    obtain ⟨one, ofFirst⟩ := List.mem_filter.1 one
    obtain ⟨other, ofSecond⟩ := List.mem_filter.1 other
    refine Key.rank_lt_of_ne ascending fun same => ?_
    obtain ⟨view, there⟩ := exists_contains one
    have also : second.2.contains view = true := by
      rwa [← KeySet.mem_toList, ← of_decide_eq_true ofSecond, of_decide_eq_true ofFirst,
        KeySet.mem_toList]
    rw [alike_of_link_eq one other there also same] at differ
    cases differ
  lists_iff group member relationship := by
    rw [lists_iff_of_mem member]
    constructor
    · rintro ⟨variant, within, same, like⟩ view
      rw [same, KeySet.mem_toList, contains_iff_holds within, holds_congr like]
    · intro exactly
      obtain ⟨own, within, same⟩ := exists_variant member
      obtain ⟨view, there⟩ := exists_contains within
      rw [← KeySet.mem_toList, ← same] at there
      obtain ⟨held, recorded, like⟩ := (exactly view).1 there
      obtain ⟨variant, known, alike⟩ :=
        (areVariants_allVariants unified.edges).complete view held (mem_placed.2 recorded)
      have whole := Relationship.alike_trans alike like
      have sets : own.2 = variant.2 := KeySet.ext_contains fun other => by
        rw [← KeySet.mem_toList, ← same, exactly other, ← holds_congr whole,
          contains_iff_holds known]
      exact ⟨variant, known, by rw [same, sets], whole⟩
  complete view relationship holds := by
    obtain ⟨held, recorded, like⟩ := holds
    obtain ⟨variant, known, alike⟩ :=
      (areVariants_allVariants unified.edges).complete view held (mem_placed.2 recorded)
    have member : RelationshipGroup.mk variant.2.toList (((allVariants unified.edges).filter
        fun other => variant.2.toList = other.2.toList).map (·.1)) ∈
          unified.relationshipGroups := by
      refine mem_relationshipGroups.2 ⟨?_, rfl⟩
      exact List.ne_nil_of_mem
        (List.mem_map_of_mem (List.mem_filter.2 ⟨known, decide_eq_true rfl⟩))
    exact ⟨_, member, (lists_iff_of_mem member).2
      ⟨variant, known, rfl, Relationship.alike_trans alike like⟩⟩

/-- Both views declare the first link alike, and the second one with mixins that differ. -/
example :
    let note (text : String) : Mixins := Table.ofList [("note", .verbatim (.text text))]
    let edges : EdgeTable := Table.ofList
      [((⟨"swift", none⟩, ⟨"s:a", "s:b", .memberOf, none⟩), Table.empty),
        ((⟨"occ", none⟩, ⟨"s:a", "s:b", .memberOf, none⟩), Table.empty),
        ((⟨"swift", none⟩, ⟨"s:a", "s:c", .references, none⟩), note "here"),
        ((⟨"occ", none⟩, ⟨"s:a", "s:c", .references, none⟩), note "there")]
    (relationshipGroups { moduleName := "Kit", edges }).map
        (fun group => (group.views.map View.text, group.relationships)) =
      [(["occ"], [⟨⟨"s:a", "s:c", .references, none⟩, note "there"⟩]),
        (["occ", "swift"], [⟨⟨"s:a", "s:b", .memberOf, none⟩, Table.empty⟩]),
        (["swift"], [⟨⟨"s:a", "s:c", .references, none⟩, note "here"⟩])] := by
  decide +kernel

end UnifiedGraph

/-! ## What the groups tell about each view -/

/-- The relationships of the groups with a view. -/
def listedIn (groups : List RelationshipGroup) (view : View) : List Relationship :=
  (groups.filter fun group => view ∈ group.views).flatMap RelationshipGroup.relationships

/-- The relationships of the groups with a view, in the order of their links. -/
def gathered (groups : List RelationshipGroup) (view : View) : List Relationship :=
  Key.sortBy Relationship.link (listedIn groups view)

theorem mem_listedIn {groups : List RelationshipGroup} {view : View}
    {relationship : Relationship} :
    relationship ∈ listedIn groups view ↔
      ∃ group ∈ groups, view ∈ group.views ∧ relationship ∈ group.relationships := by
  simp only [listedIn, List.mem_flatMap, List.mem_filter, decide_eq_true_eq, and_assoc]

theorem mem_gathered {groups : List RelationshipGroup} {view : View}
    {relationship : Relationship} :
    relationship ∈ gathered groups view ↔
      ∃ group ∈ groups, view ∈ group.views ∧ relationship ∈ group.relationships :=
  (Key.sortBy_perm _ _).mem_iff.trans mem_listedIn

/-- Counting, for each group, its relationships once for each of its views comes to the same as
counting, for each view, the relationships of the groups with it. -/
theorem sum_listedIn {views : List View} (distinct : views.Nodup)
    {groups : List RelationshipGroup}
    (within : ∀ group ∈ groups, group.views.Nodup ∧ ∀ view ∈ group.views, view ∈ views) :
    (groups.map fun group => group.views.length * group.relationships.length).sum =
      (views.map fun view => (listedIn groups view).length).sum := by
  induction groups with
  | nil => simp [listedIn]
  | cons group rest ih =>
    obtain ⟨⟨own, among⟩, others⟩ := List.forall_mem_cons.1 within
    have shown : (views.filter fun view => view ∈ group.views).length = group.views.length := by
      refine List.Perm.length_eq ((List.perm_ext_iff_of_nodup (distinct.filter _) own).2 ?_)
      intro view
      rw [List.mem_filter, decide_eq_true_eq]
      exact ⟨And.right, fun member => ⟨among view member, member⟩⟩
    have added : ∀ view, (listedIn (group :: rest) view).length =
        (if view ∈ group.views then group.relationships.length else 0) +
          (listedIn rest view).length := by
      intro view
      by_cases member : view ∈ group.views <;> simp [listedIn, member]
    have counted : (views.map fun view =>
        if view ∈ group.views then group.relationships.length else 0).sum =
          group.views.length * group.relationships.length := by
      rw [List.sum_map_ite]
      simp [shown]
    simp only [added, List.sum_map_add]
    rw [List.map_cons, List.sum_cons, ih others, counted]

namespace PartsEdges

variable {edges : EdgeTable} {groups : List RelationshipGroup}

theorem mem_views_iff (parts : PartsEdges edges groups) {group : RelationshipGroup}
    (member : group ∈ groups) {relationship : Relationship}
    (own : relationship ∈ group.relationships) {view : View} :
    view ∈ group.views ↔ edges.Holds view relationship :=
  (parts.lists_iff group member relationship).1
    ⟨relationship, own, Relationship.alike_self relationship⟩ view

/-- Groups with a view in common list relationships with different links. -/
theorem views_eq (parts : PartsEdges edges groups) {first second : RelationshipGroup}
    (member : first ∈ groups) (other : second ∈ groups) {view : View}
    (within : view ∈ first.views) (also : view ∈ second.views) {one two : Relationship}
    (own : one ∈ first.relationships) (ownToo : two ∈ second.relationships)
    (same : one.link = two.link) : first.views = second.views := by
  have like : one.alike two = true :=
    ((parts.mem_views_iff member own).1 within).alike ((parts.mem_views_iff other ownToo).1 also)
      same
  refine Key.eq_of_mem_iff id (parts.views first member).2 (parts.views second other).2 ?_
  intro view
  rw [parts.mem_views_iff member own, parts.mem_views_iff other ownToo,
    EdgeTable.holds_congr like]

theorem nodup_link_listedIn (parts : PartsEdges edges groups) (view : View) :
    ((listedIn groups view).map Relationship.link).Nodup := by
  rw [List.Nodup, List.pairwise_map, listedIn, List.pairwise_flatMap]
  constructor
  · intro group member
    exact (parts.sorted group (List.mem_filter.1 member).1).imp Key.ne_of_rank_lt
  · refine (parts.ascending.filter _).imp_of_mem ?_
    intro first second member other before one own two ownToo same
    obtain ⟨member, within⟩ := List.mem_filter.1 member
    obtain ⟨other, also⟩ := List.mem_filter.1 other
    refine Key.ne_of_rank_lt before ?_
    exact parts.views_eq member other (of_decide_eq_true within) (of_decide_eq_true also) own
      ownToo same

theorem ascending_gathered (parts : PartsEdges edges groups) (view : View) :
    (gathered groups view).Pairwise fun first second =>
      Key.rank first.link second.link = .lt := by
  have distinct : (gathered groups view).Pairwise fun first second =>
      first.link ≠ second.link :=
    List.pairwise_map.1 (((Key.sortBy_perm _ _).map _).nodup_iff.2 (parts.nodup_link_listedIn view))
  refine ((Key.sortBy_ascending Relationship.link _).and distinct).imp ?_
  exact fun both => Key.rank_lt_of_ne both.1 both.2

/-- **The lists of the views can be had back from the groups.** -/
theorem gathered_unsignedZeros (parts : PartsEdges edges groups) (view : View) :
    (gathered groups view).map Relationship.unsignedZeros =
      (edges.under view).map Relationship.unsignedZeros := by
  refine Key.eq_of_mem_iff Relationship.link (List.pairwise_map.2 (parts.ascending_gathered view))
    (List.pairwise_map.2 (EdgeTable.ascending_under edges view)) fun relationship => ?_
  simp only [List.mem_map]
  constructor
  · rintro ⟨listed, within, rfl⟩
    obtain ⟨group, member, there, own⟩ := mem_gathered.1 within
    obtain ⟨held, recorded, like⟩ := (parts.mem_views_iff member own).1 there
    exact ⟨held, recorded, Relationship.alike_iff.1 like⟩
  · rintro ⟨held, recorded, rfl⟩
    have holds := EdgeTable.holds_of_mem recorded
    obtain ⟨group, member, listed, own, like⟩ := parts.complete view held holds
    have there : view ∈ group.views :=
      (parts.mem_views_iff member own).2 ((EdgeTable.holds_congr like).2 holds)
    exact ⟨listed, mem_gathered.2 ⟨group, member, there, own⟩, Relationship.alike_iff.1 like⟩

/-- **The groups account for all entries of the lists of the views.** -/
theorem sum_lengths (parts : PartsEdges edges groups) :
    (groups.map fun group => group.views.length * group.relationships.length).sum =
      (edges.byView.map fun entry => entry.2.length).sum := by
  have within : ∀ group ∈ groups, group.views.Nodup ∧
      ∀ view ∈ group.views, view ∈ edges.views := by
    intro group member
    refine ⟨(parts.views group member).2.imp Key.ne_of_rank_lt, fun view there => ?_⟩
    obtain ⟨listed, own⟩ := List.exists_mem_of_ne_nil _ (parts.listed group member)
    obtain ⟨held, recorded, -⟩ := (parts.mem_views_iff member own).1 there
    exact EdgeTable.mem_views.2 ⟨held, recorded⟩
  have lengths : ∀ view, (listedIn groups view).length = (edges.under view).length := by
    intro view
    have same := congrArg List.length (parts.gathered_unsignedZeros view)
    rw [List.length_map, List.length_map] at same
    rw [← same]
    exact (Key.sortBy_perm _ _).length_eq.symm
  rw [sum_listedIn (Table.nodup_keys _) within, EdgeTable.byView, List.map_map]
  exact congrArg List.sum (List.map_congr_left fun view _ => lengths view)

end PartsEdges

namespace UnifiedGraph

/-- **The groups of relationships part what the views hold, without loss**: they part it, each
view's list can be had back from them, and the numbers in the report account for every entry of the
lists. -/
theorem relationshipGroups_parts (unified : UnifiedGraph) :
    PartsEdges unified.edges unified.relationshipGroups ∧
      (∀ view, (gathered unified.relationshipGroups view).map Relationship.unsignedZeros =
        (unified.edges.under view).map Relationship.unsignedZeros) ∧
      ((ModuleReport.ofGraph unified).relationshipCounts.map fun counted =>
          counted.views.length * counted.count).sum =
        (unified.edges.byView.map fun entry => entry.2.length).sum := by
  have parts := partsEdges_relationshipGroups unified
  refine ⟨parts, parts.gathered_unsignedZeros, ?_⟩
  rw [← parts.sum_lengths, ModuleReport.ofGraph, List.map_map]
  refine congrArg List.sum (List.map_congr_left fun group _ => ?_)
  rw [Function.comp_apply, RelationshipCount.ofGroup, List.length_map]

end UnifiedGraph

end ApiAtlas
