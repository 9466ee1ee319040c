import ApiAtlas.Proofs.Overload.Untouched

/-!
# Groups mirror their representatives

In the languages of the scope a group is known where its representative is, and
what is known of it there is what is known of the representative, in the same
view, without the place in the group (`facetAt_groupUnified_identifier`). Only
two of its names are its own: if the view has a declaration, the group shows the
simplified form of it for navigation and in listings (`NamedAfter`).

The group also stands where the representative stands. It has a copy of each of
the relationships that place the representative, in the same view
(`exists_edges_groupUnified_movedTo`).

Representatives are read off the graph after the grouping. By then their mixins
have changed and other groups have been added, and it makes no difference
(`groupFacet_withPlace`).
-/

set_option autoImplicit false

namespace ApiAtlas

/-- The kinds that place a symbol are those of members, of requirements and of extensions. -/
theorem RelationshipKind.isStructural_iff {kind : RelationshipKind} :
    kind.isStructural = true ↔
      kind ∈ [memberOf, requirementOf, optionalRequirementOf, extensionTo] := by
  cases kind <;> simp [isStructural]

namespace Overload

/-! ## What it is to mirror -/

/-- Names are those of a symbol, but for the forms for navigation and for listings; with a
declaration these are both its simplified form. -/
structure NamedAfter (original : Names) (mixins : Mixins) (names : Names) : Prop where
  title : names.title = original.title
  prose : names.prose = original.prose
  undeclared : (∀ fragments, ¬mixins.Declares fragments) →
    names.navigator = original.navigator ∧ names.subHeading = original.subHeading
  declared : ∀ fragments, mixins.Declares fragments →
    names.navigator = some (Declaration.simplify fragments) ∧
      names.subHeading = some (Declaration.simplify fragments)

/-- The names of a group are the only ones of this sort. -/
theorem namedAfter_iff {original names : Names} {mixins : Mixins} :
    NamedAfter original mixins names ↔ names = groupNames original mixins.declaration? := by
  constructor
  · rintro ⟨title, prose, undeclared, declared⟩
    cases names
    cases found : mixins.declaration? with
    | none =>
      obtain ⟨navigator, subHeading⟩ := undeclared (Mixins.declaration?_eq_none_iff.1 found)
      cases title
      cases prose
      cases navigator
      cases subHeading
      rfl
    | some fragments =>
      obtain ⟨navigator, subHeading⟩ :=
        declared fragments (Mixins.declaration?_eq_some_iff.1 found)
      cases title
      cases prose
      cases navigator
      cases subHeading
      rfl
  · rintro rfl
    cases found : mixins.declaration? with
    | none =>
      have nothing := Mixins.declaration?_eq_none_iff.1 found
      exact ⟨rfl, rfl, fun _ => ⟨rfl, rfl⟩, fun fragments declares =>
        absurd declares (nothing fragments)⟩
    | some fragments =>
      have declares := Mixins.declaration?_eq_some_iff.1 found
      refine ⟨rfl, rfl, fun nothing => absurd declares (nothing fragments), ?_⟩
      intro others also
      obtain rfl := declares.unique also
      exact ⟨rfl, rfl⟩

/-- A facet says the same as another one, but for the names and the place in a group. -/
structure Mirrors (original copy : Facet) : Prop where
  module : copy.module = original.module
  kind : copy.description.kind = original.description.kind
  path : copy.description.path = original.description.path
  accessLevel : copy.description.accessLevel = original.description.accessLevel
  comment : copy.comment = original.comment
  mixins : ∀ key, Table.get? copy.mixins key =
    if key = "overloadData" then none else Table.get? original.mixins key
  names : NamedAfter original.description.names original.mixins copy.description.names
  isMain : copy.isMain = original.isMain

/-- In the views of a language a symbol says the same as another one and stands at the same
places. -/
structure MirrorsIn (graph : UnifiedGraph) (language representative group : String) : Prop where
  /-- Both are known in the same views. -/
  views : ∀ view, view.language = language →
    ((∃ copy, graph.facetAt group view = some copy) ↔
      ∃ original, graph.facetAt representative view = some original)
  facets : ∀ view original copy, view.language = language →
    graph.facetAt representative view = some original →
      graph.facetAt group view = some copy → Mirrors original copy
  /-- Main graphs contributed to both in the same views. -/
  mainViews : ∀ view, (∃ copy, MainIn graph language group view copy) ↔
    ∃ original, MainIn graph language representative view original
  /-- Each relationship that places the one has its like for the other. -/
  relationships : ∀ view link mixins, view.language = language → link.source = representative →
    link.kind ∈ [.memberOf, .requirementOf, .optionalRequirementOf, .extensionTo] →
      Table.get? graph.edges (view, link) = some mixins →
        ∃ copied, Table.get? graph.edges (view, { link with source := group }) = some copied ∧
          ∀ key mixin, Table.get? mixins key = some mixin → Table.get? copied key = some mixin

/-! ## Groups -/

/-- The facet of a group mirrors the one that it was made of. -/
theorem mirrors_groupFacet (facet : Facet) : Mirrors facet (groupFacet facet) where
  module := rfl
  kind := rfl
  path := rfl
  accessLevel := rfl
  comment := rfl
  mixins _ := Table.get?_erase ..
  names := namedAfter_iff.2 rfl
  isMain := rfl

variable {scope : Scope} {graph : UnifiedGraph} {group : PlannedGroup} {view : View}

/-- **What is known of a group in a view is what is known there of its representative.** -/
theorem facetAt_groupUnified_identifier (wellFormed : graph.WellFormed)
    (member : group ∈ groupsOf scope graph) (own : view.language = group.language) :
    (groupUnified scope graph).facetAt group.identifier view =
      ((groupUnified scope graph).facetAt group.representative.identifier view).map
        groupFacet := by
  have plan := isPlan_groupsOf wellFormed scope
  have included : scope.includes view.language = true := by
    rw [own]
    exact includes_of_mem_groupsOf wellFormed member
  have plain : isGroupIdentifier group.representative.identifier = false :=
    (plan.sound group member).plain _ group.representative_mem
  have found : groupIn? (groupsOf scope graph) group.identifier view.language = some group :=
    plan.groupIn?_eq_some_iff.2 ⟨member, rfl, own.symm⟩
  rw [facetAt_groupUnified_group wellFormed included group.isGroupIdentifier_identifier, found,
    Option.bind_some, facetAt_groupUnified_plain wellFormed plain, Option.map_map]
  refine congrArg (Option.map · _) (funext fun facet => ?_)
  exact (groupFacet_withPlace facet _).symm

/-- A grouping leaves the relationships that place a symbol that is no group as its removal does. -/
theorem get?_edges_groupUnified_structural (wellFormed : graph.WellFormed) {link : Link}
    (plain : isGroupIdentifier link.source = false) (structural : link.kind.isStructural = true) :
    Table.get? (groupUnified scope graph).edges (view, link) =
      Table.get? (pruneUnified scope graph).edges (view, link) := by
  have kind : link.kind ≠ .overloadOf := by
    intro same
    rw [same] at structural
    cases structural
  rw [get?_edges_groupUnified wellFormed, findSome?_addedAt_eq_none _ _ kind plain]
  exact Option.merge_none_right

/-- **A group has a copy of each relationship that places its representative.** -/
theorem exists_edges_groupUnified_movedTo (wellFormed : graph.WellFormed)
    (member : group ∈ groupsOf scope graph) (own : view.language = group.language) {link : Link}
    (source : link.source = group.representative.identifier)
    (structural : link.kind.isStructural = true) {mixins : Mixins}
    (recorded : Table.get? (groupUnified scope graph).edges (view, link) = some mixins) :
    ∃ copied, Table.get? (groupUnified scope graph).edges
          (view, link.movedTo group.identifier) = some copied ∧
        ∀ key mixin, Table.get? mixins key = some mixin → Table.get? copied key = some mixin := by
  have plan := isPlan_groupsOf wellFormed scope
  have plain : isGroupIdentifier link.source = false := by
    rw [source]
    exact (plan.sound group member).plain _ group.representative_mem
  have kind : (link.movedTo group.identifier).kind ≠ .overloadOf := by
    intro same
    rw [Link.kind_movedTo] at same
    rw [same] at structural
    cases structural
  have back : (link.movedTo group.identifier).movedTo group.representative.identifier = link := by
    rw [← source]
    rfl
  rw [get?_edges_groupUnified_structural wellFormed plain structural] at recorded
  have added : addedAt (pruneUnified scope graph) view (link.movedTo group.identifier) group =
      some mixins :=
    (addedAt_eq_some_iff_of_ne kind).2 ⟨own, rfl, structural, by rw [back, recorded]⟩
  rw [get?_edges_groupUnified wellFormed,
    (findSome?_addedAt_eq_some_iff plan).2 ⟨group, member, added⟩]
  cases held : Table.get? (pruneUnified scope graph).edges
      (view, link.movedTo group.identifier) with
  | none => exact ⟨mixins, rfl, fun _ _ same => same⟩
  | some before =>
    refine ⟨Table.union before mixins, rfl, fun key mixin same => ?_⟩
    rw [Table.get?_union, same, Option.some_or]

/-- A planned group mirrors its representative once the grouping is done. -/
theorem mirrorsIn_of_mem_groupsOf (wellFormed : graph.WellFormed)
    (member : group ∈ groupsOf scope graph) :
    MirrorsIn (groupUnified scope graph) group.language group.representative.identifier
      group.identifier := by
  have made : ∀ {view : View}, view.language = group.language →
      (groupUnified scope graph).facetAt group.identifier view =
        ((groupUnified scope graph).facetAt group.representative.identifier view).map
          groupFacet := fun own => facetAt_groupUnified_identifier wellFormed member own
  constructor
  · intro view own
    rw [made own, ← Option.isSome_iff_exists, ← Option.isSome_iff_exists, Option.isSome_map]
  · intro view original copy own known shown
    rw [made own, known, Option.map_some, Option.some.injEq] at shown
    rw [← shown]
    exact mirrors_groupFacet original
  · intro view
    constructor
    · rintro ⟨copy, own, known, isMain⟩
      rw [made own, Option.map_eq_some_iff] at known
      obtain ⟨original, before, rfl⟩ := known
      exact ⟨original, own, before, isMain⟩
    · rintro ⟨original, own, known, isMain⟩
      refine ⟨groupFacet original, own, ?_, isMain⟩
      rw [made own, known]
      rfl
  · intro view link mixins own source kind recorded
    exact exists_edges_groupUnified_movedTo wellFormed member own source
      (RelationshipKind.isStructural_iff.2 kind) recorded

/-- **A group mirrors its representative**, in each language of the scope. -/
theorem groupUnified_mirrors (reachable : graph.Reachable) {language : String}
    (included : scope.includes language = true) {group : String} {representative : Candidate}
    {others : List Candidate}
    (overloads : OverloadsIn (groupUnified scope graph) language group
      (representative :: others)) :
    MirrorsIn (groupUnified scope graph) language representative.identifier group := by
  have wellFormed := reachable.wellFormed
  obtain ⟨planned, member, rfl, rfl, members⟩ :=
    (overloadsIn_groupUnified_iff wellFormed included).1 overloads
  obtain ⟨rfl, -⟩ := List.cons_eq_cons.1 members
  exact mirrorsIn_of_mem_groupsOf wellFormed member

/-- An overload without a declaration, as it is ranked. -/
def undeclared (identifier : String) : Candidate :=
  { isDeprecated := false, declaration := "", identifier }

/-- The group of one language is made anew while another language still knows it. -/
theorem groupUnified_mirrors_bilingual :
    groupedBilingual.Reachable ∧
      Scope.includes (some (KeySet.ofList ["swift"])) "swift" = true ∧
      OverloadsIn (groupUnified (some (KeySet.ofList ["swift"])) groupedBilingual) "swift"
        "drawAt::OverloadGroup" [undeclared "drawAt", undeclared "drawIn"] ∧
      MirrorsIn (groupUnified (some (KeySet.ofList ["swift"])) groupedBilingual) "swift"
        "drawAt" "drawAt::OverloadGroup" := by
  have reachable : groupedBilingual.Reachable :=
    .group none (.merge _ _ _ (.merge _ _ _ (.empty "Kit")))
  let planned : PlannedGroup :=
    { language := "swift", path := ["Widget", "draw"], representative := undeclared "drawAt",
      others := [undeclared "drawIn"] }
  have included : Scope.includes (some (KeySet.ofList ["swift"])) "swift" = true := by
    decide +kernel
  have member : planned ∈ groupsOf (some (KeySet.ofList ["swift"])) groupedBilingual := by
    decide +kernel
  have overloads := (overloadsIn_groupUnified_iff reachable.wellFormed included).2
    ⟨planned, member, rfl, rfl, rfl⟩
  exact ⟨reachable, included, overloads, groupUnified_mirrors reachable included overloads⟩

end Overload

end ApiAtlas
