import ApiAtlas.Proofs.Overload.Regrouping
import ApiAtlas.Proofs.Overload.Steps
import ApiAtlas.Proofs.Unified.Orphans

/-!
# Collecting orphans early

Orphans may be collected between merges and groupings, and not only at the end.
What has been set apart is put back by the next collection, so one would think
that it makes no difference. But it is put back over what has arrived in the
meantime, and a grouping does not see it.

A graph is compared with the one in which nothing is set apart
(`UnifiedGraph.restored`). A merge does the same to both exactly if what arrives
agrees with what is set apart under the same link
(`UnifiedGraph.restored_merge_iff`). A grouping does the same to both if it
would neither remove what is set apart, nor count a member less because of it,
nor copy it for a group (`Overload.Spared`). Along a run all of whose steps leave
what is set apart alone, early collections make no difference
(`UnifiedGraph.collectOrphans_after_early`). The first merge that does not brings
outdated mixins back (`UnifiedGraph.collectOrphans_merge_after_early_iff`,
`UnifiedGraph.collectOrphans_after_early_outdated`).
-/

set_option autoImplicit false

namespace ApiAtlas

/-- Mixins that have the same values where both have one. -/
def Mixins.Agree (first second : Mixins) : Prop :=
  ∀ key one other, Table.get? first key = some one → Table.get? second key = some other →
    one = other

/-- Mixins may be joined to others in either order exactly if they agree. -/
theorem EdgeTable.join_right_comm_iff {first second : Mixins} {held : Option Mixins} :
    join (join held (some first)) (some second) = join (join held (some second)) (some first) ↔
      first.Agree second := by
  constructor
  · intro swapped key one other left right
    have decides : ∀ {upper : Mixins} {mixin : Mixin}, Table.get? upper key = some mixin →
        ∀ below : Option Mixins,
          (join below (some upper)).bind (Table.get? · key) = some mixin := by
      intro upper mixin present below
      cases below <;> simp [Table.get?_union, present]
    have same := decides left (join held (some second))
    rw [← swapped, decides right (join held (some first))] at same
    exact (Option.some.inj same).symm
  · intro agree
    apply join_right_comm
    rintro _ _ ⟨⟩ ⟨⟩
    exact agree

namespace UnifiedGraph

variable {unified : UnifiedGraph}

/-! ## Graphs with nothing set apart -/

/-- The graph with its orphans put back. -/
def restored (unified : UnifiedGraph) : UnifiedGraph :=
  { unified with edges := unified.allEdges, orphans := Table.empty }

theorem get?_edges_restored (unified : UnifiedGraph) (key : View × Link) :
    Table.get? unified.restored.edges key =
      EdgeTable.join (Table.get? unified.edges key) (Table.get? unified.orphans key) :=
  get?_allEdges unified key

theorem WellFormed.restored (wellFormed : unified.WellFormed) : unified.restored.WellFormed :=
  ⟨wellFormed.identifier_eq, wellFormed.known, wellFormed.groups_iff⟩

/-- Collections put back the orphans first. -/
theorem collectOrphans_restored (unified : UnifiedGraph) :
    unified.restored.collectOrphans = unified.collectOrphans :=
  rfl

/-- What a collection sets apart is what is put back. -/
theorem restored_collectOrphans (unified : UnifiedGraph) :
    unified.collectOrphans.restored = unified.restored := by
  rw [restored, allEdges_collectOrphans]
  rfl

/-- **Two graphs are alike once their orphans are collected exactly if they are once these are put
back.** -/
theorem collectOrphans_eq_iff {first second : UnifiedGraph} :
    first.collectOrphans = second.collectOrphans ↔ first.restored = second.restored := by
  constructor
  · intro same
    rw [← restored_collectOrphans first, same, restored_collectOrphans]
  · intro same
    rw [← collectOrphans_restored first, same, collectOrphans_restored]

/-! ## Merges -/

/-- Where a graph records what is set apart, both agree on the mixins. -/
def SparedByMerge (graph : SymbolGraph) (unified : UnifiedGraph) : Prop :=
  ∀ view link parked arrived, Table.get? unified.orphans (view, link) = some parked →
    Table.get? graph.recorded (view, link) = some arrived → arrived.Agree parked

/-- **A merge does the same to what is set apart as to what is not exactly if they agree.** -/
theorem restored_merge_iff (graph : SymbolGraph) (source : String) (isMain : Bool) :
    (unified.merge graph source isMain).restored = unified.restored.merge graph source isMain ↔
      SparedByMerge graph unified := by
  have places : (unified.merge graph source isMain).restored =
        unified.restored.merge graph source isMain ↔
      ∀ key, Table.get? (unified.merge graph source isMain).restored.edges key =
        Table.get? (unified.restored.merge graph source isMain).edges key := by
    constructor
    · intro same key
      rw [same]
    · intro same
      have edges := Table.ext_get? same
      calc (unified.merge graph source isMain).restored
          = { unified.restored.merge graph source isMain with
              edges := (unified.merge graph source isMain).restored.edges } := rfl
        _ = unified.restored.merge graph source isMain := by rw [edges]
  have orphans : (unified.merge graph source isMain).orphans = unified.orphans := rfl
  simp only [places, get?_edges_restored, get?_edges_merge_join, orphans]
  constructor
  · intro same view link parked arrived held recorded
    have here := same (view, link)
    rw [held, recorded] at here
    exact EdgeTable.join_right_comm_iff.1 here
  · rintro spared ⟨view, link⟩
    apply EdgeTable.join_right_comm
    intro arrived parked recorded held
    exact spared view link parked arrived held recorded

end UnifiedGraph

/-! ## Groupings -/

namespace Overload

variable {unified : UnifiedGraph} {scope : Scope} {view : View} {link : Link}

/-- A grouping has nothing to do with a relationship that is set apart. -/
structure Spared (scope : Scope) (unified : UnifiedGraph) (view : View) (link : Link)
    (parked : Mixins) : Prop where
  /-- It would not be removed with the groups of earlier groupings. -/
  kept : scope.includes view.language = true → link.kind ≠ .overloadOf ∧
    unified.groups.contains link.source = false ∧ unified.groups.contains link.target = false
  /-- No member of a family would not count because of it. -/
  uncounted : link.kind = .defaultImplementationOf → ∀ family : FamilyKey,
    scope.includes family.language = true → BelongsTo unified family link.source →
      ¬BelongsTo unified family link.target
  /-- It places no representative, and would not be copied for a group. -/
  uncopied : link.kind.isStructural = true → ∀ group ∈ groupsOf scope unified,
    view.language = group.language → link.source ≠ group.representative.identifier
  /-- If it places a group that is made, it agrees with what is copied. -/
  agreeing : link.kind.isStructural = true → ∀ group ∈ groupsOf scope unified,
    view.language = group.language → link.source = group.identifier →
      ∀ copied, Table.get? (pruneUnified scope unified).edges
        (view, link.movedTo group.representative.identifier) = some copied → copied.Agree parked

/-- A grouping has nothing to do with what is set apart. -/
def SparesOrphans (scope : Scope) (unified : UnifiedGraph) : Prop :=
  ∀ view link parked, Table.get? unified.orphans (view, link) = some parked →
    Spared scope unified view link parked

/-- What is set apart is not removed with the groups. -/
theorem get?_edges_pruneUnified_restored (spares : SparesOrphans scope unified) (view : View)
    (link : Link) :
    Table.get? (pruneUnified scope unified.restored).edges (view, link) =
      EdgeTable.join (Table.get? (pruneUnified scope unified).edges (view, link))
        (Table.get? unified.orphans (view, link)) := by
  have groups : unified.restored.groups = unified.groups := rfl
  rw [get?_edges_pruneUnified, get?_edges_pruneUnified, groups, UnifiedGraph.get?_edges_restored]
  cases parked : Table.get? unified.orphans (view, link) with
  | none => simp only [Option.merge_none_right]
  | some mixins =>
    have kept := (spares view link mixins parked).kept
    have stays : ¬(scope.includes view.language && (link.kind = .overloadOf ||
        unified.groups.contains link.source || unified.groups.contains link.target)) = true := by
      cases included : scope.includes view.language with
      | false => simp
      | true =>
        obtain ⟨kind, source, target⟩ := kept included
        simp [kind, source, target]
    rw [if_neg stays, if_neg stays]

/-- In the languages of a scope the same members count. -/
theorem isDefaultIn_restored (wellFormed : unified.WellFormed)
    (spares : SparesOrphans scope unified) {family : FamilyKey} {members : KeySet String}
    (found : (unifiedFamilies scope (pruneUnified scope unified)).get? family = some members)
    {identifier : String} (member : members.contains identifier = true) :
    isDefaultIn (pruneUnified scope unified.restored).allRelationships members identifier =
      isDefaultIn (pruneUnified scope unified).allRelationships members identifier := by
  obtain ⟨included, meant⟩ := isFamily_of_get? found
  have before : ∀ {identifier}, members.contains identifier = true →
      BelongsTo unified family identifier := fun within =>
    (readAlike_pruneUnified wellFormed scope family.language).symm.belongsTo rfl
      ((meant _).1 within)
  rw [Bool.eq_iff_iff, isDefaultIn_iff_exists, isDefaultIn_iff_exists]
  constructor
  · rintro ⟨view, link, mixins, recorded, kind, rfl, target⟩
    rw [get?_edges_pruneUnified_restored spares] at recorded
    -- were it set apart, it would lead from one member of the family to another
    cases parked : Table.get? unified.orphans (view, link) with
    | some held =>
      exact absurd (before target)
        ((spares view link held parked).uncounted kind family included (before member))
    | none =>
      rw [parked] at recorded
      simp only [Option.merge_none_right] at recorded
      exact ⟨view, link, mixins, recorded, kind, rfl, target⟩
  · rintro ⟨view, link, mixins, recorded, kind, source, target⟩
    have present :
        (Table.get? (pruneUnified scope unified.restored).edges (view, link)).isSome := by
      rw [get?_edges_pruneUnified_restored spares, recorded, Option.isSome_merge]
      rfl
    obtain ⟨joined, shown⟩ := Option.isSome_iff_exists.1 present
    exact ⟨view, link, joined, shown, kind, source, target⟩

/-- **The same groups are planned.** -/
theorem groupsOf_restored (wellFormed : unified.WellFormed)
    (spares : SparesOrphans scope unified) :
    groupsOf scope unified.restored = groupsOf scope unified := by
  have families : unifiedFamilies scope (pruneUnified scope unified.restored) =
      unifiedFamilies scope (pruneUnified scope unified) := rfl
  rw [groupsOf, plan, families, groupsOf, plan]
  apply List.filterMap_congr
  rintro ⟨family, members⟩ entry
  have found := Table.get?_eq_some_iff.2 entry
  have same : eligible (pruneUnified scope unified.restored).allRelationships members =
      eligible (pruneUnified scope unified).allRelationships members := by
    apply List.filter_congr
    intro identifier member
    rw [isDefaultIn_restored wellFormed spares found (KeySet.mem_toList.1 member)]
  rw [planFamily, same]
  rfl

/-- The groups of the plan add the same relationships. -/
theorem addedAt_restored (spares : SparesOrphans scope unified) (view : View) (link : Link)
    {group : PlannedGroup} (member : group ∈ groupsOf scope unified) :
    addedAt (pruneUnified scope unified.restored) view link group =
      addedAt (pruneUnified scope unified) view link group := by
  have related : group.relates (pruneUnified scope unified.restored) view link =
      group.relates (pruneUnified scope unified) view link := rfl
  rw [addedAt, addedAt, related]
  by_cases own : view.language = group.language
  · by_cases placed : link.source = group.identifier ∧ link.kind.isStructural = true
    · have copied : Table.get? (pruneUnified scope unified.restored).edges
            (view, link.movedTo group.representative.identifier) =
          Table.get? (pruneUnified scope unified).edges
            (view, link.movedTo group.representative.identifier) := by
        rw [get?_edges_pruneUnified_restored spares]
        cases parked : Table.get? unified.orphans
            (view, link.movedTo group.representative.identifier) with
        | none => exact Option.merge_none_right
        | some held =>
          exact absurd rfl ((spares _ _ held parked).uncopied placed.2 group member own)
      rw [copied]
    · simp only [if_neg placed]
  · simp only [if_neg own]

/-- What the groups of the plan add agrees with what is set apart. -/
theorem agree_of_addedAt (wellFormed : unified.WellFormed) (spares : SparesOrphans scope unified)
    {parked added : Mixins} (held : Table.get? unified.orphans (view, link) = some parked)
    (shown : (groupsOf scope unified).findSome?
      (addedAt (pruneUnified scope unified) view link) = some added) : added.Agree parked := by
  obtain ⟨group, member, shown⟩ := List.exists_of_findSome?_eq_some shown
  have spared := spares view link parked held
  have own := (touches_of_addedAt shown).1
  have included : scope.includes view.language = true := by
    rw [own]
    exact includes_of_mem_groupsOf wellFormed member
  have kind := (spared.kept included).1
  obtain ⟨-, source, structural, copied⟩ := (addedAt_eq_some_iff_of_ne kind).1 shown
  exact spared.agreeing structural group member own source added copied

/-- **A grouping that has nothing to do with what is set apart does the same as if nothing
were.** -/
theorem restored_groupUnified (wellFormed : unified.WellFormed)
    (spares : SparesOrphans scope unified) :
    (groupUnified scope unified).restored = groupUnified scope unified.restored := by
  have plan := isPlan_groupsOf wellFormed scope
  obtain ⟨moduleName, sources, orphans⟩ := frame_groupUnified scope unified
  obtain ⟨moduleName', sources', orphans'⟩ := frame_groupUnified scope unified.restored
  have grouped : groupUnified scope unified.restored =
      (groupsOf scope unified).foldl addGroup (pruneUnified scope unified.restored) := by
    rw [groupUnified, groupsOf_restored wellFormed spares]
  refine (wellFormed_groupUnified wellFormed scope).restored.ext
    (wellFormed_groupUnified wellFormed.restored scope) (moduleName.trans moduleName'.symm)
    (sources.trans sources'.symm) ?_ ?_ orphans'.symm
  · have shown : ∀ identifier view, (pruneUnified scope unified.restored).facetAt identifier view =
        (pruneUnified scope unified).facetAt identifier view := fun _ _ => rfl
    intro identifier view
    rw [grouped]
    exact (facetAt_addGroups_congr plan (areFresh_groupsOf wellFormed scope) shown
      identifier view).symm
  · refine Table.ext_get? fun place => ?_
    obtain ⟨view, link⟩ := place
    have each : (groupsOf scope unified).map
          (addedAt (pruneUnified scope unified.restored) view link) =
        (groupsOf scope unified).map (addedAt (pruneUnified scope unified) view link) :=
      List.map_congr_left fun group member => addedAt_restored spares view link member
    have added : (groupsOf scope unified).findSome?
          (addedAt (pruneUnified scope unified.restored) view link) =
        (groupsOf scope unified).findSome? (addedAt (pruneUnified scope unified) view link) := by
      rw [← Function.id_comp (addedAt (pruneUnified scope unified.restored) view link),
        ← List.findSome?_map, each, List.findSome?_map, Function.id_comp]
    rw [UnifiedGraph.get?_edges_restored, orphans, grouped, get?_edges_addGroups plan, added,
      get?_edges_groupUnified wellFormed, get?_edges_pruneUnified_restored spares]
    -- on the one side what the groups add comes under what is set apart, on the other over it
    apply EdgeTable.join_right_comm
    intro left right shown held
    exact agree_of_addedAt wellFormed spares held shown

end Overload

/-! ## Runs -/

namespace UnifiedGraph

variable {unified : UnifiedGraph} {steps : List Step}

/-- The step sets orphans apart. -/
def Step.isCollection : Step → Bool
  | merge .. | group _ => false
  | collectOrphans => true

/-- The other steps of a run. -/
def uncollected (steps : List Step) : List Step :=
  steps.filter fun step => !step.isCollection

/-- The step has nothing to do with what is set apart. -/
def Step.Spares (unified : UnifiedGraph) : Step → Prop
  | merge graph _ _ => SparedByMerge graph unified
  | group scope => Overload.SparesOrphans scope unified
  | collectOrphans => True

/-- No step of a run has to do with what is set apart when it is done. -/
def Undisturbed : UnifiedGraph → List Step → Prop
  | _, [] => True
  | unified, step :: rest => step.Spares unified ∧ Undisturbed (step.run unified) rest

theorem WellFormed.run (wellFormed : unified.WellFormed) (step : Step) :
    (step.run unified).WellFormed := by
  cases step with
  | merge graph source isMain => exact wellFormed.merge graph source isMain
  | group scope => exact Overload.wellFormed_groupUnified wellFormed scope
  | collectOrphans => exact wellFormed.collectOrphans

/-- **What is set apart makes no difference to a step that has nothing to do with it, and putting
it back undoes a collection.** -/
theorem restored_run (wellFormed : unified.WellFormed) {step : Step}
    (spares : step.Spares unified) :
    (step.run unified).restored = unified.restored.after (uncollected [step]) := by
  cases step with
  | merge graph source isMain => exact (restored_merge_iff graph source isMain).2 spares
  | group scope => exact Overload.restored_groupUnified wellFormed spares
  | collectOrphans => exact restored_collectOrphans unified

/-- **An undisturbed run does what it would do if nothing were ever set apart.** -/
theorem restored_after (wellFormed : unified.WellFormed) (undisturbed : Undisturbed unified steps) :
    (unified.after steps).restored = unified.restored.after (uncollected steps) := by
  induction steps generalizing unified with
  | nil => rfl
  | cons step rest ih =>
    obtain ⟨spares, undisturbed⟩ := undisturbed
    have split : uncollected (step :: rest) = uncollected [step] ++ uncollected rest :=
      List.filter_append [step] rest
    calc ((step.run unified).after rest).restored
        = (step.run unified).restored.after (uncollected rest) :=
          ih (wellFormed.run step) undisturbed
      _ = (unified.restored.after (uncollected [step])).after (uncollected rest) := by
          rw [restored_run wellFormed spares]
      _ = unified.restored.after (uncollected (step :: rest)) := by
          rw [split, after_append]

/-- Where nothing is set apart, every step spares it. -/
theorem Step.spares (noneApart : unified.orphans = Table.empty) (step : Step) :
    step.Spares unified := by
  have nothing : ∀ {key : View × Link} {parked : Mixins},
      Table.get? unified.orphans key ≠ some parked := by
    rw [noneApart]
    nofun
  cases step with
  | merge graph source isMain =>
    intro view link parked arrived held
    exact absurd held nothing
  | group scope =>
    intro view link parked held
    exact absurd held nothing
  | collectOrphans => trivial

/-- A run without collections from where nothing is set apart is undisturbed. -/
theorem undisturbed_uncollected (noneApart : unified.orphans = Table.empty) (steps : List Step) :
    Undisturbed unified (uncollected steps) := by
  induction steps generalizing unified with
  | nil => trivial
  | cons step rest ih =>
    cases step with
    | merge graph source isMain =>
      exact ⟨Step.spares noneApart (.merge graph source isMain), ih noneApart⟩
    | group scope =>
      have frame := (Overload.frame_groupUnified scope unified).2.2
      exact ⟨Step.spares noneApart (.group scope), ih (frame.trans noneApart)⟩
    | collectOrphans => exact ih noneApart

/-- A run and the same run without its collections, both undisturbed, come to the same if what
they set apart is put back. -/
theorem restored_after_early (wellFormed : unified.WellFormed)
    (early : Undisturbed unified steps) (late : Undisturbed unified (uncollected steps)) :
    (unified.after steps).restored = (unified.after (uncollected steps)).restored := by
  have again : uncollected (uncollected steps) = uncollected steps := by
    rw [uncollected, uncollected, List.filter_filter]
    simp only [Bool.and_self]
  rw [restored_after wellFormed early, restored_after wellFormed late, again]

/-- **Early collections make a difference to the next merge exactly if what arrives does not agree
with what they have set apart.** -/
theorem collectOrphans_merge_after_early_iff (reachable : unified.Reachable)
    (early : Undisturbed unified steps) (late : Undisturbed unified (uncollected steps))
    {graph : SymbolGraph} (source : String) (isMain : Bool)
    (spares : SparedByMerge graph (unified.after (uncollected steps))) :
    ((unified.after steps).merge graph source isMain).collectOrphans =
        ((unified.after (uncollected steps)).merge graph source isMain).collectOrphans ↔
      SparedByMerge graph (unified.after steps) := by
  rw [collectOrphans_eq_iff, (restored_merge_iff graph source isMain).2 spares,
    ← restored_after_early reachable.wellFormed early late, restored_merge_iff]

/-- **Early collections make no difference to a run that is undisturbed with and without them.** -/
theorem collectOrphans_after_early (reachable : unified.Reachable) (steps : List Step)
    (early : Undisturbed unified steps) (late : Undisturbed unified (uncollected steps)) :
    (unified.after steps).collectOrphans =
      (unified.after (uncollected steps)).collectOrphans :=
  collectOrphans_eq_iff.2 (restored_after_early reachable.wellFormed early late)

/-- A relationship of two strangers. -/
def haunting : Link :=
  { source := "stranger", target := "ghost", kind := .memberOf }

/-- Overloads, and the relationship of the strangers with a note. -/
def noted (key note : String) : SymbolGraph :=
  Overload.drawings.addRelationship
    { link := haunting, mixins := Table.ofList [(key, .verbatim (.text note))] }

/-- A run that sets the relationship of the strangers apart before a grouping and a merge. -/
def notedTwice (key note : String) : List Step :=
  [.merge (noted "note" "old") "Kit.symbols.json" true, .collectOrphans, .group none,
    .merge (noted key note) "Kit~more.symbols.json" true]

/-- The graph of the run before the grouping. -/
def unifiedNoted : UnifiedGraph :=
  (empty "Kit").after ((notedTwice "note" "old").take 2)

/-- What is set apart is the relationship of the strangers with its note. -/
theorem parked_unifiedNoted {view : View} {link : Link} {parked : Mixins}
    (held : Table.get? unifiedNoted.orphans (view, link) = some parked) :
    view = { language := "swift" } ∧ link = haunting ∧
      parked = Table.ofList [("note", .verbatim (.text "old"))] := by
  have alone : unifiedNoted.orphans.entries =
      [(({ language := "swift" }, haunting),
        Table.ofList [("note", .verbatim (.text "old"))])] := by decide +kernel
  have member := Table.get?_eq_some_iff.1 held
  rw [alone, List.mem_singleton] at member
  cases member
  exact ⟨rfl, rfl, rfl⟩

theorem sparesOrphans_unifiedNoted : Overload.SparesOrphans none unifiedNoted := by
  intro view link parked held
  obtain ⟨rfl, rfl, rfl⟩ := parked_unifiedNoted held
  have plain : ∀ group ∈ Overload.groupsOf none unifiedNoted,
      haunting.source ≠ group.representative.identifier ∧ haunting.source ≠ group.identifier := by
    decide +kernel
  constructor
  · intro _
    decide +kernel
  · nofun
  · intro _ group member _
    exact (plain group member).1
  · intro _ group member _ same
    exact absurd same (plain group member).2

/-- What arrives later says something else about the strangers. -/
theorem sparedByMerge_unifiedNoted : SparedByMerge (noted "since" "new") unifiedNoted := by
  intro view link parked arrived held recorded
  obtain ⟨rfl, rfl, rfl⟩ := parked_unifiedNoted held
  have since : Table.get? (noted "since" "new").recorded ({ language := "swift" }, haunting) =
      some (Table.ofList [("since", .verbatim (.text "new"))]) := by decide +kernel
  cases since.symm.trans recorded
  intro key one other new old
  have newKey : (key, one) ∈ [("since", Mixin.verbatim (.text "new"))] :=
    Table.get?_eq_some_iff.1 new
  have oldKey : (key, other) ∈ [("note", Mixin.verbatim (.text "old"))] :=
    Table.get?_eq_some_iff.1 old
  cases List.mem_singleton.1 newKey
  have same : "since" = "note" := congrArg Prod.fst (List.mem_singleton.1 oldKey)
  exact absurd same (by decide)

theorem collectOrphans_after_early_noted :
    (empty "Kit").Reachable ∧ unifiedNoted.orphans.keys.length = 1 ∧
      (Overload.groupsOf none unifiedNoted).length = 1 ∧
      Undisturbed (empty "Kit") (notedTwice "since" "new") ∧
      Undisturbed (empty "Kit") (uncollected (notedTwice "since" "new")) ∧
      ((empty "Kit").after (notedTwice "since" "new")).collectOrphans =
        ((empty "Kit").after (uncollected (notedTwice "since" "new"))).collectOrphans := by
  have early : Undisturbed (empty "Kit") (notedTwice "since" "new") := by
    refine ⟨Step.spares rfl _, trivial, sparesOrphans_unifiedNoted, ?_, trivial⟩
    intro view link parked arrived held
    have still : (Overload.groupUnified none unifiedNoted).orphans = unifiedNoted.orphans :=
      (Overload.frame_groupUnified none unifiedNoted).2.2
    exact sparedByMerge_unifiedNoted view link parked arrived (still ▸ held)
  have late : Undisturbed (empty "Kit") (uncollected (notedTwice "since" "new")) :=
    undisturbed_uncollected rfl _
  exact ⟨.empty "Kit", by decide +kernel, by decide +kernel, early, late,
    collectOrphans_after_early (.empty "Kit") _ early late⟩

/-- A collection before a merge brings an outdated note back. -/
theorem collectOrphans_after_early_outdated :
    (empty "Kit").Reachable ∧
      ((empty "Kit").after (notedTwice "note" "new")).collectOrphans ≠
        ((empty "Kit").after (uncollected (notedTwice "note" "new"))).collectOrphans := by
  refine ⟨.empty "Kit", ?_⟩
  decide +kernel

end UnifiedGraph

end ApiAtlas
