import ApiAtlas.Proofs.Overload.Ranking

/-!
# Families and candidates as they are found

A grouping reads families off the first main facets of all symbols and makes a
candidate of each member. The family that it reads off a symbol is the one to
which the symbol belongs (`familyIn?_eq_some_iff`), and the candidate says what
main graphs say about the symbol (`describes_unifiedCandidate`).
-/

set_option autoImplicit false

namespace ApiAtlas.Overload

/-! ## Collecting families -/

/-- Only the members that come with a key add to its family. -/
theorem foldl_family_at (key : FamilyKey) (members : List (FamilyKey × String))
    (held : Option (KeySet String)) :
    members.foldl
        (fun family member =>
          if key = member.1 then some (KeySet.add (family.getD Table.empty) member.2) else family)
        held =
      match members.filter fun member => key = member.1 with
      | [] => held
      | found => some ((found.map (·.2)).foldl KeySet.add (held.getD Table.empty)) := by
  induction members generalizing held with
  | nil => rfl
  | cons member rest ih =>
    rw [List.foldl_cons, ih]
    by_cases same : key = member.1
    · rw [if_pos same, List.filter_cons_of_pos (by simpa using same)]
      cases rest.filter fun other => key = other.1 <;> rfl
    · rw [if_neg same, List.filter_cons_of_neg (by simpa using same)]

/-- The family of a key is the set of the members that come with the key. -/
theorem get?_familiesOf (members : List (FamilyKey × String)) (key : FamilyKey) :
    (familiesOf members).get? key =
      match members.filter fun member => key = member.1 with
      | [] => none
      | found => some (KeySet.ofList (found.map (·.2))) := by
  have run := Table.get?_foldl_alter (fun member : FamilyKey × String => member.1)
    (fun member (family : Option (KeySet String)) =>
      some (KeySet.add (family.getD Table.empty) member.2)) members Table.empty key
  refine run.trans ((foldl_family_at key members none).trans ?_)
  cases members.filter fun member => key = member.1 <;> rfl

/-- There is no family without members. -/
theorem get?_familiesOf_eq_none_iff {members : List (FamilyKey × String)} {key : FamilyKey} :
    (familiesOf members).get? key = none ↔ ∀ identifier, (key, identifier) ∉ members := by
  have nothing : (familiesOf members).get? key = none ↔
      members.filter (fun member => key = member.1) = [] := by
    rw [get?_familiesOf]
    cases members.filter fun member => key = member.1 <;> simp
  rw [nothing, List.filter_eq_nil_iff]
  constructor
  · exact fun absent identifier member => absent _ member (decide_eq_true rfl)
  · intro absent member within shown
    refine absent member.2 ?_
    rwa [of_decide_eq_true shown]

/-- Who is in the family of a key has been collected with it. -/
theorem contains_familiesOf {members : List (FamilyKey × String)} {key : FamilyKey}
    {identifier : String} :
    (∃ family, (familiesOf members).get? key = some family ∧
        family.contains identifier = true) ↔ (key, identifier) ∈ members := by
  have collected : (key, identifier) ∈ members ↔
      identifier ∈ (members.filter fun member => key = member.1).map (·.2) := by
    simp only [List.mem_map, List.mem_filter, decide_eq_true_eq, Prod.exists]
    constructor
    · exact fun member => ⟨key, identifier, ⟨member, rfl⟩, rfl⟩
    · rintro ⟨_, _, ⟨member, rfl⟩, rfl⟩
      exact member
  rw [collected, get?_familiesOf]
  cases members.filter fun member => key = member.1 with
  | nil => simp
  | cons first rest => simp only [Option.some.injEq, exists_eq_left', KeySet.contains_ofList]

/-- Every family has a member. -/
theorem exists_contains_of_get?_familiesOf {members : List (FamilyKey × String)}
    {key : FamilyKey} {family : KeySet String}
    (found : (familiesOf members).get? key = some family) :
    ∃ identifier, family.contains identifier = true := by
  by_contra bare
  have absent : (familiesOf members).get? key = none := by
    refine get?_familiesOf_eq_none_iff.2 fun identifier member => bare ⟨identifier, ?_⟩
    obtain ⟨other, same, within⟩ := contains_familiesOf.2 member
    rw [found, Option.some.injEq] at same
    rwa [same]
  rw [found] at absent
  cases absent

/-- Families are those of the same members, in whatever order these are collected. -/
theorem familiesOf_congr {first second : List (FamilyKey × String)}
    (same : ∀ member, member ∈ first ↔ member ∈ second) : familiesOf first = familiesOf second := by
  refine Table.ext_get? fun key => ?_
  have absent : (familiesOf first).get? key = none ↔ (familiesOf second).get? key = none := by
    simp only [get?_familiesOf_eq_none_iff, same]
  have members : ∀ identifier,
      (∃ family, (familiesOf first).get? key = some family ∧ family.contains identifier = true) ↔
        ∃ family, (familiesOf second).get? key = some family ∧
          family.contains identifier = true := by
    simp only [contains_familiesOf, same, implies_true]
  cases left : (familiesOf first).get? key with
  | none => rw [absent.1 left]
  | some family =>
    cases right : (familiesOf second).get? key with
    | none =>
      rw [absent.2 right] at left
      cases left
    | some other =>
      simp only [left, right, Option.some.injEq, exists_eq_left'] at members
      rw [KeySet.ext_contains members]

/-! ## Reading symbols -/

section Reading

variable {graph : UnifiedGraph} {identifier : String} {symbol : UnifiedSymbol}

theorem mainIn_iff (found : graph.symbols.get? identifier = some symbol) {language : String}
    {view : View} {facet : Facet} :
    MainIn graph language identifier view facet ↔
      view.language = language ∧ symbol.facet? view = some facet ∧ facet.isMain = true := by
  constructor
  · rintro ⟨own, known, isMain⟩
    exact ⟨own, (facetIn_of_get? found view).symm.trans known, isMain⟩
  · rintro ⟨own, known, isMain⟩
    exact ⟨own, (facetIn_of_get? found view).trans known, isMain⟩

/-- The first wanted facet that is found is the one that is meant. -/
theorem find?_mainFacetsIn (found : graph.symbols.get? identifier = some symbol)
    (language : String) (wanted : Facet → Prop) [DecidablePred wanted] {facet : Facet} :
    (mainFacetsIn symbol language).find? (fun facet => wanted facet) = some facet ↔
      ∃ view, FirstMain graph language identifier wanted view facet := by
  rw [mainFacetsIn, UnifiedSymbol.mainFacets, List.find?_map, List.find?_filter,
    List.find?_filter, Option.map_eq_some_iff]
  constructor
  · rintro ⟨⟨view, held⟩, first, rfl⟩
    obtain ⟨known, passed, earliest⟩ := (Table.find?_entries_iff symbol.facets _).1 first
    simp only [Function.comp_apply, decide_eq_true_eq] at passed earliest
    refine ⟨view, (mainIn_iff found).2 ⟨passed.2.1, known, passed.1⟩, passed.2.2, ?_⟩
    intro other lower main holds
    obtain ⟨own, present, isMain⟩ := (mainIn_iff found).1 main
    exact earliest other lower present ⟨isMain, own, holds⟩
  · rintro ⟨view, main, holds, earliest⟩
    obtain ⟨own, known, isMain⟩ := (mainIn_iff found).1 main
    refine ⟨(view, facet), (Table.find?_entries_iff symbol.facets _).2 ⟨known, ?_, ?_⟩, rfl⟩
    · simp [own, isMain, holds]
    · intro other lower present passed
      simp only [Function.comp_apply, decide_eq_true_eq] at passed
      exact earliest other lower
        ((mainIn_iff found).2 ⟨passed.2.1, present, passed.1⟩) passed.2.2

theorem mem_mainFacetsIn (found : graph.symbols.get? identifier = some symbol)
    {language : String} {facet : Facet} :
    facet ∈ mainFacetsIn symbol language ↔
      ∃ view, MainIn graph language identifier view facet := by
  simp only [mainFacetsIn, UnifiedSymbol.mainFacets, List.mem_map, List.mem_filter,
    decide_eq_true_eq, Prod.exists, mainIn_iff found]
  constructor
  · rintro ⟨view, held, ⟨⟨member, isMain⟩, own⟩, rfl⟩
    exact ⟨view, own, Table.get?_eq_some_iff.2 member, isMain⟩
  · rintro ⟨view, own, known, isMain⟩
    exact ⟨view, facet, ⟨⟨Table.get?_eq_some_iff.1 known, isMain⟩, own⟩, rfl⟩

/-- The family that is read off a symbol is the one to which it belongs. -/
theorem familyIn?_eq_some_iff (found : graph.symbols.get? identifier = some symbol)
    {family : FamilyKey} :
    familyIn? symbol family.language = some family ↔
      ∃ view facet, FirstMain graph family.language identifier (fun _ => True) view facet ∧
        facet.description.kind.identifier = family.kind ∧
          facet.description.path = family.path := by
  have first : (mainFacetsIn symbol family.language).head? =
      (mainFacetsIn symbol family.language).find? fun _ => True := by
    cases mainFacetsIn symbol family.language <;> rfl
  rw [familyIn?, first, Option.map_eq_some_iff]
  simp only [find?_mainFacetsIn found]
  constructor
  · rintro ⟨facet, ⟨view, shown⟩, same⟩
    have kind := congrArg FamilyKey.kind same
    have path := congrArg FamilyKey.path same
    exact ⟨view, facet, shown, kind, path⟩
  · rintro ⟨view, facet, shown, kind, path⟩
    exact ⟨facet, ⟨view, shown⟩, by rw [kind, path]⟩

/-- The first image that is found is that of the first that has one. -/
theorem findSome?_eq_bind_find? {α β : Type} (image : α → Option β) (items : List α) :
    items.findSome? image = (items.find? fun item => (image item).isSome).bind image := by
  induction items with
  | nil => rfl
  | cons item rest ih =>
    rw [List.findSome?_cons, List.find?_cons]
    cases shown : image item with
    | none => exact ih
    | some found => exact shown.symm

theorem findSome?_mainFacetsIn (found : graph.symbols.get? identifier = some symbol)
    {language : String} {fragments : List Fragment} :
    (mainFacetsIn symbol language).findSome? (·.mixins.declaration?) = some fragments ↔
      ∃ view facet, FirstMain graph language identifier HasDeclaration view facet ∧
        facet.mixins.Declares fragments := by
  have first : (mainFacetsIn symbol language).find?
        (fun facet => facet.mixins.declaration?.isSome) =
      (mainFacetsIn symbol language).find? fun facet => HasDeclaration facet := by
    refine congrArg (List.find? · _) (funext fun facet => ?_)
    exact Bool.eq_iff_iff.2 (isSome_declaration?_iff.trans decide_eq_true_iff.symm)
  rw [findSome?_eq_bind_find?, first, Option.bind_eq_some_iff]
  simp only [find?_mainFacetsIn found, Mixins.declaration?_eq_some_iff]
  constructor
  · rintro ⟨facet, ⟨view, shown⟩, declared⟩
    exact ⟨view, facet, shown, declared⟩
  · rintro ⟨view, facet, shown, declared⟩
    exact ⟨facet, ⟨view, shown⟩, declared⟩

/-- The candidate of a symbol describes it. -/
theorem describes_unifiedCandidate (found : graph.symbols.get? identifier = some symbol)
    (own : symbol.identifier = identifier) (language : String) :
    Describes graph language (unifiedCandidate language symbol) := by
  subst own
  refine ⟨?_, ?_⟩
  · show (mainFacetsIn symbol language).any (·.mixins.isDeprecated) = true ↔ _
    rw [List.any_eq_true]
    simp only [mem_mainFacetsIn found, Mixins.isDeprecated_iff]
    constructor
    · rintro ⟨facet, ⟨view, main⟩, said⟩
      exact ⟨view, facet, main, said⟩
    · rintro ⟨view, facet, main, said⟩
      exact ⟨facet, ⟨view, main⟩, said⟩
  · rw [unifiedCandidate]
    unfold Candidate.of
    cases declared : (mainFacetsIn symbol language).findSome? (·.mixins.declaration?) with
    | none =>
      refine .inr ⟨?_, rfl⟩
      rintro view facet main ⟨fragments, declares⟩
      have nothing := List.findSome?_eq_none_iff.1 declared facet
        ((mem_mainFacetsIn found).2 ⟨view, main⟩)
      exact Mixins.declaration?_eq_none_iff.1 nothing fragments declares
    | some fragments =>
      obtain ⟨view, facet, shown, holds⟩ := (findSome?_mainFacetsIn found).1 declared
      exact .inl ⟨view, facet, fragments, shown, holds, rfl⟩

end Reading

end ApiAtlas.Overload
