import ApiAtlas.Proofs.Overload.Pruning

/-!
# Families and rankings as they are meant

What a family is, which members count and how they are ranked is said here
without a word about how a grouping finds it out. A symbol belongs, in one
language, to the family that the first contribution of a main graph shows
(`BelongsTo`). It remains in it unless it is the default implementation of
another member (`Remains`). A ranking lists the members that remain, each
described by what the main graphs say about it (`Describes`), and each before
those that it precedes (`Candidate.Precedes`).

A family has one ranking at most (`Ranking.unique`). Graphs that say the same
about symbols that are no groups have the same rankings (`ReadAlike.ranking_iff`).
-/

set_option autoImplicit false

namespace ApiAtlas

/-! ## What mixins say -/

namespace Mixins

variable {mixins : Mixins}

/-- The mixins have a declaration with these fragments. -/
def Declares (mixins : Mixins) (fragments : List Fragment) : Prop :=
  Table.get? mixins "declarationFragments" = some (.declaration fragments)

theorem Declares.unique {fragments others : List Fragment} (one : mixins.Declares fragments)
    (another : mixins.Declares others) : fragments = others := by
  have same := one.symm.trans another
  rwa [Option.some.injEq, Mixin.declaration.injEq] at same

theorem declaration?_eq_some_iff {fragments : List Fragment} :
    mixins.declaration? = some fragments ↔ mixins.Declares fragments := by
  constructor
  · intro found
    rw [declaration?] at found
    split at found
    · next known => rwa [Option.some.inj found] at known
    · cases found
  · intro declares
    rw [declaration?, show Table.get? mixins Mixin.declarationKey = _ from declares]

theorem declaration?_eq_none_iff :
    mixins.declaration? = none ↔ ∀ fragments, ¬mixins.Declares fragments := by
  rw [Option.eq_none_iff_forall_ne_some]
  exact forall_congr' fun fragments => not_congr declaration?_eq_some_iff

/-- Some item of the availability says that the symbol is deprecated: without a condition, or since
a version. -/
def SaysDeprecated (mixins : Mixins) : Prop :=
  ∃ items, Table.get? mixins "availability" = some (.availability items) ∧
    ∃ item ∈ items, item.isUnconditionallyDeprecated = true ∨ item.deprecated.isSome = true

theorem availability?_eq_some_iff {items : List Availability} :
    mixins.availability? = some items ↔
      Table.get? mixins "availability" = some (.availability items) := by
  constructor
  · intro found
    rw [availability?] at found
    split at found
    · next known => rwa [Option.some.inj found] at known
    · cases found
  · intro known
    rw [availability?, show Table.get? mixins Mixin.availabilityKey = _ from known]

theorem isDeprecated_iff : mixins.isDeprecated = true ↔ mixins.SaysDeprecated := by
  rw [isDeprecated, SaysDeprecated]
  simp only [← availability?_eq_some_iff]
  cases availability? mixins with
  | none => simp
  | some items => simp [Availability.isDeprecated]

end Mixins

namespace Overload

/-! ## The order of candidates -/

namespace Candidate

variable {first second : Candidate}

/-- A candidate that is not deprecated comes before one that is; otherwise the text of the
declaration decides, and then the identifier. -/
def Precedes (first second : Candidate) : Prop :=
  (first.isDeprecated = false ∧ second.isDeprecated = true) ∨
    first.isDeprecated = second.isDeprecated ∧
      (first.declaration < second.declaration ∨
        first.declaration = second.declaration ∧ first.identifier < second.identifier)

theorem precedes_iff : first.Precedes second ↔ Key.rank first second = .lt := by
  refine Iff.trans ?_ (Key.rank_triple_lt_iff first.parts second.parts).symm
  rw [Key.rank_bool_lt_iff, Key.rank_text_lt_iff, Key.rank_text_lt_iff]
  exact Iff.rfl

theorem Precedes.ne (before : first.Precedes second) : first ≠ second :=
  Key.ne_of_rank_lt (precedes_iff.1 before)

theorem Precedes.asymm (before : first.Precedes second) : ¬second.Precedes first := by
  intro after
  exact Key.rank_ne_lt_of_lt (precedes_iff.1 before) (precedes_iff.1 after)

end Candidate

/-! ## Contributions of main graphs -/

/-- A facet to which a main graph contributed, in a view of a language. -/
structure MainIn (graph : UnifiedGraph) (language identifier : String) (view : View)
    (facet : Facet) : Prop where
  language_eq : view.language = language
  known : graph.facetAt identifier view = some facet
  isMain : facet.isMain = true

/-- The wanted facet of a main graph with the first view in a language. -/
structure FirstMain (graph : UnifiedGraph) (language identifier : String)
    (wanted : Facet → Prop) (view : View) (facet : Facet) : Prop where
  main : MainIn graph language identifier view facet
  holds : wanted facet
  first : ∀ other lower, MainIn graph language identifier other lower → wanted lower →
    Key.rank other view ≠ .lt

/-- Some main graph says in a language that a symbol is deprecated. -/
def IsDeprecatedIn (graph : UnifiedGraph) (language identifier : String) : Prop :=
  ∃ view facet, MainIn graph language identifier view facet ∧ facet.mixins.SaysDeprecated

/-- A facet with a declaration. -/
def HasDeclaration (facet : Facet) : Prop :=
  ∃ fragments, facet.mixins.Declares fragments

theorem isSome_declaration?_iff {facet : Facet} :
    facet.mixins.declaration?.isSome = true ↔ HasDeclaration facet := by
  rw [Option.isSome_iff_exists, HasDeclaration]
  exact exists_congr fun _ => Mixins.declaration?_eq_some_iff

instance : DecidablePred HasDeclaration := fun _ =>
  decidable_of_iff _ isSome_declaration?_iff

/-- The spellings, in a row, of the first declaration of a main graph in a language, simplified;
without any declaration there are none. -/
def DeclaredAs (graph : UnifiedGraph) (language identifier text : String) : Prop :=
  (∃ view facet fragments, FirstMain graph language identifier HasDeclaration view facet ∧
      facet.mixins.Declares fragments ∧
        text = String.join ((Declaration.simplify fragments).map (·.spelling))) ∨
    (∀ view facet, MainIn graph language identifier view facet → ¬HasDeclaration facet) ∧ text = ""

/-- The candidate says what main graphs say about its symbol in a language. -/
structure Describes (graph : UnifiedGraph) (language : String) (candidate : Candidate) :
    Prop where
  deprecated : candidate.isDeprecated = true ↔
    IsDeprecatedIn graph language candidate.identifier
  declaration : DeclaredAs graph language candidate.identifier candidate.declaration

/-! ## Members -/

/-- A symbol that is no group belongs to the family that its first main facet shows. -/
def BelongsTo (graph : UnifiedGraph) (family : FamilyKey) (identifier : String) : Prop :=
  graph.groups.contains identifier = false ∧
    ∃ view facet, FirstMain graph family.language identifier (fun _ => True) view facet ∧
      facet.description.kind.identifier = family.kind ∧ facet.description.path = family.path

/-- Some view has a symbol as a default implementation of a member of a family. -/
def Implements (graph : UnifiedGraph) (family : FamilyKey) (identifier : String) : Prop :=
  ∃ view link mixins, Table.get? graph.edges (view, link) = some mixins ∧
    link.kind = .defaultImplementationOf ∧ link.source = identifier ∧
      BelongsTo graph family link.target

/-- A member that counts. -/
def Remains (graph : UnifiedGraph) (family : FamilyKey) (identifier : String) : Prop :=
  BelongsTo graph family identifier ∧ ¬Implements graph family identifier

/-- The members of a family that count, as they are ranked. -/
structure Ranking (graph : UnifiedGraph) (family : FamilyKey) (ranked : List Candidate) :
    Prop where
  described : ∀ member ∈ ranked, Describes graph family.language member
  members : ∀ identifier, (∃ member ∈ ranked, member.identifier = identifier) ↔
    Remains graph family identifier
  ascending : ranked.Pairwise Candidate.Precedes

/-! ## What is read is read in one way -/

section Uniqueness

variable {graph : UnifiedGraph} {language identifier : String} {wanted : Facet → Prop}

theorem FirstMain.unique {view other : View} {facet lower : Facet}
    (one : FirstMain graph language identifier wanted view facet)
    (another : FirstMain graph language identifier wanted other lower) :
    view = other ∧ facet = lower := by
  have same : view = other := by
    cases ranked : Key.rank view other with
    | lt => exact absurd ranked (another.first view facet one.main one.holds)
    | eq => exact Key.eq_of_rank ranked
    | gt =>
      exact absurd (Key.rank_gt_iff.1 ranked) (one.first other lower another.main another.holds)
  subst same
  exact ⟨rfl, Option.some.inj (one.main.known.symm.trans another.main.known)⟩

/-- In one language a symbol belongs to one family. -/
theorem BelongsTo.unique {first second : FamilyKey} (one : BelongsTo graph first identifier)
    (another : BelongsTo graph second identifier) (language : first.language = second.language) :
    first = second := by
  obtain ⟨-, view, facet, shown, kind, path⟩ := one
  obtain ⟨-, other, lower, seen, alike, way⟩ := another
  rw [language] at shown
  obtain ⟨-, rfl⟩ := shown.unique seen
  cases first
  cases second
  simp_all

theorem DeclaredAs.unique {text other : String} (one : DeclaredAs graph language identifier text)
    (another : DeclaredAs graph language identifier other) : text = other := by
  rcases one with ⟨view, facet, fragments, first, found, rfl⟩ | ⟨none, rfl⟩
  · rcases another with ⟨view', lower, fragments', first', found', rfl⟩ | ⟨none, rfl⟩
    · obtain ⟨-, rfl⟩ := first.unique first'
      rw [found.unique found']
    · exact absurd first.holds (none view facet first.main)
  · rcases another with ⟨view, facet, -, first, -, -⟩ | ⟨-, rfl⟩
    · exact absurd first.holds (none view facet first.main)
    · rfl

/-- Candidates of one symbol that describe the same are equal. -/
theorem Describes.eq_of_identifier {first second : Candidate}
    (one : Describes graph language first) (another : Describes graph language second)
    (identifier : first.identifier = second.identifier) : first = second := by
  have deprecated : first.isDeprecated = second.isDeprecated := by
    rw [Bool.eq_iff_iff, one.deprecated, another.deprecated, identifier]
  have declaration := one.declaration
  rw [identifier] at declaration
  have text := declaration.unique another.declaration
  cases first
  cases second
  simp_all

end Uniqueness

namespace Ranking

variable {graph : UnifiedGraph} {family : FamilyKey} {ranked other : List Candidate}

/-- No symbol is ranked twice. -/
theorem distinct (ranking : Ranking graph family ranked) :
    (ranked.map (·.identifier)).Nodup := by
  refine List.pairwise_map.2 (ranking.ascending.imp_of_mem ?_)
  intro first second one another before same
  have equal := (ranking.described first one).eq_of_identifier
    (ranking.described second another) same
  exact before.ne equal

/-- **A family has one ranking at most.** -/
theorem unique (one : Ranking graph family ranked) (another : Ranking graph family other) :
    ranked = other := by
  have within : ∀ {left right : List Candidate}, Ranking graph family left →
      Ranking graph family right → ∀ member ∈ left, member ∈ right := by
    intro left right ofLeft ofRight member present
    obtain ⟨twin, found, same⟩ := (ofRight.members member.identifier).2
      ((ofLeft.members member.identifier).1 ⟨member, present, rfl⟩)
    have equal := (ofRight.described twin found).eq_of_identifier
      (ofLeft.described member present) same
    rwa [← equal]
  have nodup : ∀ {members : List Candidate}, Ranking graph family members → members.Nodup :=
    fun ranking => ranking.ascending.imp Candidate.Precedes.ne
  refine List.Perm.eq_of_pairwise (fun first second _ _ before after => ?_) one.ascending
    another.ascending ?_
  · exact absurd after before.asymm
  · refine (List.perm_ext_iff_of_nodup (nodup one) (nodup another)).2 fun member => ?_
    exact ⟨within one another member, within another one member⟩

theorem belongsTo (ranking : Ranking graph family ranked) {member : Candidate}
    (within : member ∈ ranked) : BelongsTo graph family member.identifier :=
  ((ranking.members member.identifier).1 ⟨member, within, rfl⟩).1

end Ranking

/-! ## Graphs that say the same -/

/-- Two facets that differ in the place in a group alone. -/
def AlikeButPlace (first second : Facet) : Prop :=
  first.withoutPlace = second.withoutPlace

namespace AlikeButPlace

variable {first second : Facet}

theorem isMain (alike : AlikeButPlace first second) : first.isMain = second.isMain :=
  (congrArg Facet.isMain alike : first.withoutPlace.isMain = second.withoutPlace.isMain)

theorem description (alike : AlikeButPlace first second) :
    first.description = second.description :=
  (congrArg Facet.description alike :
    first.withoutPlace.description = second.withoutPlace.description)

/-- Apart from the place they have the same mixins. -/
theorem get?_mixins (alike : AlikeButPlace first second) {key : String}
    (other : key ≠ Mixin.overloadKey) :
    Table.get? first.mixins key = Table.get? second.mixins key := by
  have mixins := congrArg (fun facet => Table.get? facet.mixins key) alike
  simpa only [Facet.withoutPlace, Table.get?_erase, if_neg other] using mixins

theorem declares (alike : AlikeButPlace first second) {fragments : List Fragment}
    (declares : first.mixins.Declares fragments) : second.mixins.Declares fragments := by
  rwa [Mixins.Declares, ← alike.get?_mixins (by decide)]

theorem saysDeprecated (alike : AlikeButPlace first second)
    (said : first.mixins.SaysDeprecated) : second.mixins.SaysDeprecated := by
  obtain ⟨items, known, deprecated⟩ := said
  rw [alike.get?_mixins (by decide)] at known
  exact ⟨items, known, deprecated⟩

end AlikeButPlace

/-- Well-formed graphs that say the same, in one language, about symbols that are no groups and
which of them are default implementations of others. -/
structure ReadAlike (language : String) (first second : UnifiedGraph) : Prop where
  ofFirst : first.WellFormed
  ofSecond : second.WellFormed
  facets : ∀ identifier view, isGroupIdentifier identifier = false → view.language = language →
    (first.facetAt identifier view).map Facet.withoutPlace =
      (second.facetAt identifier view).map Facet.withoutPlace
  implementations : ∀ view link, link.kind = .defaultImplementationOf →
    isGroupIdentifier link.source = false → isGroupIdentifier link.target = false →
      Table.get? first.edges (view, link) = Table.get? second.edges (view, link)

/-- Members of families are no groups. -/
theorem BelongsTo.plain {graph : UnifiedGraph} (wellFormed : graph.WellFormed)
    {family : FamilyKey} {identifier : String} (member : BelongsTo graph family identifier) :
    isGroupIdentifier identifier = false := by
  obtain ⟨noGroup, view, facet, first, -⟩ := member
  refine Bool.eq_false_iff.2 fun suffixed => ?_
  rw [wellFormed.contains_groups_iff.2 ⟨⟨view, facet, first.main.known⟩, suffixed⟩] at noGroup
  cases noGroup

namespace ReadAlike

variable {language : String} {first second : UnifiedGraph}

theorem refl {graph : UnifiedGraph} (wellFormed : graph.WellFormed) (language : String) :
    ReadAlike language graph graph :=
  ⟨wellFormed, wellFormed, fun _ _ _ _ => rfl, fun _ _ _ _ _ => rfl⟩

theorem symm (alike : ReadAlike language first second) : ReadAlike language second first where
  ofFirst := alike.ofSecond
  ofSecond := alike.ofFirst
  facets identifier view plain own := (alike.facets identifier view plain own).symm
  implementations view link kind source target :=
    (alike.implementations view link kind source target).symm

theorem mainIn (alike : ReadAlike language first second) {identifier : String}
    (plain : isGroupIdentifier identifier = false) {view : View} {facet : Facet}
    (main : MainIn first language identifier view facet) :
    ∃ other, MainIn second language identifier view other ∧ AlikeButPlace facet other := by
  have same := alike.facets identifier view plain main.language_eq
  rw [main.known, Option.map_some, eq_comm, Option.map_eq_some_iff] at same
  obtain ⟨other, known, equal⟩ := same
  have twin : AlikeButPlace facet other := equal.symm
  exact ⟨other, ⟨main.language_eq, known, twin.isMain.symm.trans main.isMain⟩, twin⟩

theorem firstMain (alike : ReadAlike language first second) {identifier : String}
    (plain : isGroupIdentifier identifier = false) {wanted : Facet → Prop}
    (respects : ∀ {upper lower}, AlikeButPlace upper lower → wanted upper → wanted lower)
    {view : View} {facet : Facet} (shown : FirstMain first language identifier wanted view facet) :
    ∃ other, FirstMain second language identifier wanted view other ∧
      AlikeButPlace facet other := by
  obtain ⟨other, main, twin⟩ := alike.mainIn plain shown.main
  refine ⟨other, ⟨main, respects twin shown.holds, fun earlier lower contributed holds => ?_⟩, twin⟩
  obtain ⟨upper, original, same⟩ := alike.symm.mainIn plain contributed
  exact shown.first earlier upper original (respects same holds)

theorem belongsTo (alike : ReadAlike language first second) {family : FamilyKey}
    (own : family.language = language) {identifier : String}
    (member : BelongsTo first family identifier) : BelongsTo second family identifier := by
  subst own
  have plain := member.plain alike.ofFirst
  obtain ⟨-, view, facet, shown, kind, path⟩ := member
  obtain ⟨other, seen, twin⟩ := alike.firstMain plain (fun _ holds => holds) shown
  refine ⟨alike.ofSecond.contains_groups_eq_false plain, view, other, seen, ?_, ?_⟩
  · rw [← twin.description, kind]
  · rw [← twin.description, path]

theorem implements (alike : ReadAlike language first second) {family : FamilyKey}
    (own : family.language = language) {identifier : String}
    (plain : isGroupIdentifier identifier = false)
    (implements : Implements first family identifier) : Implements second family identifier := by
  obtain ⟨view, link, mixins, recorded, kind, source, target⟩ := implements
  refine ⟨view, link, mixins, ?_, kind, source, alike.belongsTo own target⟩
  rwa [← alike.implementations view link kind (source ▸ plain) (target.plain alike.ofFirst)]

theorem remains (alike : ReadAlike language first second) {family : FamilyKey}
    (own : family.language = language) {identifier : String}
    (remains : Remains first family identifier) : Remains second family identifier :=
  ⟨alike.belongsTo own remains.1, fun implements =>
    remains.2 (alike.symm.implements own (remains.1.plain alike.ofFirst) implements)⟩

theorem declaredAs (alike : ReadAlike language first second) {identifier text : String}
    (plain : isGroupIdentifier identifier = false)
    (declared : DeclaredAs first language identifier text) :
    DeclaredAs second language identifier text := by
  have respects : ∀ {upper lower}, AlikeButPlace upper lower → HasDeclaration upper →
      HasDeclaration lower := by
    rintro upper lower twin ⟨fragments, declares⟩
    exact ⟨fragments, twin.declares declares⟩
  rcases declared with ⟨view, facet, fragments, shown, found, same⟩ | ⟨none, same⟩
  · obtain ⟨other, seen, twin⟩ := alike.firstMain plain respects shown
    exact .inl ⟨view, other, fragments, seen, twin.declares found, same⟩
  · refine .inr ⟨fun view facet main holds => ?_, same⟩
    obtain ⟨other, original, twin⟩ := alike.symm.mainIn plain main
    exact none view other original (respects twin holds)

theorem isDeprecatedIn (alike : ReadAlike language first second) {identifier : String}
    (plain : isGroupIdentifier identifier = false)
    (deprecated : IsDeprecatedIn first language identifier) :
    IsDeprecatedIn second language identifier := by
  obtain ⟨view, facet, main, said⟩ := deprecated
  obtain ⟨other, seen, twin⟩ := alike.mainIn plain main
  exact ⟨view, other, seen, twin.saysDeprecated said⟩

theorem describes (alike : ReadAlike language first second) {candidate : Candidate}
    (plain : isGroupIdentifier candidate.identifier = false)
    (describes : Describes first language candidate) : Describes second language candidate where
  deprecated := describes.deprecated.trans
    ⟨alike.isDeprecatedIn plain, alike.symm.isDeprecatedIn plain⟩
  declaration := alike.declaredAs plain describes.declaration

theorem ranking (alike : ReadAlike language first second) {family : FamilyKey}
    (own : family.language = language) {ranked : List Candidate}
    (ranking : Ranking first family ranked) : Ranking second family ranked where
  described member within := by
    have plain := (ranking.belongsTo within).plain alike.ofFirst
    subst own
    exact alike.describes plain (ranking.described member within)
  members identifier := (ranking.members identifier).trans
    ⟨alike.remains own, alike.symm.remains own⟩
  ascending := ranking.ascending

/-- **Graphs that say the same have the same rankings.** -/
theorem ranking_iff (alike : ReadAlike language first second) {family : FamilyKey}
    (own : family.language = language) {ranked : List Candidate} :
    Ranking first family ranked ↔ Ranking second family ranked :=
  ⟨alike.ranking own, alike.symm.ranking own⟩

end ReadAlike

end Overload

end ApiAtlas
