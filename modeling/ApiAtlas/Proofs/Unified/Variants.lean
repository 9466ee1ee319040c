import ApiAtlas.Proofs.Unified.Merging

/-!
# Variants of relationships

Views may declare the same link with different mixins. The relationships with a
link fall into variants, one for each of the different relationships, and each
variant is listed with the views that declare it. Relationships count as the same
if they are alike, that is, equal but for the signs of zeros.

The variants of a link are found by going through the views: a relationship
joins the variant that it is like, and starts a new one otherwise. Since no two
variants are alike, at most one takes it in (`joinFirst_of_alone`), and what has
been seen so far is told exactly by the variants (`AreVariants.join`). So are all
relationships in the end (`areVariants_variantsOf`).
-/

set_option autoImplicit false

namespace ApiAtlas

/-! ## Joining the first that fits -/

section JoinFirst

variable {α : Type}

/-- The list whose first member that passes a test is changed; if none passes, with a new member at
the end. -/
def joinFirst (fits : α → Bool) (join : α → α) (fresh : α) : List α → List α
  | [] => [fresh]
  | first :: rest =>
    if fits first then join first :: rest else first :: joinFirst fits join fresh rest

variable {fits : α → Bool} (join : α → α) (fresh : α) {members : List α}

theorem joinFirst_of_none (none : ∀ member ∈ members, fits member = false) :
    joinFirst fits join fresh members = members ++ [fresh] := by
  induction members with
  | nil => rfl
  | cons first rest ih =>
    obtain ⟨here, later⟩ := List.forall_mem_cons.1 none
    rw [joinFirst, here, if_neg Bool.false_ne_true, ih later]
    rfl

/-- If one member passes the test and no two do, that one is changed. -/
theorem joinFirst_of_alone
    (alone : members.Pairwise fun first second => fits first = true → fits second = false)
    (some : ∃ member ∈ members, fits member = true) :
    joinFirst fits join fresh members =
      members.map fun member => if fits member then join member else member := by
  induction members with
  | nil => simp at some
  | cons first rest ih =>
    obtain ⟨apart, others⟩ := List.pairwise_cons.1 alone
    rw [joinFirst, List.map_cons]
    cases here : fits first with
    | true =>
      have kept : rest.map (fun member => if fits member then join member else member) = rest := by
        refine Eq.trans (List.map_congr_left fun member within => ?_) (List.map_id rest)
        rw [apart member within here, if_neg Bool.false_ne_true, id]
      rw [if_pos rfl, if_pos rfl, kept]
    | false =>
      have later : ∃ member ∈ rest, fits member = true := by
        obtain ⟨member, within, passes⟩ := some
        rcases List.mem_cons.1 within with rfl | further
        · rw [here] at passes
          cases passes
        · exact ⟨member, further, passes⟩
      rw [if_neg Bool.false_ne_true, if_neg Bool.false_ne_true, ih others later]

end JoinFirst

/-! ## Relationships that are alike -/

namespace Relationship

variable {first second third : Relationship}

theorem alike_iff : first.alike second = true ↔ first.unsignedZeros = second.unsignedZeros :=
  decide_eq_true_iff

@[simp]
theorem alike_self (relationship : Relationship) : relationship.alike relationship = true :=
  alike_iff.2 rfl

theorem alike_comm : first.alike second = second.alike first := by
  rw [Bool.eq_iff_iff, alike_iff, alike_iff, eq_comm]

theorem alike_trans (one : first.alike second = true) (other : second.alike third = true) :
    first.alike third = true :=
  alike_iff.2 ((alike_iff.1 one).trans (alike_iff.1 other))

/-- Relationships that are alike are like the same ones. -/
theorem alike_congr (same : first.alike second = true) (third : Relationship) :
    first.alike third = second.alike third := by
  rw [Bool.eq_iff_iff, alike_iff, alike_iff, alike_iff.1 same]

/-- Relationships that are alike have the same link. -/
theorem link_eq_of_alike (same : first.alike second = true) : first.link = second.link :=
  show first.unsignedZeros.link = second.unsignedZeros.link by rw [alike_iff.1 same]

end Relationship

/-! ## Joining variants -/

namespace UnifiedGraph

/-- The variant with one more view if it is like a relationship. -/
def withView (view : View) (relationship : Relationship) (variant : Relationship × KeySet View) :
    Relationship × KeySet View :=
  if variant.1.alike relationship then (variant.1, variant.2.add view) else variant

theorem fst_withView (view : View) (relationship : Relationship)
    (variant : Relationship × KeySet View) :
    (withView view relationship variant).1 = variant.1 := by
  rw [withView]
  split <;> rfl

theorem contains_withView (view : View) (relationship : Relationship)
    (variant : Relationship × KeySet View) (other : View) :
    (withView view relationship variant).2.contains other = true ↔
      variant.2.contains other = true ∨
        other = view ∧ variant.1.alike relationship = true := by
  rw [withView]
  split
  · next same => rw [KeySet.contains_add, or_comm, and_iff_left same]
  · next differs => simp [differs]

theorem joinVariant_eq (view : View) (relationship : Relationship)
    (variants : List (Relationship × KeySet View)) :
    joinVariant view relationship variants =
      joinFirst (·.1.alike relationship) (fun variant => (variant.1, variant.2.add view))
        (relationship, KeySet.add Table.empty view) variants := by
  induction variants with
  | nil => rfl
  | cons variant rest ih => rw [joinVariant, joinFirst, ih]

end UnifiedGraph

/-- The variants tell exactly what has been seen: one for each of the different relationships, with
the views in which it was seen. -/
structure AreVariants (seen : List (View × Relationship))
    (variants : List (Relationship × KeySet View)) : Prop where
  /-- No two variants are alike. -/
  apart : variants.Pairwise fun first second => first.1.alike second.1 = false
  /-- A variant is one of the relationships that were seen. -/
  declared : ∀ variant ∈ variants, ∃ view, (view, variant.1) ∈ seen
  /-- Its views are those in which something like it was seen. -/
  views : ∀ variant ∈ variants, ∀ view, variant.2.contains view = true ↔
    ∃ relationship, (view, relationship) ∈ seen ∧ variant.1.alike relationship = true
  /-- Everything that was seen is like some variant. -/
  complete : ∀ view relationship, (view, relationship) ∈ seen →
    ∃ variant ∈ variants, variant.1.alike relationship = true

namespace AreVariants

open UnifiedGraph

variable {seen : List (View × Relationship)} {variants : List (Relationship × KeySet View)}

theorem nil : AreVariants [] [] where
  apart := List.Pairwise.nil
  declared _ member := by cases member
  views _ member := by cases member
  complete _ _ member := by cases member

/-- A relationship that is like some variant adds its view to that one. -/
theorem map_withView (are : AreVariants seen variants) (view : View) {relationship : Relationship}
    (known : ∃ variant ∈ variants, variant.1.alike relationship = true) :
    AreVariants (seen ++ [(view, relationship)]) (variants.map (withView view relationship)) where
  apart := by
    refine List.pairwise_map.2 (are.apart.imp fun {first second} differ => ?_)
    rwa [fst_withView, fst_withView]
  declared := by
    simp only [List.forall_mem_map, fst_withView]
    intro variant member
    obtain ⟨other, was⟩ := are.declared variant member
    exact ⟨other, List.mem_append_left _ was⟩
  views := by
    simp only [List.forall_mem_map, fst_withView, contains_withView]
    intro variant member other
    rw [are.views variant member]
    simp only [List.mem_append, List.mem_singleton, Prod.mk.injEq, or_and_right, exists_or,
      and_assoc, exists_and_left, exists_eq_left]
  complete := by
    simp only [List.mem_map, exists_exists_and_eq_and, fst_withView]
    intro other newer member
    rcases List.mem_append.1 member with was | new
    · exact are.complete other newer was
    · rw [List.mem_singleton, Prod.mk.injEq] at new
      rw [new.2]
      exact known

/-- A relationship that is like no variant becomes one. -/
theorem append (are : AreVariants seen variants) (view : View) {relationship : Relationship}
    (fresh : ∀ variant ∈ variants, variant.1.alike relationship = false) :
    AreVariants (seen ++ [(view, relationship)])
      (variants ++ [(relationship, KeySet.add Table.empty view)]) where
  apart := by
    refine List.pairwise_append.2 ⟨are.apart, List.pairwise_singleton _ _, ?_⟩
    intro variant member other last
    rw [List.mem_singleton.1 last]
    exact fresh variant member
  declared variant member := by
    rcases List.mem_append.1 member with old | new
    · obtain ⟨other, was⟩ := are.declared variant old
      exact ⟨other, List.mem_append_left _ was⟩
    · rw [List.mem_singleton.1 new]
      exact ⟨view, List.mem_append_right _ (List.mem_singleton_self _)⟩
  views variant member other := by
    simp only [List.mem_append, List.mem_singleton, Prod.mk.injEq, or_and_right, exists_or,
      and_assoc, exists_and_left, exists_eq_left]
    rcases List.mem_append.1 member with old | new
    · rw [are.views variant old, fresh variant old]
      simp only [Bool.false_eq_true, and_false, or_false]
    · obtain rfl := List.mem_singleton.1 new
      have unseen : ¬∃ older, (other, older) ∈ seen ∧ relationship.alike older = true := by
        rintro ⟨older, was, same⟩
        obtain ⟨variant, within, like⟩ := are.complete other older was
        rw [Relationship.alike_comm] at same
        have taken := fresh variant within
        rw [Relationship.alike_trans like same] at taken
        cases taken
      rw [KeySet.contains_add, or_iff_right unseen]
      simp [Table.contains]
  complete other newer member := by
    rcases List.mem_append.1 member with was | new
    · obtain ⟨variant, within, same⟩ := are.complete other newer was
      exact ⟨variant, List.mem_append_left _ within, same⟩
    · rw [List.mem_singleton, Prod.mk.injEq] at new
      refine ⟨_, List.mem_append_right _ (List.mem_singleton_self _), ?_⟩
      rw [new.2]
      exact Relationship.alike_self _

/-- **One more relationship joins the variants.** -/
theorem join (are : AreVariants seen variants) (view : View) (relationship : Relationship) :
    AreVariants (seen ++ [(view, relationship)]) (joinVariant view relationship variants) := by
  rw [joinVariant_eq]
  by_cases known : ∃ variant ∈ variants, variant.1.alike relationship = true
  · -- two variants that are like the relationship would be alike
    have alone : variants.Pairwise fun first second =>
        first.1.alike relationship = true → second.1.alike relationship = false := by
      refine are.apart.imp fun {first second} differ one => ?_
      rwa [Relationship.alike_comm, ← Relationship.alike_congr one]
    rw [joinFirst_of_alone _ _ alone known]
    exact are.map_withView view known
  · have fresh : ∀ variant ∈ variants, variant.1.alike relationship = false :=
      fun variant member => Bool.eq_false_iff.2 fun same => known ⟨variant, member, same⟩
    rw [joinFirst_of_none _ _ fresh]
    exact are.append view fresh

end AreVariants

/-! ## The variants of a table -/

namespace EdgeTable

/-- The relationships of all views, each with its view. -/
def placed (edges : EdgeTable) : List (View × Relationship) :=
  edges.entries.map fun entry => (entry.1.1, relationshipOf entry)

variable {edges : EdgeTable}

theorem mem_under {view : View} {relationship : Relationship} :
    relationship ∈ under edges view ↔
      Table.get? edges (view, relationship.link) = some relationship.mixins := by
  rw [Table.get?_eq_some_iff]
  simp only [under, List.mem_map, List.mem_filter, decide_eq_true_eq]
  constructor
  · rintro ⟨⟨⟨other, link⟩, mixins⟩, ⟨member, rfl⟩, rfl⟩
    exact member
  · exact fun member => ⟨_, ⟨member, rfl⟩, rfl⟩

theorem mem_placed {view : View} {relationship : Relationship} :
    (view, relationship) ∈ placed edges ↔ relationship ∈ under edges view := by
  rw [mem_under, Table.get?_eq_some_iff]
  simp only [placed, List.mem_map, Prod.mk.injEq]
  constructor
  · rintro ⟨⟨⟨other, link⟩, mixins⟩, member, rfl, rfl⟩
    exact member
  · exact fun member => ⟨_, member, rfl, rfl⟩

/-- Within a view the link tells relationships apart. -/
theorem eq_of_mem_under {view : View} {first second : Relationship}
    (member : first ∈ under edges view) (other : second ∈ under edges view)
    (same : first.link = second.link) : first = second := by
  rw [mem_under] at member other
  rw [same, other, Option.some.injEq] at member
  cases first
  cases second
  cases same
  cases member
  rfl

end EdgeTable

namespace UnifiedGraph

open EdgeTable

/-- Going through entries, the relationships with a link join its variants. -/
theorem areVariants_foldl (link : Link) (entries : List ((View × Link) × Mixins))
    {seen : List (View × Relationship)} (held : Option (List (Relationship × KeySet View)))
    (are : AreVariants seen (held.getD [])) :
    AreVariants
      (seen ++ (entries.filter fun entry => link = entry.1.2).map fun entry =>
        (entry.1.1, relationshipOf entry))
      ((entries.foldl
        (fun held entry =>
          if link = entry.1.2 then
            some (joinVariant entry.1.1 (relationshipOf entry) (held.getD []))
          else held)
        held).getD []) := by
  induction entries generalizing seen held with
  | nil => rwa [List.filter_nil, List.map_nil, List.append_nil]
  | cons entry rest ih =>
    rw [List.foldl_cons]
    by_cases same : link = entry.1.2
    · rw [if_pos same, List.filter_cons_of_pos (by simpa using same), List.map_cons,
        List.append_cons]
      exact ih _ (are.join entry.1.1 (relationshipOf entry))
    · rw [if_neg same, List.filter_cons_of_neg (by simpa using same)]
      exact ih held are

/-- The variants of a link. -/
def variantsOf (edges : EdgeTable) (link : Link) : List (Relationship × KeySet View) :=
  ((variants edges).get? link).getD []

/-- The variants of all links. -/
def allVariants (edges : EdgeTable) : List (Relationship × KeySet View) :=
  (variants edges).values.flatten

/-- **The variants of a link tell which relationships with the link there are, and in which
views.** -/
theorem areVariants_variantsOf (edges : EdgeTable) (link : Link) :
    AreVariants ((placed edges).filter fun edge => link = edge.2.link) (variantsOf edges link) := by
  have run := Table.get?_foldl_alter (fun entry : (View × Link) × Mixins => entry.1.2)
    (fun entry held => some (joinVariant entry.1.1 (relationshipOf entry) (held.getD [])))
    edges.entries Table.empty link
  have are := areVariants_foldl link edges.entries none AreVariants.nil
  rw [variantsOf, variants, run, placed, List.filter_map]
  exact are

variable {edges : EdgeTable} {variant : Relationship × KeySet View}

theorem link_of_mem_variantsOf {link : Link} (member : variant ∈ variantsOf edges link) :
    variant.1.link = link := by
  obtain ⟨view, was⟩ := (areVariants_variantsOf edges link).declared variant member
  exact (of_decide_eq_true (List.mem_filter.1 was).2).symm

theorem mem_allVariants_iff :
    variant ∈ allVariants edges ↔ variant ∈ variantsOf edges variant.1.link := by
  simp only [allVariants, List.mem_flatten, Table.mem_values]
  constructor
  · rintro ⟨members, ⟨link, found⟩, member⟩
    have within : variant ∈ variantsOf edges link := by rwa [variantsOf, found]
    rwa [link_of_mem_variantsOf within]
  · intro member
    rw [variantsOf] at member
    cases found : (variants edges).get? variant.1.link with
    | none => simp [found] at member
    | some members => exact ⟨members, ⟨_, found⟩, by rwa [found] at member⟩

/-- What relates the variants of each link, and those of a link to those of a later one, relates all
variants in their order. -/
theorem pairwise_allVariants
    {relates : Relationship × KeySet View → Relationship × KeySet View → Prop}
    (within : ∀ link, (variantsOf edges link).Pairwise relates)
    (across : ∀ first second, Key.rank first.1.link second.1.link = .lt → relates first second) :
    (allVariants edges).Pairwise relates := by
  have listed : ∀ entry ∈ (variants edges).entries, entry.2 = variantsOf edges entry.1 := by
    intro entry member
    rw [variantsOf, Table.get?_eq_some_iff.2 member]
    rfl
  refine List.pairwise_flatten.2 ⟨?_, List.pairwise_map.2 ?_⟩
  · intro members member
    obtain ⟨entry, held, rfl⟩ := List.mem_map.1 member
    rw [listed entry held]
    exact within entry.1
  · refine (variants edges).ascending.imp_of_mem ?_
    intro earlier later one other before first former second latter
    rw [listed earlier one] at former
    rw [listed later other] at latter
    apply across
    rwa [link_of_mem_variantsOf former, link_of_mem_variantsOf latter]

/-- The variants of all links are in ascending order of the links. -/
theorem ascending_allVariants (edges : EdgeTable) :
    (allVariants edges).Pairwise fun first second =>
      Key.rank first.1.link second.1.link ≠ .gt := by
  apply pairwise_allVariants
  · intro link
    refine List.pairwise_of_forall_mem_list fun first member second other => ?_
    rw [link_of_mem_variantsOf member, link_of_mem_variantsOf other, Key.rank_self]
    decide
  · intro first second before
    rw [before]
    decide

/-- **The variants of all links tell which relationships there are, and in which views.** -/
theorem areVariants_allVariants (edges : EdgeTable) :
    AreVariants (placed edges) (allVariants edges) where
  apart := by
    refine pairwise_allVariants (fun link => (areVariants_variantsOf edges link).apart) ?_
    intro first second before
    refine Bool.eq_false_iff.2 fun same => ?_
    rw [Relationship.link_eq_of_alike same] at before
    exact Key.rank_ne_lt_self _ before
  declared variant member := by
    obtain ⟨view, was⟩ :=
      (areVariants_variantsOf edges _).declared variant (mem_allVariants_iff.1 member)
    exact ⟨view, (List.mem_filter.1 was).1⟩
  views variant member view := by
    rw [(areVariants_variantsOf edges _).views variant (mem_allVariants_iff.1 member) view]
    refine exists_congr fun relationship => and_congr_left fun same => ?_
    rw [List.mem_filter, and_iff_left]
    exact decide_eq_true (Relationship.link_eq_of_alike same)
  complete view relationship member := by
    have own : (view, relationship) ∈
        (placed edges).filter fun edge => relationship.link = edge.2.link :=
      List.mem_filter.2 ⟨member, decide_eq_true rfl⟩
    obtain ⟨variant, within, same⟩ := (areVariants_variantsOf edges _).complete view _ own
    rw [← link_of_mem_variantsOf within] at within
    exact ⟨variant, mem_allVariants_iff.2 within, same⟩

end UnifiedGraph

end ApiAtlas
