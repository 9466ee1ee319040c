import ApiAtlas.Proofs.Unified.Merging

/-!
# Relationships kept view by view

The relationships of a unified graph may be kept in two levels: a table of views,
and for each view a table from links to relationships (`ViewEdges`). Then a
relationship might stand under a link that is not its own, and a view might be
left with a table in which nothing is. Neither happens: inserting a relationship
and removing some keep the two levels in order (`ViewEdges.IsKeyed`).

Two levels in order are known by their look-ups (`ViewEdges.ext_edge?`), and so
what is done to them is what is done to the table of views and links
(`EdgeTable.nested_insertEdge`, `EdgeTable.nested_filter`).
-/

set_option autoImplicit false

namespace ApiAtlas

/-- The relationships by views, and then by links. -/
abbrev ViewEdges : Type :=
  Table View (Table Link Relationship)

/-- The relationship with the mixins of a newer one put over its own. -/
def Relationship.takeOver (held newer : Relationship) : Relationship :=
  { held with mixins := Table.union held.mixins newer.mixins }

namespace ViewEdges

/-! ## Operations -/

/-- One more relationship in a view; one with the same link takes over its mixins. -/
def insertEdge (edges : ViewEdges) (view : View) (relationship : Relationship) : ViewEdges :=
  Table.alter edges view fun held =>
    some <| Table.alter (held.getD Table.empty) relationship.link fun
      | none => some relationship
      | some old => some (old.takeOver relationship)

/-- The relationships that pass a test, without the views that are left with none. -/
def keepOnly (edges : ViewEdges) (keep : View → Relationship → Bool) : ViewEdges :=
  Table.filterMap edges fun view held =>
    let kept := held.filter fun _ relationship => keep view relationship
    if kept.isEmpty then none else some kept

/-- The relationship with a link in a view. -/
def edge? (edges : ViewEdges) (view : View) (link : Link) : Option Relationship :=
  (Table.get? edges view).bind (·.get? link)

/-- All relationships, view by view. -/
def listed (edges : ViewEdges) : List (View × Relationship) :=
  edges.entries.flatMap fun entry => entry.2.values.map fun relationship => (entry.1, relationship)

/-- The edges with a list of relationships inserted one after the other. -/
def insertEdges (edges : ViewEdges) (added : List (View × Relationship)) : ViewEdges :=
  added.foldl (fun sofar edge => sofar.insertEdge edge.1 edge.2) edges

/-- A relationship of a view as an entry of a table of views and links. -/
def entryOf (edge : View × Relationship) : (View × Link) × Mixins :=
  ((edge.1, edge.2.link), edge.2.mixins)

/-- All relationships in one table. -/
def flat (edges : ViewEdges) : EdgeTable :=
  Table.ofList (edges.listed.map entryOf)

/-! ## Look-ups -/

variable {edges first second : ViewEdges} {view : View} {link : Link}

theorem edge?_insertEdge (edges : ViewEdges) (view : View) (relationship : Relationship)
    (other : View) (link : Link) :
    (edges.insertEdge view relationship).edge? other link =
      if (other, link) = (view, relationship.link) then
        some (match edges.edge? other link with
          | none => relationship
          | some held => held.takeOver relationship)
      else
        edges.edge? other link := by
  rw [edge?, insertEdge, Table.get?_alter]
  by_cases here : other = view
  · subst here
    rw [if_pos rfl, Option.bind_some, Table.get?_alter, edge?]
    simp only [Prod.mk.injEq, true_and]
    by_cases own : link = relationship.link
    · rw [if_pos own, if_pos own, own]
      cases Table.get? edges other with
      | none => rfl
      | some table => cases found : table.get? relationship.link <;> simp [found]
    · rw [if_neg own, if_neg own]
      cases Table.get? edges other <;> rfl
  · rw [if_neg here, if_neg fun same => here (Prod.mk.inj same).1, edge?]

theorem edge?_keepOnly (edges : ViewEdges) (keep : View → Relationship → Bool) (view : View)
    (link : Link) :
    (edges.keepOnly keep).edge? view link = (edges.edge? view link).filter (keep view) := by
  rw [edge?, keepOnly, Table.get?_filterMap, edge?]
  cases Table.get? edges view with
  | none => rfl
  | some held =>
    simp only [Option.bind_some]
    split
    · next none =>
      have gone := Table.isEmpty_iff.1 none link
      rw [Table.get?_filter] at gone
      exact gone.symm
    · rw [Option.bind_some, Table.get?_filter]

/-! ## Two levels in order -/

/-- Every relationship stands under its own link, and no view has a table without one. -/
structure IsKeyed (edges : ViewEdges) : Prop where
  link_eq : ∀ {view : View} {link : Link} {relationship : Relationship},
    edges.edge? view link = some relationship → relationship.link = link
  occupied : ∀ {view : View} {held : Table Link Relationship},
    Table.get? edges view = some held → held.isEmpty = false

theorem isKeyed_empty : IsKeyed Table.empty where
  link_eq found := by cases found
  occupied found := by cases found

theorem IsKeyed.insertEdge (keyed : edges.IsKeyed) (view : View) (relationship : Relationship) :
    (edges.insertEdge view relationship).IsKeyed where
  link_eq {other link found} present := by
    rw [edge?_insertEdge] at present
    split at present
    · next here =>
      rw [(Prod.mk.inj here).2, ← Option.some.inj present]
      cases old : edges.edge? other link with
      | none => rfl
      | some held => exact (keyed.link_eq old).trans (Prod.mk.inj here).2
    · exact keyed.link_eq present
  occupied {other held} present := by
    rw [ViewEdges.insertEdge, Table.get?_alter] at present
    split at present
    · refine Table.isEmpty_eq_false_iff.2 ⟨relationship.link, ?_⟩
      rw [← Option.some.inj present, Table.get?_alter_self]
      cases ((Table.get? edges view).getD Table.empty).get? relationship.link <;> exact ⟨_, rfl⟩
    · exact keyed.occupied present

/-- What is kept of two levels in order is in order. -/
theorem IsKeyed.keepOnly (keyed : edges.IsKeyed) (keep : View → Relationship → Bool) :
    (edges.keepOnly keep).IsKeyed where
  link_eq present := by
    rw [edge?_keepOnly, Option.filter_eq_some_iff] at present
    exact keyed.link_eq present.1
  occupied {view held} present := by
    rw [ViewEdges.keepOnly, Table.get?_filterMap, Option.bind_eq_some_iff] at present
    obtain ⟨before, -, kept⟩ := present
    dsimp only at kept
    split at kept
    · cases kept
    · next some =>
      rw [← Option.some.inj kept]
      exact Bool.eq_false_iff.2 some

/-- **Two levels without empty tables are known by their look-ups.** -/
theorem ext_edge? (ofFirst : first.IsKeyed) (ofSecond : second.IsKeyed)
    (same : ∀ view link, first.edge? view link = second.edge? view link) : first = second := by
  -- a view with a table has some relationship, which the other side must have as well
  have present : ∀ {left right : ViewEdges}, left.IsKeyed →
      (∀ view link, left.edge? view link = right.edge? view link) →
      ∀ {view held}, Table.get? left view = some held →
        ∃ other, Table.get? right view = some other := by
    intro left right keyed alike view held found
    obtain ⟨link, relationship, within⟩ := Table.isEmpty_eq_false_iff.1 (keyed.occupied found)
    have there : right.edge? view link = some relationship := by
      rw [← alike, edge?, found]
      exact within
    obtain ⟨other, there, -⟩ := Option.bind_eq_some_iff.1 there
    exact ⟨other, there⟩
  refine Table.ext_get? fun view => ?_
  cases left : Table.get? first view with
  | none =>
    cases right : Table.get? second view with
    | none => rfl
    | some held =>
      obtain ⟨other, found⟩ := present ofSecond (fun view link => (same view link).symm) right
      rw [left] at found
      cases found
  | some held =>
    obtain ⟨other, right⟩ := present ofFirst same left
    rw [right]
    refine congrArg some (Table.ext_get? fun link => ?_)
    have alike := same view link
    rwa [edge?, edge?, left, right] at alike

/-! ## All relationships in order -/

/-- What stands in the table of a view is found there. -/
theorem edge?_of_mem {entry : View × Table Link Relationship} (member : entry ∈ edges.entries)
    {held : Link × Relationship} (within : held ∈ entry.2.entries) :
    edges.edge? entry.1 held.1 = some held.2 := by
  rw [edge?, Table.get?_eq_some_iff.2 member]
  exact Table.get?_eq_some_iff.2 within

/-- Two levels in order list what is found in them. -/
theorem IsKeyed.mem_listed_iff (keyed : edges.IsKeyed) {relationship : Relationship} :
    (view, relationship) ∈ edges.listed ↔
      edges.edge? view relationship.link = some relationship := by
  simp only [listed, List.mem_flatMap, Table.values, List.map_map, List.mem_map,
    Function.comp_apply, Prod.mk.injEq]
  constructor
  · rintro ⟨entry, member, held, within, rfl, rfl⟩
    have found := edge?_of_mem member within
    rwa [keyed.link_eq found]
  · intro found
    obtain ⟨table, there, within⟩ := Option.bind_eq_some_iff.1 found
    exact ⟨(view, table), Table.get?_eq_some_iff.1 there, (relationship.link, relationship),
      Table.get?_eq_some_iff.1 within, rfl, rfl⟩

/-- They list it in the order of views and links. -/
theorem IsKeyed.ascending_listed (keyed : edges.IsKeyed) :
    Ascending (edges.listed.map entryOf) := by
  rw [Ascending, List.pairwise_map, listed, List.pairwise_flatMap]
  constructor
  · intro entry member
    rw [List.pairwise_map, Table.values, List.pairwise_map]
    refine List.Pairwise.imp_of_mem ?_ entry.2.ascending
    intro first second ofFirst ofSecond before
    refine (Key.rankPair_lt_iff _ _).2 (.inr ⟨rfl, ?_⟩)
    rw [entryOf, entryOf, keyed.link_eq (edge?_of_mem member ofFirst),
      keyed.link_eq (edge?_of_mem member ofSecond)]
    exact before
  · refine edges.ascending.imp ?_
    intro first second before left ofFirst right ofSecond
    obtain ⟨_, -, rfl⟩ := List.mem_map.1 ofFirst
    obtain ⟨_, -, rfl⟩ := List.mem_map.1 ofSecond
    exact (Key.rankPair_lt_iff _ _).2 (.inl before)

end ViewEdges

/-! ## Two levels of a table -/

namespace EdgeTable

/-- The relationships of a table in two levels. -/
def nested (edges : EdgeTable) : ViewEdges :=
  edges.entries.foldl
    (fun sofar entry => ViewEdges.insertEdge sofar entry.1.1 (relationshipOf entry)) Table.empty

/-- The two levels of a table are in order. -/
theorem isKeyed_nested (edges : EdgeTable) : (nested edges).IsKeyed := by
  have run : ∀ (entries : List ((View × Link) × Mixins)) (start : ViewEdges), start.IsKeyed →
      (entries.foldl
        (fun sofar entry => ViewEdges.insertEdge sofar entry.1.1 (relationshipOf entry))
        start).IsKeyed := by
    intro entries
    induction entries with
    | nil => exact fun _ keyed => keyed
    | cons entry rest ih => exact fun start keyed => ih _ (keyed.insertEdge _ _)
  exact run edges.entries Table.empty ViewEdges.isKeyed_empty

theorem edge?_nested (edges : EdgeTable) (view : View) (link : Link) :
    (nested edges).edge? view link =
      (Table.get? edges (view, link)).map fun mixins => { link, mixins } := by
  have run := Table.read_foldl_entries edges (view, link) (·.edge? view link)
    (fun sofar entry => ViewEdges.insertEdge sofar entry.1.1 (relationshipOf entry))
    (fun found entry => some (match found with
      | none => relationshipOf entry
      | some held => held.takeOver (relationshipOf entry)))
    (fun sofar entry => sofar.edge?_insertEdge entry.1.1 (relationshipOf entry) view link)
    Table.empty
  refine run.trans ?_
  cases Table.get? edges (view, link) <;> rfl

/-- **The two levels of a table list its entries.** -/
theorem listed_nested (edges : EdgeTable) :
    (nested edges).listed.map ViewEdges.entryOf = edges.entries := by
  apply Table.entries_eq_of_mem_iff (isKeyed_nested edges).ascending_listed edges.ascending
  rintro ⟨⟨view, link⟩, mixins⟩
  rw [← Table.get?_eq_some_iff, List.mem_map]
  constructor
  · rintro ⟨⟨other, relationship⟩, member, same⟩
    have found := (isKeyed_nested edges).mem_listed_iff.1 member
    rw [edge?_nested, Option.map_eq_some_iff] at found
    obtain ⟨held, recorded, whole⟩ := found
    cases same
    rwa [← congrArg Relationship.mixins whole]
  · intro recorded
    refine ⟨(view, { link, mixins }), (isKeyed_nested edges).mem_listed_iff.2 ?_, rfl⟩
    rw [edge?_nested, recorded]
    rfl

theorem listed_nested_eq (edges : EdgeTable) :
    (nested edges).listed = edges.entries.map fun entry => (entry.1.1, relationshipOf entry) := by
  rw [← listed_nested, List.map_map]
  exact (List.map_id _).symm

/-- The table is read off its two levels. -/
theorem flat_nested (edges : EdgeTable) : (nested edges).flat = edges := by
  rw [ViewEdges.flat, listed_nested, Table.ofList_entries]

theorem nested_insertEdge (edges : EdgeTable) (view : View) (relationship : Relationship) :
    nested (insertEdge edges view relationship) =
      (nested edges).insertEdge view relationship := by
  refine ViewEdges.ext_edge? (isKeyed_nested _) ((isKeyed_nested edges).insertEdge _ _) ?_
  intro other link
  rw [edge?_nested, ViewEdges.edge?_insertEdge, edge?_nested, insertEdge, Table.get?_alter]
  by_cases here : (other, link) = (view, relationship.link)
  · rw [if_pos here, if_pos here, here]
    obtain ⟨rfl, rfl⟩ := Prod.mk.inj here
    cases Table.get? edges (other, relationship.link) <;> rfl
  · rw [if_neg here, if_neg here]

/-- Relationships inserted one after the other are inserted in both levels. -/
theorem nested_insertEdges (edges : EdgeTable) (added : List (View × Relationship)) :
    nested (insertEdges edges added) = (nested edges).insertEdges added := by
  induction added generalizing edges with
  | nil => rfl
  | cons edge rest ih =>
    rw [ViewEdges.insertEdges, List.foldl_cons, ← nested_insertEdge]
    exact ih _

theorem nested_filter (edges : EdgeTable) (keep : View → Relationship → Bool) :
    nested (Table.filter edges fun key mixins => keep key.1 { link := key.2, mixins }) =
      (nested edges).keepOnly keep := by
  refine ViewEdges.ext_edge? (isKeyed_nested _) ((isKeyed_nested edges).keepOnly keep) ?_
  intro view link
  rw [edge?_nested, ViewEdges.edge?_keepOnly, edge?_nested, Table.get?_filter]
  cases Table.get? edges (view, link) with
  | none => rfl
  | some mixins => cases kept : keep view { link, mixins } <;> simp [Option.filter, kept]

end EdgeTable

end ApiAtlas
