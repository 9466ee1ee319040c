import ApiAtlas.Proofs.Overload.Adding

/-!
# Symbols kept slot by slot

What a unified symbol knows may also be kept in one table for each slot: the
modules by views, the kinds by views, and so on, with the views of main graphs
as a set (`SymbolSlots`). Then nothing in the representation keeps the tables of
one symbol together. Each operation has to touch all of them: a record writes
its slots one by one (`SymbolSlots.write`), a view is removed from every table,
and a symbol is absorbed table by table.

The tables of a unified symbol (`UnifiedSymbol.slots`) are in step
(`UnifiedSymbol.aligned_slots`), and every operation does to the tables of a
symbol what it does to the symbol. So tables that start in step stay in step.
-/

set_option autoImplicit false

namespace ApiAtlas

variable {κ α : Type} [Key κ]

/-- The table with a value written under a key; if it may only be filled, a value that is there
stays. -/
def Table.write (fillsOnly : Bool) (table : Table κ α) (key : κ) (value : α) : Table κ α :=
  if fillsOnly && table.contains key then table else table.insert key value

theorem Table.get?_write [DecidableEq κ] (fillsOnly : Bool) (table : Table κ α) (key wanted : κ)
    (value : α) :
    (table.write fillsOnly key value).get? wanted =
      if wanted = key then some (if fillsOnly then (table.get? key).getD value else value)
      else table.get? wanted := by
  rw [write, contains]
  cases fillsOnly with
  | false => exact table.get?_insert ..
  | true =>
    cases held : table.get? key with
    | none => simpa [held] using table.get?_insert key wanted value
    | some old =>
      by_cases here : wanted = key
      · subst here
        simpa using held
      · simp [here]

/-- Writing all entries of a table puts it over what is there, or under it. -/
theorem Table.foldl_write [DecidableEq κ] (fillsOnly : Bool) (held arrived : Table κ α) :
    arrived.entries.foldl (fun sofar entry => sofar.write fillsOnly entry.1 entry.2) held =
      if fillsOnly then arrived.union held else held.union arrived := by
  refine ext_get? fun wanted => ?_
  have run := read_foldl_entries arrived wanted (·.get? wanted)
    (fun sofar entry => sofar.write fillsOnly entry.1 entry.2)
    (fun found entry => some (if fillsOnly then found.getD entry.2 else entry.2))
    (fun sofar entry => by
      rw [get?_write]
      by_cases here : wanted = entry.1
      · rw [if_pos here, if_pos here, here]
      · rw [if_neg here, if_neg here]) held
  rw [run]
  cases fillsOnly <;> simp only [Bool.false_eq_true, if_false, if_true, get?_union] <;>
    cases held.get? wanted <;> cases arrived.get? wanted <;> rfl

/-- The slots of a unified symbol, in one table for each. -/
@[ext]
structure SymbolSlots where
  identifier : String
  /-- The views to which a main graph contributed. -/
  mainViews : KeySet View := Table.empty
  modules : Table View Module := Table.empty
  kinds : Table View Kind := Table.empty
  paths : Table View (List String) := Table.empty
  names : Table View Names := Table.empty
  accessLevels : Table View String := Table.empty
  comments : Table View DocComment := Table.empty
  mixins : Table View Mixins := Table.empty
deriving DecidableEq

namespace SymbolSlots

/-! ## Operations -/

/-- No slot of any view. -/
def empty (identifier : String) : SymbolSlots :=
  { identifier }

/-- The views that have slots: those with a kind. -/
def views (slots : SymbolSlots) : List View :=
  slots.kinds.keys

/-- Whether there are no slots. -/
def isEmpty (slots : SymbolSlots) : Bool :=
  slots.kinds.isEmpty

/-- The slots of a view written one after the other. -/
def write (fillsOnly : Bool) (slots : SymbolSlots) (symbol : Symbol) (view : View)
    (module : Module) (isMain : Bool) : SymbolSlots :=
  { identifier := slots.identifier
    mainViews := if isMain then slots.mainViews.add view else slots.mainViews
    modules := slots.modules.write fillsOnly view module
    kinds := slots.kinds.write fillsOnly view symbol.description.kind
    paths := slots.paths.write fillsOnly view symbol.description.path
    names := slots.names.write fillsOnly view symbol.description.names
    accessLevels := slots.accessLevels.write fillsOnly view symbol.description.accessLevel
    comments :=
      match symbol.comment with
      | none => slots.comments
      | some comment => slots.comments.write fillsOnly view comment
    mixins := slots.mixins.insert view <| symbol.mixins.entries.foldl
      (fun sofar entry => sofar.write fillsOnly entry.1 entry.2)
      ((slots.mixins.get? view).getD Table.empty) }

/-- The slots once a symbol of a graph has arrived for a view. An extension only fills the slots of
a view to which a main graph contributed. -/
def merge (slots : SymbolSlots) (arrived : Symbol) (view : View) (module : Module)
    (isMain : Bool) : Except IdentifierMismatch SymbolSlots :=
  if arrived.identifier = slots.identifier then
    .ok (slots.write (!isMain && slots.mainViews.contains view) arrived view module isMain)
  else
    .error { expected := slots.identifier, found := arrived.identifier }

/-- The slots without those of a view. -/
def removeView (slots : SymbolSlots) (view : View) : SymbolSlots :=
  { identifier := slots.identifier
    mainViews := slots.mainViews.erase view
    modules := slots.modules.erase view
    kinds := slots.kinds.erase view
    paths := slots.paths.erase view
    names := slots.names.erase view
    accessLevels := slots.accessLevels.erase view
    comments := slots.comments.erase view
    mixins := slots.mixins.erase view }

/-- All slots of both; those of the second decide. -/
def absorb (slots newer : SymbolSlots) : SymbolSlots :=
  { identifier := slots.identifier
    mainViews := slots.mainViews.union newer.mainViews
    modules := slots.modules.union newer.modules
    kinds := slots.kinds.union newer.kinds
    paths := slots.paths.union newer.paths
    names := slots.names.union newer.names
    accessLevels := slots.accessLevels.union newer.accessLevels
    comments := slots.comments.union newer.comments
    mixins := slots.mixins.union newer.mixins }

/-! ## Tables in step -/

/-- Every view that has slots has all that a view must have, and no other view has any. -/
structure Aligned (slots : SymbolSlots) : Prop where
  modules : slots.modules.keys = slots.views
  paths : slots.paths.keys = slots.views
  names : slots.names.keys = slots.views
  accessLevels : slots.accessLevels.keys = slots.views
  mixins : slots.mixins.keys = slots.views
  /-- A comment is of a view that has slots. -/
  comments : slots.comments.keys ⊆ slots.views
  /-- So is what a main graph contributed. -/
  mainViews : slots.mainViews.toList ⊆ slots.views

/-- What is read in a view that has all that it must have. -/
def facet? (slots : SymbolSlots) (view : View) : Option Facet := do
  let module ← slots.modules.get? view
  let kind ← slots.kinds.get? view
  let path ← slots.paths.get? view
  let names ← slots.names.get? view
  let accessLevel ← slots.accessLevels.get? view
  let mixins ← slots.mixins.get? view
  return {
    module
    description := { kind, path, names, accessLevel }
    comment := slots.comments.get? view
    mixins
    isMain := slots.mainViews.contains view }

/-- The symbol that is read off its slots. -/
def unified (slots : SymbolSlots) : UnifiedSymbol :=
  { identifier := slots.identifier
    facets := slots.kinds.filterMap fun view _ => slots.facet? view }

end SymbolSlots

namespace UnifiedSymbol

/-! ## The slots of a symbol -/

/-- What the views know in one respect. -/
def column (symbol : UnifiedSymbol) (image : Facet → Option α) : Table View α :=
  symbol.facets.filterMap fun _ facet => image facet

/-- The slots of a unified symbol. -/
def slots (symbol : UnifiedSymbol) : SymbolSlots :=
  { identifier := symbol.identifier
    mainViews := symbol.column fun facet => if facet.isMain then some () else none
    modules := symbol.column fun facet => some facet.module
    kinds := symbol.column fun facet => some facet.description.kind
    paths := symbol.column fun facet => some facet.description.path
    names := symbol.column fun facet => some facet.description.names
    accessLevels := symbol.column fun facet => some facet.description.accessLevel
    comments := symbol.column fun facet => facet.comment
    mixins := symbol.column fun facet => some facet.mixins }

variable {symbol : UnifiedSymbol} {view : View}

theorem get?_column (symbol : UnifiedSymbol) (image : Facet → Option α) (view : View) :
    (symbol.column image).get? view = (symbol.facet? view).bind image :=
  Table.get?_filterMap ..

/-- A table of what every view knows has all views. -/
theorem keys_column (symbol : UnifiedSymbol) (part : Facet → α) :
    (symbol.column fun facet => some (part facet)).keys = symbol.views :=
  Table.keys_map symbol.facets fun _ facet => part facet

/-- A table of what some views know has no other views. -/
theorem keys_column_subset (symbol : UnifiedSymbol) (image : Facet → Option α) :
    (symbol.column image).keys ⊆ symbol.views := by
  intro view member
  rw [Table.mem_keys, Table.contains, get?_column] at member
  rw [views, Table.mem_keys, Table.contains]
  exact Option.isSome_of_isSome_bind member

/-- The views of the slots are those of the symbol. -/
@[simp]
theorem views_slots (symbol : UnifiedSymbol) : symbol.slots.views = symbol.views :=
  keys_column symbol _

/-- **The slots of a symbol are in step.** -/
theorem aligned_slots (symbol : UnifiedSymbol) : symbol.slots.Aligned where
  modules := by rw [views_slots]; exact keys_column symbol _
  paths := by rw [views_slots]; exact keys_column symbol _
  names := by rw [views_slots]; exact keys_column symbol _
  accessLevels := by rw [views_slots]; exact keys_column symbol _
  mixins := by rw [views_slots]; exact keys_column symbol _
  comments := by rw [views_slots]; exact keys_column_subset symbol _
  mainViews := by rw [views_slots]; exact keys_column_subset symbol _

@[simp]
theorem isEmpty_slots (symbol : UnifiedSymbol) : symbol.slots.isEmpty = symbol.isEmpty := by
  have keys : ∀ {ν : Type} (table : Table View ν), table.isEmpty = table.keys.isEmpty :=
    fun table => (List.isEmpty_map ..).symm
  rw [SymbolSlots.isEmpty, isEmpty, keys, keys]
  exact congrArg List.isEmpty symbol.views_slots

theorem contains_mainViews_slots (symbol : UnifiedSymbol) (view : View) :
    symbol.slots.mainViews.contains view = (symbol.facet? view).any Facet.isMain := by
  rw [Table.contains, slots, get?_column]
  cases symbol.facet? view with
  | none => rfl
  | some facet => cases isMain : facet.isMain <;> simp [isMain]

/-- A symbol is read off its slots. -/
theorem unified_slots (symbol : UnifiedSymbol) : symbol.slots.unified = symbol := by
  refine ext_facet? rfl fun view => ?_
  rw [facet?, SymbolSlots.unified, Table.get?_filterMap, SymbolSlots.facet?,
    contains_mainViews_slots]
  simp only [slots, get?_column]
  cases symbol.facet? view <;> rfl

/-! ## Slots after operations -/

/-- Whether a facet that arrives may only fill what a view knows. -/
def fillsOnly (symbol : UnifiedSymbol) (view : View) (isMain : Bool) : Bool :=
  !isMain && symbol.slots.mainViews.contains view

/-- What is known in the view to which a facet arrives. -/
theorem facet?_record_self (symbol : UnifiedSymbol) (view : View) (facet : Facet) :
    (symbol.record view facet).facet? view =
      some (match symbol.facet? view with
        | none => facet
        | some held =>
          if symbol.fillsOnly view facet.isMain then held.above facet else facet.above held) := by
  rw [facet?_record, if_pos rfl, fillsOnly, contains_mainViews_slots]
  cases symbol.facet? view with
  | none => rfl
  | some held => simp [Facet.receive, Bool.and_comm]

/-- What the upper facet decides is written, or filled in. -/
theorem column_record_part (part : Facet → α)
    (decided : ∀ upper lower : Facet, part (upper.above lower) = part upper)
    (symbol : UnifiedSymbol) (view : View) (facet : Facet) :
    (symbol.record view facet).column (fun facet => some (part facet)) =
      (symbol.column fun facet => some (part facet)).write
        (symbol.fillsOnly view facet.isMain) view (part facet) := by
  refine Table.ext_get? fun other => ?_
  rw [Table.get?_write, get?_column, get?_column, get?_column]
  by_cases here : other = view
  · subst here
    rw [if_pos rfl, facet?_record_self, Option.bind_some]
    cases symbol.facet? other with
    | none => simp
    | some held => cases symbol.fillsOnly other facet.isMain <;> simp [decided]
  · rw [if_neg here, facet?_record, if_neg here]

/-- A comment is written, or filled in, if there is one. -/
theorem comments_record (symbol : UnifiedSymbol) (view : View) (facet : Facet) :
    (symbol.record view facet).slots.comments =
      match facet.comment with
      | none => symbol.slots.comments
      | some comment =>
        symbol.slots.comments.write (symbol.fillsOnly view facet.isMain) view comment := by
  refine Table.ext_get? fun other => ?_
  by_cases here : other = view
  · subst here
    rw [slots, get?_column, facet?_record_self, Option.bind_some]
    cases arrived : facet.comment with
    | none =>
      rw [slots, get?_column]
      cases symbol.facet? other with
      | none => exact arrived
      | some held => cases symbol.fillsOnly other facet.isMain <;> simp [Facet.above, arrived]
    | some comment =>
      simp only [Table.get?_write, if_true, slots, get?_column]
      cases symbol.facet? other with
      | none => simp [arrived]
      | some held =>
        cases held.comment <;> cases symbol.fillsOnly other facet.isMain <;>
          simp [Facet.above, *]
  · rw [slots, get?_column, facet?_record, if_neg here]
    cases facet.comment with
    | none => rw [slots, get?_column]
    | some comment => simp only [Table.get?_write, if_neg here, slots, get?_column]

/-- A main graph is noted. -/
theorem mainViews_record (symbol : UnifiedSymbol) (view : View) (facet : Facet) :
    (symbol.record view facet).slots.mainViews =
      if facet.isMain then symbol.slots.mainViews.add view else symbol.slots.mainViews := by
  refine KeySet.ext_contains fun other => ?_
  rw [contains_mainViews_slots]
  have added : (if facet.isMain then symbol.slots.mainViews.add view
        else symbol.slots.mainViews).contains other = true ↔
      (facet.isMain = true ∧ other = view) ∨ (symbol.facet? other).any Facet.isMain = true := by
    rw [← contains_mainViews_slots]
    cases facet.isMain <;> simp [KeySet.contains_add]
  rw [added, facet?_record]
  by_cases here : other = view
  · subst here
    rw [if_pos rfl]
    cases symbol.facet? other with
    | none => simp
    | some held =>
      cases isMain : facet.isMain <;> cases heldIsMain : held.isMain <;>
        simp [Facet.receive, Facet.above, isMain, heldIsMain]
  · rw [if_neg here]
    simp [here]

/-- Mixins are written, or filled in, one after the other. -/
theorem mixins_record (symbol : UnifiedSymbol) (view : View) (facet : Facet) :
    (symbol.record view facet).slots.mixins = symbol.slots.mixins.insert view
      (facet.mixins.entries.foldl
        (fun sofar entry =>
          sofar.write (symbol.fillsOnly view facet.isMain) entry.1 entry.2)
        ((symbol.slots.mixins.get? view).getD Table.empty)) := by
  refine Table.ext_get? fun other => ?_
  rw [Table.get?_insert, Table.foldl_write]
  by_cases here : other = view
  · subst here
    rw [if_pos rfl, slots, get?_column, facet?_record_self, Option.bind_some, slots, get?_column]
    cases symbol.facet? other with
    | none => cases symbol.fillsOnly other facet.isMain <;> simp
    | some held => cases symbol.fillsOnly other facet.isMain <;> simp [Facet.above]
  · rw [if_neg here, slots, get?_column, facet?_record, if_neg here, slots, get?_column]

/-- A facet of a symbol of a graph is recorded slot by slot. -/
theorem slots_record (symbol : UnifiedSymbol) (arrived : Symbol) (view : View) (module : Module)
    (isMain : Bool) :
    (symbol.record view (Facet.ofSymbol arrived module isMain)).slots =
      symbol.slots.write (symbol.fillsOnly view isMain) arrived view module isMain := by
  have written : ∀ {β : Type} (part : Facet → β),
      (∀ upper lower : Facet, part (upper.above lower) = part upper) →
      (symbol.record view (Facet.ofSymbol arrived module isMain)).column
          (fun facet => some (part facet)) =
        (symbol.column fun facet => some (part facet)).write (symbol.fillsOnly view isMain) view
          (part (Facet.ofSymbol arrived module isMain)) :=
    fun part decided => column_record_part part decided symbol view _
  refine SymbolSlots.ext rfl ?_ ?_ ?_ ?_ ?_ ?_ ?_ ?_
  · exact symbol.mainViews_record view (Facet.ofSymbol arrived module isMain)
  · exact written (·.module) fun _ _ => rfl
  · exact written (·.description.kind) fun _ _ => rfl
  · exact written (·.description.path) fun _ _ => rfl
  · exact written (·.description.names) fun _ _ => rfl
  · exact written (·.description.accessLevel) fun _ _ => rfl
  · exact symbol.comments_record view (Facet.ofSymbol arrived module isMain)
  · exact symbol.mixins_record view (Facet.ofSymbol arrived module isMain)

/-- **A symbol of a graph does to the slots what it does to the symbol.** -/
theorem slots_merge (symbol : UnifiedSymbol) (arrived : Symbol) (view : View) (module : Module)
    (isMain : Bool) :
    symbol.slots.merge arrived view module isMain =
      (symbol.merge arrived view module isMain).map slots := by
  rw [SymbolSlots.merge, merge]
  by_cases own : arrived.identifier = symbol.identifier
  · rw [if_pos (show arrived.identifier = symbol.slots.identifier from own), if_pos own]
    exact congrArg Except.ok (symbol.slots_record arrived view module isMain).symm
  · rw [if_neg (show ¬arrived.identifier = symbol.slots.identifier from own), if_neg own]
    rfl

/-- A view is removed from every table. -/
theorem column_removeView (symbol : UnifiedSymbol) (view : View) (image : Facet → Option α) :
    (symbol.removeView view).column image = (symbol.column image).erase view := by
  refine Table.ext_get? fun other => ?_
  rw [get?_column, facet?, removeView, Table.get?_erase, Table.get?_erase, get?_column]
  split <;> rfl

theorem slots_removeView (symbol : UnifiedSymbol) (view : View) :
    (symbol.removeView view).slots = symbol.slots.removeView view := by
  simp only [slots, column_removeView]
  rfl

/-- Tables are absorbed if a newer part, where there is one, is put over an older one. -/
theorem column_absorb {image : Facet → Option α}
    (replaced : ∀ held newer : Facet, image (held.replacedBy newer) = (image newer).or (image held))
    (symbol newer : UnifiedSymbol) :
    (symbol.absorb newer).column image = (symbol.column image).union (newer.column image) := by
  refine Table.ext_get? fun view => ?_
  rw [get?_column, facet?_absorb, Table.get?_union, get?_column, get?_column]
  cases symbol.facet? view with
  | none => cases newer.facet? view <;> simp
  | some held => cases newer.facet? view <;> simp [replaced]

theorem slots_absorb (symbol newer : UnifiedSymbol) :
    (symbol.absorb newer).slots = symbol.slots.absorb newer.slots := by
  refine SymbolSlots.ext rfl ?_ ?_ ?_ ?_ ?_ ?_ ?_ ?_
  · apply column_absorb
    intro held newer
    cases newerIsMain : newer.isMain <;> simp [Facet.replacedBy, newerIsMain]
  · exact column_absorb (fun _ _ => rfl) symbol newer
  · exact column_absorb (fun _ _ => rfl) symbol newer
  · exact column_absorb (fun _ _ => rfl) symbol newer
  · exact column_absorb (fun _ _ => rfl) symbol newer
  · exact column_absorb (fun _ _ => rfl) symbol newer
  · exact column_absorb (fun _ _ => rfl) symbol newer
  · exact column_absorb (fun _ _ => rfl) symbol newer

end UnifiedSymbol

end ApiAtlas
