import ApiAtlas.Proofs.Unified.WellFormed
import Mathlib.Data.List.Dedup

/-!
# Collecting orphans

The relationships of a unified graph stand in two tables, those set apart and
the others. Put together (`allEdges`) they are looked up in both, and what has
been set apart decides (`get?_allEdges`).

Collecting orphans parts what is there anew: where an end of a link is known,
everything stands in the regular table, and where none is known, everything is
set apart (`get?_edges_collectOrphans`, `get?_orphans_collectOrphans`). Nothing
is lost and nothing is changed (`allEdges_collectOrphans`), so a second
collection does nothing (`collectOrphans_collectOrphans`).
-/

set_option autoImplicit false

namespace ApiAtlas

/-- There is one relationship for each link, in whatever views it is. -/
theorem EdgeTable.length_distinct (edges : EdgeTable) :
    (distinct edges).length = ((Table.keys edges).map (·.2)).dedup.length := by
  have same : ((distinct edges).map (·.link)).Perm ((Table.keys edges).map (·.2)).dedup := by
    apply (List.perm_ext_iff_of_nodup (nodup_link_distinct edges) (List.nodup_dedup _)).2
    intro link
    simp only [List.mem_map, exists_mem_distinct, List.mem_dedup, Prod.exists, exists_eq_right,
      Table.mem_keys, Table.contains_iff]
  simpa using same.length_eq

namespace UnifiedGraph

variable {unified : UnifiedGraph} {view : View} {link : Link}

/-- What has been set apart is put over what stands in the regular table. -/
theorem get?_allEdges (unified : UnifiedGraph) (key : View × Link) :
    Table.get? unified.allEdges key =
      EdgeTable.join (Table.get? unified.edges key) (Table.get? unified.orphans key) := by
  have inserted : unified.allEdges = unified.edges.insertEdges
      (unified.orphans.entries.map fun entry => (entry.1.1, EdgeTable.relationshipOf entry)) := by
    rw [allEdges, EdgeTable.insertEdges, List.foldl_map]
  have arriving : EdgeTable.mixinsUnder key
        (unified.orphans.entries.map fun entry => (entry.1.1, EdgeTable.relationshipOf entry)) =
      (Table.get? unified.orphans key).toList := by
    rw [EdgeTable.mixinsUnder, List.filterMap_map]
    have found := Table.filterMap_entries_at unified.orphans key id
    rw [Option.map_id, id] at found
    exact found
  rw [inserted, EdgeTable.get?_insertEdges, arriving, EdgeTable.foldl_pile_toList]

/-- Something is there exactly if one of the two tables has it. -/
theorem contains_allEdges_iff {key : View × Link} :
    Table.contains unified.allEdges key = true ↔
      Table.contains unified.edges key = true ∨ Table.contains unified.orphans key = true := by
  rw [Table.contains, get?_allEdges, Option.isSome_merge, Bool.or_eq_true]
  rfl

theorem knowsEnd_eq_false_iff :
    unified.knowsEnd link = false ↔
      unified.symbols.contains link.source = false ∧
        unified.symbols.contains link.target = false :=
  Bool.or_eq_false_iff

/-! ## What a collection leaves -/

/-- Where an end is known, the regular table has everything. -/
theorem get?_edges_collectOrphans (unified : UnifiedGraph) (view : View) (link : Link) :
    Table.get? unified.collectOrphans.edges (view, link) =
      if unified.knowsEnd link then Table.get? unified.allEdges (view, link) else none := by
  rw [collectOrphans, Table.get?_filter]
  cases Table.get? unified.allEdges (view, link) <;> cases unified.knowsEnd link <;> rfl

/-- Where no end is known, everything is set apart. -/
theorem get?_orphans_collectOrphans (unified : UnifiedGraph) (view : View) (link : Link) :
    Table.get? unified.collectOrphans.orphans (view, link) =
      if unified.knowsEnd link then none else Table.get? unified.allEdges (view, link) := by
  rw [collectOrphans, Table.get?_filter]
  cases Table.get? unified.allEdges (view, link) <;> cases unified.knowsEnd link <;> rfl

/-- **A collection neither loses nor changes anything.** -/
theorem allEdges_collectOrphans (unified : UnifiedGraph) :
    unified.collectOrphans.allEdges = unified.allEdges := by
  apply Table.ext_get?
  rintro ⟨view, link⟩
  rw [get?_allEdges, get?_edges_collectOrphans, get?_orphans_collectOrphans]
  cases unified.knowsEnd link with
  | true => exact Option.merge_none_right
  | false => exact Option.merge_none_left

/-- What a collection makes depends on all relationships together and on the rest of the graph. -/
theorem collectOrphans_congr {first second : UnifiedGraph}
    (moduleName : first.moduleName = second.moduleName) (sources : first.sources = second.sources)
    (symbols : first.symbols = second.symbols) (groups : first.groups = second.groups)
    (allEdges : first.allEdges = second.allEdges) :
    first.collectOrphans = second.collectOrphans := by
  simp only [collectOrphans, knowsEnd, moduleName, sources, symbols, groups, allEdges]

/-- **A second collection does nothing.** -/
theorem collectOrphans_collectOrphans (unified : UnifiedGraph) :
    unified.collectOrphans.collectOrphans = unified.collectOrphans :=
  collectOrphans_congr rfl rfl rfl rfl unified.allEdges_collectOrphans

/-- After a collection a relationship is in the regular table exactly if it is there and an end of
it is known. -/
theorem contains_edges_collectOrphans_iff :
    Table.contains unified.collectOrphans.edges (view, link) = true ↔
      Table.contains unified.allEdges (view, link) = true ∧ unified.knowsEnd link = true := by
  rw [Table.contains, get?_edges_collectOrphans]
  cases unified.knowsEnd link <;> simp [Table.contains]

/-- After a collection a relationship is set apart exactly if it is there and no end of it is
known. -/
theorem contains_orphans_collectOrphans_iff :
    Table.contains unified.collectOrphans.orphans (view, link) = true ↔
      Table.contains unified.allEdges (view, link) = true ∧ unified.knowsEnd link = false := by
  rw [Table.contains, get?_orphans_collectOrphans]
  cases unified.knowsEnd link <;> simp [Table.contains]

end UnifiedGraph

end ApiAtlas
