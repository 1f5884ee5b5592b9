import Mathlib.Data.List.Nodup
import SqlBackend.Proofs.Schema.Catalog
import SqlBackend.Proofs.Schema.Indexes
import SqlBackend.Proofs.Schema.PrimaryKey

/-! # Creating and dropping a table

A table is created in its own schema, and with it its indexes. They are dropped by
their names alone, so they are looked for in the default schema. For a table in another
schema they are not found there, and the table cannot be dropped.
-/

namespace SqlBackend

namespace Table

variable {t : Table} {d : Dialect} {c : Catalog}

/-- No name has a point in it. -/
structure Undotted (t : Table) : Prop where
  schema : ∀ s ∈ t.schema, '.' ∉ s.toList
  name : '.' ∉ t.name.toList
  indexNames : ∀ name ∈ t.indexNames, '.' ∉ name.toList

/-- The name of the table in a catalog. -/
def objectName (t : Table) (c : Catalog) : ObjectName :=
  ⟨t.schema.getD c.defaultSchema, t.name⟩

theorem Undotted.resolve_qualifiedName (h : t.Undotted) :
    c.resolve t.qualifiedName = t.objectName c :=
  Catalog.resolve_qualifiedName h.schema h.name

/-- The table and its indexes do not exist yet: neither the table itself nor, in any
schema, an index with the name of one of its indexes or keys. -/
structure FreshIn (t : Table) (c : Catalog) : Prop where
  schema : (t.objectName c).schema ∈ c.schemas
  table : ¬c.HasTable (t.objectName c)
  distinct : t.indexNames.Nodup
  unused : ∀ index ∈ c.indexes, index.key.name ∉ t.indexNames

/-- The names of the keys with statements of their own are among those of all keys. -/
theorem names_separateUniqueKeys_sublist :
    ((t.withPrimaryKey.separateUniqueKeys d).map (·.name)).Sublist
      ((t.columns.filter (·.unique)).map t.uniqueKeyName ++ t.uniqueKeys.map (·.name)) := by
  rw [separateUniqueKeys, List.map_append, List.map_map, t.withPrimaryKey_eq.2.2.2,
    ← t.filter_unique_columns_withPrimaryKey, ← t.uniqueKeyName_withPrimaryKey]
  refine List.Sublist.append (List.Sublist.map _ (List.monotone_filter_right _ ?_)) (.refl _)
  intro c hc
  simp only [Bool.and_eq_true] at hc
  exact hc.1.1

/-- All indexes that are created have names of their own, since all indexes and keys
have. -/
theorem nodup_createdIndexes (h : t.indexNames.Nodup) :
    ((t.withPrimaryKey.createdIndexes d).map (·.2.name)).Nodup := by
  have hnames : (t.withPrimaryKey.createdIndexes d).map (·.2.name) =
      (t.withPrimaryKey.separateUniqueKeys d).map (·.name) ++ t.indexes.map (·.name) := by
    rw [createdIndexes, List.map_append, List.map_map, List.map_map, t.withPrimaryKey_eq.2.2.1]
    rfl
  have hperm : t.indexNames.Perm
      ((t.columns.filter (·.unique)).map t.uniqueKeyName ++ t.uniqueKeys.map (·.name) ++
        t.indexes.map (·.name)) := by
    rw [indexNames, List.append_assoc]
    exact List.perm_append_comm.trans (List.perm_append_comm.append_right _)
  rw [hnames]
  exact (hperm.nodup_iff.mp h).sublist (names_separateUniqueKeys_sublist.append (.refl _))

/-- The catalog with a table and the indexes that are created for it. -/
def stored (t : Table) (d : Dialect) (c : Catalog) : Catalog :=
  (c.withTable ⟨t.objectName c, t.withPrimaryKey.elements d⟩).withIndexes (t.objectName c)
    ⟨_, List.mem_concat_self, rfl⟩ (t.withPrimaryKey.createdIndexes d)

theorem run_createCommands (hd : d.uniqueKeys = .uniqueIndex) (hnames : t.Undotted)
    (hfresh : t.FreshIn c) :
    c.run (t.withPrimaryKey.createCommands d) = .ok (t.stored d c) := by
  have hexecute : c.execute (.createTable t.qualifiedName (t.withPrimaryKey.elements d)) =
      .ok (c.withTable ⟨t.objectName c, t.withPrimaryKey.elements d⟩) := by
    rw [Catalog.execute, hnames.resolve_qualifiedName, if_neg (not_not.mpr hfresh.schema),
      if_neg hfresh.table]
  have hunused : ∀ key ∈ t.withPrimaryKey.createdIndexes d,
      ¬c.HasIndex ⟨(t.objectName c).schema, key.2.name⟩ := by
    rintro key hkey ⟨index, hindex, hname⟩
    have hsame : index.key.name = key.2.name := congrArg ObjectName.name hname
    exact hfresh.unused index hindex (hsame ▸ mem_indexNames_of_created hkey)
  rw [createCommands_of_uniqueIndex _ d hd, qualifiedName_withPrimaryKey,
    Catalog.run_cons_of_ok hexecute]
  exact Catalog.run_createIndexes hnames.resolve_qualifiedName _
    (nodup_createdIndexes hfresh.distinct) hunused

/-- The commands that drop a table and its indexes. -/
def dropCommands (t : Table) (d : Dialect) : List TableCommand :=
  t.indexNames.map .dropIndex ++ [.dropTable t.qualifiedName d.cascade]

/-- What the names of the indexes stand for where they are dropped. -/
def droppedNames (t : Table) (c : Catalog) : List ObjectName :=
  t.indexNames.map (ObjectName.mk c.defaultSchema)

theorem mem_droppedNames {name : ObjectName} :
    name ∈ t.droppedNames c ↔ name.schema = c.defaultSchema ∧ name.name ∈ t.indexNames := by
  rw [droppedNames, List.mem_map]
  constructor
  · rintro ⟨_, hname, rfl⟩
    exact ⟨rfl, hname⟩
  · rintro ⟨hschema, hname⟩
    exact ⟨name.name, hname, hschema ▸ rfl⟩

theorem Undotted.map_resolve_indexNames (hnames : t.Undotted) :
    t.indexNames.map c.resolve = t.droppedNames c := by
  apply List.map_congr_left
  intro name hname
  exact Catalog.resolve_of_not_mem (hnames.indexNames name hname)

/-- Indexes of other tables have other names, so they are kept. -/
theorem filter_indexes_of_freshIn (hfresh : t.FreshIn c) :
    c.indexes.filter (·.name ∉ t.droppedNames c) = c.indexes := by
  rw [List.filter_eq_self]
  intro index hindex
  rw [decide_eq_true_eq, mem_droppedNames]
  exact fun hdropped => hfresh.unused index hindex hdropped.2

/-- In the default schema all indexes of the table are found by their names. -/
theorem withoutIndexes_stored_of_eq (hfresh : t.FreshIn c)
    (h : (t.objectName c).schema = c.defaultSchema) :
    (t.stored d c).withoutIndexes (t.droppedNames c) =
      c.withTable ⟨t.objectName c, t.withPrimaryKey.elements d⟩ := by
  refine Catalog.ext rfl rfl rfl ?_
  have hnew : ((t.withPrimaryKey.createdIndexes d).map fun key =>
        StoredIndex.mk (t.objectName c) key.1 key.2).filter (·.name ∉ t.droppedNames c) = [] := by
    rw [List.filter_eq_nil_iff, List.forall_mem_map]
    intro key hkey
    rw [decide_eq_true_eq, not_not, mem_droppedNames]
    exact ⟨h, mem_indexNames_of_created hkey⟩
  change (c.indexes ++ (t.withPrimaryKey.createdIndexes d).map _).filter _ = c.indexes
  rw [List.filter_append, filter_indexes_of_freshIn hfresh, hnew, List.append_nil]

/-- In any other schema none of them is found. -/
theorem withoutIndexes_stored_of_ne (hfresh : t.FreshIn c)
    (h : (t.objectName c).schema ≠ c.defaultSchema) :
    (t.stored d c).withoutIndexes (t.droppedNames c) = t.stored d c := by
  refine Catalog.ext rfl rfl rfl ?_
  have hnew : ((t.withPrimaryKey.createdIndexes d).map fun key =>
        StoredIndex.mk (t.objectName c) key.1 key.2).filter (·.name ∉ t.droppedNames c) =
      (t.withPrimaryKey.createdIndexes d).map fun key => ⟨t.objectName c, key.1, key.2⟩ := by
    rw [List.filter_eq_self, List.forall_mem_map]
    intro key _
    rw [decide_eq_true_eq, mem_droppedNames]
    exact fun hdropped => h hdropped.1
  change (c.indexes ++ (t.withPrimaryKey.createdIndexes d).map _).filter _ = c.indexes ++ _
  rw [List.filter_append, filter_indexes_of_freshIn hfresh, hnew]

theorem isIndexed_stored (h : t.withPrimaryKey.createdIndexes d ≠ []) :
    (t.stored d c).IsIndexed (t.objectName c) := by
  obtain ⟨key, hkey⟩ := List.exists_mem_of_ne_nil _ h
  exact ⟨_, List.mem_append_right _ (List.mem_map_of_mem hkey), rfl⟩

/-- Only the last command, which drops the table, can fail. -/
theorem run_dropCommands_stored (hnames : t.Undotted) :
    (t.stored d c).run (t.dropCommands d) =
      ((t.stored d c).withoutIndexes (t.droppedNames c)).execute
        (.dropTable t.qualifiedName d.cascade) := by
  have hindexes := Catalog.run_dropIndexes (c := t.stored d c) t.indexNames
  have hresolve : t.indexNames.map (t.stored d c).resolve = t.droppedNames c :=
    hnames.map_resolve_indexNames
  rw [dropCommands, Catalog.run_append_of_ok hindexes, Catalog.run_singleton, hresolve]

/-- Dropping a table takes its creation back if its indexes are found, or if there are
none. -/
theorem run_dropCommands (hnames : t.Undotted) (hfresh : t.FreshIn c)
    (h : (t.objectName c).schema = c.defaultSchema ∨ t.withPrimaryKey.createdIndexes d = []) :
    (t.stored d c).run (t.dropCommands d) = .ok c := by
  have hdropped : (t.stored d c).withoutIndexes (t.droppedNames c) =
      c.withTable ⟨t.objectName c, t.withPrimaryKey.elements d⟩ := by
    by_cases hschema : (t.objectName c).schema = c.defaultSchema
    · exact withoutIndexes_stored_of_eq hfresh hschema
    · rw [withoutIndexes_stored_of_ne hfresh hschema, stored, h.resolve_left hschema]
      exact Catalog.withIndexes_nil _ _
  rw [run_dropCommands_stored hnames, hdropped]
  exact Catalog.execute_dropTable_withTable _ hnames.resolve_qualifiedName hfresh.table

/-- A table with indexes that are not found stays. -/
theorem run_dropCommands_of_ne (hnames : t.Undotted) (hfresh : t.FreshIn c)
    (hschema : (t.objectName c).schema ≠ c.defaultSchema)
    (hindexes : t.withPrimaryKey.createdIndexes d ≠ []) :
    (t.stored d c).run (t.dropCommands d) = .error (.indexedTable (t.objectName c)) := by
  have hname : (t.stored d c).resolve t.qualifiedName = t.objectName c :=
    hnames.resolve_qualifiedName
  have hindexed : (t.stored d c).IsIndexed ((t.stored d c).resolve t.qualifiedName) :=
    hname ▸ isIndexed_stored hindexes
  rw [run_dropCommands_stored hnames, withoutIndexes_stored_of_ne hfresh hschema,
    Catalog.execute_dropTable_of_isIndexed _ hindexed, hname]

end Table

namespace ExportStyle

theorem drop_spanner_of_not_before (t : Table) {d : Dialect} (hd : d.beforeDrop = none) :
    spanner.drop t d = (t.dropCommands d).map TableCommand.text := by
  rw [drop_spanner, hd, Table.dropCommands, List.map_append, List.map_map]
  simp

/-- Creating a fresh table on Spanner always succeeds, and dropping it again restores
the catalog if the table is in the default schema or has no indexes. Otherwise its
indexes, which are in its own schema, are not found by their names and the table is not
dropped. -/
theorem spanner_drop_restores_catalog (settings : SpannerSettings) (t : Table) (c : Catalog)
    {statements : List String} (hcreate : spanner.create t (.spanner settings) = .ok statements)
    (hnames : t.Undotted) (hfresh : t.FreshIn c) :
    ∃ stored : Catalog,
      statements = (t.withPrimaryKey.createCommands (.spanner settings)).map TableCommand.text ∧
      spanner.drop t (.spanner settings) =
        (t.dropCommands (.spanner settings)).map TableCommand.text ∧
      c.run (t.withPrimaryKey.createCommands (.spanner settings)) = .ok stored ∧
      stored.HasTable (t.objectName c) ∧
      (t.schema.getD c.defaultSchema = c.defaultSchema ∨
          t.withPrimaryKey.createdIndexes (.spanner settings) = [] →
        stored.run (t.dropCommands (.spanner settings)) = .ok c) ∧
      (t.schema.getD c.defaultSchema ≠ c.defaultSchema →
        t.withPrimaryKey.createdIndexes (.spanner settings) ≠ [] →
        stored.run (t.dropCommands (.spanner settings)) =
          .error (.indexedTable (t.objectName c))) :=
  ⟨t.stored (.spanner settings) c, t.withPrimaryKey.statements_of_createStatements _ hcreate,
    drop_spanner_of_not_before t rfl, Table.run_createCommands rfl hnames hfresh,
    ⟨_, List.mem_concat_self, rfl⟩, Table.run_dropCommands hnames hfresh,
    Table.run_dropCommands_of_ne hnames hfresh⟩

/-- A table in the default schema with an index of each kind, in a catalog that has a
table with an index in another one. -/
theorem spanner_drop_restores_catalog_default :
    let name : Column := { name := "name", type := .longVarchar, unique := true }
    let t : Table := {
      name := "events", columns := [name], indexes := [⟨"idx_name", ["name"]⟩]
      uniqueKeys := [⟨"uk", ["name"]⟩] }
    let d := Dialect.spanner {}
    let c : Catalog := {
      defaultSchema := "public", schemas := ["public", "app"], tables := [⟨⟨"app", "logs"⟩, []⟩]
      indexes := [⟨⟨"app", "logs"⟩, false, ⟨"idx_logs", ["at"]⟩⟩], indexed := by simp }
    let statements := ["create table events (name character varying, rowid bigint generated by " ++
        "default as identity (bit_reversed_positive) not null hidden, primary key (rowid))",
      "create unique index uk_events_name on events (name)",
      "create unique index uk on events (name)",
      "create index idx_name on events (name)"]
    spanner.create t d = .ok statements ∧ t.Undotted ∧ t.FreshIn c ∧
      t.schema.getD c.defaultSchema = c.defaultSchema ∧
      spanner.drop t d = ["drop index if exists idx_name", "drop index if exists uk",
        "drop index if exists uk_events_name", "drop table if exists events"] ∧
      ∃ stored : Catalog,
        statements = (t.withPrimaryKey.createCommands d).map TableCommand.text ∧
        c.run (t.withPrimaryKey.createCommands d) = .ok stored ∧
        stored.HasTable ⟨"public", "events"⟩ ∧ stored.run (t.dropCommands d) = .ok c := by
  intro name t d c statements
  have hcreate : spanner.create t d = .ok statements := by decide +kernel
  have hnames : t.Undotted := ⟨nofun, by decide +kernel, by decide +kernel⟩
  have hfresh : t.FreshIn c :=
    ⟨by decide +kernel, by decide +kernel, by decide +kernel, by decide +kernel⟩
  obtain ⟨stored, htexts, _, hrun, htable, hdrop, _⟩ :=
    spanner_drop_restores_catalog {} t c hcreate hnames hfresh
  exact ⟨hcreate, hnames, hfresh, rfl, by decide +kernel, stored, htexts, hrun, htable,
    hdrop (.inl rfl)⟩

/-- An index in another schema is not found by its name, so the table stays. -/
theorem spanner_drop_keeps_indexed_table :
    let id : Column := { name := "id", type := .bigInt }
    let t : Table := {
      name := "orders", schema := some "app", columns := [id], primaryKey := some ["id"]
      indexes := [⟨"idx_orders", ["id"]⟩] }
    let d := Dialect.spanner {}
    let c : Catalog := {
      defaultSchema := "public", schemas := ["public", "app"], tables := [], indexes := []
      indexed := nofun }
    let statements := ["create table app.orders (id bigint not null, primary key (id))",
      "create index idx_orders on app.orders (id)"]
    spanner.create t d = .ok statements ∧
      statements = (t.withPrimaryKey.createCommands d).map TableCommand.text ∧
      spanner.drop t d = ["drop index if exists idx_orders", "drop table if exists app.orders"] ∧
      spanner.drop t d = (t.dropCommands d).map TableCommand.text ∧ t.Undotted ∧ t.FreshIn c ∧
      ∃ stored : Catalog,
        c.run (t.withPrimaryKey.createCommands d) = .ok stored ∧
        stored.run (t.dropCommands d) = .error (.indexedTable ⟨"app", "orders"⟩) := by
  intro id t d c statements
  have hcreate : spanner.create t d = .ok statements := by decide +kernel
  have hnames : t.Undotted := ⟨by decide +kernel, by decide +kernel, by decide +kernel⟩
  have hfresh : t.FreshIn c := ⟨by decide +kernel, nofun, by decide +kernel, nofun⟩
  exact ⟨hcreate, t.withPrimaryKey.statements_of_createStatements _ hcreate, by decide +kernel,
    drop_spanner_of_not_before t rfl, hnames, hfresh, _, Table.run_createCommands rfl hnames hfresh,
    Table.run_dropCommands_of_ne hnames hfresh (by decide +kernel) (by decide +kernel)⟩

end ExportStyle

end SqlBackend
