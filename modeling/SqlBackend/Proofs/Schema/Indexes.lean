import Mathlib.Data.List.Basic
import SqlBackend.Proofs.Schema.Uniqueness

/-! # Indexes are dropped with their table

Where unique keys are indexes, a table is created with an index for each of them and
for each declared index. The names to drop are collected from the table as declared,
which knows nothing of a hidden key.
-/

namespace SqlBackend

namespace Table

variable (t : Table) (d : Dialect)

/-- The indexes that are created with a table whose unique keys are indexes, and
whether each is unique. -/
def createdIndexes : List (Bool × NamedColumns) :=
  (t.separateUniqueKeys d).map (true, ·) ++ t.indexes.map (false, ·)

theorem createCommands_of_uniqueIndex (hd : d.uniqueKeys = .uniqueIndex) :
    t.createCommands d = .createTable t.qualifiedName (t.elements d) ::
      (t.createdIndexes d).map fun index => .createIndex index.1 t.qualifiedName index.2 := by
  have hkeys : (t.separateUniqueKeys d).map (t.uniqueKeyCommand d) =
      (t.separateUniqueKeys d).map (.createIndex true t.qualifiedName) := by
    apply List.map_congr_left
    intro key _
    rw [uniqueKeyCommand, hd]
  rw [createCommands, createdIndexes, hkeys, List.map_append, List.map_map, List.map_map]
  rfl

/-- The hidden key changes neither the name of the table nor what is indexed. -/
theorem withPrimaryKey_eq :
    t.withPrimaryKey.name = t.name ∧ t.withPrimaryKey.schema = t.schema ∧
      t.withPrimaryKey.indexes = t.indexes ∧ t.withPrimaryKey.uniqueKeys = t.uniqueKeys := by
  unfold withPrimaryKey
  split
  · exact ⟨rfl, rfl, rfl, rfl⟩
  · exact ⟨rfl, rfl, rfl, rfl⟩

theorem qualifiedName_withPrimaryKey : t.withPrimaryKey.qualifiedName = t.qualifiedName := by
  obtain ⟨hname, hschema, _, _⟩ := t.withPrimaryKey_eq
  rw [qualifiedName, qualifiedName, hname, hschema]

theorem uniqueKeyName_withPrimaryKey : t.withPrimaryKey.uniqueKeyName = t.uniqueKeyName := by
  funext c
  rw [uniqueKeyName, uniqueKeyName, t.withPrimaryKey_eq.1]

/-- The hidden column is not unique. -/
theorem filter_unique_columns_withPrimaryKey :
    t.withPrimaryKey.columns.filter (·.unique) = t.columns.filter (·.unique) := by
  unfold withPrimaryKey
  split
  · rfl
  · rw [List.filter_append, List.filter_cons_of_neg (by simp [Column.rowId]), List.filter_nil,
      List.append_nil]

/-- The unique columns of a table with a hidden key are those of the table. -/
theorem mem_columns_withPrimaryKey {c : Column} (hunique : c.unique = true) :
    c ∈ t.withPrimaryKey.columns ↔ c ∈ t.columns := by
  have hmem (columns : List Column) : c ∈ columns ↔ c ∈ columns.filter (·.unique) := by
    rw [List.mem_filter, and_iff_left hunique]
  rw [hmem, filter_unique_columns_withPrimaryKey, ← hmem]

theorem indexNames_withPrimaryKey : t.withPrimaryKey.indexNames = t.indexNames := by
  obtain ⟨_, _, hindexes, hkeys⟩ := t.withPrimaryKey_eq
  rw [indexNames, indexNames, hindexes, hkeys, filter_unique_columns_withPrimaryKey,
    uniqueKeyName_withPrimaryKey]

variable {t d}

theorem mem_indexNames {name : String} :
    name ∈ t.indexNames ↔
      (∃ index ∈ t.indexes, index.name = name) ∨ (∃ key ∈ t.uniqueKeys, key.name = name) ∨
        ∃ c ∈ t.columns, c.unique = true ∧ t.uniqueKeyName c = name := by
  simp [indexNames, and_assoc]

theorem mem_createdIndexes {index : Bool × NamedColumns} :
    index ∈ t.createdIndexes d ↔
      (∃ key ∈ t.separateUniqueKeys d, (true, key) = index) ∨
        ∃ plain ∈ t.indexes, (false, plain) = index := by
  simp [createdIndexes]

/-- Every index that is created has one of the names that are collected. -/
theorem name_mem_indexNames {index : Bool × NamedColumns} (h : index ∈ t.createdIndexes d) :
    index.2.name ∈ t.indexNames := by
  rw [mem_indexNames]
  rcases mem_createdIndexes.mp h with ⟨key, hkey, rfl⟩ | ⟨plain, hplain, rfl⟩
  · rcases mem_separateUniqueKeys.mp hkey with ⟨c, hc, hunique, _, _, rfl⟩ | hdeclared
    · exact .inr (.inr ⟨c, hc, hunique, rfl⟩)
    · exact .inr (.inl ⟨key, hdeclared, rfl⟩)
  · exact .inl ⟨plain, hplain, rfl⟩

/-- Everything that is created is dropped: the keys of unique columns are dropped also
where the primary key makes them unnecessary. -/
theorem mem_indexNames_of_created {index : Bool × NamedColumns}
    (h : index ∈ t.withPrimaryKey.createdIndexes d) : index.2.name ∈ t.indexNames :=
  t.indexNames_withPrimaryKey ▸ name_mem_indexNames h

/-- A name that is dropped was created, unless it is that of a unique column in the
primary key. -/
theorem created_of_mem_indexNames (hd : d.uniqueKeys = .uniqueIndex) {name : String}
    (h : name ∈ t.indexNames) :
    (∃ index ∈ t.withPrimaryKey.createdIndexes d, index.2.name = name) ∨
      ∃ c ∈ t.columns, c.unique = true ∧ c.name ∈ t.withPrimaryKey.keyColumns ∧
        t.uniqueKeyName c = name := by
  obtain ⟨_, _, hindexes, hkeys⟩ := t.withPrimaryKey_eq
  have hinline : d.inlineUnique = false := by simp [Dialect.inlineUnique, hd]
  rcases mem_indexNames.mp h with ⟨index, hindex, rfl⟩ | ⟨key, hkey, rfl⟩ | ⟨c, hc, hunique, rfl⟩
  · have hplain : index ∈ t.withPrimaryKey.indexes := hindexes.symm ▸ hindex
    exact .inl ⟨(false, index), mem_createdIndexes.mpr (.inr ⟨index, hplain, rfl⟩), rfl⟩
  · have hseparate : key ∈ t.withPrimaryKey.separateUniqueKeys d :=
      mem_separateUniqueKeys.mpr (.inr (hkeys.symm ▸ hkey))
    exact .inl ⟨(true, key), mem_createdIndexes.mpr (.inl ⟨key, hseparate, rfl⟩), rfl⟩
  · by_cases hprimary : c.name ∈ t.withPrimaryKey.keyColumns
    · exact .inr ⟨c, hc, hunique, hprimary, rfl⟩
    · have hmem := (t.mem_columns_withPrimaryKey hunique).mpr hc
      have hseparate := mem_separateUniqueKeys.mpr
        (.inl ⟨c, hmem, hunique, hprimary, hinline, rfl⟩)
      refine .inl ⟨_, mem_createdIndexes.mpr (.inl ⟨_, hseparate, rfl⟩), ?_⟩
      exact congrFun t.uniqueKeyName_withPrimaryKey c

end Table

namespace ExportStyle

/-- The table that is created for a declared one. -/
def exported (style : ExportStyle) (t : Table) : Table :=
  match style with
  | standard => t
  | spanner => t.withPrimaryKey

theorem create_eq (style : ExportStyle) (t : Table) (d : Dialect) :
    style.create t d = (style.exported t).createStatements d := by
  cases style with
  | standard => rfl
  | spanner => rfl

/-- What is dropped for a table on Spanner: its indexes, and the table at the end. -/
theorem drop_spanner (t : Table) (d : Dialect) :
    spanner.drop t d = t.indexNames.map (fun name => (TableCommand.dropIndex name).text) ++
      d.beforeDrop.toList ++ [(TableCommand.dropTable t.qualifiedName d.cascade).text] :=
  (List.append_assoc _ _ _).symm

/-- Spanner drops every index that it creates with a table, also when the table gets a
hidden key. All indexes are dropped before the table, which is dropped last, and an
index that is dropped and was not created is that of a unique column in the key. -/
theorem spanner_drops_created_indexes (t : Table) (d : Dialect) (hd : d.uniqueKeys = .uniqueIndex)
    {statements : List String} (h : spanner.create t d = .ok statements) :
    statements = (TableCommand.createTable t.qualifiedName (t.withPrimaryKey.elements d) ::
        (t.withPrimaryKey.createdIndexes d).map fun index =>
          .createIndex index.1 t.qualifiedName index.2).map TableCommand.text ∧
      spanner.drop t d = t.indexNames.map (fun name => (TableCommand.dropIndex name).text) ++
        d.beforeDrop.toList ++ [(TableCommand.dropTable t.qualifiedName d.cascade).text] ∧
      (∀ index ∈ t.withPrimaryKey.createdIndexes d, index.2.name ∈ t.indexNames) ∧
      ∀ name ∈ t.indexNames,
        (∃ index ∈ t.withPrimaryKey.createdIndexes d, index.2.name = name) ∨
          ∃ c ∈ t.columns, c.unique = true ∧ c.name ∈ t.withPrimaryKey.keyColumns ∧
            t.uniqueKeyName c = name := by
  refine ⟨?_, drop_spanner t d, fun _ hindex => Table.mem_indexNames_of_created hindex,
    fun _ hname => Table.created_of_mem_indexNames hd hname⟩
  rw [t.withPrimaryKey.statements_of_createStatements d h,
    Table.createCommands_of_uniqueIndex _ d hd, t.qualifiedName_withPrimaryKey]

/-- An index of each kind, on a table that gets a hidden key. -/
theorem spanner_drops_created_indexes_hidden :
    let name : Column := { name := "name", type := .longVarchar, unique := true }
    let city : Column := { name := "city", type := .longVarchar }
    let t : Table := {
      name := "events", columns := [name, city], indexes := [⟨"idx_city", ["city"]⟩]
      uniqueKeys := [⟨"uk", ["city", "name"]⟩] }
    let d := Dialect.spanner {}
    let statements := ["create table events (name character varying, city character varying, " ++
        "rowid bigint generated by default as identity (bit_reversed_positive) not null hidden, " ++
        "primary key (rowid))",
      "create unique index uk_events_name on events (name)",
      "create unique index uk on events (city, name)",
      "create index idx_city on events (city)"]
    d.uniqueKeys = .uniqueIndex ∧ spanner.create t d = .ok statements ∧
      spanner.drop t d = ["drop index if exists idx_city", "drop index if exists uk",
        "drop index if exists uk_events_name", "drop table if exists events"] ∧
      (∀ index ∈ t.withPrimaryKey.createdIndexes d, index.2.name ∈ t.indexNames) ∧
      ∀ name ∈ t.indexNames,
        (∃ index ∈ t.withPrimaryKey.createdIndexes d, index.2.name = name) ∨
          ∃ c ∈ t.columns, c.unique = true ∧ c.name ∈ t.withPrimaryKey.keyColumns ∧
            t.uniqueKeyName c = name := by
  intro name city t d statements
  have hcreate : spanner.create t d = .ok statements := by decide +kernel
  have hdrop : spanner.drop t d = ["drop index if exists idx_city", "drop index if exists uk",
      "drop index if exists uk_events_name", "drop table if exists events"] := by decide +kernel
  obtain ⟨_, _, hcreated, hdropped⟩ := spanner_drops_created_indexes t d rfl hcreate
  exact ⟨rfl, hcreate, hdrop, hcreated, hdropped⟩

end ExportStyle

end SqlBackend
