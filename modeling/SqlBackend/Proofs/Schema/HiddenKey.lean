import Mathlib.Data.List.Nodup
import SqlBackend.Proofs.Schema.PrimaryKey

/-! # The hidden key and the declared columns

The columns of a key are told by their names. So a table with a hidden key is made of
what it was made of without one, and of the hidden column and its key clause, as long
as no declared column has the name of the hidden one. A column of that name would be
taken for the key.
-/

namespace SqlBackend

namespace Table

variable {t : Table} {d : Dialect}

theorem keyColumns_of_not_hasPrimaryKey (h : t.hasPrimaryKey = false) : t.keyColumns = [] := by
  simpa [hasPrimaryKey] using h

/-- The hidden column is there, so nothing keeps a table with a hidden key from being
created. -/
theorem fault?_withPrimaryKey (h : t.hasPrimaryKey = false) : t.withPrimaryKey.fault? = none := by
  rw [withPrimaryKey_of_not_hasPrimaryKey h]
  simp [fault?, keyColumns, findColumn?]

theorem elements_of_not_hasPrimaryKey (h : t.hasPrimaryKey = false) :
    t.elements d =
      t.columns.map (fun c => .column (c.define false d)) ++ t.checks.map .check := by
  simp [elements, h, keyColumns_of_not_hasPrimaryKey h]

/-- A declared column is defined as one of the key if it has the name of the hidden
column. -/
theorem elements_withPrimaryKey (h : t.hasPrimaryKey = false) :
    t.withPrimaryKey.elements d =
      t.columns.map (fun c => .column (c.define (c.name = Column.rowId.name) d)) ++
        [.column (Column.rowId.define true d), .primaryKey [Column.rowId.name]] ++
        t.checks.map .check := by
  rw [withPrimaryKey_of_not_hasPrimaryKey h]
  simp [elements, hasPrimaryKey, keyColumns]

/-- The hidden column is not unique, and no other column is taken for it. -/
theorem separateUniqueKeys_withPrimaryKey (h : t.hasPrimaryKey = false)
    (hfree : ∀ c ∈ t.columns, c.name ≠ Column.rowId.name) :
    t.withPrimaryKey.separateUniqueKeys d = t.separateUniqueKeys d := by
  have hcolumns : (t.columns ++ [Column.rowId]).filter (fun c =>
        c.unique && !([Column.rowId.name].contains c.name) && !d.inlineUnique) =
      t.columns.filter (fun c => c.unique && !t.keyColumns.contains c.name && !d.inlineUnique) := by
    rw [List.filter_append, List.filter_cons_of_neg (by simp [Column.rowId]), List.filter_nil,
      List.append_nil, keyColumns_of_not_hasPrimaryKey h]
    apply List.filter_congr
    intro c hc
    simp [hfree c hc]
  rw [withPrimaryKey_of_not_hasPrimaryKey h]
  exact congrArg (List.map (fun c => ⟨t.uniqueKeyName c, [c.name]⟩) · ++ t.uniqueKeys) hcolumns

theorem uniqueKeyCommand_withPrimaryKey (key : NamedColumns) :
    t.withPrimaryKey.uniqueKeyCommand d key = t.uniqueKeyCommand d key := by
  rw [uniqueKeyCommand, uniqueKeyCommand, qualifiedName_withPrimaryKey]

/-- The hidden key changes the statement that creates the table and no other. -/
theorem createCommands_withPrimaryKey (h : t.hasPrimaryKey = false)
    (hfree : ∀ c ∈ t.columns, c.name ≠ Column.rowId.name) :
    ∃ rest, t.createCommands d = .createTable t.qualifiedName (t.elements d) :: rest ∧
      t.withPrimaryKey.createCommands d =
        .createTable t.qualifiedName (t.withPrimaryKey.elements d) :: rest := by
  refine ⟨(t.separateUniqueKeys d).map (t.uniqueKeyCommand d) ++
    t.indexes.map (.createIndex false t.qualifiedName), rfl, ?_⟩
  have hkeys : t.withPrimaryKey.uniqueKeyCommand d = t.uniqueKeyCommand d :=
    funext fun key => uniqueKeyCommand_withPrimaryKey key
  rw [createCommands, hkeys, separateUniqueKeys_withPrimaryKey h hfree,
    qualifiedName_withPrimaryKey, t.withPrimaryKey_eq.2.2.1]
  rfl

/-- The names stay distinct exactly if none of them is that of the hidden column. -/
theorem nodup_columns_withPrimaryKey (h : t.hasPrimaryKey = false) {fold : String → String}
    (hnames : (t.columns.map fun c => fold c.name).Nodup) :
    (t.withPrimaryKey.columns.map fun c => fold c.name).Nodup ↔
      ∀ c ∈ t.columns, fold c.name ≠ fold Column.rowId.name := by
  rw [withPrimaryKey_of_not_hasPrimaryKey h]
  simp [List.nodup_append, hnames]

/-- The key is told by its name if no declared column has it. -/
theorem name_eq_rowId_iff (h : t.hasPrimaryKey = false) {fold : String → String}
    (hfree : ∀ c ∈ t.columns, fold c.name ≠ fold Column.rowId.name) :
    ∀ c ∈ t.withPrimaryKey.columns, fold c.name = fold Column.rowId.name ↔ c = .rowId := by
  rw [withPrimaryKey_of_not_hasPrimaryKey h, List.forall_mem_append]
  constructor
  · intro c hc
    refine iff_of_false (hfree c hc) ?_
    rintro rfl
    exact hfree _ hc rfl
  · simp

/-- The statements are those for the declared columns, with the hidden column and its key
clause added to the first one. -/
theorem create_withPrimaryKey (h : t.hasPrimaryKey = false)
    (hfree : ∀ c ∈ t.columns, c.name ≠ Column.rowId.name) :
    ∃ rest,
      t.createCommands d = .createTable t.qualifiedName
        (t.columns.map (fun c => .column (c.define false d)) ++ t.checks.map .check) :: rest ∧
      ExportStyle.spanner.create t d = .ok ((.createTable t.qualifiedName
        (t.columns.map (fun c => .column (c.define false d)) ++
          [.column (Column.rowId.define true d), .primaryKey [Column.rowId.name]] ++
          t.checks.map .check) :: rest).map TableCommand.text) := by
  obtain ⟨rest, hown, hkeyed⟩ := createCommands_withPrimaryKey (d := d) h hfree
  have hcolumns : t.columns.map
        (fun c => TableElement.column (c.define (c.name = Column.rowId.name) d)) =
      t.columns.map fun c => .column (c.define false d) := by
    apply List.map_congr_left
    intro c hc
    rw [decide_eq_false (hfree c hc)]
  refine ⟨rest, ?_, ?_⟩
  · rw [hown, elements_of_not_hasPrimaryKey h]
  · rw [ExportStyle.create, createStatements_eq, fault?_withPrimaryKey h]
    dsimp only
    rw [hkeyed, elements_withPrimaryKey h, hcolumns]

/-- A hidden key keeps the names of the columns distinct, however a backend compares
them, if no declared column goes by the name of the hidden one. Then the key is the
hidden column alone. The statements that create the table are those for the declared
columns as they would be without a key, so none of these becomes a key column, never
null or less unique; only the hidden column and the key clause are added. Otherwise the
columns of that name are defined as columns of the key. -/
theorem hidden_key_added_apart (t : Table) (d : Dialect) (fold : String → String)
    (hkey : t.hasPrimaryKey = false) (hnames : (t.columns.map fun c => fold c.name).Nodup) :
    ((t.withPrimaryKey.columns.map fun c => fold c.name).Nodup ↔
      ∀ c ∈ t.columns, fold c.name ≠ fold Column.rowId.name) ∧
    ((∀ c ∈ t.columns, fold c.name ≠ fold Column.rowId.name) →
      (∀ c ∈ t.withPrimaryKey.columns, fold c.name = fold Column.rowId.name ↔ c = .rowId) ∧
      ∃ rest,
        t.createCommands d = .createTable t.qualifiedName
          (t.columns.map (fun c => .column (c.define false d)) ++ t.checks.map .check) :: rest ∧
        ExportStyle.spanner.create t d = .ok ((.createTable t.qualifiedName
          (t.columns.map (fun c => .column (c.define false d)) ++
            [.column (Column.rowId.define true d), .primaryKey [Column.rowId.name]] ++
            t.checks.map .check) :: rest).map TableCommand.text)) ∧
    t.withPrimaryKey.elements d =
      t.columns.map (fun c => .column (c.define (c.name = Column.rowId.name) d)) ++
        [.column (Column.rowId.define true d), .primaryKey [Column.rowId.name]] ++
        t.checks.map .check := by
  refine ⟨nodup_columns_withPrimaryKey hkey hnames, ?_, elements_withPrimaryKey hkey⟩
  intro hfree
  have hname : ∀ c ∈ t.columns, c.name ≠ Column.rowId.name := fun c hc heq =>
    hfree c hc (congrArg fold heq)
  exact ⟨name_eq_rowId_iff hkey hfree, create_withPrimaryKey hkey hname⟩

/-- A unique column and one with a capital letter, whose names are compared without
regard to case. -/
theorem hidden_key_added_apart_unique :
    let id : Column := { name := "id", type := .bigInt, unique := true }
    let row : Column := { name := "Row", type := .longVarchar }
    let t : Table := { name := "t", columns := [id, row], checks := ["id > 0"] }
    let d := Dialect.spanner {}
    t.hasPrimaryKey = false ∧ (t.columns.map fun c => Text.lower c.name).Nodup ∧
      (∀ c ∈ t.columns, Text.lower c.name ≠ Text.lower Column.rowId.name) ∧
      (t.withPrimaryKey.columns.map fun c => Text.lower c.name).Nodup ∧
      (∀ c ∈ t.withPrimaryKey.columns,
        Text.lower c.name = Text.lower Column.rowId.name ↔ c = .rowId) ∧
      ExportStyle.spanner.create t d = .ok ["create table t (id bigint, Row character varying, " ++
          "rowid bigint generated by default as identity (bit_reversed_positive) not null " ++
          "hidden, primary key (rowid), check (id > 0))",
        "create unique index uk_t_id on t (id)"] := by
  intro id row t d
  have hnames : (t.columns.map fun c => Text.lower c.name).Nodup := by decide +kernel
  have hfree : ∀ c ∈ t.columns, Text.lower c.name ≠ Text.lower Column.rowId.name := by
    rw [List.forall_mem_cons, List.forall_mem_singleton]
    decide +kernel
  obtain ⟨hdistinct, hapart, _⟩ := hidden_key_added_apart t d Text.lower rfl hnames
  exact ⟨rfl, hnames, hfree, hdistinct.mpr hfree, (hapart hfree).1, by decide +kernel⟩

/-- A declared column of the same name: the table gets two columns of one name, and the
declared one is never null and has lost its unique index. -/
theorem hidden_key_taken_by_name :
    let c : Column := { name := "rowid", type := .integer, unique := true }
    let t : Table := { name := "t", columns := [c] }
    let d := Dialect.spanner {}
    t.hasPrimaryKey = false ∧ (t.columns.map (·.name)).Nodup ∧
      ¬(t.withPrimaryKey.columns.map (·.name)).Nodup ∧
      (c.define false d).notNull = false ∧
      TableCommand.createIndex true "t" ⟨"uk_t_rowid", ["rowid"]⟩ ∈ t.createCommands d ∧
      ExportStyle.spanner.create t d = .ok ["create table t (rowid bigint not null, " ++
        "rowid bigint generated by default as identity (bit_reversed_positive) not null hidden, " ++
        "primary key (rowid))"] := by
  intro c t d
  exact ⟨rfl, by decide, by decide, rfl, by decide +kernel, by decide +kernel⟩

end Table

end SqlBackend
