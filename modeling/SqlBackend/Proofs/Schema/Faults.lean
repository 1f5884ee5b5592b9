import SqlBackend.Proofs.Schema.HiddenKey

/-! # Tables that cannot be created

A table is refused if it has no columns, or for the first name in its primary key that none
of its columns has. On Spanner a table without a key is judged with its hidden column, so
it is not refused for having no columns of its own.
-/

namespace SqlBackend

namespace Table

variable {t : Table} {d : Dialect} {fault : MappingFault}

/-- A column of this name is declared. -/
def Declares (t : Table) (name : String) : Prop := ∃ c ∈ t.columns, c.name = name

/-- What is wrong with a table as it is declared. -/
inductive Faulty (t : Table) : MappingFault → Prop where
  | noColumns : t.columns = [] → t.Faulty (.noColumns t.name)
  /-- All names before the faulty one are those of columns. -/
  | unknownKeyColumn {before after : List String} {name : String} :
      t.columns ≠ [] → t.keyColumns = before ++ name :: after →
      (∀ known ∈ before, t.Declares known) → ¬t.Declares name →
      t.Faulty (.unknownKeyColumn name t.name)

theorem isSome_findColumn?_iff {name : String} :
    (t.findColumn? name).isSome = true ↔ t.Declares name := by
  simp [findColumn?, Declares]

theorem find?_undeclared_iff {name : String} :
    t.keyColumns.find? (fun name => (t.findColumn? name).isNone) = some name ↔
      ¬t.Declares name ∧ ∃ before after, t.keyColumns = before ++ name :: after ∧
        ∀ known ∈ before, t.Declares known := by
  rw [List.find?_eq_some_iff_append, ← isSome_findColumn?_iff, Option.not_isSome_iff_eq_none,
    Option.isNone_iff_eq_none]
  simp only [Option.not_isNone, isSome_findColumn?_iff]

theorem fault?_eq_some_iff : t.fault? = some fault ↔ t.Faulty fault := by
  unfold fault?
  split
  next hempty =>
    have hnone : t.columns = [] := List.isEmpty_iff.mp hempty
    constructor
    · intro h
      cases h
      exact .noColumns hnone
    · intro h
      cases h with
      | noColumns => rfl
      | unknownKeyColumn hcolumns => exact absurd hnone hcolumns
  next hempty =>
    have hcolumns : t.columns ≠ [] := fun hnone => hempty (List.isEmpty_iff.mpr hnone)
    rw [Option.map_eq_some_iff]
    constructor
    · rintro ⟨name, hfirst, rfl⟩
      obtain ⟨hname, before, after, hkey, hbefore⟩ := find?_undeclared_iff.mp hfirst
      exact .unknownKeyColumn hcolumns hkey hbefore hname
    · intro h
      cases h with
      | noColumns hnone => exact absurd hnone hcolumns
      | unknownKeyColumn _ hkey hbefore hname =>
          exact ⟨_, find?_undeclared_iff.mpr ⟨hname, _, _, hkey, hbefore⟩, rfl⟩

/-- Something is wrong with a table if it has no columns or if a name in its key is that of
none of them. -/
theorem exists_faulty_iff :
    (∃ fault, t.Faulty fault) ↔ t.columns = [] ∨ ∃ name ∈ t.keyColumns, ¬t.Declares name := by
  constructor
  · rintro ⟨_, hnone | ⟨_, hkey, _, hname⟩⟩
    · exact .inl hnone
    · exact .inr ⟨_, hkey ▸ List.mem_append_right _ List.mem_cons_self, hname⟩
  · intro h
    cases hfault : t.fault? with
    | some fault => exact ⟨fault, fault?_eq_some_iff.mp hfault⟩
    | none =>
        rcases h with hnone | ⟨name, hmem, hname⟩
        · simp [fault?, hnone] at hfault
        · exact absurd (exists_column_of_mem_keyColumns hfault hmem) hname

/-- Without a key there is no other fault than that of having no columns. -/
theorem Faulty.columns_eq_nil (h : t.Faulty fault) (hkey : t.hasPrimaryKey = false) :
    t.columns = [] := by
  cases h with
  | noColumns hnone => exact hnone
  | unknownKeyColumn _ hnames =>
      rw [keyColumns_of_not_hasPrimaryKey hkey] at hnames
      exact absurd hnames (by simp)

theorem createStatements_eq_error_iff {error : Error} :
    t.createStatements d = .error error ↔ ∃ fault, t.Faulty fault ∧ error = .mapping fault := by
  simp only [← fault?_eq_some_iff]
  rw [createStatements_eq]
  cases t.fault? with
  | none => exact iff_of_false nofun nofun
  | some fault =>
      constructor
      · intro h
        cases h
        exact ⟨fault, rfl, rfl⟩
      · rintro ⟨_, h, rfl⟩
        cases h
        rfl

/-- The hidden column takes away the fault of having no columns, and no other. -/
theorem faulty_exported_iff {style : ExportStyle} :
    (style.exported t).Faulty fault ↔
      t.Faulty fault ∧ ¬(style = .spanner ∧ t.columns = [] ∧ t.hasPrimaryKey = false) := by
  cases style with
  | standard => exact (and_iff_left nofun).symm
  | spanner =>
      cases hkey : t.hasPrimaryKey with
      | true =>
          rw [ExportStyle.exported, withPrimaryKey_of_hasPrimaryKey hkey]
          exact (and_iff_left nofun).symm
      | false =>
          refine iff_of_false ?_ fun h => h.2 ⟨rfl, h.1.columns_eq_nil hkey, rfl⟩
          rw [ExportStyle.exported, ← fault?_eq_some_iff, fault?_withPrimaryKey hkey]
          exact nofun

end Table

namespace ExportStyle

/-- In both styles a table is refused for what is wrong with it as it is declared, by a
mapping error and without any statement, and for nothing else. The one exception is a table
on Spanner that has neither columns nor a key: it is created with the hidden column alone. -/
theorem unmappable_tables_rejected (t : Table) (d : Dialect) :
    (∀ style error, create style t d = .error error ↔
      (∃ fault, t.Faulty fault ∧ error = .mapping fault) ∧
        ¬(style = spanner ∧ t.columns = [] ∧ t.hasPrimaryKey = false)) ∧
    ((∃ fault, t.Faulty fault) ↔ t.columns = [] ∨ ∃ name ∈ t.keyColumns, ¬t.Declares name) ∧
    (t.columns = [] → t.hasPrimaryKey = false →
      ∃ rest, spanner.create t d = .ok ((.createTable t.qualifiedName
        ([.column (Column.rowId.define true d), .primaryKey [Column.rowId.name]] ++
          t.checks.map .check) :: rest).map TableCommand.text)) := by
  refine ⟨?_, Table.exists_faulty_iff, ?_⟩
  · intro style error
    rw [create_eq, Table.createStatements_eq_error_iff]
    simp only [Table.faulty_exported_iff]
    constructor
    · rintro ⟨fault, ⟨hfault, hstyle⟩, rfl⟩
      exact ⟨⟨fault, hfault, rfl⟩, hstyle⟩
    · rintro ⟨⟨fault, hfault, rfl⟩, hstyle⟩
      exact ⟨fault, ⟨hfault, hstyle⟩, rfl⟩
  · intro hcolumns hkey
    have hfree : ∀ c ∈ t.columns, c.name ≠ Column.rowId.name := by simp [hcolumns]
    obtain ⟨rest, _, hcreate⟩ := Table.create_withPrimaryKey (d := d) hkey hfree
    rw [hcolumns, List.map_nil, List.nil_append] at hcreate
    exact ⟨rest, hcreate⟩

/-- A table whose key names a column that it does not have, and one that has a key and no
columns. -/
theorem unmappable_tables_rejected_key :
    let id : Column := { name := "id", type := .bigInt }
    let lines : Table := {
      name := "lines", columns := [id], primaryKey := some ["id", "line", "part"] }
    let empty : Table := { name := "empty", primaryKey := some ["id"] }
    lines.Faulty (.unknownKeyColumn "line" "lines") ∧ empty.Faulty (.noColumns "empty") ∧
      (Error.mapping (.unknownKeyColumn "line" "lines")).message =
        "Mapping error: Primary key column [line] not found in table [lines]" ∧
      (Error.mapping (.noColumns "empty")).message = "Mapping error: Table [empty] has no columns" ∧
      ∀ style, create style lines (.spanner {}) =
          .error (.mapping (.unknownKeyColumn "line" "lines")) ∧
        create style empty (.spanner {}) = .error (.mapping (.noColumns "empty")) := by
  intro id lines empty
  have hkey : lines.keyColumns = ["id"] ++ "line" :: ["part"] := rfl
  have hknown : ∀ known ∈ ["id"], lines.Declares known := by
    rw [List.forall_mem_singleton]
    exact ⟨id, List.mem_singleton_self id, rfl⟩
  have hline : ¬lines.Declares "line" := by
    rintro ⟨c, hc, hname⟩
    obtain rfl := List.mem_singleton.mp hc
    exact absurd hname (by decide)
  have hlines : lines.Faulty (.unknownKeyColumn "line" "lines") :=
    .unknownKeyColumn (List.cons_ne_nil _ _) hkey hknown hline
  have hempty : empty.Faulty (.noColumns "empty") := .noColumns rfl
  refine ⟨hlines, hempty, by decide +kernel, by decide +kernel, fun style => ⟨?_, ?_⟩⟩
  · exact ((unmappable_tables_rejected lines (.spanner {})).1 style _).mpr
      ⟨⟨_, hlines, rfl⟩, fun h => absurd h.2.1 (List.cons_ne_nil _ _)⟩
  · exact ((unmappable_tables_rejected empty (.spanner {})).1 style _).mpr
      ⟨⟨_, hempty, rfl⟩, fun h => absurd h.2.2 (by decide)⟩

/-- Without columns and without a key a table is created on Spanner. -/
theorem table_without_columns_created :
    let empty : Table := { name := "empty" }
    let d := Dialect.spanner {}
    empty.columns = [] ∧ standard.create empty d = .error (.mapping (.noColumns "empty")) ∧
      spanner.create empty d = .ok ["create table empty (rowid bigint generated by default as " ++
        "identity (bit_reversed_positive) not null hidden, primary key (rowid))"] := by
  decide +kernel

end ExportStyle

end SqlBackend
