import SqlBackend.Proofs.Schema.Indexes

/-! # Tables and their primary keys

A table that is created on Spanner has a primary key. It is the one that the table
declares, or a hidden column that is added for it. Either way the statement that
creates the table has one key clause, over columns that it defines and that are
never null.
-/

namespace SqlBackend

namespace TableElement

/-- The columns of a key clause. -/
def primaryKey? : TableElement → Option (List String)
  | primaryKey columns => some columns
  | column _ | check _ => none

def column? : TableElement → Option ColumnDefinition
  | column c => some c
  | primaryKey _ | check _ => none

end TableElement

/-- There is one key clause among the elements of a table, and its columns are defined
among them as never null. -/
structure KeyedBy (elements : List TableElement) (key : List String) : Prop where
  only : elements.filterMap TableElement.primaryKey? = [key]
  nonempty : key ≠ []
  defined : ∀ name ∈ key, ∃ c ∈ elements.filterMap TableElement.column?, c.name = name
  notNull : ∀ c ∈ elements.filterMap TableElement.column?, c.name ∈ key → c.notNull = true

def TableCommand.isCreateTable : TableCommand → Bool
  | createTable _ _ => true
  | addUniqueKey _ _ _ | createIndex _ _ _ | dropIndex _ | dropTable _ _ => false

/-- A statement creates a table if it starts with these words. -/
theorem TableCommand.startsWith_text_iff (command : TableCommand) :
    "create table ".toList <+: command.text.toList ↔ command.isCreateTable = true := by
  unfold text isCreateTable
  cases command with
  | createTable table elements =>
      simp only [String.append_assoc, String.toList_append]
      exact iff_of_true (List.prefix_append _ _) trivial
  | addUniqueKey table ifExists key => cases ifExists <;> simp [String.append_assoc]
  | createIndex unique table index => cases unique <;> simp [String.append_assoc]
  | dropIndex name => simp
  | dropTable table cascade => simp [String.append_assoc]

namespace Table

variable {t : Table} {d : Dialect}

theorem withPrimaryKey_of_hasPrimaryKey (h : t.hasPrimaryKey = true) : t.withPrimaryKey = t :=
  if_pos h

theorem withPrimaryKey_of_not_hasPrimaryKey (h : t.hasPrimaryKey = false) :
    t.withPrimaryKey =
      { t with columns := t.columns ++ [.rowId], primaryKey := some [Column.rowId.name] } :=
  if_neg (by simp [h])

theorem hasPrimaryKey_withPrimaryKey : t.withPrimaryKey.hasPrimaryKey = true := by
  cases h : t.hasPrimaryKey with
  | true => rw [withPrimaryKey_of_hasPrimaryKey h, h]
  | false =>
      rw [withPrimaryKey_of_not_hasPrimaryKey h]
      rfl

theorem withPrimaryKey_idem : t.withPrimaryKey.withPrimaryKey = t.withPrimaryKey :=
  withPrimaryKey_of_hasPrimaryKey hasPrimaryKey_withPrimaryKey

/-- An accepted table has a column for each name in its key. -/
theorem exists_column_of_mem_keyColumns (h : t.fault? = none) {name : String}
    (hname : name ∈ t.keyColumns) : ∃ c ∈ t.columns, c.name = name := by
  have hfound : t.keyColumns.find? (fun name => (t.findColumn? name).isNone) = none := by
    unfold fault? at h
    split at h
    · cases h
    · exact Option.map_eq_none_iff.mp h
  have hcolumn : (t.findColumn? name).isSome = true := by
    simpa [Option.isSome_iff_ne_none] using List.find?_eq_none.mp hfound name hname
  simpa [findColumn?, List.find?_isSome] using hcolumn

theorem filterMap_primaryKey_elements (h : t.hasPrimaryKey = true) :
    (t.elements d).filterMap TableElement.primaryKey? = [t.keyColumns] := by
  simp [elements, h, List.filterMap_append, List.filterMap_map, Function.comp_def,
    TableElement.primaryKey?]

theorem filterMap_column_elements :
    (t.elements d).filterMap TableElement.column? =
      t.columns.map fun c => c.define (t.keyColumns.contains c.name) d := by
  have hkey : (if t.hasPrimaryKey then [TableElement.primaryKey t.keyColumns] else []).filterMap
      TableElement.column? = [] := by
    cases t.hasPrimaryKey <;> rfl
  have hchecks : (t.checks.map TableElement.check).filterMap TableElement.column? = [] := by
    simp [List.filterMap_map, TableElement.column?]
  rw [elements, List.filterMap_append, List.filterMap_append, hkey, hchecks, List.append_nil,
    List.append_nil, List.filterMap_map]
  exact congrFun List.filterMap_eq_map' _

/-- The key of an accepted table is over columns that are defined and never null,
whatever they are declared as. -/
theorem elements_keyedBy (hkey : t.hasPrimaryKey = true) (h : t.fault? = none) :
    KeyedBy (t.elements d) t.keyColumns where
  only := filterMap_primaryKey_elements hkey
  nonempty := by simpa [hasPrimaryKey] using hkey
  defined := by
    intro name hname
    obtain ⟨c, hc, rfl⟩ := exists_column_of_mem_keyColumns h hname
    rw [filterMap_column_elements]
    exact ⟨_, List.mem_map_of_mem hc, rfl⟩
  notNull := by
    rw [filterMap_column_elements, List.forall_mem_map]
    intro c _ hc
    have hname : c.name ∈ t.keyColumns := hc
    simp [Column.define, hname]

/-- Behind the table itself come statements on it and its indexes. -/
theorem createCommands_tail :
    ∃ rest, t.createCommands d = .createTable t.qualifiedName (t.elements d) :: rest ∧
      ∀ command ∈ rest, command.isCreateTable = false := by
  refine ⟨_, rfl, ?_⟩
  intro command hcommand
  rcases List.mem_append.mp hcommand with hkey | hindex
  · obtain ⟨key, _, rfl⟩ := List.mem_map.mp hkey
    unfold uniqueKeyCommand
    cases d.uniqueKeys <;> rfl
  · obtain ⟨index, _, rfl⟩ := List.mem_map.mp hindex
    rfl

theorem fault?_of_createStatements {statements : List String}
    (h : t.createStatements d = .ok statements) : t.fault? = none := by
  rw [createStatements_eq] at h
  split at h
  next => cases h
  next hfault => exact hfault

end Table

namespace ExportStyle

/-- Spanner creates every table with a primary key. The first statement is the only one
that creates a table, and its elements hold one key clause, over columns that they define
as never null. A table with a key is created as by the standard rules. Any other is
created as the table with one more column, which is hidden, generated and its whole key;
adding it a second time changes nothing. -/
theorem spanner_creates_primary_key (t : Table) (d : Dialect) :
    (∀ statements, spanner.create t d = .ok statements →
      ∃ elements rest,
        statements = (TableCommand.createTable t.qualifiedName elements).text :: rest ∧
        (∀ statement ∈ rest, ¬"create table ".toList <+: statement.toList) ∧
        KeyedBy elements t.withPrimaryKey.keyColumns) ∧
    (t.hasPrimaryKey = true → spanner.create t d = standard.create t d) ∧
    (t.hasPrimaryKey = false →
      spanner.create t d = standard.create t.withPrimaryKey d ∧
      ∃ c : Column,
        t.withPrimaryKey =
          { t with columns := t.columns ++ [c], primaryKey := some [c.name] } ∧
        c.type = .bigInt ∧ c.nullable = false ∧ c.identity = true ∧ c.options = some "hidden" ∧
        c.definition true d = "rowid bigint " ++ d.identityClause ++ " not null hidden") ∧
    t.withPrimaryKey.withPrimaryKey = t.withPrimaryKey := by
  refine ⟨?_, ?_, ?_, Table.withPrimaryKey_idem⟩
  · intro statements h
    have hstatements := t.withPrimaryKey.statements_of_createStatements d h
    have hkeyed := Table.elements_keyedBy (d := d) Table.hasPrimaryKey_withPrimaryKey
      (Table.fault?_of_createStatements h)
    obtain ⟨rest, hrest, hother⟩ := Table.createCommands_tail (t := t.withPrimaryKey) (d := d)
    rw [hrest, List.map_cons, t.qualifiedName_withPrimaryKey] at hstatements
    refine ⟨_, _, hstatements, ?_, hkeyed⟩
    rw [List.forall_mem_map]
    intro command hcommand
    rw [command.startsWith_text_iff, hother command hcommand]
    exact Bool.false_ne_true
  · intro hkey
    rw [create, create, Table.withPrimaryKey_of_hasPrimaryKey hkey]
  · intro hkey
    refine ⟨rfl, .rowId, Table.withPrimaryKey_of_not_hasPrimaryKey hkey, rfl, rfl, rfl, rfl, ?_⟩
    rw [← String.toList_inj]
    simp [Column.definition, Column.rowId]

/-- A table with a key of two columns, which are declared as nullable, and a table with
a key without columns. -/
theorem spanner_creates_primary_key_empty :
    let id : Column := { name := "id", type := .bigInt }
    let line : Column := { name := "line", type := .integer }
    let lines : Table := { name := "lines", columns := [id, line], primaryKey := some ["line", "id"] }
    let notes : Table := {
      name := "notes", columns := [line], primaryKey := some [], indexes := [⟨"idx", ["line"]⟩] }
    let d := Dialect.spanner {}
    let statements := ["create table notes (line bigint, rowid bigint generated by default as " ++
        "identity (bit_reversed_positive) not null hidden, primary key (rowid))",
      "create index idx on notes (line)"]
    lines.hasPrimaryKey = true ∧ spanner.create lines d = standard.create lines d ∧
      standard.create lines d =
        .ok ["create table lines (id bigint not null, line bigint not null, primary key (line, id))"] ∧
      notes.hasPrimaryKey = false ∧ spanner.create notes d = standard.create notes.withPrimaryKey d ∧
      spanner.create notes d = .ok statements ∧
      ∃ elements rest,
        statements = (TableCommand.createTable "notes" elements).text :: rest ∧
        (∀ statement ∈ rest, ¬"create table ".toList <+: statement.toList) ∧
        KeyedBy elements ["rowid"] := by
  intro id line lines notes d statements
  obtain ⟨_, hdeclared, _, _⟩ := spanner_creates_primary_key lines d
  obtain ⟨hkeyed, _, hhidden, _⟩ := spanner_creates_primary_key notes d
  have hcreate : spanner.create notes d = .ok statements := by decide +kernel
  exact ⟨rfl, hdeclared rfl, by decide +kernel, rfl, (hhidden rfl).1, hcreate,
    hkeyed statements hcreate⟩

end ExportStyle

end SqlBackend
