import Mathlib.Data.List.Basic
import SqlBackend.Proofs.Schema.Commands

/-! # Which columns are unique

A primary key, a unique clause of a column, a unique constraint and a unique index
each make some columns unique together. A column is unique by itself where one of
them is over this column and no other.
-/

namespace SqlBackend

/-- The lists of columns that are made unique together. -/
def TableElement.uniques : TableElement → List (List String)
  | column c => if c.unique then [[c.name]] else []
  | primaryKey columns => [columns]
  | check _ => []

def TableCommand.uniques : TableCommand → List (List String)
  | createTable _ elements => elements.flatMap TableElement.uniques
  | addUniqueKey _ _ key => [key.columns]
  | createIndex unique _ index => if unique then [index.columns] else []
  | dropIndex _ | dropTable _ _ => []

/-- These columns are the one of that name and no other. -/
def IsAlone (name : String) (columns : List String) : Prop :=
  columns ≠ [] ∧ ∀ column ∈ columns, column = name

instance (name : String) (columns : List String) : Decidable (IsAlone name columns) :=
  inferInstanceAs (Decidable (_ ∧ _))

theorem isAlone_singleton {name column : String} : IsAlone name [column] ↔ column = name := by
  simp [IsAlone]

/-- The statements make the column unique by itself. -/
def UniqueAlone (commands : List TableCommand) (name : String) : Prop :=
  ∃ columns ∈ commands.flatMap TableCommand.uniques, IsAlone name columns

instance (commands : List TableCommand) (name : String) : Decidable (UniqueAlone commands name) :=
  inferInstanceAs (Decidable (∃ columns ∈ _, _))

namespace Table

variable (t : Table) (d : Dialect)

/-- The columns that are declared unique in their own definitions. -/
def inlineUniques : List Column :=
  t.columns.filter fun c => c.unique && !t.keyColumns.contains c.name && d.inlineUnique

theorem uniques_columns :
    (t.columns.map fun c => TableElement.column (c.define (t.keyColumns.contains c.name) d)).flatMap
      TableElement.uniques = (t.inlineUniques d).map fun c => [c.name] := by
  unfold inlineUniques
  induction t.columns with
  | nil => rfl
  | cons c rest ih =>
      rw [List.map_cons, List.flatMap_cons, ih, List.filter_cons]
      change (if (c.unique && !t.keyColumns.contains c.name && d.inlineUnique) = true
        then [[c.name]] else []) ++ _ = _
      split
      · rfl
      · rfl

theorem uniques_elements :
    (t.elements d).flatMap TableElement.uniques =
      (t.inlineUniques d).map (fun c => [c.name]) ++
        if t.hasPrimaryKey then [t.keyColumns] else [] := by
  have hkey : (if t.hasPrimaryKey then [TableElement.primaryKey t.keyColumns] else []).flatMap
        TableElement.uniques = if t.hasPrimaryKey then [t.keyColumns] else [] := by
    cases t.hasPrimaryKey with
    | false => rfl
    | true => rfl
  have hchecks : (t.checks.map TableElement.check).flatMap TableElement.uniques = [] := by
    rw [List.flatMap_eq_nil_iff, List.forall_mem_map]
    exact fun _ _ => rfl
  rw [elements, List.flatMap_append, List.flatMap_append, uniques_columns, hkey, hchecks,
    List.append_nil]

theorem uniques_uniqueKeyCommand (key : NamedColumns) :
    (t.uniqueKeyCommand d key).uniques = [key.columns] := by
  unfold uniqueKeyCommand
  cases d.uniqueKeys with
  | constraint => rfl
  | uniqueIndex => rfl

/-- What is made unique with a table: what its columns say, its primary key, and what
has a statement of its own. -/
theorem uniques_createCommands :
    (t.createCommands d).flatMap TableCommand.uniques =
      (t.inlineUniques d).map (fun c => [c.name]) ++
        (if t.hasPrimaryKey then [t.keyColumns] else []) ++
        (t.separateUniqueKeys d).map (·.columns) := by
  have hkeys : ((t.separateUniqueKeys d).map (t.uniqueKeyCommand d)).flatMap TableCommand.uniques =
      (t.separateUniqueKeys d).map (·.columns) := by
    induction t.separateUniqueKeys d with
    | nil => rfl
    | cons key rest ih =>
        rw [List.map_cons, List.flatMap_cons, uniques_uniqueKeyCommand, ih]
        rfl
  have hindexes : (t.indexes.map (TableCommand.createIndex false t.qualifiedName)).flatMap
      TableCommand.uniques = [] := by
    rw [List.flatMap_eq_nil_iff, List.forall_mem_map]
    exact fun _ _ => rfl
  rw [createCommands, List.flatMap_append, List.flatMap_cons, hkeys, hindexes, List.append_nil,
    ← uniques_elements]
  rfl

variable {t d}

theorem mem_inlineUniques {c : Column} :
    c ∈ t.inlineUniques d ↔
      c ∈ t.columns ∧ c.unique = true ∧ c.name ∉ t.keyColumns ∧ d.inlineUnique = true := by
  simp [inlineUniques, and_assoc]

/-- A key has a statement of its own if it is declared, or if it is that of a unique
column outside the primary key on a backend that takes no unique clauses. -/
theorem mem_separateUniqueKeys {key : NamedColumns} :
    key ∈ t.separateUniqueKeys d ↔
      (∃ c ∈ t.columns, c.unique = true ∧ c.name ∉ t.keyColumns ∧ d.inlineUnique = false ∧
        key = ⟨t.uniqueKeyName c, [c.name]⟩) ∨ key ∈ t.uniqueKeys := by
  simp only [separateUniqueKeys, List.mem_append, List.mem_map, List.mem_filter, Bool.and_eq_true,
    Bool.not_eq_true', List.contains_eq_mem, decide_eq_false_iff_not]
  constructor
  · rintro (⟨c, ⟨hc, ⟨hunique, hkey⟩, hinline⟩, rfl⟩ | hdeclared)
    · exact .inl ⟨c, hc, hunique, hkey, hinline, rfl⟩
    · exact .inr hdeclared
  · rintro (⟨c, hc, hunique, hkey, hinline, rfl⟩ | hdeclared)
    · exact .inl ⟨c, ⟨hc, ⟨hunique, hkey⟩, hinline⟩, rfl⟩
    · exact .inr hdeclared

theorem uniqueAlone_iff {name : String} :
    UniqueAlone (t.createCommands d) name ↔
      (∃ c ∈ t.columns, c.unique = true ∧ c.name ∉ t.keyColumns ∧ c.name = name) ∨
        IsAlone name t.keyColumns ∨ ∃ key ∈ t.uniqueKeys, IsAlone name key.columns := by
  rw [UniqueAlone, uniques_createCommands]
  constructor
  · rintro ⟨columns, hcolumns, halone⟩
    simp only [List.mem_append, List.mem_map] at hcolumns
    rcases hcolumns with (⟨c, hc, rfl⟩ | hprimary) | ⟨key, hkey, rfl⟩
    · obtain ⟨hmem, hunique, hkey, _⟩ := mem_inlineUniques.mp hc
      exact .inl ⟨c, hmem, hunique, hkey, isAlone_singleton.mp halone⟩
    · split at hprimary
      next =>
        obtain rfl := List.mem_singleton.mp hprimary
        exact .inr (.inl halone)
      next => cases hprimary
    · rcases mem_separateUniqueKeys.mp hkey with ⟨c, hmem, hunique, houtside, _, rfl⟩ | hdeclared
      · exact .inl ⟨c, hmem, hunique, houtside, isAlone_singleton.mp halone⟩
      · exact .inr (.inr ⟨key, hdeclared, halone⟩)
  · rintro (⟨c, hmem, hunique, hkey, rfl⟩ | halone | ⟨key, hdeclared, halone⟩)
    · refine ⟨[c.name], ?_, isAlone_singleton.mpr rfl⟩
      simp only [List.mem_append, List.mem_map]
      by_cases hinline : d.inlineUnique = true
      · exact .inl (.inl ⟨c, mem_inlineUniques.mpr ⟨hmem, hunique, hkey, hinline⟩, rfl⟩)
      · have hseparate : (⟨t.uniqueKeyName c, [c.name]⟩ : NamedColumns) ∈ t.separateUniqueKeys d :=
          mem_separateUniqueKeys.mpr
            (.inl ⟨c, hmem, hunique, hkey, Bool.not_eq_true _ ▸ hinline, rfl⟩)
        exact .inr ⟨_, hseparate, rfl⟩
    · have hprimary : t.hasPrimaryKey = true := by simpa [hasPrimaryKey] using halone.1
      refine ⟨t.keyColumns, ?_, halone⟩
      simp [hprimary]
    · refine ⟨key.columns, ?_, halone⟩
      have hseparate := mem_separateUniqueKeys (d := d).mpr (.inr hdeclared)
      exact List.mem_append_right _ (List.mem_map_of_mem hseparate)

theorem uniqueKeys_sublist_createCommands :
    (t.uniqueKeys.map (t.uniqueKeyCommand d)).Sublist (t.createCommands d) := by
  have hseparate : t.uniqueKeys.Sublist (t.separateUniqueKeys d) := List.sublist_append_right _ _
  unfold createCommands
  apply List.Sublist.trans (hseparate.map (t.uniqueKeyCommand d))
  apply List.Sublist.trans (List.sublist_cons_self _ _)
  exact List.sublist_append_left _ _

/-- A unique column of an accepted table is unique by itself except in one case: it is
in a primary key with other columns, and no declared key is over it alone. Then it has
neither a unique clause nor a key, as if the primary key made it unique. Every declared
key has a statement of its own, which is over its columns in their order. -/
theorem unique_columns_enforced (t : Table) (d : Dialect) {statements : List String}
    (h : t.createStatements d = .ok statements) :
    statements = (t.createCommands d).map TableCommand.text ∧
      (∀ c ∈ t.columns, c.unique = true →
        (UniqueAlone (t.createCommands d) c.name ↔
          (c.name ∈ t.keyColumns →
            IsAlone c.name t.keyColumns ∨ ∃ key ∈ t.uniqueKeys, IsAlone c.name key.columns))) ∧
      (t.uniqueKeys.map (t.uniqueKeyCommand d)).Sublist (t.createCommands d) ∧
      ∀ key ∈ t.uniqueKeys, (t.uniqueKeyCommand d key).uniques = [key.columns] := by
  refine ⟨t.statements_of_createStatements d h, ?_, uniqueKeys_sublist_createCommands,
    fun key _ => t.uniques_uniqueKeyCommand d key⟩
  intro c hc hunique
  rw [uniqueAlone_iff]
  constructor
  · rintro (⟨other, _, _, houtside, hname⟩ | halone) hkey
    · exact absurd (hname ▸ hkey) houtside
    · exact halone
  · intro hcovered
    by_cases hkey : c.name ∈ t.keyColumns
    · exact .inr (hcovered hkey)
    · exact .inl ⟨c, hc, hunique, hkey, rfl⟩

/-- A unique column outside the primary key, one that is the key by itself would be
another, and a declared key. -/
theorem unique_columns_enforced_index :
    let id : Column := { name := "id", type := .bigInt, unique := true }
    let email : Column := { name := "email", type := .longVarchar, unique := true }
    let t : Table := {
      name := "users", columns := [id, email], primaryKey := some ["id"]
      uniqueKeys := [⟨"uk", ["email", "id"]⟩] }
    let d := Dialect.spanner {}
    let statements := ["create table users (id bigint not null, email character varying, " ++
        "primary key (id))",
      "create unique index uk_users_email on users (email)",
      "create unique index uk on users (email, id)"]
    t.createStatements d = .ok statements ∧ email ∈ t.columns ∧ id ∈ t.columns ∧
      email.unique = true ∧ id.unique = true ∧
      UniqueAlone (t.createCommands d) email.name ∧ UniqueAlone (t.createCommands d) id.name ∧
      [TableCommand.createIndex true "users" ⟨"uk", ["email", "id"]⟩].Sublist
        (t.createCommands d) := by
  intro id email t d statements
  have hcreate : t.createStatements d = .ok statements := by decide +kernel
  obtain ⟨_, hcolumns, hkeys, _⟩ := unique_columns_enforced t d hcreate
  have hemail : email ∈ t.columns := by simp [t]
  have hid : id ∈ t.columns := by simp [t]
  refine ⟨hcreate, hemail, hid, rfl, rfl, ?_, ?_, hkeys⟩
  · exact (hcolumns email hemail rfl).mpr fun hkey => absurd hkey (by decide)
  · exact (hcolumns id hid rfl).mpr fun _ => .inl (by decide)

/-- In a primary key of two columns a unique column loses its uniqueness: rows may
share it if they differ in the other column. -/
theorem unique_column_lost_in_key :
    let a : Column := { name := "a", type := .integer, unique := true }
    let b : Column := { name := "b", type := .integer }
    let t : Table := { name := "t", columns := [a, b], primaryKey := some ["a", "b"] }
    let statements := ["create table t (a integer not null, b integer not null, primary key (a, b))"]
    t.createStatements .postgres = .ok statements ∧
      statements = (t.createCommands .postgres).map TableCommand.text ∧
      a ∈ t.columns ∧ a.unique = true ∧ ¬UniqueAlone (t.createCommands .postgres) a.name := by
  intro a b t statements
  have hcreate : t.createStatements .postgres = .ok statements := by decide +kernel
  refine ⟨hcreate, t.statements_of_createStatements _ hcreate, by simp [t], rfl, ?_⟩
  rw [uniqueAlone_iff]
  decide

end Table

end SqlBackend
