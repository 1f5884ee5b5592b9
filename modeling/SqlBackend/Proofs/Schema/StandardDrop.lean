import SqlBackend.Proofs.Schema.Indexes

/-! # Dropping unique indexes

Where unique keys are indexes, each of those that were created with a table is to be
dropped before it. The rules of Spanner drop them by their names. The standard rules drop
the table alone, behind at most one statement of the dialect's own, so they leave every
unique index that this statement does not drop.
-/

namespace SqlBackend

namespace Table

variable (t : Table) (d : Dialect)

/-- The statements drop an index of this name, and the table only after it. -/
def DropsIndexFirst (statements : List String) (name : String) : Prop :=
  [(TableCommand.dropIndex name).text,
    (TableCommand.dropTable t.qualifiedName d.cascade).text].Sublist statements

theorem drop_standard :
    ExportStyle.standard.drop t d =
      d.beforeDrop.toList ++ [(TableCommand.dropTable t.qualifiedName d.cascade).text] :=
  rfl

variable {t d}

/-- In front of the table there is only what the dialect runs before every drop. -/
theorem dropsIndexFirst_standard_iff {name : String} :
    t.DropsIndexFirst d (ExportStyle.standard.drop t d) name ↔
      d.beforeDrop = some (TableCommand.dropIndex name).text := by
  rw [DropsIndexFirst, drop_standard]
  constructor
  · intro h
    cases hbefore : d.beforeDrop with
    | none =>
        rw [hbefore] at h
        exact absurd h.length_le (by simp)
    | some before =>
        rw [hbefore] at h
        have hsame := h.eq_of_length rfl
        exact congrArg some (List.cons.inj hsame).1.symm
  · intro h
    rw [h]
    exact List.Sublist.refl _

/-- By the rules of Spanner all names that are collected are dropped first. -/
theorem dropsIndexFirst_spanner {name : String} (h : name ∈ t.indexNames) :
    t.DropsIndexFirst d (ExportStyle.spanner.drop t d) name := by
  have hindex : [(TableCommand.dropIndex name).text].Sublist
      (t.indexNames.map fun name => (TableCommand.dropIndex name).text) :=
    List.singleton_sublist.mpr (List.mem_map_of_mem h)
  rw [DropsIndexFirst, ExportStyle.drop_spanner, List.append_assoc]
  exact hindex.append (List.sublist_append_right _ _)

theorem separateUniqueKeys_eq_nil_iff (hd : d.uniqueKeys = .uniqueIndex) :
    t.separateUniqueKeys d = [] ↔
      t.uniqueKeys = [] ∧ ∀ c ∈ t.columns, c.unique = true → c.name ∈ t.keyColumns := by
  have hinline : d.inlineUnique = false := by simp [Dialect.inlineUnique, hd]
  simp only [List.eq_nil_iff_forall_not_mem, mem_separateUniqueKeys, not_or]
  constructor
  · intro h
    refine ⟨fun key => (h key).2, fun c hc hunique => ?_⟩
    by_contra hkey
    exact (h _).1 ⟨c, hc, hunique, hkey, hinline, rfl⟩
  · rintro ⟨hdeclared, hcolumns⟩ key
    refine ⟨?_, hdeclared key⟩
    rintro ⟨c, hc, hunique, hkey, _, _⟩
    exact hkey (hcolumns c hc hunique)

end Table

namespace ExportStyle

/-- Where unique keys are indexes, the rules of Spanner drop each unique index that was
created before its table. The standard rules drop such an index only if the statement that
the dialect runs before every drop is the one for it. So without such a statement they
drop all of them just for the tables that have none: those without unique keys, whose
unique columns are all in the primary key. -/
theorem unique_indexes_dropped_iff (t : Table) (d : Dialect) (hd : d.uniqueKeys = .uniqueIndex)
    {statements : List String} (h : standard.create t d = .ok statements) :
    statements = (TableCommand.createTable t.qualifiedName (t.elements d) ::
        ((t.separateUniqueKeys d).map (.createIndex true t.qualifiedName) ++
          t.indexes.map (.createIndex false t.qualifiedName))).map TableCommand.text ∧
      standard.drop t d =
        d.beforeDrop.toList ++ [(TableCommand.dropTable t.qualifiedName d.cascade).text] ∧
      (∀ key ∈ t.separateUniqueKeys d,
        t.DropsIndexFirst d (spanner.drop t d) key.name ∧
        (t.DropsIndexFirst d (standard.drop t d) key.name ↔
          d.beforeDrop = some (TableCommand.dropIndex key.name).text)) ∧
      (d.beforeDrop = none →
        ((∀ key ∈ t.separateUniqueKeys d, t.DropsIndexFirst d (standard.drop t d) key.name) ↔
          t.uniqueKeys = [] ∧ ∀ c ∈ t.columns, c.unique = true → c.name ∈ t.keyColumns)) := by
  have hstatements := t.statements_of_createStatements d h
  rw [t.createCommands_of_uniqueIndex d hd, Table.createdIndexes, List.map_append, List.map_map,
    List.map_map] at hstatements
  refine ⟨hstatements, t.drop_standard d, ?_, ?_⟩
  · intro key hkey
    have hcreated : (true, key) ∈ t.createdIndexes d :=
      Table.mem_createdIndexes.mpr (.inl ⟨key, hkey, rfl⟩)
    exact ⟨Table.dropsIndexFirst_spanner (Table.name_mem_indexNames hcreated),
      Table.dropsIndexFirst_standard_iff⟩
  · intro hbefore
    rw [← Table.separateUniqueKeys_eq_nil_iff hd, List.eq_nil_iff_forall_not_mem]
    apply forall₂_congr
    intro key _
    rw [Table.dropsIndexFirst_standard_iff, hbefore]
    exact iff_of_false (Option.some_ne_none _).symm id

/-- A dialect that drops one unique index before every table, and a table with this one. -/
theorem unique_indexes_dropped_iff_before :
    let id : Column := { name := "id", type := .bigInt, unique := true }
    let email : Column := { name := "email", type := .longVarchar, unique := true }
    let t : Table := { name := "users", columns := [id, email], primaryKey := some ["id"] }
    let d : Dialect := {
      Dialect.postgres with
      uniqueKeys := .uniqueIndex, beforeDrop := some "drop index if exists uk_users_email" }
    let statements := ["create table users (id bigint not null, email text, primary key (id))",
      "create unique index uk_users_email on users (email)"]
    d.uniqueKeys = .uniqueIndex ∧ standard.create t d = .ok statements ∧
      standard.drop t d = ["drop index if exists uk_users_email",
        "drop table if exists users cascade"] ∧
      ∀ key ∈ t.separateUniqueKeys d, t.DropsIndexFirst d (standard.drop t d) key.name := by
  intro id email t d statements
  have hcreate : standard.create t d = .ok statements := by decide +kernel
  obtain ⟨_, _, hkeys, _⟩ := unique_indexes_dropped_iff t d rfl hcreate
  refine ⟨rfl, hcreate, by decide +kernel, ?_⟩
  intro key hkey
  have hname : key = ⟨"uk_users_email", ["email"]⟩ := List.mem_singleton.mp hkey
  exact (hkeys key hkey).2.mpr (hname ▸ rfl)

/-- Without such a statement the index is created and not dropped. -/
theorem unique_index_not_dropped :
    let a : Column := { name := "a", type := .integer, unique := true }
    let t : Table := { name := "t", columns := [a] }
    let d : Dialect := { Dialect.postgres with name := "restricted", uniqueKeys := .uniqueIndex }
    d.uniqueKeys = .uniqueIndex ∧
      standard.create t d = .ok ["create table t (a integer)",
        "create unique index uk_t_a on t (a)"] ∧
      standard.drop t d = ["drop table if exists t cascade"] ∧
      ¬t.DropsIndexFirst d (standard.drop t d) "uk_t_a" := by
  intro a t d
  refine ⟨rfl, by decide +kernel, by decide +kernel, ?_⟩
  rw [Table.dropsIndexFirst_standard_iff]
  exact nofun

end ExportStyle

end SqlBackend
