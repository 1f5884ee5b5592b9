import Mathlib.Data.List.TakeWhile
import SqlBackend.Proofs.Schema.Commands

/-! # Catalogs

What the statements on tables do to a catalog of tables and indexes, by the rules of
Spanner. An index is in the schema of its table. A name without a schema is looked up
in the default schema. Dropping an index that is not found does nothing, and a table
cannot be dropped while there are indexes on it.
-/

namespace SqlBackend

/-- The full name of a table or of an index. -/
structure ObjectName where
  schema : String
  name : String
deriving DecidableEq, Repr

structure StoredTable where
  name : ObjectName
  elements : List TableElement
deriving DecidableEq, Repr

structure StoredIndex where
  table : ObjectName
  unique : Bool
  key : NamedColumns
deriving DecidableEq, Repr

/-- An index has no schema of its own. -/
def StoredIndex.name (index : StoredIndex) : ObjectName := ⟨index.table.schema, index.key.name⟩

/-- The tables and indexes of a database. Every index is on one of the tables. -/
@[ext] structure Catalog where
  defaultSchema : String
  schemas : List String
  tables : List StoredTable
  indexes : List StoredIndex
  indexed : ∀ index ∈ indexes, ∃ table ∈ tables, table.name = index.table

/-- Why a statement fails. -/
inductive CatalogFault where
  | unknownSchema (name : String)
  | unknownTable (name : ObjectName)
  | tableExists (name : ObjectName)
  | indexExists (name : ObjectName)
  /-- There are indexes on a table that is to be dropped. -/
  | indexedTable (name : ObjectName)
  /-- Unique keys are indexes and not constraints. -/
  | uniqueConstraint (name : String)
deriving DecidableEq, Repr

namespace Catalog

variable (c : Catalog)

/-- What a name in a statement stands for: up to a point it is that of a schema. -/
def resolve (written : String) : ObjectName :=
  match written.toList.dropWhile (· ≠ '.') with
  | [] => ⟨c.defaultSchema, written⟩
  | _ :: name => ⟨.ofList (written.toList.takeWhile (· ≠ '.')), .ofList name⟩

def HasTable (name : ObjectName) : Prop := ∃ table ∈ c.tables, table.name = name

instance (name : ObjectName) : Decidable (c.HasTable name) := List.decidableBEx _ _

def HasIndex (name : ObjectName) : Prop := ∃ index ∈ c.indexes, index.name = name

instance (name : ObjectName) : Decidable (c.HasIndex name) := List.decidableBEx _ _

/-- There are indexes on the table. -/
def IsIndexed (table : ObjectName) : Prop := ∃ index ∈ c.indexes, index.table = table

instance (table : ObjectName) : Decidable (c.IsIndexed table) := List.decidableBEx _ _

def withTable (table : StoredTable) : Catalog :=
  { c with
    tables := c.tables ++ [table]
    indexed := by
      intro index hindex
      obtain ⟨other, hother, hname⟩ := c.indexed index hindex
      exact ⟨other, List.mem_append_left _ hother, hname⟩ }

/-- The catalog with further indexes on a table, each of them unique or not. -/
def withIndexes (table : ObjectName) (h : c.HasTable table) (keys : List (Bool × NamedColumns)) :
    Catalog :=
  { c with
    indexes := c.indexes ++ keys.map fun key => ⟨table, key.1, key.2⟩
    indexed := by
      intro index hindex
      rcases List.mem_append.mp hindex with hold | hnew
      · exact c.indexed index hold
      · obtain ⟨key, _, rfl⟩ := List.mem_map.mp hnew
        exact h }

def withoutIndexes (names : List ObjectName) : Catalog :=
  { c with
    indexes := c.indexes.filter (·.name ∉ names)
    indexed := fun index hindex => c.indexed index ((List.mem_filter.mp hindex).1) }

def withoutTable (name : ObjectName) (h : ¬c.IsIndexed name) : Catalog :=
  { c with
    tables := c.tables.filter (·.name ≠ name)
    indexed := by
      intro index hindex
      obtain ⟨table, htable, hname⟩ := c.indexed index hindex
      refine ⟨table, List.mem_filter.mpr ⟨htable, ?_⟩, hname⟩
      exact decide_eq_true fun heq => h ⟨index, hindex, hname ▸ heq⟩ }

/-- The catalog after a statement. -/
def execute : TableCommand → Except CatalogFault Catalog
  | .createTable table elements =>
      let name := c.resolve table
      if name.schema ∉ c.schemas then .error (.unknownSchema name.schema)
      else if c.HasTable name then .error (.tableExists name)
      else .ok (c.withTable ⟨name, elements⟩)
  | .addUniqueKey _ _ key => .error (.uniqueConstraint key.name)
  | .createIndex unique table key =>
      let on := c.resolve table
      let name : ObjectName := ⟨on.schema, key.name⟩
      if h : c.HasTable on then
        if c.HasIndex name then .error (.indexExists name)
        else .ok (c.withIndexes on h [(unique, key)])
      else .error (.unknownTable on)
  | .dropIndex name => .ok (c.withoutIndexes [c.resolve name])
  | .dropTable table _ =>
      let name := c.resolve table
      if h : c.IsIndexed name then .error (.indexedTable name) else .ok (c.withoutTable name h)

/-- The catalog after some statements. The first one that fails ends the run. -/
def run (commands : List TableCommand) : Except CatalogFault Catalog := commands.foldlM execute c

variable {c}

theorem run_cons_of_ok {c' : Catalog} {command : TableCommand} (h : c.execute command = .ok c')
    (rest : List TableCommand) : c.run (command :: rest) = c'.run rest := by
  rw [run, List.foldlM_cons, h]
  rfl

theorem run_append_of_ok {c' : Catalog} {first : List TableCommand} (h : c.run first = .ok c')
    (second : List TableCommand) : c.run (first ++ second) = c'.run second := by
  rw [run] at h
  rw [run, List.foldlM_append, h]
  rfl

theorem run_singleton (command : TableCommand) : c.run [command] = c.execute command := by
  rw [run, List.foldlM_cons]
  cases c.execute command with
  | error fault => rfl
  | ok c' => rfl

theorem resolve_of_not_mem {written : String} (h : '.' ∉ written.toList) :
    c.resolve written = ⟨c.defaultSchema, written⟩ := by
  have hrest : written.toList.dropWhile (· ≠ '.') = [] := by
    rw [List.dropWhile_eq_nil_iff]
    intro d hd
    exact decide_eq_true fun heq => h (heq ▸ hd)
  rw [resolve, hrest]

/-- A name with a schema is in this schema, and any other in the default one. -/
theorem resolve_qualifiedName {schema : Option String} {name : String}
    (hschema : ∀ s ∈ schema, '.' ∉ s.toList) (hname : '.' ∉ name.toList) :
    c.resolve (qualifiedName schema name) = ⟨schema.getD c.defaultSchema, name⟩ := by
  cases schema with
  | none => exact resolve_of_not_mem hname
  | some s =>
      have hchars : ∀ d ∈ s.toList, decide (d ≠ '.') = true := fun d hd =>
        decide_eq_true fun heq => hschema s rfl (heq ▸ hd)
      have hlist : (qualifiedName (some s) name).toList = s.toList ++ '.' :: name.toList := by
        simp [qualifiedName]
      rw [resolve, hlist, List.dropWhile_append_of_pos hchars, List.takeWhile_append_of_pos hchars]
      simp

theorem withIndexes_nil (on : ObjectName) (h : c.HasTable on) : c.withIndexes on h [] = c :=
  Catalog.ext rfl rfl rfl (List.append_nil _)

theorem withIndexes_withIndexes {on : ObjectName} (h : c.HasTable on)
    (first second : List (Bool × NamedColumns)) :
    (c.withIndexes on h first).withIndexes on h second = c.withIndexes on h (first ++ second) := by
  refine Catalog.ext rfl rfl rfl ?_
  change c.indexes ++ first.map _ ++ second.map _ = c.indexes ++ (first ++ second).map _
  rw [List.map_append, List.append_assoc]

/-- The indexes of a table are created one by one if their names are free and distinct. -/
theorem run_createIndexes {table : String} {on : ObjectName} (hon : c.resolve table = on)
    (htable : c.HasTable on) {keys : List (Bool × NamedColumns)}
    (hnodup : (keys.map (·.2.name)).Nodup)
    (hunused : ∀ key ∈ keys, ¬c.HasIndex ⟨on.schema, key.2.name⟩) :
    c.run (keys.map fun key => .createIndex key.1 table key.2) =
      .ok (c.withIndexes on htable keys) := by
  subst hon
  induction keys generalizing c with
  | nil => exact congrArg Except.ok (withIndexes_nil _ htable).symm
  | cons key rest ih =>
      obtain ⟨hfree, hothers⟩ := List.forall_mem_cons.mp hunused
      rw [List.map_cons, List.nodup_cons] at hnodup
      have hexecute : c.execute (.createIndex key.1 table key.2) =
          .ok (c.withIndexes (c.resolve table) htable [key]) := by
        rw [execute, dif_pos htable, if_neg hfree]
      have hrest := ih (c := c.withIndexes (c.resolve table) htable [key]) hnodup.2 htable
      rw [List.map_cons, run_cons_of_ok hexecute, hrest]
      · exact congrArg Except.ok (withIndexes_withIndexes htable [key] rest)
      · rintro other hother ⟨index, hindex, hname⟩
        rcases List.mem_append.mp hindex with hold | hnew
        · exact hothers other hother ⟨index, hold, hname⟩
        · obtain rfl := List.mem_singleton.mp hnew
          have hsame : key.2.name = other.2.name := congrArg ObjectName.name hname
          exact hnodup.1 (hsame ▸ List.mem_map_of_mem hother)

theorem withoutIndexes_nil : c.withoutIndexes [] = c :=
  Catalog.ext rfl rfl rfl (List.filter_eq_self.mpr fun _ _ => rfl)

theorem withoutIndexes_withoutIndexes (first second : List ObjectName) :
    (c.withoutIndexes first).withoutIndexes second = c.withoutIndexes (first ++ second) := by
  refine Catalog.ext rfl rfl rfl ?_
  change (c.indexes.filter (·.name ∉ first)).filter (·.name ∉ second) =
    c.indexes.filter (·.name ∉ first ++ second)
  rw [List.filter_filter]
  apply List.filter_congr
  intro index _
  simp only [List.mem_append, not_or, Bool.decide_and]
  exact Bool.and_comm _ _

/-- Dropping indexes by name takes away those that are found. -/
theorem run_dropIndexes (names : List String) :
    c.run (names.map .dropIndex) = .ok (c.withoutIndexes (names.map c.resolve)) := by
  induction names generalizing c with
  | nil => exact congrArg Except.ok withoutIndexes_nil.symm
  | cons name rest ih =>
      have hexecute : c.execute (.dropIndex name) = .ok (c.withoutIndexes [c.resolve name]) := rfl
      rw [List.map_cons, run_cons_of_ok hexecute, ih]
      exact congrArg Except.ok (withoutIndexes_withoutIndexes [c.resolve name] (rest.map c.resolve))

/-- A table that was added can be dropped while there are no indexes on it, and then
everything is as before. -/
theorem execute_dropTable_withTable {table : StoredTable} {written : String} (cascade : String)
    (hname : c.resolve written = table.name) (h : ¬c.HasTable table.name) :
    (c.withTable table).execute (.dropTable written cascade) = .ok c := by
  have hindexed : ¬(c.withTable table).IsIndexed table.name := by
    rintro ⟨index, hindex, hon⟩
    obtain ⟨other, hother, heq⟩ := c.indexed index hindex
    exact h ⟨other, hother, heq.trans hon⟩
  have hresolve : (c.withTable table).resolve written = table.name := hname
  have htables : (c.tables ++ [table]).filter (·.name ≠ table.name) = c.tables := by
    rw [List.filter_append, List.filter_cons_of_neg (by simp), List.filter_nil, List.append_nil,
      List.filter_eq_self]
    exact fun other hother => decide_eq_true fun heq => h ⟨other, hother, heq⟩
  rw [execute, hresolve, dif_neg hindexed]
  exact congrArg Except.ok (Catalog.ext rfl rfl htables rfl)

/-- A table with indexes on it is not dropped. -/
theorem execute_dropTable_of_isIndexed {written : String} (cascade : String)
    (h : c.IsIndexed (c.resolve written)) :
    c.execute (.dropTable written cascade) = .error (.indexedTable (c.resolve written)) := by
  rw [execute, dif_pos h]

end Catalog

end SqlBackend
