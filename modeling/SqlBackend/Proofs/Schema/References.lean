import Mathlib.Data.List.Infix
import SqlBackend.Proofs.Schema.ForeignKeys

/-! # Referenced columns

A foreign key that lists no referenced columns refers to the primary key of its table, and
a statement says this by writing no list. Where keys are added in quotes a list is always
written, so for such a key it is empty.
-/

namespace SqlBackend

/-- A name that is not empty and has no brackets in it. -/
structure IsPlainName (name : String) : Prop where
  nonempty : name.toList ≠ []
  opening : '(' ∉ name.toList
  closing : ')' ∉ name.toList

instance (name : String) : Decidable (IsPlainName name) :=
  decidable_of_iff (name.toList ≠ [] ∧ '(' ∉ name.toList ∧ ')' ∉ name.toList)
    ⟨fun h => ⟨h.1, h.2.1, h.2.2⟩, fun h => ⟨h.nonempty, h.opening, h.closing⟩⟩

theorem IsPlainName.append {first second : String} (hfirst : IsPlainName first)
    (hsecond : IsPlainName second) : IsPlainName (first ++ second) where
  nonempty := by simp [hfirst.nonempty]
  opening := by simp [hfirst.opening, hsecond.opening]
  closing := by simp [hfirst.closing, hsecond.closing]

/-- With commas between them plain names make up one text without brackets. -/
theorem isPlainName_columnList {names : List String} (hnonempty : names ≠ [])
    (h : ∀ name ∈ names, IsPlainName name) : IsPlainName (columnList names) := by
  have hcomma : IsPlainName ", " := ⟨by decide, by decide, by decide⟩
  induction names with
  | nil => exact absurd rfl hnonempty
  | cons name rest ih =>
      obtain ⟨hname, hrest⟩ := List.forall_mem_cons.mp h
      cases rest with
      | nil =>
          rw [columnList, String.intercalate_singleton]
          exact hname
      | cons next others =>
          rw [columnList, String.intercalate_cons_cons]
          exact (hname.append hcomma).append (ih (List.cons_ne_nil _ _) hrest)

namespace Text

/-- An empty list of names: two brackets with nothing between them. -/
def emptyBrackets : List Char := ['(', ')']

/-- No pair of brackets starts in front of the first opening one. -/
theorem emptyBrackets_infix_append {front rest : List Char} (h : '(' ∉ front) :
    emptyBrackets <:+: front ++ rest ↔ emptyBrackets <:+: rest := by
  induction front with
  | nil => rfl
  | cons c front ih =>
      obtain ⟨hc, hfront⟩ := not_or.mp (mt List.mem_cons.mpr h)
      have hprefix : ¬emptyBrackets <+: c :: (front ++ rest) := fun hprefix =>
        hc (List.cons_prefix_cons.mp hprefix).1
      rw [List.cons_append, List.infix_cons_iff, ih hfront]
      exact or_iff_right hprefix

/-- Behind an opening bracket a plain name is not the closing one. -/
theorem emptyBrackets_infix_name {name : String} (h : IsPlainName name) (rest : List Char) :
    emptyBrackets <:+: '(' :: (name.toList ++ rest) ↔ emptyBrackets <:+: rest := by
  have hprefix : ¬emptyBrackets <+: '(' :: (name.toList ++ rest) := by
    obtain ⟨c, chars, hcons⟩ := List.exists_cons_of_ne_nil h.nonempty
    rw [emptyBrackets, hcons, List.cons_append, List.cons_prefix_cons, List.cons_prefix_cons]
    rintro ⟨_, rfl, _⟩
    exact h.closing (hcons ▸ List.mem_cons_self)
  rw [List.infix_cons_iff, emptyBrackets_infix_append h.opening]
  exact or_iff_right hprefix

end Text

namespace Dialect

variable {d : Dialect} {key : ForeignKey}

theorem mem_references? {columns : List String} (h : columns ∈ d.references? key) :
    columns = key.referencedColumns := by
  unfold references? at h
  split at h
  next =>
    split at h
    · cases h
    · exact (Option.mem_some.mp h).symm
  next => exact (Option.mem_some.mp h).symm

/-- No list is written only if there is nothing to be listed. -/
theorem referencedColumns_of_references?_eq_none (h : d.references? key = none) :
    key.referencedColumns = [] := by
  unfold references? at h
  split at h
  next =>
    split at h
    next hempty => exact List.isEmpty_iff.mp hempty
    next => cases h
  next => cases h

/-- An empty list is written where keys are added in quotes. -/
theorem references?_eq_some_nil_iff :
    d.references? key = some [] ↔ d.foreignKeys = .quoted ∧ key.referencedColumns = [] := by
  unfold references?
  cases d.foreignKeys with
  | plain =>
      refine iff_of_false ?_ fun h => nomatch h.1
      cases key.referencedColumns with
      | nil => exact nofun
      | cons column rest => exact nofun
  | quoted => simp

theorem emptyBrackets_infix_referenceClause {references : Option (List String)}
    (h : ∀ columns ∈ references, ∀ name ∈ columns, IsPlainName name) :
    Text.emptyBrackets <:+: (referenceClause references).toList ↔ references = some [] := by
  cases references with
  | none => exact iff_of_false (by decide) nofun
  | some columns =>
      cases columns with
      | nil => exact iff_of_true (by decide) rfl
      | cons name rest =>
          have hplain : IsPlainName (columnList (name :: rest)) :=
            isPlainName_columnList (List.cons_ne_nil _ _) (h _ rfl)
          have hlist : (referenceClause (some (name :: rest))).toList =
              [' '] ++ '(' :: ((columnList (name :: rest)).toList ++ [')']) := by
            simp [referenceClause]
          rw [hlist, Text.emptyBrackets_infix_append (by decide),
            Text.emptyBrackets_infix_name hplain]
          exact iff_of_false (by decide) (by simp)

theorem opening_not_mem_addedName {name : String} (h : IsPlainName name) :
    '(' ∉ (d.addedName name).toList := by
  unfold addedName
  cases d.foreignKeys with
  | plain => exact h.opening
  | quoted => simp [quoteIdentifier, identifierQuote, h.opening]

end Dialect

namespace Table

variable {t : Table} {d : Dialect} {key : ForeignKey}

/-- All names in the statement that adds a foreign key are plain. -/
structure PlainNames (t : Table) (key : ForeignKey) : Prop where
  table : IsPlainName t.qualifiedName
  name : IsPlainName key.name
  columns : ∀ column ∈ key.columns, IsPlainName column
  referencedTable : IsPlainName key.referencedTable
  referencedColumns : ∀ column ∈ key.referencedColumns, IsPlainName column

/-- The one place for empty brackets is behind the referenced table. -/
theorem emptyBrackets_infix_iff (hnames : t.PlainNames key) (hcolumns : key.columns ≠ []) :
    Text.emptyBrackets <:+: ("alter table " ++ t.qualifiedName ++ d.addForeignKey key).toList ↔
      d.references? key = some [] := by
  have hlist : ("alter table " ++ t.qualifiedName ++ d.addForeignKey key).toList =
      ("alter table " ++ t.qualifiedName ++ " add constraint " ++ d.addedName key.name ++
        " foreign key ").toList ++ '(' :: ((columnList key.columns).toList ++
      ((") references " ++ key.referencedTable).toList ++
        (Dialect.referenceClause (d.references? key)).toList)) := by
    rw [Dialect.addForeignKey_parts]
    simp
  have hfront : '(' ∉ ("alter table " ++ t.qualifiedName ++ " add constraint " ++
      d.addedName key.name ++ " foreign key ").toList := by
    simp [hnames.table.opening, Dialect.opening_not_mem_addedName hnames.name]
  have hmiddle : '(' ∉ (") references " ++ key.referencedTable).toList := by
    simp [hnames.referencedTable.opening]
  rw [hlist, Text.emptyBrackets_infix_append hfront,
    Text.emptyBrackets_infix_name (isPlainName_columnList hcolumns hnames.columns),
    Text.emptyBrackets_infix_append hmiddle]
  apply Dialect.emptyBrackets_infix_referenceClause
  intro columns hmem
  rw [Dialect.mem_references? hmem]
  exact hnames.referencedColumns

/-- An empty list behind the referenced table is all that can put brackets there. -/
theorem references_empty_iff (hnames : t.PlainNames key) (hcolumns : key.columns ≠ []) :
    ("references " ++ key.referencedTable ++ " ()").toList <:+:
        ("alter table " ++ t.qualifiedName ++ d.addForeignKey key).toList ↔
      d.references? key = some [] := by
  constructor
  · intro h
    have hbrackets : Text.emptyBrackets <:+:
        ("references " ++ key.referencedTable ++ " ()").toList :=
      ⟨("references " ++ key.referencedTable ++ " ").toList, [], by simp [Text.emptyBrackets]⟩
    exact (emptyBrackets_infix_iff hnames hcolumns).mp (hbrackets.trans h)
  · intro h
    rw [Dialect.addForeignKey_parts, h]
    refine ⟨("alter table " ++ t.qualifiedName ++ " add constraint " ++ d.addedName key.name ++
      " foreign key (" ++ columnList key.columns ++ ") ").toList, [], ?_⟩
    simp [Dialect.referenceClause, columnList]

/-- The statement that adds a foreign key names the referenced columns as they are declared,
or none. It leaves the list out only for a key that refers to the primary key of its table,
and it writes an empty one for such a key just where keys are added in quotes. Among names
without brackets this is how `references` is followed by a table and an empty list. -/
theorem references_name_columns (t : Table) (d : Dialect) {i : Nat} {key : ForeignKey}
    (hkey : t.foreignKeys[i]? = some key) (hcolumns : key.columns ≠ []) :
    ∃ references : Option (List String),
      (t.addForeignKeys d)[i]? = some ("alter table " ++ t.qualifiedName ++
        (" add constraint " ++ d.addedName key.name ++ " foreign key (" ++
          columnList key.columns ++ ") references " ++ key.referencedTable ++
          references.elim "" fun columns => " (" ++ columnList columns ++ ")")) ∧
      (references = none → key.referencedColumns = []) ∧
      (∀ columns ∈ references, columns = key.referencedColumns) ∧
      (references = some [] ↔ d.foreignKeys = .quoted ∧ key.referencedColumns = []) ∧
      (t.PlainNames key → ∀ statement ∈ (t.addForeignKeys d)[i]?,
        (("references " ++ key.referencedTable ++ " ()").toList <:+: statement.toList ↔
          d.foreignKeys = .quoted ∧ key.referencedColumns = [])) := by
  have hstatement : (t.addForeignKeys d)[i]? =
      some ("alter table " ++ t.qualifiedName ++ d.addForeignKey key) := by
    rw [addForeignKeys, List.getElem?_map, hkey, Option.map_some]
  refine ⟨d.references? key, ?_, Dialect.referencedColumns_of_references?_eq_none,
    fun _ => Dialect.mem_references?, Dialect.references?_eq_some_nil_iff, ?_⟩
  · rw [hstatement, Dialect.addForeignKey_parts]
    rfl
  · intro hnames statement hmem
    rw [hstatement, Option.mem_some] at hmem
    rw [← hmem, references_empty_iff hnames hcolumns, Dialect.references?_eq_some_nil_iff]

/-- A key that lists the referenced columns where a list is always written, and one that
refers to the primary key where it may be left out. -/
theorem references_name_columns_omitted :
    let key (columns : List String) : ForeignKey :=
      ⟨"fk_items", ["order_id", "line"], "app.lines", columns⟩
    let listed : Table := { name := "items", foreignKeys := [key ["id", "line"]] }
    let unlisted : Table := { name := "items", foreignKeys := [key []] }
    listed.PlainNames (key ["id", "line"]) ∧ unlisted.PlainNames (key []) ∧
      listed.addForeignKeys (.spanner {}) = ["alter table items add constraint \"fk_items\" " ++
        "foreign key (order_id, line) references app.lines (id, line)"] ∧
      unlisted.addForeignKeys .postgres = ["alter table items add constraint fk_items " ++
        "foreign key (order_id, line) references app.lines"] ∧
      (∀ statement ∈ (listed.addForeignKeys (.spanner {}))[0]?,
        ¬"references app.lines ()".toList <:+: statement.toList) ∧
      ∀ statement ∈ (unlisted.addForeignKeys .postgres)[0]?,
        ¬"references app.lines ()".toList <:+: statement.toList := by
  intro key listed unlisted
  have hcolumns (columns : List String) : (key columns).columns ≠ [] := List.cons_ne_nil _ _
  have hlisted : listed.PlainNames (key ["id", "line"]) :=
    ⟨by decide +kernel, by decide, by decide, by decide, by decide⟩
  have hunlisted : unlisted.PlainNames (key []) :=
    ⟨by decide +kernel, by decide, by decide, by decide, nofun⟩
  obtain ⟨_, _, _, _, _, hsome⟩ :=
    references_name_columns listed (.spanner {}) (i := 0) rfl (hcolumns ["id", "line"])
  obtain ⟨_, _, _, _, _, hnone⟩ :=
    references_name_columns unlisted .postgres (i := 0) rfl (hcolumns [])
  refine ⟨hlisted, hunlisted, by decide +kernel, by decide +kernel, ?_, ?_⟩
  · intro statement hmem hempty
    exact absurd ((hsome hlisted statement hmem).mp hempty).2 (List.cons_ne_nil _ _)
  · intro statement hmem hempty
    exact absurd ((hnone hunlisted statement hmem).mp hempty).1 nofun

/-- A key that refers to the primary key of its table, where a list is always written. -/
theorem references_no_columns :
    let key : ForeignKey := ⟨"fk_users", ["user_id"], "users", []⟩
    let orders : Table := { name := "orders", foreignKeys := [key] }
    key.columns ≠ [] ∧
      orders.addForeignKeys (.spanner {}) = ["alter table orders add constraint \"fk_users\" " ++
        "foreign key (user_id) references users ()"] := by
  decide +kernel

end Table

end SqlBackend
