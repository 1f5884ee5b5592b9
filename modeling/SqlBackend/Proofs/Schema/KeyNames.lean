import Mathlib.Data.List.Nodup
import SqlBackend.Proofs.Schema.Indexes

/-! # Names made for unique keys

The key of a unique column that names none gets a name made from those of its table and of
itself, with an underscore between them. This underscore is not told from those that are
part of the two names. So two such keys share a name in one case besides that of the same
names: where one table's name goes on, behind an underscore, with what the name of the
other table's column begins with.
-/

namespace SqlBackend

/-- Two texts around a separator are the same as two others around it if they are the same
texts, or if one text holds a separator that stands for that between the other two. -/
theorem append_cons_eq_append_cons_iff {α : Type} {a b c d : List α} {separator : α} :
    a ++ separator :: b = c ++ separator :: d ↔
      a = c ∧ b = d ∨ (∃ middle, c = a ++ separator :: middle ∧ b = middle ++ separator :: d) ∨
        ∃ middle, a = c ++ separator :: middle ∧ d = middle ++ separator :: b := by
  rw [List.append_eq_append_iff]
  constructor
  · rintro (⟨rest, rfl, hrest⟩ | ⟨rest, rfl, hrest⟩)
    · cases rest with
      | nil => simpa using hrest
      | cons first middle =>
          obtain ⟨rfl, hmiddle⟩ := List.cons.inj hrest
          exact .inr (.inl ⟨middle, rfl, hmiddle⟩)
    · cases rest with
      | nil => simpa [eq_comm] using hrest
      | cons first middle =>
          obtain ⟨rfl, hmiddle⟩ := List.cons.inj hrest
          exact .inr (.inr ⟨middle, rfl, hmiddle⟩)
  · rintro (⟨rfl, rfl⟩ | ⟨middle, rfl, rfl⟩ | ⟨middle, rfl, rfl⟩)
    · exact .inl ⟨[], by simp⟩
    · exact .inl ⟨separator :: middle, by simp⟩
    · exact .inr ⟨separator :: middle, by simp⟩

namespace Table

variable {t u : Table} {c e : Column} {d : Dialect} {style : ExportStyle}

/-- The name of the second table is that of the first one, an underscore and some text, and
the name of the first table's column is this text, an underscore and the name of the
second table's column. -/
def Overlaps (t : Table) (c : Column) (u : Table) (e : Column) : Prop :=
  ∃ middle, u.name = t.name ++ "_" ++ middle ∧ c.name = middle ++ "_" ++ e.name

theorem overlaps_iff :
    t.Overlaps c u e ↔ ∃ middle, u.name.toList = t.name.toList ++ '_' :: middle ∧
      c.name.toList = middle ++ '_' :: e.name.toList := by
  constructor
  · rintro ⟨middle, hu, hc⟩
    exact ⟨middle.toList, by simp [hu], by simp [hc]⟩
  · rintro ⟨middle, hu, hc⟩
    refine ⟨.ofList middle, ?_, ?_⟩
    · rw [← String.toList_inj, hu]
      simp
    · rw [← String.toList_inj, hc]
      simp

/-- A name is not a proper part of itself. -/
theorem not_overlaps_of_name_eq (h : t.name = u.name) : ¬t.Overlaps c u e := by
  rw [overlaps_iff]
  rintro ⟨middle, hname, _⟩
  rw [h] at hname
  have hlength := congrArg List.length hname
  rw [List.length_append, List.length_cons] at hlength
  omega

/-- Both names that are divided have an underscore. -/
theorem Overlaps.underscores (h : t.Overlaps c u e) :
    '_' ∈ u.name.toList ∧ '_' ∈ c.name.toList := by
  obtain ⟨middle, hu, hc⟩ := overlaps_iff.mp h
  rw [hu, hc]
  exact ⟨List.mem_append_right _ List.mem_cons_self, List.mem_append_right _ List.mem_cons_self⟩

theorem toList_uniqueKeyName (hc : c.uniqueKeyName = none) :
    (t.uniqueKeyName c).toList = "uk_".toList ++ (t.name.toList ++ '_' :: c.name.toList) := by
  simp [uniqueKeyName, hc]

/-- Two made names are the same for the same names, and where the names overlap. -/
theorem uniqueKeyName_eq_iff (hc : c.uniqueKeyName = none) (he : e.uniqueKeyName = none) :
    t.uniqueKeyName c = u.uniqueKeyName e ↔
      t.name = u.name ∧ c.name = e.name ∨ t.Overlaps c u e ∨ u.Overlaps e t c := by
  rw [← String.toList_inj, toList_uniqueKeyName hc, toList_uniqueKeyName he,
    List.append_right_inj, append_cons_eq_append_cons_iff, String.toList_inj, String.toList_inj,
    overlaps_iff, overlaps_iff]

variable (t d)

/-- The unique columns whose keys have statements of their own and generated names. -/
def generatedKeyColumns : List Column :=
  t.columns.filter fun c =>
    c.unique && !t.keyColumns.contains c.name && !d.inlineUnique && c.uniqueKeyName.isNone

def generatedKeys : List NamedColumns :=
  (t.generatedKeyColumns d).map fun c => ⟨t.uniqueKeyName c, [c.name]⟩

theorem generatedKeys_sublist : (t.generatedKeys d).Sublist (t.separateUniqueKeys d) := by
  have hcolumns : (t.generatedKeyColumns d).Sublist (t.columns.filter fun c =>
      c.unique && !t.keyColumns.contains c.name && !d.inlineUnique) := by
    refine List.monotone_filter_right _ ?_
    intro c hc
    exact (Bool.and_eq_true_iff.mp hc).1
  exact (hcolumns.map _).trans (List.sublist_append_left _ _)

variable {t d}

theorem mem_generatedKeyColumns :
    c ∈ t.generatedKeyColumns d ↔ c ∈ t.columns ∧ c.unique = true ∧ c.name ∉ t.keyColumns ∧
      d.inlineUnique = false ∧ c.uniqueKeyName = none := by
  simp [generatedKeyColumns, and_assoc]

/-- A key with a statement of its own has a generated name or one that is declared. -/
theorem generated_or_declared {key : NamedColumns} (h : key ∈ t.separateUniqueKeys d) :
    key ∈ t.generatedKeys d ∨ key ∈ t.uniqueKeys ∨
      ∃ c ∈ t.columns, c.unique = true ∧ c.uniqueKeyName = some key.name := by
  rcases mem_separateUniqueKeys.mp h with ⟨c, hc, hunique, hkey, hinline, rfl⟩ | hdeclared
  · cases hname : c.uniqueKeyName with
    | none =>
        have hgenerated : c ∈ t.generatedKeyColumns d :=
          mem_generatedKeyColumns.mpr ⟨hc, hunique, hkey, hinline, hname⟩
        exact .inl (List.mem_map_of_mem hgenerated)
    | some name => exact .inr (.inr ⟨c, hc, hunique, by simp [uniqueKeyName, hname]⟩)
  · exact .inr (.inl hdeclared)

theorem name_exported : (style.exported t).name = t.name := by
  cases style with
  | standard => rfl
  | spanner => exact t.withPrimaryKey_eq.1

theorem uniqueKeyName_exported : (style.exported t).uniqueKeyName c = t.uniqueKeyName c := by
  rw [uniqueKeyName, uniqueKeyName, name_exported]

/-- The hidden column has no key of its own. -/
theorem generatedKeyColumns_exported_sublist :
    ((style.exported t).generatedKeyColumns d).Sublist t.columns := by
  have hunique : ((style.exported t).columns.filter (·.unique)).Sublist t.columns := by
    cases style with
    | standard => exact List.filter_sublist
    | spanner => exact t.filter_unique_columns_withPrimaryKey ▸ List.filter_sublist
  refine List.Sublist.trans (List.monotone_filter_right _ ?_) hunique
  intro c hc
  simp only [Bool.and_eq_true] at hc
  exact hc.1.1.1

end Table

namespace ExportStyle

variable (style : ExportStyle) (d : Dialect)

/-- The columns with generated key names that some tables are created with, each with the
table that it is in. -/
def generatedColumns (tables : List Table) : List (Table × Column) :=
  tables.flatMap fun t => ((style.exported t).generatedKeyColumns d).map (t, ·)

/-- The generated names of the keys of some tables. -/
def generatedNames (tables : List Table) : List String :=
  tables.flatMap fun t => ((style.exported t).generatedKeys d).map (·.name)

variable {style d} {tables : List Table}

theorem generatedNames_eq :
    style.generatedNames d tables =
      (style.generatedColumns d tables).map fun p => p.1.uniqueKeyName p.2 := by
  rw [generatedNames, generatedColumns, List.map_flatMap]
  apply List.flatMap_congr
  intro t _
  rw [Table.generatedKeys, List.map_map, List.map_map]
  apply List.map_congr_left
  intro c _
  exact Table.uniqueKeyName_exported

theorem mem_generatedColumns {t : Table} {c : Column} :
    (t, c) ∈ style.generatedColumns d tables ↔
      t ∈ tables ∧ c ∈ (style.exported t).generatedKeyColumns d := by
  simp [generatedColumns]

/-- Among tables and columns with names of their own no column is found twice. -/
theorem nodup_generatedColumns (htables : (tables.map (·.name)).Nodup)
    (hcolumns : ∀ t ∈ tables, (t.columns.map (·.name)).Nodup) :
    (style.generatedColumns d tables).Nodup := by
  refine List.nodup_flatMap.mpr ⟨?_, ?_⟩
  · intro t ht
    have hown : ((style.exported t).generatedKeyColumns d).Nodup :=
      (hcolumns t ht).of_map.sublist Table.generatedKeyColumns_exported_sublist
    exact hown.map fun _ _ h => congrArg Prod.snd h
  · refine htables.of_map.imp ?_
    intro t u hne
    rw [Function.onFun_apply, List.disjoint_left, List.forall_mem_map]
    rintro c _ hmem
    obtain ⟨_, _, heq⟩ := List.mem_map.mp hmem
    exact hne (congrArg Prod.fst heq).symm

/-- Columns that are the same by their names are the same. -/
theorem eq_of_mem_generatedColumns (htables : (tables.map (·.name)).Nodup)
    (hcolumns : ∀ t ∈ tables, (t.columns.map (·.name)).Nodup) {t u : Table} {c e : Column}
    (hc : (t, c) ∈ style.generatedColumns d tables)
    (he : (u, e) ∈ style.generatedColumns d tables)
    (htable : t.name = u.name) (hcolumn : c.name = e.name) : (t, c) = (u, e) := by
  obtain ⟨ht, hc⟩ := mem_generatedColumns.mp hc
  obtain ⟨hu, he⟩ := mem_generatedColumns.mp he
  obtain rfl := List.inj_on_of_nodup_map htables ht hu htable
  have hmem := Table.generatedKeyColumns_exported_sublist.subset hc
  have hmem' := Table.generatedKeyColumns_exported_sublist.subset he
  obtain rfl := List.inj_on_of_nodup_map (hcolumns t ht) hmem hmem' hcolumn
  rfl

/-- No two columns get the same name if and only if no two of them overlap. -/
theorem nodup_generatedNames_iff (htables : (tables.map (·.name)).Nodup)
    (hcolumns : ∀ t ∈ tables, (t.columns.map (·.name)).Nodup) :
    (style.generatedNames d tables).Nodup ↔
      ∀ p ∈ style.generatedColumns d tables, ∀ q ∈ style.generatedColumns d tables,
        ¬p.1.Overlaps p.2 q.1 q.2 := by
  have hunnamed : ∀ p ∈ style.generatedColumns d tables, p.2.uniqueKeyName = none := fun p hp =>
    (Table.mem_generatedKeyColumns.mp (mem_generatedColumns.mp hp).2).2.2.2.2
  rw [generatedNames_eq, List.nodup_map_iff_inj_on (nodup_generatedColumns htables hcolumns)]
  constructor
  · intro hinj p hp q hq hoverlap
    have hsame : p.1.uniqueKeyName p.2 = q.1.uniqueKeyName q.2 :=
      (Table.uniqueKeyName_eq_iff (hunnamed p hp) (hunnamed q hq)).mpr (.inr (.inl hoverlap))
    exact Table.not_overlaps_of_name_eq (congrArg (·.1.name) (hinj p hp q hq hsame)) hoverlap
  · intro hapart p hp q hq hsame
    rcases (Table.uniqueKeyName_eq_iff (hunnamed p hp) (hunnamed q hq)).mp hsame with
      ⟨htable, hcolumn⟩ | hoverlap | hoverlap
    · exact eq_of_mem_generatedColumns htables hcolumns hp hq htable hcolumn
    · exact absurd hoverlap (hapart p hp q hq)
    · exact absurd hoverlap (hapart q hq p hp)

/-- The keys with generated names are created in the order of their columns. -/
theorem createUniqueKey_sublist {t : Table} {statements : List String}
    (h : style.create t d = .ok statements) :
    (((style.exported t).generatedKeys d).map ((style.exported t).createUniqueKey d)).Sublist
      statements := by
  have hkeys := (Table.generatedKeys_sublist (t := style.exported t) (d := d)).map
    ((style.exported t).createUniqueKey d)
  rw [create_eq, Table.createStatements] at h
  split at h
  next => cases h
  next =>
    cases h
    exact (hkeys.cons _).trans (List.sublist_append_left _ _)

/-- The generated name of a key tells the table and the column, unless the name of one
table goes on, behind an underscore, with what the name of the other table's column begins
with. So when tables with names of their own, each with column names of its own, are
exported into one schema, two keys get the same generated name just for two such columns:
never for two columns of one table, and never where the names of the tables or those of the
columns have no underscores. All other names of keys are declared. -/
theorem generated_key_names_identify_columns (style : ExportStyle) (d : Dialect)
    (tables : List Table) (htables : (tables.map (·.name)).Nodup)
    (hcolumns : ∀ t ∈ tables, (t.columns.map (·.name)).Nodup) :
    (∀ (t u : Table) (c e : Column), c.uniqueKeyName = none → e.uniqueKeyName = none →
      (t.uniqueKeyName c = u.uniqueKeyName e ↔
        t.name = u.name ∧ c.name = e.name ∨ t.Overlaps c u e ∨ u.Overlaps e t c)) ∧
    (∀ t ∈ tables, ∀ statements, style.create t d = .ok statements →
      (((style.exported t).generatedKeys d).map ((style.exported t).createUniqueKey d)).Sublist
        statements) ∧
    (∀ t ∈ tables, ∀ key ∈ (style.exported t).separateUniqueKeys d,
      key ∈ (style.exported t).generatedKeys d ∨ key ∈ (style.exported t).uniqueKeys ∨
        ∃ c ∈ (style.exported t).columns, c.unique = true ∧ c.uniqueKeyName = some key.name) ∧
    ((style.generatedNames d tables).Nodup ↔
      ∀ p ∈ style.generatedColumns d tables, ∀ q ∈ style.generatedColumns d tables,
        ¬p.1.Overlaps p.2 q.1 q.2) ∧
    ((∀ p ∈ style.generatedColumns d tables, '_' ∉ p.1.name.toList) ∨
        (∀ p ∈ style.generatedColumns d tables, '_' ∉ p.2.name.toList) →
      (style.generatedNames d tables).Nodup) := by
  have hnodup : (style.generatedNames d tables).Nodup ↔ _ :=
    nodup_generatedNames_iff htables hcolumns
  refine ⟨fun _ _ _ _ => Table.uniqueKeyName_eq_iff, fun _ _ _ => createUniqueKey_sublist,
    fun _ _ _ => Table.generated_or_declared, hnodup, ?_⟩
  intro hplain
  rw [hnodup]
  intro p hp q hq hoverlap
  rcases hplain with htable | hcolumn
  · exact htable q hq hoverlap.underscores.1
  · exact hcolumn p hp hoverlap.underscores.2

/-- An underscore in the name of a table and one in that of another table's column. Only the
last letters tell the generated names apart. -/
theorem generated_key_names_identify_columns_near :
    let first : Column := { name := "d", type := .bigInt, unique := true }
    let second : Column := { name := "b_c", type := .bigInt, unique := true }
    let t : Table := { name := "a_b", columns := [first] }
    let u : Table := { name := "a", columns := [second] }
    let d := Dialect.spanner {}
    ([t, u].map (·.name)).Nodup ∧ (∀ v ∈ [t, u], (v.columns.map (·.name)).Nodup) ∧
      spanner.generatedNames d [t, u] = ["uk_a_b_d", "uk_a_b_c"] ∧
      (spanner.generatedNames d [t, u]).Nodup ∧
      [spanner.create t d, spanner.create u d] =
        [.ok ["create table a_b (d bigint, rowid bigint generated by default as identity " ++
            "(bit_reversed_positive) not null hidden, primary key (rowid))",
          "create unique index uk_a_b_d on a_b (d)"],
        .ok ["create table a (b_c bigint, rowid bigint generated by default as identity " ++
            "(bit_reversed_positive) not null hidden, primary key (rowid))",
          "create unique index uk_a_b_c on a (b_c)"]] := by
  intro first second t u d
  have htables : ([t, u].map (·.name)).Nodup := by decide
  have hcolumns : ∀ v ∈ [t, u], (v.columns.map (·.name)).Nodup := by decide
  obtain ⟨_, _, _, hnodup, _⟩ :=
    generated_key_names_identify_columns spanner d [t, u] htables hcolumns
  have hfound : spanner.generatedColumns d [t, u] = [(t, first), (u, second)] := by decide +kernel
  refine ⟨htables, hcolumns, by decide +kernel, hnodup.mpr ?_, by decide +kernel⟩
  have hshort : '_' ∉ u.name.toList := by decide
  have hsecond : ¬u.Overlaps second t first := by
    rw [Table.overlaps_iff]
    rintro ⟨middle, hname, hcolumn⟩
    obtain rfl : ['b'] = middle := by simpa [t, u] using hname
    exact absurd hcolumn (by decide)
  rw [hfound]
  simp only [List.forall_mem_cons, List.not_mem_nil, false_imp_iff, implies_true, and_true]
  exact ⟨⟨Table.not_overlaps_of_name_eq rfl, fun h => hshort h.underscores.1⟩, hsecond,
    Table.not_overlaps_of_name_eq rfl⟩

/-- Two tables and columns of different names whose keys get the same generated name. -/
theorem generated_key_name_shared :
    let first : Column := { name := "c", type := .bigInt, unique := true }
    let second : Column := { name := "b_c", type := .bigInt, unique := true }
    let t : Table := { name := "a_b", columns := [first] }
    let u : Table := { name := "a", columns := [second] }
    let d := Dialect.spanner {}
    first.uniqueKeyName = none ∧ second.uniqueKeyName = none ∧
      (t.name, first.name) ≠ (u.name, second.name) ∧ t.uniqueKeyName first = "uk_a_b_c" ∧
      u.uniqueKeyName second = "uk_a_b_c" ∧
      [spanner.create t d, spanner.create u d] =
        [.ok ["create table a_b (c bigint, rowid bigint generated by default as identity " ++
            "(bit_reversed_positive) not null hidden, primary key (rowid))",
          "create unique index uk_a_b_c on a_b (c)"],
        .ok ["create table a (b_c bigint, rowid bigint generated by default as identity " ++
            "(bit_reversed_positive) not null hidden, primary key (rowid))",
          "create unique index uk_a_b_c on a (b_c)"]] := by
  decide +kernel

end ExportStyle

end SqlBackend
