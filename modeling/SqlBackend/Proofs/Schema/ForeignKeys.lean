import Mathlib.Data.List.TakeWhile
import SqlBackend.Proofs.Text.Lowercase
import SqlBackend.Proofs.Text.Quotation
import SqlBackend.Schema.ForeignKey

/-! # The names of foreign keys

Where an identifier stands in quotes, its name is what is between them; without quotes
it is folded to lower case. A foreign key is always dropped by its name without quotes,
so on a backend that adds it in quotes it is found again only if its name has no
capital letters.
-/

namespace SqlBackend

namespace Identifier

/-- Letters, digits and underscores. Characters outside ASCII count as letters. -/
def isWordChar (c : Char) : Bool := c.isAlphanum || c = '_' || 128 ≤ c.toNat

/-- The name that the identifier in front of a text stands for. -/
def name? (text : String) : Option String :=
  match text.toList with
  | [] => none
  | c :: rest =>
      if c = Text.doubleQuote then
        (Text.readQuoted Text.doubleQuote rest).map fun read => .ofList read.1
      else if isWordChar c then some (Text.lower (.ofList ((c :: rest).takeWhile isWordChar)))
      else none

/-- A name that can stand without quotes. -/
structure IsWord (name : String) : Prop where
  nonempty : name.toList ≠ []
  chars : name.toList.all isWordChar = true

theorem ne_doubleQuote_of_isWordChar {c : Char} (h : isWordChar c = true) :
    c ≠ Text.doubleQuote := by
  rintro rfl
  exact absurd h (by decide)

variable {name : String}

theorem IsWord.isWordChar_of_mem (hname : IsWord name) {c : Char} (hc : c ∈ name.toList) :
    isWordChar c = true :=
  List.all_eq_true.mp hname.chars c hc

/-- A word is read up to the end of the text or to what is no part of a word. -/
theorem name?_word (hname : IsWord name) {rest : String}
    (hrest : ∀ c, rest.toList.head? = some c → isWordChar c = false) :
    name? (name ++ rest) = some (Text.lower name) := by
  have hstop : rest.toList.takeWhile isWordChar = [] := by
    rw [List.takeWhile_eq_nil_iff]
    intro hlength
    exact Bool.eq_false_iff.mp (hrest _ (List.head?_eq_getElem? ▸ List.getElem?_eq_getElem hlength))
  have htake : (name.toList ++ rest.toList).takeWhile isWordChar = name.toList := by
    rw [List.takeWhile_append_of_pos fun c => hname.isWordChar_of_mem, hstop, List.append_nil]
  obtain ⟨c, chars, hcons⟩ := List.exists_cons_of_ne_nil hname.nonempty
  have hfirst : isWordChar c = true := hname.isWordChar_of_mem (hcons ▸ List.mem_cons_self)
  have hlist : (name ++ rest).toList = c :: (chars ++ rest.toList) := by
    rw [String.toList_append, hcons, List.cons_append]
  rw [hcons, List.cons_append] at htake
  rw [name?, hlist]
  dsimp only
  rw [if_neg (ne_doubleQuote_of_isWordChar hfirst), if_pos hfirst, htake, ← hcons,
    String.ofList_toList]

theorem name?_of_isWord (hname : IsWord name) : name? name = some (Text.lower name) := by
  have hread : name? (name ++ "") = _ := name?_word hname nofun
  rwa [String.append_empty] at hread

/-- Between quotes every character of a word stands for itself. -/
theorem name?_quoted (hname : IsWord name) {rest : String}
    (hrest : rest.toList.head? ≠ some Text.doubleQuote) :
    name? (Dialect.quoteIdentifier name ++ rest) = some name := by
  have hmarks : Text.doubleMarks Text.doubleQuote name.toList = name.toList :=
    Text.doubleMarks_eq_self fun c hc => ne_doubleQuote_of_isWordChar (hname.isWordChar_of_mem hc)
  have hread := Text.readQuoted_doubleMarks Text.doubleQuote name.toList rest.toList hrest
  rw [hmarks] at hread
  have hlist : (Dialect.quoteIdentifier name ++ rest).toList =
      Text.doubleQuote :: (name.toList ++ Text.doubleQuote :: rest.toList) := by
    have hquote : Dialect.identifierQuote.toList = [Text.doubleQuote] := rfl
    simp [Dialect.quoteIdentifier, hquote]
  rw [name?, hlist]
  dsimp only
  rw [if_pos rfl, hread, Option.map_some, String.ofList_toList]

end Identifier

namespace Dialect

/-- The name of a foreign key as it stands where the key is added. -/
def addedName (d : Dialect) (name : String) : String :=
  match d.foreignKeys with
  | .plain => name
  | .quoted => quoteIdentifier name

/-- The referenced columns as they are written, if any list of them is. -/
def references? (d : Dialect) (key : ForeignKey) : Option (List String) :=
  match d.foreignKeys with
  | .plain => if key.referencedColumns.isEmpty then none else some key.referencedColumns
  | .quoted => some key.referencedColumns

/-- What stands behind the name of a referenced table. -/
def referenceClause (references : Option (List String)) : String :=
  references.elim "" fun columns => " (" ++ columnList columns ++ ")"

/-- A key is added by its name, its own columns and the columns that it refers to. -/
theorem addForeignKey_parts (d : Dialect) (key : ForeignKey) :
    d.addForeignKey key =
      " add constraint " ++ d.addedName key.name ++ " foreign key (" ++ columnList key.columns ++
        ") references " ++ key.referencedTable ++ referenceClause (d.references? key) := by
  unfold addForeignKey addedName references?
  cases d.foreignKeys with
  | plain =>
      simp only [String.append_assoc]
      cases key.referencedColumns with
      | nil => rfl
      | cons column rest => rfl
  | quoted =>
      simp only [String.append_assoc]
      rfl

theorem addForeignKey_eq (d : Dialect) (key : ForeignKey) :
    ∃ rest, d.addForeignKey key =
      " add constraint " ++ (d.addedName key.name ++ (" foreign key (" ++ rest)) := by
  refine ⟨columnList key.columns ++ (") references " ++
    (key.referencedTable ++ referenceClause (d.references? key))), ?_⟩
  rw [addForeignKey_parts]
  simp only [String.append_assoc]

/-- The name that is added is the one that is given only if it stands in quotes. -/
theorem name?_addedName (d : Dialect) {name : String} (hname : Identifier.IsWord name)
    (rest : String) :
    Identifier.name? (d.addedName name ++ (" foreign key (" ++ rest)) =
      some (if d.foreignKeys = .plain then Text.lower name else name) := by
  unfold addedName
  cases d.foreignKeys with
  | plain => exact Identifier.name?_word hname (by simp [Identifier.isWordChar])
  | quoted => exact Identifier.name?_quoted hname (by simp [Text.doubleQuote])

end Dialect

namespace Table

/-- The foreign keys of a table are dropped in the order in which they are added, each
by a statement on the same table. It names the key that was added if the backend adds
keys without quotes or if the name has no capital letters, and only then. -/
theorem dropped_foreign_key_was_added (t : Table) (d : Dialect) :
    (t.addForeignKeys d).length = t.foreignKeys.length ∧
    (t.dropForeignKeys d).length = t.foreignKeys.length ∧
    ∀ (i : Nat) (key : ForeignKey), t.foreignKeys[i]? = some key → Identifier.IsWord key.name →
      ∃ added dropped name,
        (t.addForeignKeys d)[i]? =
          some ("alter table " ++ t.qualifiedName ++ " add constraint " ++ added) ∧
        (t.dropForeignKeys d)[i]? = some (
          (if d.supports .ifExistsAfterAlterTable then "alter table if exists "
            else "alter table ") ++ t.qualifiedName ++ " drop constraint " ++
          (if d.supports .ifExistsBeforeConstraint then "if exists " else "") ++ dropped) ∧
        Identifier.name? added = some name ∧
        (Identifier.name? dropped = some name ↔
          d.foreignKeys = .plain ∨ ∀ c ∈ key.name.toList, c.isUpper = false) := by
  refine ⟨List.length_map _, List.length_map _, ?_⟩
  intro i key hkey hword
  obtain ⟨rest, hadd⟩ := d.addForeignKey_eq key
  refine ⟨d.addedName key.name ++ (" foreign key (" ++ rest), key.name,
    if d.foreignKeys = .plain then Text.lower key.name else key.name, ?_, ?_, ?_, ?_⟩
  · rw [addForeignKeys, List.getElem?_map, hkey, Option.map_some, hadd]
    simp only [String.append_assoc]
  · rw [dropForeignKeys, List.getElem?_map, hkey, Option.map_some]
    rfl
  · exact d.name?_addedName hword rest
  · rw [Identifier.name?_of_isWord hword, Option.some_inj, ← Text.lower_eq_self_iff]
    split
    next hplain => exact iff_of_true rfl (.inl hplain)
    next hquoted => exact (or_iff_right hquoted).symm

/-- A name with capital letters on one backend and a name without them on the other. -/
theorem dropped_foreign_key_was_added_case :
    let key (name : String) : ForeignKey := ⟨name, ["user_id"], "users", ["id"]⟩
    let orders : Table := {
      name := "orders", schema := some "app", foreignKeys := [key "FK_Users"] }
    let items : Table := { name := "items", foreignKeys := [key "fk_users"] }
    Identifier.IsWord "FK_Users" ∧ Identifier.IsWord "fk_users" ∧
      (∃ added dropped name,
        (orders.addForeignKeys .postgres)[0]? =
          some ("alter table app.orders add constraint " ++ added) ∧
        (orders.dropForeignKeys .postgres)[0]? =
          some ("alter table if exists app.orders drop constraint if exists " ++ dropped) ∧
        Identifier.name? added = some name ∧ Identifier.name? dropped = some name) ∧
      ∃ added dropped name,
        (items.addForeignKeys (.spanner {}))[0]? =
          some ("alter table items add constraint " ++ added) ∧
        (items.dropForeignKeys (.spanner {}))[0]? =
          some ("alter table items drop constraint " ++ dropped) ∧
        Identifier.name? added = some name ∧ Identifier.name? dropped = some name := by
  intro key orders items
  have hcapital : Identifier.IsWord "FK_Users" := ⟨by decide, by decide +kernel⟩
  have hsmall : Identifier.IsWord "fk_users" := ⟨by decide, by decide +kernel⟩
  refine ⟨hcapital, hsmall, ?_, ?_⟩
  · obtain ⟨_, _, hkeys⟩ := dropped_foreign_key_was_added orders .postgres
    obtain ⟨added, dropped, name, hadd, hdrop, hname, hsame⟩ := hkeys 0 _ rfl hcapital
    exact ⟨added, dropped, name, hadd, hdrop, hname, hsame.mpr (.inl rfl)⟩
  · obtain ⟨_, _, hkeys⟩ := dropped_foreign_key_was_added items (.spanner {})
    obtain ⟨added, dropped, name, hadd, hdrop, hname, hsame⟩ := hkeys 0 _ rfl hsmall
    have hnone : ∀ c ∈ "fk_users".toList, c.isUpper = false :=
      Text.lower_eq_self_iff.mp (by decide +kernel)
    exact ⟨added, dropped, name, hadd, hdrop, hname, hsame.mpr (.inr hnone)⟩

/-- In quotes the capital letters are kept, so another name is dropped. -/
theorem dropped_foreign_key_not_added :
    let key : ForeignKey := ⟨"FK_Users", ["user_id"], "users", ["id"]⟩
    let orders : Table := { name := "orders", foreignKeys := [key] }
    let added := "\"FK_Users\" foreign key (user_id) references users (id)"
    orders.addForeignKeys (.spanner {}) = ["alter table orders add constraint " ++ added] ∧
      orders.dropForeignKeys (.spanner {}) = ["alter table orders drop constraint FK_Users"] ∧
      Identifier.name? added = some "FK_Users" ∧
      Identifier.name? "FK_Users" = some "fk_users" := by
  decide +kernel

end Table

end SqlBackend
