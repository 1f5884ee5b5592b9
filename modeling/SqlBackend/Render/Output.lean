import SqlBackend.Fragment

/-! # Output of a rendering

The output of rendering is SQL text, the number of placeholders in it and the
tables it changes, each with the byte position directly behind its name.
Outputs are put one behind the other: texts are joined, placeholders are added
and the positions of the second output move by the length of the first text.
-/

namespace SqlBackend

/-- A table that a statement changes, and where its name ends in the text. -/
structure AffectedTable where
  name : String
  offset : Nat
deriving DecidableEq, Repr

/-- The table with its position moved behind `length` more bytes. -/
def AffectedTable.shift (length : Nat) (t : AffectedTable) : AffectedTable :=
  { t with offset := length + t.offset }

/-- Rendered text with what is known about it. -/
structure Output where
  text : String := ""
  parameters : Nat := 0
  tables : List AffectedTable := []
deriving DecidableEq, Repr

namespace Output

instance : Append Output where
  append a b :=
    { text := a.text ++ b.text
      parameters := a.parameters + b.parameters
      tables := a.tables ++ b.tables.map (·.shift a.text.utf8ByteSize) }

/-- Text without placeholders. -/
def ofText (text : String) : Output := { text }

/-- The output of a fragment, which changes no table. -/
def ofFragment (f : Fragment) : Output := { text := f.text, parameters := f.parameters }

/-- The mark of a table whose name was just written. -/
def ofTable (name : String) : Output := { tables := [⟨name, 0⟩] }

/-- The text and the placeholders, without the tables. -/
def fragment (o : Output) : Fragment := ⟨o.text, o.parameters⟩

/-- One more placeholder. -/
def ofParameter : Output := { parameters := 1 }

/-- Puts a name in its place among sorted names, unless it is there. -/
def insertName (name : String) : List String → List String
  | [] => [name]
  | first :: rest =>
      if name < first then name :: first :: rest
      else if name = first then first :: rest
      else first :: insertName name rest

/-- The names of the changed tables, sorted and each once. -/
def tableNames (o : Output) : List String :=
  o.tables.foldr (fun t names => insertName t.name names) []

@[simp] theorem text_append (a b : Output) : (a ++ b).text = a.text ++ b.text := rfl

@[simp] theorem parameters_append (a b : Output) :
    (a ++ b).parameters = a.parameters + b.parameters := rfl

@[simp] theorem tables_append (a b : Output) :
    (a ++ b).tables = a.tables ++ b.tables.map (·.shift a.text.utf8ByteSize) := rfl

@[ext] theorem ext {a b : Output} (htext : a.text = b.text)
    (hparameters : a.parameters = b.parameters) (htables : a.tables = b.tables) : a = b := by
  cases a
  cases b
  simp_all

@[simp] theorem empty_append (a : Output) : ({} : Output) ++ a = a := by
  ext1
  · simp
  · simp
  · simp [AffectedTable.shift]

@[simp] theorem append_empty (a : Output) : a ++ ({} : Output) = a := by
  ext1 <;> simp

theorem append_assoc (a b c : Output) : a ++ b ++ c = a ++ (b ++ c) := by
  ext1
  · simp [String.append_assoc]
  · simp [Nat.add_assoc]
  · simp [AffectedTable.shift, Function.comp_def, Nat.add_assoc]

@[simp] theorem fragment_append (a b : Output) : (a ++ b).fragment = a.fragment ++ b.fragment := rfl

end Output

end SqlBackend
