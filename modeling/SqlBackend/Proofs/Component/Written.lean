import SqlBackend.Component
import SqlBackend.Proofs.Component.Documents

/-! # Components that are written

The expression that writes components sets them in the document of the column one after
the other, and each placeholder takes the value of the next component. As no document is
an empty one, the result has all that was in the old document, with the components on top.
A value that is null makes nothing of the whole document, and so of the result.
-/

namespace SqlBackend

/-- A name that stands for itself in a path, and the path in a string literal. -/
structure IsPlainComponent (name : String) : Prop where
  nonempty : name ≠ ""
  chars : name.toList.all DocumentValue.isPathChar = true
  unquoted : Text.singleQuote ∉ name.toList
  notNull : Text.lower name ≠ "null"

instance (name : String) : Decidable (IsPlainComponent name) :=
  decidable_of_iff (name ≠ "" ∧ name.toList.all DocumentValue.isPathChar = true ∧
      Text.singleQuote ∉ name.toList ∧ Text.lower name ≠ "null")
    ⟨fun h => ⟨h.1, h.2.1, h.2.2.1, h.2.2.2⟩, fun h => ⟨h.nonempty, h.chars, h.unquoted, h.notNull⟩⟩

/-- A text that is read as one word and is no placeholder. -/
structure IsColumnText (column : String) : Prop where
  word : CallExpr.IsWord column
  notPlaceholder : column ≠ "?"

namespace Json

/-- The document with a component set to a value, nothing if either is nothing. -/
def setNullable (document : Option Fields) (name : String) (value : Option Json) : Option Fields :=
  document.bind fun fields => value.map (setField fields name)

/-- The document with components set one after the other. -/
def setAll (document : Option Fields) (assignments : List (String × Option Json)) :
    Option Fields :=
  assignments.foldl (fun document a => setNullable document a.1 a.2) document

theorem setAll_none (assignments : List (String × Option Json)) :
    setAll none assignments = none := by
  induction assignments with
  | nil => rfl
  | cons a rest ih => exact ih

/-- One value that is nothing is enough. -/
theorem setAll_of_none_mem {assignments : List (String × Option Json)}
    (h : none ∈ assignments.map (·.2)) (document : Option Fields) :
    setAll document assignments = none := by
  induction assignments generalizing document with
  | nil => cases h
  | cons a rest ih =>
      rcases List.mem_cons.mp h with hfirst | hrest
      · have hvalue : a.2 = none := hfirst.symm
        have hset : setNullable document a.1 a.2 = none := by
          rw [hvalue]
          cases document <;> rfl
        rw [setAll, List.foldl_cons, hset]
        exact setAll_none rest
      · exact ih hrest _

/-- Components of different names are all set, and the others stay as they are. -/
theorem exists_setAll {assignments : List (String × Option Json)}
    (hvalues : none ∉ assignments.map (·.2)) (hdistinct : (assignments.map (·.1)).Nodup)
    (old : Fields) :
    ∃ fields, setAll (some old) assignments = some fields ∧
      (∀ a ∈ assignments, (object fields).field? a.1 = a.2) ∧
      ∀ name ∉ assignments.map (·.1), (object fields).field? name = (object old).field? name := by
  induction assignments generalizing old with
  | nil => exact ⟨old, rfl, nofun, fun _ _ => rfl⟩
  | cons a rest ih =>
      obtain ⟨name, value⟩ := a
      rw [List.map_cons, List.mem_cons, not_or] at hvalues
      rw [List.map_cons, List.nodup_cons] at hdistinct
      obtain ⟨value, rfl⟩ := Option.ne_none_iff_exists'.mp (Ne.symm hvalues.1)
      obtain ⟨fields, hfields, hset, hother⟩ :=
        ih hvalues.2 hdistinct.2 (setField old name value)
      refine ⟨fields, hfields, ?_, ?_⟩
      · intro a ha
        rcases List.mem_cons.mp ha with rfl | ha
        -- What is set later has other names and leaves the component as it is.
        · rw [hother name hdistinct.1, field?_setField_self]
        · exact hset a ha
      · intro other hmem
        rw [List.map_cons, List.mem_cons, not_or] at hmem
        rw [hother other hmem.2, field?_setField_of_ne hmem.1]

end Json

namespace DocumentValue

/-- The path to a component, as it is written. -/
def componentPath (name : String) : String := "\x7b" ++ name ++ "\x7d"

theorem pathComponent?_componentPath {name : String} (h : IsPlainComponent name) :
    pathComponent? (componentPath name) = some name := by
  have hchars := List.all_eq_true.mp h.chars
  have hpath : (componentPath name).toList = '\x7b' :: (name.toList ++ ['\x7d']) := by
    simp [componentPath]
  have htake : (name.toList ++ ['\x7d']).takeWhile isPathChar = name.toList := by
    rw [List.takeWhile_append_of_pos hchars]
    exact List.append_nil _
  have hdrop : (name.toList ++ ['\x7d']).dropWhile isPathChar = ['\x7d'] := by
    rw [List.dropWhile_append_of_pos hchars]
    rfl
  rw [pathComponent?, hpath]
  simp [htake, hdrop, h.nonempty, h.notNull]

/-- A document, or nothing. -/
abbrev ofObject (fields : Option Json.Fields) : DocumentValue := ofNullable (fields.map .object)

/-- A missing document counts as an empty one. -/
theorem call?_coalesce_ofObject (old : Option Json.Fields) :
    call? "coalesce" [ofObject old, .text "\x7b\x7d"] =
      some (ofObject (some (old.getD []))) := by
  cases old with
  | none => rfl
  | some fields => rfl

theorem call?_toJsonb_ofNullable (value : Option Json) :
    call? "to_jsonb" [ofNullable value] = some (ofNullable value) := by
  cases value with
  | none => rfl
  | some json => rfl

/-- The document, the value, or both may be nothing. -/
theorem call?_jsonbSet_ofObject {name : String} (hname : IsPlainComponent name)
    (fields : Option Json.Fields) (value : Option Json) :
    call? "jsonb_set" [ofObject fields, .text (componentPath name), ofNullable value] =
      some (ofObject (Json.setNullable fields name value)) := by
  have hpath := pathComponent?_componentPath hname
  cases fields with
  | none => cases value <;> rfl
  | some fields =>
      cases value with
      | none => rfl
      | some json =>
          exact congrArg
            (Option.map fun name => document (.object (Json.setField fields name json))) hpath

end DocumentValue

namespace CallExpr

open DocumentValue (ofObject componentPath)

/-- The document of a column, an empty one if there is none. -/
def orEmpty (column : String) : CallExpr :=
  .call "coalesce" [.word column, .literal "\x7b\x7d"]

/-- A document with a component set to a bound value. -/
def setComponent (document : CallExpr) (name : String) : CallExpr :=
  .call "jsonb_set" [document, .literal (componentPath name), .call "to_jsonb" [.word "?"]]

theorem reads_orEmpty {column : String} (h : IsColumnText column) :
    Reads ("coalesce(" ++ column ++ ",'\x7b\x7d')").toList (orEmpty column) := by
  have hmark : Text.singleQuote = '\'' := rfl
  have hempty : Text.singleQuote ∉ "\x7b\x7d".toList := by decide
  have hcall := reads_call (⟨by decide, by decide⟩ : IsWord "coalesce")
    (.cons h.word.reads (.cons (reads_literal hempty) .nil)) (List.cons_ne_nil _ _)
  simpa [List.intercalate_cons_cons, orEmpty, hmark] using hcall

theorem Reads.setComponent {text name : String} {document : CallExpr}
    (h : Reads text.toList document) (hname : IsPlainComponent name) :
    Reads (ComponentAccess.setComponent text name).toList (document.setComponent name) := by
  have hmark : Text.singleQuote = '\'' := rfl
  have hquote : Text.singleQuote ∉ (componentPath name).toList := by
    simpa [componentPath] using ⟨by decide, hname.unquoted, by decide⟩
  have hpath := reads_literal hquote
  have hplace : Reads "?".toList (.word "?") := IsWord.reads ⟨by decide, by decide⟩
  have hvalue := reads_call (⟨by decide, by decide⟩ : IsWord "to_jsonb") (.cons hplace .nil)
    (List.cons_ne_nil _ _)
  have hcall := reads_call (⟨by decide, by decide⟩ : IsWord "jsonb_set")
    (.cons h (.cons hpath (.cons hvalue .nil))) (List.cons_ne_nil _ _)
  simpa [List.intercalate_cons_cons, componentPath, ComponentAccess.setComponent,
    CallExpr.setComponent, hmark] using hcall

theorem eval_orEmpty {column : String} (h : column ≠ "?") (old : Option Json.Fields)
    (bound : List (Option Json)) :
    (orEmpty column).eval column (old.map .object) bound =
      some (ofObject (some (old.getD [])), bound) := by
  have hcall := DocumentValue.call?_coalesce_ofObject old
  simp [orEmpty, eval, evalArgs, h, hcall]

theorem eval_setComponent {column name : String} {value : Option Json} {document : CallExpr}
    {fields : Option Json.Fields} {first : Option Json} {bound rest : List (Option Json)}
    (hname : IsPlainComponent name)
    (h : document.eval column value bound = some (ofObject fields, first :: rest)) :
    (document.setComponent name).eval column value bound =
      some (ofObject (Json.setNullable fields name first), rest) := by
  have hcall := DocumentValue.call?_jsonbSet_ofObject hname fields first
  simp [CallExpr.setComponent, eval, evalArgs, h, DocumentValue.call?_toJsonb_ofNullable, hcall]

variable {column : String} {components : List String}

/-- One component after the other is put around what has been written so far. -/
theorem reads_foldl_setComponent {text : String} {document : CallExpr}
    (h : Reads text.toList document) (hplain : ∀ name ∈ components, IsPlainComponent name) :
    Reads (components.foldl ComponentAccess.setComponent text).toList
      (components.foldl setComponent document) := by
  induction components generalizing text document with
  | nil => exact h
  | cons name rest ih =>
      obtain ⟨hname, hrest⟩ := List.forall_mem_cons.mp hplain
      exact ih (h.setComponent hname) hrest

/-- Each component takes one of the bound values, and none is left over. -/
theorem eval_foldl_setComponent {value : Option Json} {document : CallExpr}
    {fields : Option Json.Fields} {bound values : List (Option Json)}
    (hplain : ∀ name ∈ components, IsPlainComponent name)
    (hlength : values.length = components.length)
    (h : document.eval column value bound = some (ofObject fields, values)) :
    (components.foldl setComponent document).eval column value bound =
      some (ofObject (Json.setAll fields (components.zip values)), []) := by
  induction components generalizing document fields values with
  | nil =>
      rw [List.length_eq_zero_iff.mp hlength] at h
      exact h
  | cons name rest ih =>
      obtain ⟨first, values, rfl⟩ := List.exists_cons_of_length_eq_add_one hlength
      obtain ⟨hname, hrest⟩ := List.forall_mem_cons.mp hplain
      exact ih hrest (Nat.succ.inj hlength) (eval_setComponent hname h)

end CallExpr

namespace ComponentAccess

open DocumentValue (ofObject)

variable {column : String} {components : List String} {bound : List (Option Json)}

/-- The components are set in the document of the column, an empty one if there is none. -/
theorem ofText?_writeExpression (hcolumn : IsColumnText column)
    (hplain : ∀ name ∈ components, IsPlainComponent name) (old : Option Json.Fields)
    (hbound : bound.length = components.length) :
    ∃ text, writeExpression column .json components = .ok text ∧
      DocumentValue.ofText? text column (old.map .object) bound =
        some (ofObject (Json.setAll (some (old.getD [])) (components.zip bound))) := by
  have hread := CallExpr.read?_of_reads
    (CallExpr.reads_foldl_setComponent (CallExpr.reads_orEmpty hcolumn) hplain)
  have heval := CallExpr.eval_foldl_setComponent hplain hbound
    (CallExpr.eval_orEmpty hcolumn.notPlaceholder old bound)
  refine ⟨_, rfl, ?_⟩
  simp [DocumentValue.ofText?, hread, heval]

/-- The old value of the column is a document, the object of some fields, or SQL NULL, which
has no component. Where no bound value is SQL NULL, each component holds its value in the
document that is written, and every other component is the one of the old value. Where one
is, nothing is left of the document. -/
theorem written_components_kept (hcolumn : IsColumnText column)
    (hplain : ∀ name ∈ components, IsPlainComponent name) (hdistinct : components.Nodup)
    (old : Option Json.Fields) (hbound : bound.length = components.length) :
    ∃ text result, writeExpression column .json components = .ok text ∧
      DocumentValue.ofText? text column (old.map .object) bound = some result ∧
      (none ∈ bound → result = .null) ∧
      (none ∉ bound → ∃ fields, result = .document (.object fields) ∧
        (∀ a ∈ components.zip bound, (Json.object fields).field? a.1 = a.2) ∧
        ∀ name ∉ components, (Json.object fields).field? name =
          old.bind fun fields => (Json.object fields).field? name) := by
  obtain ⟨text, htext, hvalue⟩ := ofText?_writeExpression hcolumn hplain old hbound
  have hnames : (components.zip bound).map (·.1) = components :=
    List.map_fst_zip (Nat.le_of_eq hbound.symm)
  have hvalues : (components.zip bound).map (·.2) = bound :=
    List.map_snd_zip (Nat.le_of_eq hbound)
  refine ⟨text, _, htext, hvalue, ?_, ?_⟩
  · intro hnull
    rw [Json.setAll_of_none_mem (hvalues.symm ▸ hnull)]
    rfl
  · intro hnull
    obtain ⟨fields, hfields, hset, hother⟩ :=
      Json.exists_setAll (hvalues.symm ▸ hnull) (hnames.symm ▸ hdistinct) (old.getD [])
    refine ⟨fields, by rw [hfields]; rfl, hset, ?_⟩
    intro name hname
    rw [hother name (hnames.symm ▸ hname)]
    cases old with
    | none => rfl
    | some fields => rfl

/-- Two components of a document that has one of them, and a value that is a null of JSON. -/
theorem written_components_kept_json_null :
    let old : Json.Fields := [({ text := "b" }, .ofNat 1), ({ text := "c" }, .ofNat 2)]
    IsColumnText "t.data" ∧ (∀ name ∈ ["a", "b"], IsPlainComponent name) ∧ ["a", "b"].Nodup ∧
      none ∉ [some (Json.ofNat 3), some .null] ∧
      writeExpression "t.data" .json ["a", "b"] = .ok ("jsonb_set(jsonb_set(" ++
        "coalesce(t.data,'\x7b\x7d'),'\x7ba\x7d',to_jsonb(?)),'\x7bb\x7d',to_jsonb(?))") ∧
      ∃ text fields, writeExpression "t.data" .json ["a", "b"] = .ok text ∧
        DocumentValue.ofText? text "t.data" (some (.object old)) [some (.ofNat 3), some .null] =
          some (.document (.object fields)) ∧
        (Json.object fields).field? "a" = some (.ofNat 3) ∧
        (Json.object fields).field? "b" = some .null ∧
        (Json.object fields).field? "c" = some (.ofNat 2) := by
  intro old
  have hcolumn : IsColumnText "t.data" := ⟨⟨by decide, by decide⟩, by decide⟩
  have hplain : ∀ name ∈ ["a", "b"], IsPlainComponent name := by decide
  have hdistinct : ["a", "b"].Nodup := by decide
  have hnull : none ∉ [some (Json.ofNat 3), some .null] := by simp
  have hbound : [some (Json.ofNat 3), some .null].length = ["a", "b"].length := rfl
  obtain ⟨text, result, htext, hresult, _, hwritten⟩ :=
    written_components_kept hcolumn hplain hdistinct (some old) hbound
  obtain ⟨fields, rfl, hset, hother⟩ := hwritten hnull
  have ha := hset ("a", some (.ofNat 3)) (by simp)
  have hb := hset ("b", some .null) (by simp)
  have hc := hother "c" (by decide)
  exact ⟨hcolumn, hplain, hdistinct, hnull, by decide +kernel, text, fields, htext, hresult,
    ha, hb, hc⟩

/-- A bound value that is null takes the whole document with it. -/
theorem written_components_lost_to_null :
    let text := "jsonb_set(coalesce(data,'\x7b\x7d'),'\x7ba\x7d',to_jsonb(?))"
    let old : Json := .object [({ text := "x" }, .ofNat 1)]
    writeExpression "data" .json ["a"] = .ok text ∧
      DocumentValue.ofText? text "data" (some old) [none] = some .null := by
  intro text old
  have hcolumn : IsColumnText "data" := ⟨⟨by decide, by decide⟩, by decide⟩
  have hplain : ∀ name ∈ ["a"], IsPlainComponent name := by decide
  have hbound : ([none] : List (Option Json)).length = ["a"].length := rfl
  have htext : writeExpression "data" .json ["a"] = .ok text := by decide +kernel
  obtain ⟨written, hwritten, hvalue⟩ :=
    ofText?_writeExpression hcolumn hplain (some [({ text := "x" }, .ofNat 1)]) hbound
  rw [htext] at hwritten
  rw [← Except.ok.inj hwritten] at hvalue
  exact ⟨htext, hvalue⟩

end ComponentAccess

end SqlBackend
