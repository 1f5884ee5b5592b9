import SqlBackend.Proofs.Render.AppendOnly
import SqlBackend.Proofs.Render.Styles

/-! # Marks of changed tables

A statement that changes a table marks it once, directly behind its name, and
nothing else in the statement marks anything. The position of the mark is that in
the whole text: what comes before it are the common table expressions of the
statement and the words for the kind of change.
-/

namespace SqlBackend

open Rendering (emit affect)

/-- What stands before the name of the changed table. -/
def MutationKind.words : MutationKind → String
  | insert => "insert into "
  | update => "update "
  | delete => "delete from "

/-- What all statements that change a table have in common. -/
structure Mutation where
  withClause : Option With
  kind : MutationKind
  target : NamedTable

def Statement.mutation? : Statement → Option Mutation
  | select _ => none
  | insert i => some ⟨i.withClause, .insert, i.target⟩
  | update u => some ⟨u.withClause, .update, u.target⟩
  | delete d => some ⟨d.withClause, .delete, d.target⟩

/-- The other name of a target as it is written. The standard rules write none for
insertions. -/
def Translator.targetAlias (t : Translator) (table : NamedTable) (kind : MutationKind) : String :=
  match t.style, kind with
  | .standard, .insert => ""
  | _, _ => table.correlation.elim "" (" " ++ ·)

/-- The output starts with the common table expressions, the words for the kind of
change, the name of the target and its other name. The name is marked, at the byte
position directly behind it, and there is no other mark. -/
def Translator.Marks (t : Translator) (m : Mutation) (o : Output) : Prop :=
  ∃ (lead rest : String) (parameters : Nat),
    (Rendering.optional "" (With.rendering? t true m.withClause)).Appends (.ok ())
      { text := lead, parameters } ∧
    (m.withClause = none → lead = "") ∧
    o.text = lead ++ m.kind.words ++ m.target.expression ++ t.targetAlias m.target m.kind ++ rest ∧
    o.tables = [⟨m.target.expression,
      (lead ++ m.kind.words ++ m.target.expression).utf8ByteSize⟩]

namespace Translator

variable {t : Translator}

theorem target_appends (table : NamedTable) (kind : MutationKind) :
    (t.target table kind).Appends (.ok ())
      { text := table.expression ++ t.targetAlias table kind
        tables := [⟨table.expression, table.expression.utf8ByteSize⟩] } := by
  have halias : (match t.style, kind with
      | .standard, .insert => pure ()
      | _, _ => Rendering.optional " " (table.correlation.map emit)).Appends (.ok ())
      (.ofText (t.targetAlias table kind)) := by
    unfold targetAlias
    split
    · exact .pure ()
    · cases table.correlation with
      | none => exact .pure ()
      | some name => exact (Rendering.Appends.emit " ").seq (.emit name)
  have hname : (emit table.expression).Appends (.ok ()) (.ofText table.expression) := fun _ => rfl
  have hmark : (affect table.expression).Appends (.ok ()) (.ofTable table.expression) :=
    fun _ => rfl
  have hall : (t.target table kind).Appends (.ok ()) (.ofText table.expression ++
      (.ofTable table.expression ++ .ofText (t.targetAlias table kind))) :=
    hname.bind_ok (hmark.bind_ok halias)
  have houtput : Output.ofText table.expression ++
      (.ofTable table.expression ++ .ofText (t.targetAlias table kind)) =
      { text := table.expression ++ t.targetAlias table kind
        tables := [⟨table.expression, table.expression.utf8ByteSize⟩] } := by
    ext1
    · simp [Output.ofText, Output.ofTable]
    · rfl
    · simp [Output.ofText, Output.ofTable, AffectedTable.shift]
  rwa [houtput] at hall

/-- Whatever follows the target, the mark of the target stays the only one. -/
theorem marks_of_run {withClause : Option With} {kind : MutationKind} {table : NamedTable}
    {body : Rendering Unit} (hbody : (QueryDiscipline.appending t).writes body) {o : Output}
    (h : (do
      Rendering.optional "" (With.rendering? t true withClause)
      emit kind.words
      t.target table kind
      body : Rendering Unit).run {} = (.ok (), o)) : t.Marks ⟨withClause, kind, table⟩ o := by
  have hwith := (QueryDiscipline.appending t).queries.with? true withClause
    fun n _ => Discipline.appending_admits n
  have hlead : (QueryDiscipline.appending t).writes
      (.optional "" (With.rendering? t true withClause)) := Discipline.writes_optional _ rfl hwith
  obtain ⟨outcome, first, hfirst, hunmarked, _⟩ := hlead
  obtain ⟨_, rfl, hwords⟩ := hfirst.of_bind h
  obtain ⟨_, _, htarget⟩ := (Rendering.Appends.emit kind.words).of_bind hwords
  obtain ⟨_, _, hrest⟩ := (target_appends table kind).of_bind htarget
  obtain ⟨_, last, hlast, hnone, _⟩ := hbody
  rw [hlast] at hrest
  obtain ⟨_, rfl⟩ := Prod.mk.inj hrest
  refine ⟨first.text, last.text, first.parameters, ?_, ?_, ?_, ?_⟩
  · have hwritten : first = { text := first.text, parameters := first.parameters } := by
      ext1
      · rfl
      · rfl
      · exact hunmarked rfl
    rwa [← hwritten]
  · rintro rfl
    have hempty : ({} : Output) = {} ++ first := (Prod.mk.inj (hfirst {})).2
    rw [Output.empty_append] at hempty
    rw [← hempty]
  · simp [Output.ofFragment, Fragment.ofText, String.append_assoc]
  · simp [Output.ofFragment, Fragment.ofText, AffectedTable.shift, hunmarked rfl, hnone rfl]

theorem insert_marks {i : Insert} {o : Output} (h : (i.render t).run {} = (.ok (), o)) :
    t.Marks ⟨i.withClause, .insert, i.target⟩ o := by
  refine marks_of_run ((QueryDiscipline.appending t).queries.insert_body ?_ ?_) h
  · exact Discipline.appending_admits _
  · exact fun n _ => Discipline.appending_admits n

theorem update_marks {u : Update} {o : Output} (h : (u.render t).run {} = (.ok (), o)) :
    t.Marks ⟨u.withClause, .update, u.target⟩ o := by
  unfold Update.render at h
  split at h
  next => cases h
  next =>
    refine marks_of_run ((QueryDiscipline.appending t).queries.update_body ?_ ?_ ?_) h
    · exact fun n _ => Discipline.appending_admits n
    · exact fun n _ => Discipline.appending_admits n
    · exact fun n _ => Discipline.appending_admits n

theorem delete_marks {d : Delete} {o : Output} (h : (d.render t).run {} = (.ok (), o)) :
    t.Marks ⟨d.withClause, .delete, d.target⟩ o := by
  have hcondition := (QueryDiscipline.appending t).queries.expr? d.condition
    fun n _ => Discipline.appending_admits n
  exact marks_of_run ((QueryDiscipline.appending t).writes_optional rfl hcondition) h

theorem select_marks {s : Select} {o : Output} (h : (s.render t).run {} = (.ok (), o)) :
    o.tables = [] := by
  obtain ⟨outcome, written, hwritten, hunmarked, _⟩ :=
    (QueryDiscipline.appending t).writes_select s fun n _ => Discipline.appending_admits n
  rw [hwritten, Output.empty_append] at h
  rw [← (Prod.mk.inj h).2]
  exact hunmarked rfl

/-- The marks of changed tables are exact. A query marks none. Every other statement
marks its target and nothing else, by its name with its schema and at the byte
position directly behind that name: before it are the text of the statement's common
table expressions and the words for the kind of change, and behind it is the other
name of the target where one is written. -/
theorem marks_exactly_target (t : Translator) (s : Statement) (o : Output)
    (h : t.translate s = .ok o) :
    (s.mutation? = none → o.tables = []) ∧ ∀ m, s.mutation? = some m → t.Marks m o := by
  have hrun := run_of_translate h
  cases s with
  | select query => exact ⟨fun _ => select_marks hrun, by simp [Statement.mutation?]⟩
  | insert insertion =>
      refine ⟨by simp [Statement.mutation?], ?_⟩
      rintro m ⟨rfl⟩
      exact insert_marks hrun
  | update change =>
      refine ⟨by simp [Statement.mutation?], ?_⟩
      rintro m ⟨rfl⟩
      exact update_marks hrun
  | delete deletion =>
      refine ⟨by simp [Statement.mutation?], ?_⟩
      rintro m ⟨rfl⟩
      exact delete_marks hrun

/-- The position counts bytes, of which a letter beyond ASCII takes more than one. The
comparison of rows before the target is written out and copies a placeholder. -/
theorem marks_exactly_target_bytes :
    let d : Dialect :=
      { Dialect.postgres with capabilities := Capabilities.postgres.set .rowOrderComparison false }
    let first := Expr.binary (.tuple [.parameter, .column none "a"]) .lt
      (.tuple [.column none "b", .column none "c"])
    let w : With := ⟨false, [⟨"größte", [], .plain [⟨first, none⟩] none, none⟩]⟩
    let s := Statement.insert
      ⟨some w, { name := "maß", schema := some "s", correlation := some "m" }, [], .defaults⟩
    let o : Output :=
      { text := "with größte as (select (? < b or ? = b and a < c)) insert into s.maß m " ++
          "default values"
        parameters := 2
        tables := [⟨"s.maß", 71⟩] }
    (spanner d .omitEscapeClause).translate s = .ok o ∧ (s.mutation? = none → o.tables = []) ∧
      ∀ m, s.mutation? = some m → (spanner d .omitEscapeClause).Marks m o := by
  intro d first w s o
  have htext : (spanner d .omitEscapeClause).translate s = .ok o := rfl
  exact ⟨htext, marks_exactly_target _ s o htext⟩

end Translator

end SqlBackend
