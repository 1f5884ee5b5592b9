import SqlBackend.Render.Query

/-! # Statements that change tables

Insertions, updates and deletions. Each names one target table, whose place in
the text is recorded; the queries inside record none.
-/

namespace SqlBackend

open Rendering (emit fail)

/-- One row of values. -/
def InsertSource.row (t : Translator) (values : List Expr) : Rendering Unit := do
  emit "("
  .separated ", " (Expr.renderings t values)
  emit ")"

def InsertSource.render (t : Translator) : InsertSource → Rendering Unit
  | .rows values =>
      if values.isEmpty then fail (.illegalArgument .insertWithoutValues)
      else .listed " values " (values.map (InsertSource.row t))
  | .query q => do
      emit " "
      q.render t
  | .defaults => emit " default values"

def Insert.render (t : Translator) (i : Insert) : Rendering Unit := do
  .optional "" (With.rendering? t true i.withClause)
  emit "insert into "
  t.target i.target .insert
  .listed " (" (i.columns.map emit)
  .when (!i.columns.isEmpty) (emit ")")
  i.values.render t

def Assignment.render (t : Translator) (a : Assignment) : Rendering Unit := do
  emit a.column
  emit " = "
  a.value.render t

/-- The further tables of an update. Spanner's rules leave them out. -/
def Update.renderSources (t : Translator) (u : Update) : Rendering Unit :=
  match t.style with
  | .spanner _ => pure ()
  | .standard => do
      .when (!u.sources.isEmpty) (t.require .fromInUpdate)
      .listed " from " (u.sources.map (TableRef.render t))

def Update.render (t : Translator) (u : Update) : Rendering Unit :=
  if u.assignments.isEmpty then fail (.illegalArgument .updateWithoutAssignments)
  else do
    .optional "" (With.rendering? t true u.withClause)
    emit "update "
    t.target u.target .update
    .listed " set " (u.assignments.map (Assignment.render t))
    u.renderSources t
    .optional " where " (Expr.rendering? t u.condition)

def Delete.render (t : Translator) (d : Delete) : Rendering Unit := do
  .optional "" (With.rendering? t true d.withClause)
  emit "delete from "
  t.target d.target .delete
  .optional " where " (Expr.rendering? t d.condition)

def Statement.render (t : Translator) : Statement → Rendering Unit
  | .select query => query.render t
  | .insert insertion => insertion.render t
  | .update change => change.render t
  | .delete deletion => deletion.render t

/-- The output of a statement. A statement that fails has none. -/
def Translator.translate (t : Translator) (s : Statement) : Except Error Output :=
  ((s.render t).whole.run {}).1

/-- Translates a statement by the dialect's own rules. -/
def Dialect.translate (d : Dialect) (s : Statement) : Except Error Output :=
  d.translator.translate s

end SqlBackend
