import SqlBackend.Proofs.Render.Queries
import SqlBackend.Render.Session

/-! # Disciplines of statements and their parts

Statements that change tables mark the table they change, which queries never
do. A discipline that covers queries and takes that mark holds of every part a
translator can be asked for.
-/

namespace SqlBackend

open Rendering (emit affect fail)

def StatementPart.nodes (style : RenderingStyle) : StatementPart → List Node
  | text s => [.text s]
  | expr e => e.nodes
  | select s => s.nodes
  | insert i => i.nodes
  | update u => u.nodes style
  | updateSources u => u.sourceNodes style
  | delete d => d.nodes
  | withClause w mutation => w.nodes mutation
  | hint _ => []
  | tableRef r => r.nodes
  | target table _ => [.target table]
  | like l => l.nodes
  | likePattern l => l.nodes
  | likeEscape l => l.nodes
  | call c => c.nodes
  | lock request => [.lock request]

/-- The nodes of everything that a request hands to the translator. -/
def Request.nodes (style : RenderingStyle) : Request → List Node
  | write part => part.nodes style
  | fragment e => e.nodes
  | translate s => s.nodes style

/-- Holds of the renderings of queries and their parts. -/
structure Discipline.Queries {t : Translator} (D : Discipline t) : Prop where
  expr : ∀ e : Expr, (∀ n ∈ e.nodes, D.admits n) → D.writes (e.render t)
  exprs : ∀ es : List Expr, (∀ n ∈ Expr.nodesOf es, D.admits n) →
    ∀ r ∈ Expr.renderings t es, D.writes r
  expr? : ∀ o : Option Expr, (∀ n ∈ Expr.nodes? o, D.admits n) →
    ∀ r ∈ Expr.rendering? t o, D.writes r
  like : ∀ l : Like, (∀ n ∈ l.nodes, D.admits n) → D.writes (l.render t)
  call : ∀ c : Call, (∀ n ∈ c.nodes, D.admits n) → D.writes (c.render t)
  tableRef : ∀ r : TableRef, (∀ n ∈ r.nodes, D.admits n) → D.writes (r.render t)
  withClause : ∀ (mutation : Bool) (w : With), (∀ n ∈ w.nodes mutation, D.admits n) →
    D.writes (w.render t mutation)
  with? : ∀ (mutation : Bool) (o : Option With), (∀ n ∈ With.nodes? mutation o, D.admits n) →
    ∀ r ∈ With.rendering? t mutation o, D.writes r
  select : ∀ s : Select, (∀ n ∈ s.nodes, D.admits n) → D.writes (s.render t)

/-- What one discipline says of queries also holds in a coarser one. -/
theorem Discipline.Queries.mono {t : Translator} {D E : Discipline t} (hq : D.Queries)
    (hadmits : ∀ n, E.admits n → D.admits n)
    (hwrites : ∀ r : Rendering Unit, D.writes r → E.writes r) : E.Queries where
  expr e h := hwrites _ (hq.expr e fun n hn => hadmits n (h n hn))
  exprs es h r hr := hwrites r (hq.exprs es (fun n hn => hadmits n (h n hn)) r hr)
  expr? o h r hr := hwrites r (hq.expr? o (fun n hn => hadmits n (h n hn)) r hr)
  like l h := hwrites _ (hq.like l fun n hn => hadmits n (h n hn))
  call c h := hwrites _ (hq.call c fun n hn => hadmits n (h n hn))
  tableRef r h := hwrites _ (hq.tableRef r fun n hn => hadmits n (h n hn))
  withClause mutation w h := hwrites _ (hq.withClause mutation w fun n hn => hadmits n (h n hn))
  with? mutation o h r hr := hwrites r (hq.with? mutation o (fun n hn => hadmits n (h n hn)) r hr)
  select s h := hwrites _ (hq.select s fun n hn => hadmits n (h n hn))

theorem QueryDiscipline.queries {t : Translator} (D : QueryDiscipline t) :
    D.toDiscipline.Queries where
  expr := D.writes_expr
  exprs := D.writes_exprs
  expr? := D.writes_expr?
  like := D.writes_match
  call := D.writes_function
  tableRef := D.writes_tableRef
  withClause := D.writes_with
  with? := D.writes_with?
  select := D.writes_select

namespace Discipline

variable {t : Translator} {D : Discipline t}

theorem writes_target (haffect : ∀ table, D.writes (affect table)) {table : NamedTable}
    {kind : MutationKind} (h : ∀ s ∈ table.texts, D.text s) : D.writes (t.target table kind) := by
  refine D.holds_seq (D.writes_tableName h) (D.holds_seq (haffect _) ?_)
  split
  · exact D.writes_done
  · exact D.writes_correlation h

namespace Queries

variable (hq : D.Queries)
include hq

theorem source {s : InsertSource} (h : ∀ n ∈ s.nodes, D.admits n) : D.writes (s.render t) := by
  cases s with
  | rows values =>
      have hrow : ∀ r ∈ values.map (InsertSource.row t), D.writes r := by
        intro r hr
        obtain ⟨value, hvalue, rfl⟩ := List.mem_map.mp hr
        have hvalues := hq.exprs value fun n hn => h n (List.mem_flatMap.mpr ⟨value, hvalue, hn⟩)
        exact D.holds_seq (D.writes_words rfl)
          (D.holds_seq (D.writes_separated rfl hvalues) (D.writes_words rfl))
      rw [InsertSource.render]
      split
      · exact D.holds_fail (D.error_argument _)
      · exact D.writes_listed rfl hrow
  | query q => exact D.holds_seq (D.writes_words rfl) (hq.select q h)
  | defaults => exact D.writes_words rfl

theorem sources {u : Update} (h : ∀ n ∈ u.sourceNodes t.style, D.admits n) :
    D.writes (u.renderSources t) := by
  unfold Update.renderSources
  unfold Update.sourceNodes at h
  split
  · exact D.writes_done
  next hstyle =>
    rw [hstyle] at h
    refine D.holds_seq (D.writes_when fun _ => D.writes_require _) (D.writes_listed rfl ?_)
    intro r hr
    obtain ⟨table, htable, rfl⟩ := List.mem_map.mp hr
    refine hq.tableRef table fun n hn => h n (List.mem_cons_of_mem _ ?_)
    exact List.mem_flatMap.mpr ⟨table, htable, hn⟩

theorem assignment {a : Assignment} (h : ∀ n ∈ a.nodes, D.admits n) : D.writes (a.render t) := by
  rw [Assignment.nodes, List.forall_mem_cons] at h
  have hcolumn : D.text a.column := h.1 a.column (by simp [Node.texts])
  exact D.holds_seq (D.writes_emit hcolumn) (D.holds_seq (D.writes_words rfl) (hq.expr _ h.2))

/-! What comes behind the target of a statement is made of queries only. -/

theorem insert_body {i : Insert} (hcolumns : D.admits (.columns i.columns))
    (hvalues : ∀ n ∈ i.values.nodes, D.admits n) :
    D.writes (do
      .listed " (" (i.columns.map emit)
      .when (!i.columns.isEmpty) (emit ")")
      i.values.render t) := by
  refine D.holds_seq (D.writes_listed rfl (D.writes_names hcolumns)) ?_
  exact D.holds_seq (D.writes_when fun _ => D.writes_words rfl) (hq.source hvalues)

theorem update_body {u : Update} (hassignments : ∀ n ∈ u.assignments.flatMap Assignment.nodes,
      D.admits n) (hsources : ∀ n ∈ u.sourceNodes t.style, D.admits n)
    (hcondition : ∀ n ∈ Expr.nodes? u.condition, D.admits n) :
    D.writes (do
      .listed " set " (u.assignments.map (Assignment.render t))
      u.renderSources t
      .optional " where " (Expr.rendering? t u.condition)) := by
  have hassignment : ∀ r ∈ u.assignments.map (Assignment.render t), D.writes r := by
    intro r hr
    obtain ⟨a, ha, rfl⟩ := List.mem_map.mp hr
    exact hq.assignment fun n hn => hassignments n (List.mem_flatMap.mpr ⟨a, ha, hn⟩)
  refine D.holds_seq (D.writes_listed rfl hassignment) (D.holds_seq (hq.sources hsources) ?_)
  exact D.writes_optional rfl (hq.expr? _ hcondition)

variable (haffect : ∀ table, D.writes (affect table))
include haffect

theorem insert {i : Insert} (h : ∀ n ∈ i.nodes, D.admits n) : D.writes (i.render t) := by
  simp only [Insert.nodes, List.forall_mem_append, List.forall_mem_cons] at h
  obtain ⟨hwith, htarget, hcolumns, hvalues⟩ := h
  refine D.holds_seq (D.writes_optional rfl (hq.with? true _ hwith)) ?_
  refine D.holds_seq (D.writes_words rfl) (D.holds_seq (writes_target haffect htarget) ?_)
  exact hq.insert_body hcolumns hvalues

theorem update {u : Update} (h : ∀ n ∈ u.nodes t.style, D.admits n) : D.writes (u.render t) := by
  simp only [Update.nodes, List.forall_mem_append, List.forall_mem_cons] at h
  obtain ⟨hwith, htarget, ⟨hassignments, hsources⟩, hcondition⟩ := h
  unfold Update.render
  split
  · exact D.holds_fail (D.error_argument _)
  · refine D.holds_seq (D.writes_optional rfl (hq.with? true _ hwith)) ?_
    refine D.holds_seq (D.writes_words rfl) (D.holds_seq (writes_target haffect htarget) ?_)
    exact hq.update_body hassignments hsources hcondition

theorem delete {d : Delete} (h : ∀ n ∈ d.nodes, D.admits n) : D.writes (d.render t) := by
  simp only [Delete.nodes, List.forall_mem_append, List.forall_mem_cons] at h
  obtain ⟨hwith, htarget, hcondition⟩ := h
  refine D.holds_seq (D.writes_optional rfl (hq.with? true _ hwith)) ?_
  refine D.holds_seq (D.writes_words rfl) (D.holds_seq (writes_target haffect htarget) ?_)
  exact D.writes_optional rfl (hq.expr? _ hcondition)

/-- A discipline of queries that takes marks of changed tables holds of whole
statements. -/
theorem statement {s : Statement} (h : ∀ n ∈ s.nodes t.style, D.admits n) :
    D.writes (s.render t) := by
  cases s with
  | select query => exact hq.select query h
  | insert insertion => exact hq.insert haffect h
  | update change => exact hq.update haffect h
  | delete deletion => exact hq.delete haffect h

/-- It holds of every part as well. -/
theorem part {p : StatementPart} (h : ∀ n ∈ p.nodes t.style, D.admits n) :
    D.writes (p.render t) := by
  cases p with
  | text s => exact D.writes_emit (h _ (List.mem_singleton_self _) s (by simp [Node.texts]))
  | expr e => exact hq.expr e h
  | select s => exact hq.select s h
  | insert i => exact hq.insert haffect h
  | update u => exact hq.update haffect h
  | updateSources u => exact hq.sources h
  | delete d => exact hq.delete haffect h
  | withClause w mutation => exact hq.withClause mutation w h
  | hint m => exact D.writes_hint m
  | tableRef r => exact hq.tableRef r h
  | target table kind => exact writes_target haffect (h _ (List.mem_singleton_self _))
  | like l => exact hq.like l h
  | likePattern l =>
      obtain ⟨subject, pattern, escape, negated, caseSensitive⟩ := l
      simp only [StatementPart.nodes, Like.nodes, List.forall_mem_append] at h
      exact D.writes_likePattern (D.text_pattern h.1.2) (hq.expr _ h.1.2) (hq.expr? _ h.2)
  | likeEscape l =>
      obtain ⟨subject, pattern, escape, negated, caseSensitive⟩ := l
      simp only [StatementPart.nodes, Like.nodes, List.forall_mem_append] at h
      exact D.writes_escapeClause (hq.expr? _ h.2)
  | call c => exact hq.call c h
  | lock request => exact D.writes_lock request

end Queries

end Discipline

end SqlBackend
