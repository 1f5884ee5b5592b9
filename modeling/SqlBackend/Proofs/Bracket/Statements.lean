import SqlBackend.Proofs.Bracket.Queries
import SqlBackend.Proofs.Literal.Comments
import SqlBackend.Proofs.Render.AppendOnly

/-! # Statements close their brackets

A translation starts with no bracket open and ends with none, and a bracket in a
string literal is content.
-/

namespace SqlBackend

open Nesting (Balanced)
open Rendering.NestsWith (emit word)

namespace Translator

variable {t : Translator}

theorem nests_source (ht : t.dialect.Bracketed) {source : InsertSource}
    (hn : ∀ n ∈ source.nodes, n.Bracketed) : (source.render t).Nests 0 0 := by
  unfold InsertSource.render
  cases source with
  | rows values =>
      dsimp only
      split
      next => exact .fail _
      next =>
        apply Rendering.NestsWith.listed rfl
        rw [List.forall_mem_map]
        intro row hrow
        have hitems : ∀ n ∈ Expr.nodesOf row, n.Bracketed := fun n hmem =>
          hn n (List.mem_flatMap.mpr ⟨row, hrow, hmem⟩)
        exact .enclosed rfl (.separated rfl (nests_exprs ht row hitems)) rfl
  | query q => exact (word rfl).seq (nests_select ht q hn)
  | defaults => exact word rfl

theorem nests_insert (ht : t.dialect.Bracketed) {i : Insert} (hn : ∀ n ∈ i.nodes, n.Bracketed) :
    (i.render t).Nests 0 0 := by
  simp only [Insert.nodes, List.forall_mem_append, List.forall_mem_cons] at hn
  obtain ⟨hwith, htarget, hcolumns, hvalues⟩ := hn
  apply (Rendering.NestsWith.optional rfl (nests_with? ht true i.withClause hwith)).seq
  apply (word rfl).seq
  apply (t.target_nests .insert htarget).seq
  exact .bracketed hcolumns (nests_source ht hvalues)

theorem nests_assignment (ht : t.dialect.Bracketed) {a : Assignment}
    (hn : ∀ n ∈ a.nodes, n.Bracketed) : (a.render t).Nests 0 0 := by
  rw [Assignment.nodes, List.forall_mem_cons] at hn
  have hcolumn : Balanced a.column := hn.1 a.column (by simp [Node.names, Node.texts])
  exact (emit hcolumn).seq ((word rfl).seq (nests_expr ht a.value hn.2))

/-- Spanner's rules leave the further tables out, so nothing is asked of them. -/
theorem nests_sources (ht : t.dialect.Bracketed) {u : Update}
    (hn : ∀ n ∈ u.sourceNodes t.style, n.Bracketed) : (u.renderSources t).Nests 0 0 := by
  unfold Update.renderSources
  unfold Update.sourceNodes at hn
  cases hstyle : t.style with
  | spanner policy => exact .pure trivial
  | standard =>
      rw [hstyle, List.forall_mem_cons] at hn
      apply (Rendering.NestsWith.when (t.require_nests _)).seq
      apply Rendering.NestsWith.listed rfl
      rw [List.forall_mem_map]
      intro table htable
      exact nests_tableRef ht table fun n hmem => hn.2 n (List.mem_flatMap.mpr ⟨table, htable, hmem⟩)

theorem nests_update (ht : t.dialect.Bracketed) {u : Update}
    (hn : ∀ n ∈ u.nodes t.style, n.Bracketed) : (u.render t).Nests 0 0 := by
  simp only [Update.nodes, List.forall_mem_append, List.forall_mem_cons] at hn
  obtain ⟨hwith, htarget, ⟨hassignments, hsources⟩, hcondition⟩ := hn
  have hset : ∀ r ∈ u.assignments.map (Assignment.render t), r.Nests 0 0 := by
    rw [List.forall_mem_map]
    intro a ha
    exact nests_assignment ht fun n hmem => hassignments n (List.mem_flatMap.mpr ⟨a, ha, hmem⟩)
  unfold Update.render
  split
  next => exact .fail _
  next =>
    apply (Rendering.NestsWith.optional rfl (nests_with? ht true u.withClause hwith)).seq
    apply (word rfl).seq
    apply (t.target_nests .update htarget).seq
    apply (Rendering.NestsWith.listed rfl hset).seq
    apply (nests_sources ht hsources).seq
    exact .optional rfl (nests_expr? ht u.condition hcondition)

theorem nests_delete (ht : t.dialect.Bracketed) {d : Delete} (hn : ∀ n ∈ d.nodes, n.Bracketed) :
    (d.render t).Nests 0 0 := by
  simp only [Delete.nodes, List.forall_mem_append, List.forall_mem_cons] at hn
  obtain ⟨hwith, htarget, hcondition⟩ := hn
  apply (Rendering.NestsWith.optional rfl (nests_with? ht true d.withClause hwith)).seq
  apply (word rfl).seq
  apply (t.target_nests .delete htarget).seq
  exact .optional rfl (nests_expr? ht d.condition hcondition)

theorem nests_statement (ht : t.dialect.Bracketed) {s : Statement}
    (hn : ∀ n ∈ s.nodes t.style, n.Bracketed) : (s.render t).Nests 0 0 := by
  cases s with
  | select query => exact nests_select ht query hn
  | insert insertion => exact nests_insert ht hn
  | update change => exact nests_update ht hn
  | delete deletion => exact nests_delete ht hn

/-- Outside string literals every translation is well bracketed if the names in the
statement hold neither brackets nor single quotes: no bracket closes what is not
open, and none is left open. Templates of functions and spellings of types have to
close what they open, as those of the built-in backends do. -/
theorem writes_well_bracketed (t : Translator) (s : Statement) :
    (Registry.postgres.Balanced ∧ Registry.spanner.Balanced ∧ TypeMapping.postgres.Balanced ∧
      ∀ timestamptzForTime, (TypeMapping.spanner timestamptzForTime).Balanced) ∧
    (t.dialect.functions.Balanced → t.dialect.types.Balanced →
      (∀ n ∈ s.nodes t.style, ∀ name ∈ n.names, ∀ c ∈ ['(', ')', Text.singleQuote],
        c ∉ name.toList) →
      ∀ o, t.translate s = .ok o →
        ∃ pieces, Piece.scan o.text = some pieces ∧ Piece.WellBracketed pieces) := by
  refine ⟨⟨Registry.postgres_balanced, Registry.spanner_balanced, TypeMapping.postgres_balanced,
    TypeMapping.spanner_balanced⟩, ?_⟩
  intro hfunctions htypes hnames o ho
  have hbracketed : ∀ n ∈ s.nodes t.style, n.Bracketed := by
    intro n hn name hname
    have hnone := hnames n hn name hname
    apply Nesting.balanced_of_forall
    intro c hc
    apply Nesting.isMark_eq_false
    · exact fun h => hnone _ (by simp) (h ▸ hc)
    · exact fun h => hnone _ (by simp) (h ▸ hc)
    · exact fun h => hnone _ (by simp) (h ▸ hc)
  obtain ⟨⟨text, htext, hbalanced⟩, _⟩ :=
    nests_statement ⟨hfunctions, htypes⟩ hbracketed _ _ _ (run_of_translate ho)
  rw [String.empty_append] at htext
  rw [htext]
  exact Piece.exists_scan_of_balanced hbalanced

/-- A filter and a comparison of rows on a backend that has neither, a cast with a
size, and brackets in literals. -/
theorem writes_well_bracketed_emulated :
    let t := (Dialect.spanner {}).translator
    let column := Expr.column none
    let total := Expr.call ⟨"sum", [column "a"], false,
      some (.binary (column "c") .eq (.literal (.string ":)")))⟩
    let row := Expr.tuple [column "a", .cast (column "b") ⟨.varchar, {}⟩]
    let s := Statement.select { Select.plain [⟨total, none⟩] (some (.table { name := "t" })) with
      condition := some (.binary row .lt (.tuple [.parameter, .literal (.string "(")])) }
    let text := "select sum(case when c = ':)' then a else null end) from t " ++
      "where (a < ? or a = ? and cast(b as varchar(255)) < '(')"
    t.dialect.functions.Balanced ∧ t.dialect.types.Balanced ∧
      (∀ n ∈ s.nodes t.style, ∀ name ∈ n.names, ∀ c ∈ ['(', ')', Text.singleQuote],
        c ∉ name.toList) ∧
      t.translate s = .ok ⟨text, 2, []⟩ ∧
      ∃ pieces, Piece.scan text = some pieces ∧ Piece.WellBracketed pieces := by
  intro t column total row s text
  have hnames : ∀ n ∈ s.nodes t.style, ∀ name ∈ n.names, ∀ c ∈ ['(', ')', Text.singleQuote],
      c ∉ name.toList := by
    have hnone : ∀ n ∈ s.nodes t.style, ∀ name ∈ n.names,
        ['(', ')', Text.singleQuote].all (· ∉ name.toList) = true := by decide
    exact fun n hn name hname => not_mem_of_all (hnone n hn name hname)
  have htranslate : t.translate s = .ok ⟨text, 2, []⟩ := by decide +kernel
  have htypes := TypeMapping.spanner_balanced false
  exact ⟨Registry.spanner_balanced, htypes, hnames, htranslate,
    (writes_well_bracketed t s).2 Registry.spanner_balanced htypes hnames ⟨text, 2, []⟩
      htranslate⟩

end Translator

end SqlBackend
