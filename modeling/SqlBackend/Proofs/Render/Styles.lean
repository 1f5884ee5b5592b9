import SqlBackend.Render.Mutation
import SqlBackend.Statement.Node

/-! # Where the styles of rendering agree

The rules of Spanner differ from the standard ones in hints, further tables of
an update, the correlation name of an insertion and two kinds of pattern
matches. A statement without those is rendered in the same way by both: each
clause asks the dialect only, and the parts that it is put together from are
the same by induction.
-/

namespace SqlBackend

/-- The node has nothing that the styles treat differently: no hint that the
backend takes, no further tables, and pattern matches only with an escape
character and an operator that the backend has. -/
def Node.isStyleFree (d : Dialect) : Node → Bool
  | cte c => c.materialization.isNone || !d.supports .materializationHint
  | expr (.like l) => l.escape.isSome && (l.caseSensitive || d.supports .caseInsensitiveLike)
  | sources tables => tables.isEmpty
  | _ => true

def Node.StyleFree (d : Dialect) (n : Node) : Prop := n.isStyleFree d = true

instance (d : Dialect) (n : Node) : Decidable (n.StyleFree d) := inferInstanceAs (Decidable (_ = _))

/-- The target of an insertion goes by no other name. -/
def Statement.InsertsPlainly (s : Statement) : Prop :=
  ∀ i, s = .insert i → i.target.correlation = none

namespace Translator

/-- The translator for a dialect by the standard rules. -/
def standard (d : Dialect) : Translator := ⟨d, .standard⟩

/-- The translator for a dialect by the rules of Spanner. -/
def spanner (d : Dialect) (policy : LikePolicy) : Translator := ⟨d, .spanner policy⟩

variable {d : Dialect} {policy : LikePolicy}

/-! Most clauses look at the dialect only, which is the same for both styles. -/

theorem supports_agrees : (spanner d policy).supports = (standard d).supports := rfl

theorem require_agrees : (spanner d policy).require = (standard d).require := rfl

theorem dialect_agrees : (spanner d policy).dialect = (standard d).dialect := rfl

theorem lock_agrees : (spanner d policy).lock = (standard d).lock := rfl

theorem ctes_agrees : (spanner d policy).ctes = (standard d).ctes := rfl

theorem join_agrees : (spanner d policy).join = (standard d).join := rfl

theorem rowComparison_agrees :
    (spanner d policy).rowComparison = (standard d).rowComparison := rfl

theorem distinctFrom_agrees : (spanner d policy).distinctFrom = (standard d).distinctFrom := rfl

theorem call_agrees : (spanner d policy).call = (standard d).call := rfl

theorem window_agrees : (spanner d policy).window = (standard d).window := rfl

/-- A backend that does not take hints is given none. -/
theorem hint_agrees (policy : LikePolicy) (h : d.supports .materializationHint = false)
    (m : Materialization) : (spanner d policy).hint m = (standard d).hint m := by
  have hlacks : ¬(standard d).supports .materializationHint = true := by
    simpa [standard, supports] using h
  have hnothing : (standard d).hint m = pure () := if_neg hlacks
  rw [hnothing]
  rfl

theorem cte_agrees {name : String} {columns : List String} {m : Option Materialization}
    {query : Rendering Unit} (h : m = none ∨ d.supports .materializationHint = false) :
    (spanner d policy).cte name columns m query = (standard d).cte name columns m query := by
  have hhint : m.elim (pure ()) (spanner d policy).hint = m.elim (pure ()) (standard d).hint := by
    cases m with
    | none => rfl
    | some m =>
        have hlacks : d.supports .materializationHint = false := by simpa using h
        exact hint_agrees policy hlacks m
  rw [cte, hhint]
  rfl

theorem like_agrees {subject rendered : Rendering Unit} {pattern : Expr}
    {escape : Option (Rendering Unit)} {negated caseSensitive : Bool} (hescape : escape ≠ none)
    (hcase : caseSensitive = true ∨ d.supports .caseInsensitiveLike = true) :
    (spanner d policy).like subject pattern rendered escape negated caseSensitive =
      (standard d).like subject pattern rendered escape negated caseSensitive := by
  obtain ⟨character, rfl⟩ := Option.ne_none_iff_exists'.mp hescape
  -- Neither style puts the two sides in lower case.
  have hspanner : ¬((spanner d policy).style = .standard ∧ !caseSensitive ∧
      !(spanner d policy).supports .caseInsensitiveLike) := by
    rintro ⟨hstyle, _⟩
    cases hstyle
  have hstandard : ¬((standard d).style = .standard ∧ !caseSensitive ∧
      !(standard d).supports .caseInsensitiveLike) := by
    rintro ⟨_, hinsensitive, hlacks⟩
    have hsupports : (standard d).supports .caseInsensitiveLike =
        d.supports .caseInsensitiveLike := rfl
    rcases hcase with hcase | hcase
    · simp [hcase] at hinsensitive
    · simp [hsupports, hcase] at hlacks
  rw [like, if_neg hspanner, like, if_neg hstandard]
  cases policy <;> rfl

mutual

theorem styles_agree_expr : ∀ e : Expr, (∀ n ∈ e.nodes, n.StyleFree d) →
    e.render (spanner d policy) = e.render (standard d)
  | .literal _, _ => by rw [Expr.render, Expr.render]
  | .column _ _, _ => by rw [Expr.render, Expr.render]
  | .binary left op right, h => by
      simp only [Expr.nodes, List.forall_mem_cons, List.forall_mem_append] at h
      rw [Expr.render, Expr.render, styles_agree_expr left h.2.1, styles_agree_expr right h.2.2,
        styles_agree_elements left h.2.1, styles_agree_elements right h.2.2, rowComparison_agrees]
  | .unary op operand, h => by
      simp only [Expr.nodes, List.forall_mem_cons] at h
      rw [Expr.render, Expr.render, styles_agree_expr operand h.2]
  | .like predicate, h => by
      simp only [Expr.nodes, List.forall_mem_cons] at h
      rw [Expr.render, Expr.render, styles_agree_match predicate h.1 h.2]
  | .call call, h => by
      simp only [Expr.nodes, List.forall_mem_cons] at h
      rw [Expr.render, Expr.render, styles_agree_function call h.2]
  | .window call partition order, h => by
      simp only [Expr.nodes, List.forall_mem_cons, List.forall_mem_append] at h
      rw [Expr.render, Expr.render, styles_agree_function call h.2.1.1,
        styles_agree_exprs partition h.2.1.2, styles_agree_orders order h.2.2, window_agrees]
  | .subquery query, h => by
      simp only [Expr.nodes, List.forall_mem_cons] at h
      rw [Expr.render, Expr.render, styles_agree_select query h.2]
  | .tuple items, h => by
      simp only [Expr.nodes, List.forall_mem_cons] at h
      rw [Expr.render, Expr.render, styles_agree_exprs items h.2]
  | .isNull operand negated, h => by
      simp only [Expr.nodes, List.forall_mem_cons] at h
      rw [Expr.render, Expr.render, styles_agree_expr operand h.2]
  | .distinctFrom left right negated, h => by
      simp only [Expr.nodes, List.forall_mem_cons, List.forall_mem_append] at h
      rw [Expr.render, Expr.render, styles_agree_expr left h.2.1, styles_agree_expr right h.2.2,
        distinctFrom_agrees]
  | .inList operand items negated, h => by
      simp only [Expr.nodes, List.forall_mem_cons, List.forall_mem_append] at h
      rw [Expr.render, Expr.render, styles_agree_expr operand h.2.1,
        styles_agree_elements operand h.2.1, styles_agree_exprs items h.2.2, supports_agrees]
      dsimp only
      rw [styles_agree_rows _ items h.2.2]
  | .inQuery operand query negated, h => by
      simp only [Expr.nodes, List.forall_mem_cons, List.forall_mem_append] at h
      rw [Expr.render, Expr.render, styles_agree_expr operand h.2.1,
        styles_agree_select query h.2.2, require_agrees]
  | .between operand low high negated, h => by
      simp only [Expr.nodes, List.forall_mem_cons, List.forall_mem_append] at h
      rw [Expr.render, Expr.render, styles_agree_expr operand h.2.1.1,
        styles_agree_expr low h.2.1.2, styles_agree_expr high h.2.2]
  | .caseOf operand branches otherwise, h => by
      simp only [Expr.nodes, List.forall_mem_cons, List.forall_mem_append] at h
      rw [Expr.render, Expr.render, styles_agree_expr? operand h.2.1.1,
        styles_agree_branches branches h.2.1.2, styles_agree_expr? otherwise h.2.2]
  | .cast operand target, h => by
      simp only [Expr.nodes, List.forall_mem_cons] at h
      rw [Expr.render, Expr.render, styles_agree_expr operand h.2, dialect_agrees]
  | .paren inner, h => by
      simp only [Expr.nodes, List.forall_mem_cons] at h
      rw [Expr.render, Expr.render, styles_agree_expr inner h.2]
  | .parameter, _ => by rw [Expr.render, Expr.render]
  | .star _, _ => by rw [Expr.render, Expr.render]

theorem styles_agree_elements : ∀ e : Expr, (∀ n ∈ e.nodes, n.StyleFree d) →
    e.elements (spanner d policy) = e.elements (standard d)
  | .tuple items, h => by
      simp only [Expr.nodes, List.forall_mem_cons] at h
      rw [Expr.elements, Expr.elements, styles_agree_exprs items h.2]
  | .literal _, _ | .column _ _, _ | .binary _ _ _, _ | .unary _ _, _ | .like _, _ | .call _, _
  | .window _ _ _, _ | .subquery _, _ | .isNull _ _, _ | .distinctFrom _ _ _, _
  | .inList _ _ _, _ | .inQuery _ _ _, _ | .between _ _ _ _, _ | .caseOf _ _ _, _ | .cast _ _, _
  | .paren _, _ | .parameter, _ | .star _, _ => by simp only [Expr.elements]

theorem styles_agree_exprs : ∀ es : List Expr, (∀ n ∈ Expr.nodesOf es, n.StyleFree d) →
    Expr.renderings (spanner d policy) es = Expr.renderings (standard d) es
  | [], _ => by rw [Expr.renderings, Expr.renderings]
  | e :: rest, h => by
      simp only [Expr.nodesOf, List.forall_mem_append] at h
      rw [Expr.renderings, Expr.renderings, styles_agree_expr e h.1, styles_agree_exprs rest h.2]

theorem styles_agree_expr? : ∀ o : Option Expr, (∀ n ∈ Expr.nodes? o, n.StyleFree d) →
    Expr.rendering? (spanner d policy) o = Expr.rendering? (standard d) o
  | none, _ => by rw [Expr.rendering?, Expr.rendering?]
  | some e, h => by
      rw [Expr.rendering?, Expr.rendering?, styles_agree_expr e h]

theorem styles_agree_rows (width : Nat) : ∀ es : List Expr,
    (∀ n ∈ Expr.nodesOf es, n.StyleFree d) →
    Expr.rows (spanner d policy) width es = Expr.rows (standard d) width es
  | [], _ => by rw [Expr.rows, Expr.rows]
  | e :: rest, h => by
      simp only [Expr.nodesOf, List.forall_mem_append] at h
      rw [Expr.rows, Expr.rows, styles_agree_elements e h.1, styles_agree_rows width rest h.2]

theorem styles_agree_branches : ∀ branches : List CaseBranch,
    (∀ n ∈ CaseBranch.nodesOf branches, n.StyleFree d) →
    CaseBranch.renderings (spanner d policy) branches =
      CaseBranch.renderings (standard d) branches
  | [], _ => by rw [CaseBranch.renderings, CaseBranch.renderings]
  | ⟨condition, result⟩ :: rest, h => by
      simp only [CaseBranch.nodesOf, List.forall_mem_append] at h
      rw [CaseBranch.renderings, CaseBranch.renderings, styles_agree_expr condition h.1.1,
        styles_agree_expr result h.1.2, styles_agree_branches rest h.2]

theorem styles_agree_match : ∀ l : Like, (Node.expr (.like l)).StyleFree d →
    (∀ n ∈ l.nodes, n.StyleFree d) → l.render (spanner d policy) = l.render (standard d)
  | ⟨subject, pattern, escape, negated, caseSensitive⟩, hl, h => by
      simp only [Like.nodes, List.forall_mem_append] at h
      obtain ⟨hescape, hcase⟩ : escape.isSome = true ∧
          (caseSensitive = true ∨ d.supports .caseInsensitiveLike = true) := by
        simpa [Node.StyleFree, Node.isStyleFree] using hl
      rw [Like.render, Like.render, styles_agree_expr subject h.1.1, styles_agree_expr pattern h.1.2,
        styles_agree_expr? escape h.2]
      refine like_agrees ?_ hcase
      cases escape with
      | none => cases hescape
      | some e => simp [Expr.rendering?]

theorem styles_agree_function : ∀ c : Call, (∀ n ∈ c.nodes, n.StyleFree d) →
    c.render (spanner d policy) = c.render (standard d)
  | ⟨name, args, distinct, filter⟩, h => by
      simp only [Call.nodes, List.forall_mem_append] at h
      rw [Call.render, Call.render, styles_agree_exprs args h.1, styles_agree_expr? filter h.2,
        call_agrees]

theorem styles_agree_orders : ∀ items : List OrderItem,
    (∀ n ∈ OrderItem.nodesOf items, n.StyleFree d) →
    OrderItem.renderings (spanner d policy) items = OrderItem.renderings (standard d) items
  | [], _ => by rw [OrderItem.renderings, OrderItem.renderings]
  | ⟨expr, direction⟩ :: rest, h => by
      simp only [OrderItem.nodesOf, List.forall_mem_append] at h
      rw [OrderItem.renderings, OrderItem.renderings, styles_agree_expr expr h.1,
        styles_agree_orders rest h.2]

theorem styles_agree_tableRef : ∀ r : TableRef, (∀ n ∈ r.nodes, n.StyleFree d) →
    r.render (spanner d policy) = r.render (standard d)
  | .table _, _ => by rw [TableRef.render, TableRef.render]
  | .query query correlation, h => by
      simp only [TableRef.nodes, List.forall_mem_cons] at h
      rw [TableRef.render, TableRef.render, styles_agree_select query h.2]
  | .join left kind lateral right condition, h => by
      simp only [TableRef.nodes, List.forall_mem_cons, List.forall_mem_append] at h
      rw [TableRef.render, TableRef.render, styles_agree_tableRef left h.2.1.1,
        styles_agree_tableRef right h.2.1.2, styles_agree_expr? condition h.2.2, join_agrees]

theorem styles_agree_tableRef? : ∀ o : Option TableRef,
    (∀ n ∈ TableRef.nodes? o, n.StyleFree d) →
    TableRef.rendering? (spanner d policy) o = TableRef.rendering? (standard d) o
  | none, _ => by rw [TableRef.rendering?, TableRef.rendering?]
  | some r, h => by
      rw [TableRef.rendering?, TableRef.rendering?, styles_agree_tableRef r h]

theorem styles_agree_commonTables : ∀ ctes : List Cte,
    (∀ n ∈ Cte.nodesOf ctes, n.StyleFree d) →
    Cte.renderings (spanner d policy) ctes = Cte.renderings (standard d) ctes
  | [], _ => by rw [Cte.renderings, Cte.renderings]
  | ⟨name, columns, query, materialization⟩ :: rest, h => by
      simp only [Cte.nodesOf, List.forall_mem_cons, List.forall_mem_append] at h
      have hhint : materialization = none ∨ d.supports .materializationHint = false := by
        simpa [Node.StyleFree, Node.isStyleFree] using h.1
      rw [Cte.renderings, Cte.renderings, styles_agree_select query h.2.1,
        styles_agree_commonTables rest h.2.2, cte_agrees hhint]

theorem styles_agree_with (mutation : Bool) : ∀ w : With,
    (∀ n ∈ w.nodes mutation, n.StyleFree d) →
    w.render (spanner d policy) mutation = w.render (standard d) mutation
  | ⟨recursive, ctes⟩, h => by
      simp only [With.nodes, List.forall_mem_cons] at h
      rw [With.render, With.render, styles_agree_commonTables ctes h.2, ctes_agrees]

theorem styles_agree_with? (mutation : Bool) : ∀ o : Option With,
    (∀ n ∈ With.nodes? mutation o, n.StyleFree d) →
    With.rendering? (spanner d policy) mutation o = With.rendering? (standard d) mutation o
  | none, _ => by rw [With.rendering?, With.rendering?]
  | some w, h => by
      rw [With.rendering?, With.rendering?, styles_agree_with mutation w h]

theorem styles_agree_items : ∀ items : List SelectItem,
    (∀ n ∈ SelectItem.nodesOf items, n.StyleFree d) →
    SelectItem.renderings (spanner d policy) items = SelectItem.renderings (standard d) items
  | [], _ => by rw [SelectItem.renderings, SelectItem.renderings]
  | ⟨expr, label⟩ :: rest, h => by
      simp only [SelectItem.nodesOf, List.forall_mem_cons, List.forall_mem_append] at h
      rw [SelectItem.renderings, SelectItem.renderings, styles_agree_expr expr h.2.1,
        styles_agree_items rest h.2.2]

theorem styles_agree_select : ∀ s : Select, (∀ n ∈ s.nodes, n.StyleFree d) →
    s.render (spanner d policy) = s.render (standard d)
  | ⟨withClause, distinct, columns, source, condition, groupBy, having, orderBy, limit, offset,
      lock⟩, h => by
      simp only [Select.nodes, List.forall_mem_append] at h
      obtain ⟨⟨⟨⟨⟨⟨⟨⟨⟨hwith, hcolumns⟩, hsource⟩, hcondition⟩, hgroup⟩, hhaving⟩, horder⟩, hlimit⟩,
        hoffset⟩, _⟩ := h
      rw [Select.render, Select.render, styles_agree_with? false withClause hwith,
        styles_agree_items columns hcolumns, styles_agree_tableRef? source hsource,
        styles_agree_expr? condition hcondition, styles_agree_exprs groupBy hgroup,
        styles_agree_expr? having hhaving, styles_agree_orders orderBy horder,
        styles_agree_expr? limit hlimit, styles_agree_expr? offset hoffset, lock_agrees]

end

theorem styles_agree_source {v : InsertSource} (h : ∀ n ∈ v.nodes, n.StyleFree d) :
    v.render (spanner d policy) = v.render (standard d) := by
  cases v with
  | rows values =>
      have hrows : values.map (InsertSource.row (spanner d policy)) =
          values.map (InsertSource.row (standard d)) := by
        apply List.map_congr_left
        intro value hvalue
        rw [InsertSource.row, InsertSource.row, styles_agree_exprs value fun n hn =>
          h n (List.mem_flatMap.mpr ⟨value, hvalue, hn⟩)]
      rw [InsertSource.render, InsertSource.render, hrows]
  | query q => rw [InsertSource.render, InsertSource.render, styles_agree_select q h]
  | defaults => rfl

/-- Only an insertion is written differently, and only if its target has another
name. -/
theorem target_agrees {table : NamedTable} {kind : MutationKind}
    (h : kind = .insert → table.correlation = none) :
    (spanner d policy).target table kind = (standard d).target table kind := by
  cases kind with
  | insert =>
      have hnothing : Rendering.optional " " (table.correlation.map Rendering.emit) = pure () := by
        rw [h rfl]
        rfl
      simp only [target, spanner, standard, hnothing]
  | update => rfl
  | delete => rfl

theorem styles_agree_insert {i : Insert} (h : ∀ n ∈ i.nodes, n.StyleFree d)
    (hplain : i.target.correlation = none) :
    i.render (spanner d policy) = i.render (standard d) := by
  simp only [Insert.nodes, List.forall_mem_append, List.forall_mem_cons] at h
  rw [Insert.render, Insert.render, styles_agree_with? true _ h.1, target_agrees fun _ => hplain,
    styles_agree_source h.2.2.2]

theorem styles_agree_update {u : Update} (h : ∀ n ∈ u.nodes .standard, n.StyleFree d) :
    u.render (spanner d policy) = u.render (standard d) := by
  simp only [Update.nodes, List.forall_mem_append, List.forall_mem_cons] at h
  obtain ⟨hwith, _, ⟨hassignments, hsources⟩, hcondition⟩ := h
  have hassignment : u.assignments.map (Assignment.render (spanner d policy)) =
      u.assignments.map (Assignment.render (standard d)) := by
    apply List.map_congr_left
    intro a ha
    have hnodes : ∀ n ∈ a.nodes, n.StyleFree d := fun n hn =>
      hassignments n (List.mem_flatMap.mpr ⟨a, ha, hn⟩)
    rw [Assignment.nodes, List.forall_mem_cons] at hnodes
    rw [Assignment.render, Assignment.render, styles_agree_expr a.value hnodes.2]
  have hempty : u.sources = [] := by
    have hnode := hsources (.sources u.sources) (by simp [Update.sourceNodes])
    simpa [Node.StyleFree, Node.isStyleFree] using hnode
  have hsource : u.renderSources (spanner d policy) = u.renderSources (standard d) := by
    simp only [Update.renderSources, spanner, standard, hempty]
    rfl
  rw [Update.render, Update.render, styles_agree_with? true _ hwith, target_agrees (by simp),
    hassignment, hsource, styles_agree_expr? _ hcondition]

theorem styles_agree_delete {x : Delete} (h : ∀ n ∈ x.nodes, n.StyleFree d) :
    x.render (spanner d policy) = x.render (standard d) := by
  simp only [Delete.nodes, List.forall_mem_append, List.forall_mem_cons] at h
  rw [Delete.render, Delete.render, styles_agree_with? true _ h.1, target_agrees (by simp),
    styles_agree_expr? _ h.2.2]

theorem styles_agree_statement {s : Statement} (h : ∀ n ∈ s.nodes .standard, n.StyleFree d)
    (hplain : s.InsertsPlainly) : s.render (spanner d policy) = s.render (standard d) := by
  cases s with
  | select query => exact styles_agree_select query h
  | insert insertion => exact styles_agree_insert h (hplain insertion rfl)
  | update change => exact styles_agree_update h
  | delete deletion => exact styles_agree_delete h

/-- Where nothing in a statement is treated differently by the rules of Spanner,
both styles lead to the same result on every backend: the same error, or the
same text, placeholders and marks of changed tables. -/
theorem styles_translate_alike (d : Dialect) (policy : LikePolicy) (s : Statement)
    (hnodes : ∀ n ∈ s.nodes .standard, n.StyleFree d) (hplain : s.InsertsPlainly) :
    (spanner d policy).translate s = (standard d).translate s := by
  rw [translate, translate, styles_agree_statement hnodes hplain]

/-- An update that compares rows, one with a pattern match and one with a query
whose hint the backend does not take. -/
theorem styles_translate_alike_hint :
    let starts := Expr.like ⟨.column none "b", .literal (.string "x!%"),
      some (.literal (.string "!")), true, true⟩
    let stored : With := ⟨false, [⟨"c", [], .plain [⟨.parameter, none⟩] none, some .materialized⟩]⟩
    let s := Statement.update ⟨none, { name := "t", correlation := some "u" },
      [⟨"a", .binary (.tuple [starts, .parameter]) .lt (.tuple [.parameter, .subquery
        { Select.plain [⟨.parameter, none⟩] none with withClause := some stored }])⟩], [], none⟩
    (∀ n ∈ s.nodes .standard, n.StyleFree (.spanner {})) ∧ s.InsertsPlainly ∧
      (spanner (.spanner {}) .omitEscapeClause).translate s =
        (standard (.spanner {})).translate s := by
  intro starts stored s
  have hnodes : ∀ n ∈ s.nodes .standard, n.StyleFree (.spanner {}) := by decide
  have hplain : s.InsertsPlainly := by
    intro i hi
    simp [s] at hi
  exact ⟨hnodes, hplain, styles_translate_alike _ _ s hnodes hplain⟩

end Translator

end SqlBackend
