import SqlBackend.Proofs.Render.Styles
import SqlBackend.Proofs.Rows.Conditions

/-! # Rows never reach a backend without them

On a backend that lacks all features of rows, a statement whose rows stand only
where they are compared is refused, or it is written as its expansion, in which
no tuple is left. So the text of such a statement never holds a row.
-/

namespace SqlBackend

open Rendering (Refines RefinesAll)

namespace Expr

theorem expanded_isTuple (e : Expr) : e.expanded.isTuple = false :=
  isTuple_of_untupled e.expanded_untupled

theorem expandedElements_isTuple (e : Expr) : ∀ x ∈ e.expandedElements, x.isTuple = false :=
  fun x hx => isTuple_of_untupled (e.expandedElements_untupled x hx)

theorem expandedRows_isTuple (items : List Expr) :
    ∀ row ∈ expandedRows items, ∀ x ∈ row, x.isTuple = false :=
  fun row hrow x hx => isTuple_of_untupled (expandedRows_untupled items row hrow x hx)

/-- Expansions are neither stars nor literals, and everything else stays what it is. -/
theorem expanded_shape (e : Expr) :
    e.expanded.isStar = e.isStar ∧ e.expanded.literal? = e.literal? := by
  cases e with
  | binary left op right =>
      rw [expanded]
      split
      · unfold RowPredicate.comparison
        split <;> exact ⟨rfl, rfl⟩
      · exact ⟨rfl, rfl⟩
  | inList operand items negated =>
      rw [expanded]
      split
      · unfold RowPredicate.member
        split <;> exact ⟨rfl, rfl⟩
      · exact ⟨rfl, rfl⟩
  | _ => exact ⟨rfl, rfl⟩

end Expr

namespace Translator

variable {t : Translator}

theorem require_refines {feature : Feature} (h : t.supports feature = false) {β : Type}
    (r r' : Rendering β) : (t.require feature >>= fun _ => r).Refines r' := by
  have hfail : t.dialect.require feature = .error (t.dialect.unsupported (.feature feature)) :=
    if_neg (by rw [← Bool.not_eq_true] at h; exact h)
  intro before a after hrun
  rw [Translator.require, hfail] at hrun
  cases hrun

theorem blank_refines (t : Translator) :
    (pure () : Rendering Unit).Refines (Expr.blank.render t) := by
  rintro before _ _ ⟨⟩
  rw [Expr.blank, Expr.render]
  exact congrArg _ (Output.append_empty before)

mutual

theorem refines_expr (ht : t.Rowless) : ∀ e : Expr, e.rowsCompared = true →
    (e.render t).Refines (e.expanded.render t)
  | .literal _, _ | .column _ _, _ | .parameter, _ | .star _, _ => by
      rw [Expr.expanded]
      exact .refl _
  | .binary left op right, h => by
      rw [Expr.rowsCompared] at h
      rw [Expr.expanded, Expr.render]
      split at h
      next htuples =>
        rw [Bool.and_eq_true] at h
        rw [if_pos htuples, if_pos htuples]
        exact rowComparison_refines ht (refines_elements ht left h.1)
          (refines_elements ht right h.2) left.expandedElements_isTuple
          right.expandedElements_isTuple
      next htuples =>
        rw [Bool.and_eq_true] at h
        rw [if_neg htuples, if_neg htuples, Expr.render, if_neg (by simp [Expr.expanded_isTuple])]
        exact (refines_expr ht left h.1).seq (.skip (refines_expr ht right h.2))
  | .unary op operand, h => by
      rw [Expr.rowsCompared] at h
      rw [Expr.expanded, Expr.render, Expr.render]
      exact .skip (refines_expr ht operand h)
  | .like predicate, h => by
      rw [Expr.rowsCompared] at h
      rw [Expr.expanded, Expr.render, Expr.render]
      exact refines_match ht predicate h
  | .call call, h => by
      rw [Expr.rowsCompared] at h
      rw [Expr.expanded, Expr.render, Expr.render]
      exact refines_function ht call h
  | .window call partition order, h => by
      simp only [Expr.rowsCompared, Bool.and_eq_true] at h
      rw [Expr.expanded, Expr.render, Expr.render]
      exact (refines_function ht call h.1.1).seq
        (window_refines (refines_exprs ht partition h.1.2) (refines_orders ht order h.2))
  | .subquery query, h => by
      rw [Expr.rowsCompared] at h
      rw [Expr.expanded, Expr.render, Expr.render]
      exact .skip (refines_select ht query h).keep
  | .tuple items, h => by
      simp only [Expr.rowsCompared, Bool.and_eq_true, decide_eq_true_eq] at h
      have hitems := refines_exprs ht items h.2
      rw [Expr.expanded, Expr.render, Expr.render]
      -- At most one element: nothing in parentheses, or the element by itself.
      match items, h.1, hitems with
      | [], _, _ => exact .skip (blank_refines t).keep
      | [e], _, .cons he .nil => exact .skip he.keep
  | .isNull operand negated, h => by
      rw [Expr.rowsCompared] at h
      rw [Expr.expanded, Expr.render, Expr.render]
      exact (refines_expr ht operand h).keep
  | .distinctFrom left right negated, h => by
      rw [Expr.rowsCompared, Bool.and_eq_true] at h
      rw [Expr.expanded, Expr.render, Expr.render]
      exact distinctFrom_refines (refines_expr ht left h.1) (refines_expr ht right h.2)
  | .inList operand items negated, h => by
      rw [Expr.rowsCompared] at h
      rw [Expr.expanded, Expr.render]
      split
      next hempty =>
        rw [if_neg (by simp [hempty]), Expr.render, if_pos (by simpa using hempty)]
        exact .refl _
      next hitems =>
        split at h
        next htuple =>
          rw [Bool.and_eq_true] at h
          rw [if_pos (by simp [htuple, ht.rowConstructor]), if_pos (by simp [htuple, hitems])]
          exact rowMember_refines (refines_elements ht operand h.1) (refines_rows ht items h.2)
            operand.expandedElements_isTuple (Expr.expandedRows_isTuple items)
        next htuple =>
          rw [Bool.and_eq_true] at h
          have hrenderings := refines_exprs ht items h.2
          rw [if_neg (by simp [htuple]), if_neg (by simp [htuple]), Expr.render,
            if_neg (by simpa using hitems), if_neg (by simp [Expr.expanded_isTuple])]
          exact (refines_expr ht operand h.1).seq (.skip hrenderings.separated.keep)
  | .inQuery operand query negated, h => by
      simp only [Expr.rowsCompared, Bool.and_eq_true, Bool.or_eq_true] at h
      rw [Expr.expanded, Expr.render, Expr.render, operand.expanded_isTuple]
      cases htuple : operand.isTuple with
      | true => exact require_refines ht.rowInSubquery _ _
      | false =>
          have hoperand : operand.rowsCompared = true := by simpa [htuple] using h.1
          exact .skip ((refines_expr ht operand hoperand).seq
            (.skip (refines_select ht query h.2).keep))
  | .between operand low high negated, h => by
      simp only [Expr.rowsCompared, Bool.and_eq_true] at h
      rw [Expr.expanded, Expr.render, Expr.render]
      refine (refines_expr ht operand h.1.1).seq (.skip ?_)
      exact (refines_expr ht low h.1.2).seq (.skip (refines_expr ht high h.2))
  | .caseOf operand branches otherwise, h => by
      simp only [Expr.rowsCompared, Bool.and_eq_true] at h
      rw [Expr.expanded, Expr.render, Expr.render]
      exact caseOf_refines (refines_expr? ht operand h.1.1) (refines_branches ht branches h.1.2)
        (refines_expr? ht otherwise h.2)
  | .cast operand target, h => by
      rw [Expr.rowsCompared] at h
      rw [Expr.expanded, Expr.render, Expr.render]
      exact .skip (refines_expr ht operand h).keep
  | .paren inner, h => by
      rw [Expr.rowsCompared] at h
      rw [Expr.expanded, Expr.render, Expr.render]
      exact .skip (refines_expr ht inner h).keep

theorem refines_elements (ht : t.Rowless) : ∀ e : Expr, e.elementsCompared = true →
    RefinesAll (e.elements t) (Expr.renderings t e.expandedElements)
  | .tuple items, h => by
      rw [Expr.elementsCompared] at h
      rw [Expr.elements, Expr.expandedElements]
      exact refines_exprs ht items h
  | .literal _, _ | .column _ _, _ | .binary _ _ _, _ | .unary _ _, _ | .like _, _ | .call _, _
  | .window _ _ _, _ | .subquery _, _ | .isNull _ _, _ | .distinctFrom _ _ _, _ | .inList _ _ _, _
  | .inQuery _ _ _, _ | .between _ _ _ _, _ | .caseOf _ _ _, _ | .cast _ _, _ | .paren _, _
  | .parameter, _ | .star _, _ => by simp [Expr.elements, Expr.expandedElements, Expr.renderings]

theorem refines_exprs (ht : t.Rowless) : ∀ es : List Expr, Expr.allCompared es = true →
    RefinesAll (Expr.renderings t es) (Expr.renderings t (Expr.expandedAll es))
  | [], _ => by
      rw [Expr.expandedAll, Expr.renderings]
      exact .nil
  | e :: rest, h => by
      rw [Expr.allCompared, Bool.and_eq_true] at h
      rw [Expr.expandedAll, Expr.renderings, Expr.renderings]
      exact .cons (refines_expr ht e h.1) (refines_exprs ht rest h.2)

theorem refines_expr? (ht : t.Rowless) : ∀ o : Option Expr, Expr.rowsCompared? o = true →
    Option.Rel Refines (Expr.rendering? t o) (Expr.rendering? t (Expr.expanded? o))
  | none, _ => by
      rw [Expr.expanded?, Expr.rendering?]
      exact .none
  | some e, h => by
      rw [Expr.rowsCompared?] at h
      rw [Expr.expanded?, Expr.rendering?, Expr.rendering?]
      exact .some (refines_expr ht e h)

theorem refines_rows (ht : t.Rowless) : ∀ items : List Expr, Expr.rowElementsCompared items = true →
    List.Forall₂ (fun item row => RefinesAll (item.elements t) (Expr.renderings t row)) items
      (Expr.expandedRows items)
  | [], _ => by
      rw [Expr.expandedRows]
      exact .nil
  | item :: rest, h => by
      rw [Expr.rowElementsCompared, Bool.and_eq_true] at h
      rw [Expr.expandedRows]
      exact .cons (refines_elements ht item h.1) (refines_rows ht rest h.2)

theorem refines_branches (ht : t.Rowless) : ∀ bs : List CaseBranch,
    CaseBranch.allCompared bs = true →
    RefinesAll (CaseBranch.renderings t bs) (CaseBranch.renderings t (CaseBranch.expandedAll bs))
  | [], _ => by
      rw [CaseBranch.expandedAll, CaseBranch.renderings]
      exact .nil
  | ⟨condition, result⟩ :: rest, h => by
      simp only [CaseBranch.allCompared, Bool.and_eq_true] at h
      rw [CaseBranch.expandedAll, CaseBranch.renderings, CaseBranch.renderings]
      refine .cons (.skip ?_) (refines_branches ht rest h.2)
      exact (refines_expr ht condition h.1.1).seq (.skip (refines_expr ht result h.1.2))

theorem refines_match (ht : t.Rowless) : ∀ l : Like, l.rowsCompared = true →
    (l.render t).Refines (l.expanded.render t)
  | ⟨subject, pattern, escape, negated, caseSensitive⟩, h => by
      simp only [Like.rowsCompared, Bool.and_eq_true] at h
      rw [Like.expanded, Like.render, Like.render]
      exact like_refines (refines_expr ht subject h.1.1) pattern.expanded_shape.2
        (refines_expr ht pattern h.1.2) (refines_expr? ht escape h.2)

theorem refines_function (ht : t.Rowless) : ∀ c : Call, c.rowsCompared = true →
    (c.render t).Refines (c.expanded.render t)
  | ⟨name, args, distinct, filter⟩, h => by
      rw [Call.rowsCompared, Bool.and_eq_true] at h
      rw [Call.expanded, Call.render, Call.render]
      exact call_refines (refines_args ht args h.1) (refines_expr? ht filter h.2)

theorem refines_args (ht : t.Rowless) : ∀ args : List Expr, Expr.allCompared args = true →
    List.Forall₂ (fun arg arg' => arg'.1.isStar = arg.1.isStar ∧ arg.2.Refines arg'.2)
      (args.zip (Expr.renderings t args))
      ((Expr.expandedAll args).zip (Expr.renderings t (Expr.expandedAll args)))
  | [], _ => by
      rw [Expr.expandedAll, Expr.renderings]
      exact .nil
  | e :: rest, h => by
      rw [Expr.allCompared, Bool.and_eq_true] at h
      rw [Expr.expandedAll, Expr.renderings, Expr.renderings]
      exact .cons ⟨e.expanded_shape.1, refines_expr ht e h.1⟩ (refines_args ht rest h.2)

theorem refines_orders (ht : t.Rowless) : ∀ items : List OrderItem,
    OrderItem.allCompared items = true →
    RefinesAll (OrderItem.renderings t items) (OrderItem.renderings t (OrderItem.expandedAll items))
  | [], _ => by
      rw [OrderItem.expandedAll, OrderItem.renderings]
      exact .nil
  | ⟨expr, direction⟩ :: rest, h => by
      rw [OrderItem.allCompared, Bool.and_eq_true] at h
      rw [OrderItem.expandedAll, OrderItem.renderings, OrderItem.renderings]
      exact .cons (refines_expr ht expr h.1).keep (refines_orders ht rest h.2)

theorem refines_tableRef (ht : t.Rowless) : ∀ r : TableRef, r.rowsCompared = true →
    (r.render t).Refines (r.expanded.render t)
  | .table _, _ => by
      rw [TableRef.expanded]
      exact .refl _
  | .query query correlation, h => by
      rw [TableRef.rowsCompared] at h
      rw [TableRef.expanded, TableRef.render, TableRef.render]
      exact .skip (refines_select ht query h).keep
  | .join left kind lateral right condition, h => by
      simp only [TableRef.rowsCompared, Bool.and_eq_true] at h
      rw [TableRef.expanded, TableRef.render, TableRef.render]
      exact join_refines (refines_tableRef ht left h.1.1) (refines_tableRef ht right h.1.2)
        (refines_expr? ht condition h.2)

theorem refines_tableRef? (ht : t.Rowless) : ∀ o : Option TableRef,
    TableRef.rowsCompared? o = true →
    Option.Rel Refines (TableRef.rendering? t o) (TableRef.rendering? t (TableRef.expanded? o))
  | none, _ => by
      rw [TableRef.expanded?, TableRef.rendering?]
      exact .none
  | some table, h => by
      rw [TableRef.rowsCompared?] at h
      rw [TableRef.expanded?, TableRef.rendering?, TableRef.rendering?]
      exact .some (refines_tableRef ht table h)

theorem refines_commonTables (ht : t.Rowless) : ∀ ctes : List Cte, Cte.allCompared ctes = true →
    RefinesAll (Cte.renderings t ctes) (Cte.renderings t (Cte.expandedAll ctes))
  | [], _ => by
      rw [Cte.expandedAll, Cte.renderings]
      exact .nil
  | ⟨name, columns, query, materialization⟩ :: rest, h => by
      rw [Cte.allCompared, Bool.and_eq_true] at h
      rw [Cte.expandedAll, Cte.renderings, Cte.renderings]
      exact .cons (cte_refines (refines_select ht query h.1)) (refines_commonTables ht rest h.2)

theorem refines_with (ht : t.Rowless) (mutation : Bool) : ∀ w : With, w.rowsCompared = true →
    (w.render t mutation).Refines (w.expanded.render t mutation)
  | ⟨recursive, ctes⟩, h => by
      rw [With.rowsCompared] at h
      rw [With.expanded, With.render, With.render]
      exact ctes_refines (refines_commonTables ht ctes h)

theorem refines_with? (ht : t.Rowless) (mutation : Bool) : ∀ o : Option With,
    With.rowsCompared? o = true →
    Option.Rel Refines (With.rendering? t mutation o)
      (With.rendering? t mutation (With.expanded? o))
  | none, _ => by
      rw [With.expanded?, With.rendering?]
      exact .none
  | some w, h => by
      rw [With.rowsCompared?] at h
      rw [With.expanded?, With.rendering?, With.rendering?]
      exact .some (refines_with ht mutation w h)

theorem refines_items (ht : t.Rowless) : ∀ items : List SelectItem,
    SelectItem.allCompared items = true →
    RefinesAll (SelectItem.renderings t items)
      (SelectItem.renderings t (SelectItem.expandedAll items))
  | [], _ => by
      rw [SelectItem.expandedAll, SelectItem.renderings]
      exact .nil
  | ⟨expr, label⟩ :: rest, h => by
      rw [SelectItem.allCompared, Bool.and_eq_true] at h
      rw [SelectItem.expandedAll, SelectItem.renderings, SelectItem.renderings]
      exact .cons (refines_expr ht expr h.1).keep (refines_items ht rest h.2)

theorem refines_select (ht : t.Rowless) : ∀ s : Select, s.rowsCompared = true →
    (s.render t).Refines (s.expanded.render t)
  | ⟨withClause, distinct, columns, source, condition, groupBy, having, orderBy, limit, offset,
      lock⟩, h => by
      simp only [Select.rowsCompared, Bool.and_eq_true] at h
      obtain ⟨⟨⟨⟨⟨⟨⟨⟨hwith, hcolumns⟩, hsource⟩, hcondition⟩, hgroup⟩, hhaving⟩, horder⟩, hlimit⟩,
        hoffset⟩ := h
      rw [Select.expanded, Select.render, Select.render]
      rw [SelectItem.isEmpty_expandedAll]
      split
      next => exact .fail _ _
      next =>
        have hitems := refines_items ht columns hcolumns
        have hgroups := refines_exprs ht groupBy hgroup
        have horders := refines_orders ht orderBy horder
        refine (Refines.optional (refines_with? ht false withClause hwith)).seq ?_
        refine .skip (.skip (hitems.separated.seq ?_))
        refine (Refines.optional (refines_tableRef? ht source hsource)).seq ?_
        refine (Refines.optional (refines_expr? ht condition hcondition)).seq ?_
        refine hgroups.listed.seq ?_
        refine (Refines.optional (refines_expr? ht having hhaving)).seq ?_
        refine horders.listed.seq ?_
        refine (Refines.optional (refines_expr? ht limit hlimit)).seq ?_
        exact (Refines.optional (refines_expr? ht offset hoffset)).keep

end

theorem refines_source (ht : t.Rowless) {source : InsertSource} (h : source.rowsCompared = true) :
    (source.render t).Refines (source.expanded.render t) := by
  cases source with
  | rows values =>
      rw [InsertSource.rowsCompared, List.all_eq_true] at h
      rw [InsertSource.expanded, InsertSource.render, InsertSource.render, List.isEmpty_map]
      split
      next => exact .fail _ _
      next =>
        refine (RefinesAll.map fun row hrow => ?_).listed
        have hitems := refines_exprs ht row (h row hrow)
        exact .skip hitems.separated.keep
  | query q => exact .skip (refines_select ht q h)
  | defaults => exact .refl _

theorem refines_sources (ht : t.Rowless) {u : Update}
    (h : u.sources.all TableRef.rowsCompared = true) :
    (u.renderSources t).Refines (u.expanded.renderSources t) := by
  rw [List.all_eq_true] at h
  unfold Update.renderSources
  split
  next => exact .refl _
  next =>
    rw [Update.expanded, List.isEmpty_map]
    have htables : RefinesAll (u.sources.map (TableRef.render t))
        ((u.sources.map TableRef.expanded).map (TableRef.render t)) :=
      .map fun table htable => refines_tableRef ht table (h table htable)
    exact .skip htables.listed

theorem refines_statement (ht : t.Rowless) {s : Statement} (h : s.rowsCompared = true) :
    (s.render t).Refines (s.expanded.render t) := by
  cases s with
  | select query => exact refines_select ht query h
  | insert i =>
      rw [Statement.rowsCompared, Bool.and_eq_true] at h
      refine (Refines.optional (refines_with? ht true _ h.1)).seq ?_
      exact .skip (.skip (.skip (.skip (refines_source ht h.2))))
  | update u =>
      simp only [Statement.rowsCompared, Bool.and_eq_true, List.all_eq_true] at h
      obtain ⟨⟨⟨hwith, hassignments⟩, hsources⟩, hcondition⟩ := h
      have hset : RefinesAll (u.assignments.map (Assignment.render t))
          ((u.assignments.map Assignment.expanded).map (Assignment.render t)) :=
        .map fun a ha => .skip (.skip (refines_expr ht a.value (hassignments a ha)))
      simp only [Statement.render, Statement.expanded, Update.render]
      rw [show u.expanded.assignments.isEmpty = u.assignments.isEmpty from List.isEmpty_map]
      split
      next => exact .fail _ _
      next =>
        refine (Refines.optional (refines_with? ht true _ hwith)).seq (.skip (.skip ?_))
        refine hset.listed.seq ((refines_sources ht ?_).seq ?_)
        · exact List.all_eq_true.mpr hsources
        · exact .optional (refines_expr? ht _ hcondition)
  | delete d =>
      rw [Statement.rowsCompared, Bool.and_eq_true] at h
      refine (Refines.optional (refines_with? ht true _ h.1)).seq (.skip (.skip ?_))
      exact .optional (refines_expr? ht _ h.2)

/-- A backend without row constructors, ordered comparisons of rows and rows in front of queries
never gets a row that stands where rows are compared: the statement is refused or written as
its expansion, and no tuple is left in that. Rows that stand in parentheses, next to an operand
that is no row or in a null-safe comparison are written as they are. -/
theorem rows_never_written (ht : t.Rowless) (s : Statement) (hs : s.rowsCompared = true) :
    (∀ n ∈ s.expanded.nodes .standard, n.isTuple = false) ∧
      ∀ o, t.translate s = .ok o → t.translate s.expanded = .ok o := by
  refine ⟨s.expanded_untupled, fun o ho => ?_⟩
  have hrun := refines_statement ht hs _ _ _ (run_of_translate ho)
  rw [translate_eq, hrun]
  rfl

/-- An ordered comparison of rows with a row that is looked up among rows inside it. -/
theorem rows_never_written_nested :
    let t := (Dialect.spanner {}).translator
    let column := fun name => Expr.column none name
    let found := Expr.inList (.tuple [column "a", column "b"]) [.tuple [.parameter, column "c"]]
      false
    let s := Statement.select (.plain
      [⟨.binary (.tuple [found, column "d"]) .lt (.tuple [.parameter, column "e"]), none⟩] none)
    let text := "select (((a = ? and b = c)) < ? or ((a = ? and b = c)) = ? and d < e)"
    t.Rowless ∧ s.rowsCompared = true ∧ t.translate s = .ok ⟨text, 4, []⟩ ∧
      (∀ n ∈ s.expanded.nodes .standard, n.isTuple = false) ∧
      t.translate s.expanded = .ok ⟨text, 4, []⟩ := by
  intro t column found s text
  have ht : t.Rowless := ⟨rfl, rfl, rfl⟩
  have hs : s.rowsCompared = true := rfl
  have htranslate : t.translate s = .ok ⟨text, 4, []⟩ := rfl
  obtain ⟨huntupled, hexpanded⟩ := rows_never_written ht s hs
  exact ⟨ht, hs, htranslate, huntupled, hexpanded _ htranslate⟩

/-- Rows reach Spanner from every other place, by the standard rules and by its own: in
parentheses, next to an operand that is no row, among the items that an operand is looked up in,
in parentheses in front of a query, and in a null-safe comparison. -/
theorem writes_rows_elsewhere :
    let a := Expr.column none "a"
    let row := Expr.tuple [.column none "b", .column none "c"]
    let writes := fun (t : Translator) (e : Expr) (text : String) =>
      t.translate (.select (.plain [⟨e, none⟩] none)) = .ok ⟨text, 0, []⟩
    let leaks := fun (t : Translator) => t.Rowless ∧
      writes t (.binary (.paren row) .eq row) "select ((b, c)) = (b, c)" ∧
      writes t (.binary row .lt a) "select (b, c) < a" ∧
      writes t (.inList a [row] false) "select a in ((b, c))" ∧
      writes t (.inQuery (.paren row) (.plain [⟨a, none⟩] none) false)
        "select ((b, c)) in (select a)" ∧
      writes t (.distinctFrom a row true)
        "select case when (a = (b, c) or a is null and (b, c) is null) then 0 else 1 end = 0"
    leaks (standard (.spanner {})) ∧ leaks (Dialect.spanner {}).translator := by
  intro a row writes leaks
  constructor
  · exact ⟨⟨rfl, rfl, rfl⟩, rfl, rfl, rfl, rfl, rfl⟩
  · exact ⟨⟨rfl, rfl, rfl⟩, rfl, rfl, rfl, rfl, rfl⟩

end Translator

end SqlBackend
