import SqlBackend.Proofs.Render.Parts
import SqlBackend.Proofs.Render.Success

/-! # Needs of queries

A query that is rendered to its end had all it needs, wherever in it the need
arises: its parts were rendered too, and each asked for its own needs. The one
part that is left out with its needs is the operand of a membership in an empty
list.
-/

namespace SqlBackend

open Rendering (Succeeds)

/-- The backend has everything that the nodes need. -/
def Dialect.Grants (d : Dialect) (nodes : List Node) : Prop :=
  ∀ n ∈ nodes, ∀ need ∈ n.needs, d.grants need = true

/-- No operand of a membership is left out. -/
def Node.Rendered (n : Node) : Prop := n.isEmptyMembership = false

instance (n : Node) : Decidable n.Rendered := inferInstanceAs (Decidable (_ = _))

namespace Dialect

variable {d : Dialect} {n : Node} {first second : List Node}

@[simp] theorem grants_nil : d.Grants [] := by simp [Grants]

@[simp] theorem grants_cons : d.Grants (n :: first) ↔
    (∀ need ∈ n.needs, d.grants need = true) ∧ d.Grants first :=
  List.forall_mem_cons

@[simp] theorem grants_append : d.Grants (first ++ second) ↔ d.Grants first ∧ d.Grants second :=
  List.forall_mem_append

end Dialect

namespace Translator

variable {t : Translator}

mutual

theorem grants_expr : ∀ e : Expr, (∀ n ∈ e.nodes, n.Rendered) → (e.render t).Succeeds →
    t.dialect.Grants e.nodes
  | .literal _, _, _ => by simp [Expr.nodes, Node.needs]
  | .column _ _, _, _ => by simp [Expr.nodes, Node.needs]
  | .binary left op right, hr, h => by
      simp only [Expr.nodes, List.forall_mem_cons, List.forall_mem_append] at hr
      simp only [Expr.nodes, Dialect.grants_cons, Dialect.grants_append]
      refine ⟨by simp [Node.needs], ?_⟩
      unfold Expr.render at h
      split at h
      next htuples =>
        simp only [Bool.and_eq_true] at htuples
        obtain ⟨hleft, hright⟩ := rowComparison_succeeds h
        exact ⟨grants_tuple left htuples.1.2 hr.2.1 hleft,
          grants_tuple right htuples.2 hr.2.2 hright⟩
      next => exact ⟨grants_expr left hr.2.1 h.first, grants_expr right hr.2.2 h.rest.rest⟩
  | .unary op operand, hr, h => by
      simp only [Expr.nodes, List.forall_mem_cons] at hr
      simp only [Expr.nodes, Dialect.grants_cons]
      unfold Expr.render at h
      exact ⟨by simp [Node.needs], grants_expr operand hr.2 h.rest⟩
  | .like predicate, hr, h => by
      simp only [Expr.nodes, List.forall_mem_cons] at hr
      simp only [Expr.nodes, Dialect.grants_cons]
      unfold Expr.render at h
      exact ⟨by simp [Node.needs], grants_match predicate hr.2 h⟩
  | .call call, hr, h => by
      simp only [Expr.nodes, List.forall_mem_cons] at hr
      simp only [Expr.nodes, Dialect.grants_cons]
      unfold Expr.render at h
      exact ⟨by simp [Node.needs], grants_function call hr.2 h⟩
  | .window call partition order, hr, h => by
      simp only [Expr.nodes, List.forall_mem_cons, List.forall_mem_append] at hr
      obtain ⟨_, ⟨hcall, hpartition⟩, horder⟩ := hr
      simp only [Expr.nodes, Dialect.grants_cons, Dialect.grants_append]
      unfold Expr.render at h
      obtain ⟨hfeature, hps, hos⟩ := window_succeeds h.rest
      refine ⟨?_, ⟨grants_function call hcall h.first, grants_exprs partition hpartition hps⟩,
        grants_orders order horder hos⟩
      cases partition with
      | nil => simp [Node.needs]
      | cons p rest => simpa [Node.needs] using hfeature (by simp [Expr.renderings])
  | .subquery query, hr, h => by
      simp only [Expr.nodes, List.forall_mem_cons] at hr
      simp only [Expr.nodes, Dialect.grants_cons]
      unfold Expr.render at h
      exact ⟨by simp [Node.needs], grants_select query hr.2 h.rest.first⟩
  | .tuple items, hr, h => by
      simp only [Expr.nodes, List.forall_mem_cons] at hr
      simp only [Expr.nodes, Dialect.grants_cons]
      unfold Expr.render at h
      exact ⟨by simp [Node.needs], grants_exprs items hr.2 h.rest.first.separated⟩
  | .isNull operand negated, hr, h => by
      simp only [Expr.nodes, List.forall_mem_cons] at hr
      simp only [Expr.nodes, Dialect.grants_cons]
      unfold Expr.render at h
      exact ⟨by simp [Node.needs], grants_expr operand hr.2 h.first⟩
  | .distinctFrom left right negated, hr, h => by
      simp only [Expr.nodes, List.forall_mem_cons, List.forall_mem_append] at hr
      simp only [Expr.nodes, Dialect.grants_cons, Dialect.grants_append]
      unfold Expr.render at h
      obtain ⟨hleft, hright⟩ := distinctFrom_succeeds h
      exact ⟨by simp [Node.needs], grants_expr left hr.2.1 hleft, grants_expr right hr.2.2 hright⟩
  | .inList operand items negated, hr, h => by
      simp only [Expr.nodes, List.forall_mem_cons, List.forall_mem_append] at hr
      obtain ⟨hrendered, hoperand, hitems⟩ := hr
      simp only [Expr.nodes, Dialect.grants_cons, Dialect.grants_append]
      refine ⟨by simp [Node.needs], ?_⟩
      unfold Expr.render at h
      split at h
      -- Here the operand would be left out, which `hrendered` rules out.
      next hempty =>
        rw [List.isEmpty_iff.mp hempty] at hrendered
        cases hrendered
      next =>
        split at h
        next htuple =>
          simp only [Bool.and_eq_true] at htuple
          obtain ⟨helements, hrows⟩ := rowMember_succeeds h
          exact ⟨grants_tuple operand htuple.1 hoperand helements, grants_rows _ items hitems hrows⟩
        next =>
          exact ⟨grants_expr operand hoperand h.first,
            grants_exprs items hitems h.rest.rest.first.separated⟩
  | .inQuery operand query negated, hr, h => by
      simp only [Expr.nodes, List.forall_mem_cons, List.forall_mem_append] at hr
      simp only [Expr.nodes, Dialect.grants_cons, Dialect.grants_append]
      unfold Expr.render at h
      refine ⟨?_, grants_expr operand hr.2.1 h.rest.first,
        grants_select query hr.2.2 h.rest.rest.rest.first⟩
      cases operand with
      | tuple items => simpa [Node.needs] using grants_of_require (h.first.when rfl)
      | _ => simp [Node.needs]
  | .between operand low high negated, hr, h => by
      simp only [Expr.nodes, List.forall_mem_cons, List.forall_mem_append] at hr
      obtain ⟨_, ⟨hoperand, hlow⟩, hhigh⟩ := hr
      simp only [Expr.nodes, Dialect.grants_cons, Dialect.grants_append]
      unfold Expr.render at h
      exact ⟨by simp [Node.needs], ⟨grants_expr operand hoperand h.first,
        grants_expr low hlow h.rest.rest.first⟩, grants_expr high hhigh h.rest.rest.rest.rest⟩
  | .caseOf operand branches otherwise, hr, h => by
      simp only [Expr.nodes, List.forall_mem_cons, List.forall_mem_append] at hr
      obtain ⟨_, ⟨hoperand, hbranches⟩, hotherwise⟩ := hr
      simp only [Expr.nodes, Dialect.grants_cons, Dialect.grants_append]
      unfold Expr.render at h
      obtain ⟨ho, hbs, hw⟩ := caseOf_succeeds h
      exact ⟨by simp [Node.needs], ⟨grants_expr? operand hoperand ho,
        grants_branches branches hbranches hbs⟩, grants_expr? otherwise hotherwise hw⟩
  | .cast operand target, hr, h => by
      simp only [Expr.nodes, List.forall_mem_cons] at hr
      simp only [Expr.nodes, Dialect.grants_cons]
      unfold Expr.render at h
      exact ⟨by simp [Node.needs], grants_expr operand hr.2 h.rest.first⟩
  | .paren inner, hr, h => by
      simp only [Expr.nodes, List.forall_mem_cons] at hr
      simp only [Expr.nodes, Dialect.grants_cons]
      unfold Expr.render at h
      exact ⟨by simp [Node.needs], grants_expr inner hr.2 h.rest.first⟩
  | .parameter, _, _ => by simp [Expr.nodes, Node.needs]
  | .star _, _, _ => by simp [Expr.nodes, Node.needs]

/-- The elements of a tuple are rendered by themselves where rows are taken apart. -/
theorem grants_tuple : ∀ e : Expr, e.isTuple = true → (∀ n ∈ e.nodes, n.Rendered) →
    (∀ r ∈ e.elements t, r.Succeeds) → t.dialect.Grants e.nodes
  | .tuple items, _, hr, h => by
      simp only [Expr.nodes, List.forall_mem_cons] at hr
      simp only [Expr.nodes, Dialect.grants_cons]
      unfold Expr.elements at h
      exact ⟨by simp [Node.needs], grants_exprs items hr.2 h⟩

theorem grants_exprs : ∀ es : List Expr, (∀ n ∈ Expr.nodesOf es, n.Rendered) →
    (∀ r ∈ Expr.renderings t es, r.Succeeds) → t.dialect.Grants (Expr.nodesOf es)
  | [], _, _ => by simp [Expr.nodesOf]
  | e :: rest, hr, h => by
      simp only [Expr.nodesOf, List.forall_mem_append] at hr
      rw [Expr.renderings, List.forall_mem_cons] at h
      rw [Expr.nodesOf, Dialect.grants_append]
      exact ⟨grants_expr e hr.1 h.1, grants_exprs rest hr.2 h.2⟩

theorem grants_expr? : ∀ o : Option Expr, (∀ n ∈ Expr.nodes? o, n.Rendered) →
    (∀ r ∈ Expr.rendering? t o, r.Succeeds) → t.dialect.Grants (Expr.nodes? o)
  | none, _, _ => by simp [Expr.nodes?]
  | some e, hr, h => by
      simp only [Expr.nodes?] at hr ⊢
      exact grants_expr e hr (h _ rfl)

theorem grants_rows (width : Nat) : ∀ items : List Expr, (∀ n ∈ Expr.nodesOf items, n.Rendered) →
    (Expr.rows t width items).Succeeds → t.dialect.Grants (Expr.nodesOf items)
  | [], _, _ => by simp [Expr.nodesOf]
  | item :: rest, hr, h => by
      simp only [Expr.nodesOf, List.forall_mem_append] at hr
      rw [Expr.nodesOf, Dialect.grants_append]
      unfold Expr.rows at h
      obtain ⟨hrow, row, hnext⟩ := h.first_and_next
      refine ⟨?_, grants_rows width rest hr.2 hnext.first⟩
      split at hrow
      next htuple => exact grants_tuple item htuple hr.1 (row_succeeds hrow)
      next => exact absurd hrow (Rendering.not_succeeds_fail _)

theorem grants_branches : ∀ bs : List CaseBranch, (∀ n ∈ CaseBranch.nodesOf bs, n.Rendered) →
    (∀ r ∈ CaseBranch.renderings t bs, r.Succeeds) → t.dialect.Grants (CaseBranch.nodesOf bs)
  | [], _, _ => by simp [CaseBranch.nodesOf]
  | ⟨condition, result⟩ :: rest, hr, h => by
      simp only [CaseBranch.nodesOf, List.forall_mem_append] at hr
      rw [CaseBranch.renderings, List.forall_mem_cons] at h
      simp only [CaseBranch.nodesOf, Dialect.grants_append]
      exact ⟨⟨grants_expr condition hr.1.1 h.1.rest.first,
        grants_expr result hr.1.2 h.1.rest.rest.rest⟩, grants_branches rest hr.2 h.2⟩

theorem grants_match : ∀ l : Like, (∀ n ∈ l.nodes, n.Rendered) → (l.render t).Succeeds →
    t.dialect.Grants l.nodes
  | ⟨subject, pattern, escape, negated, caseSensitive⟩, hr, h => by
      simp only [Like.nodes, List.forall_mem_append] at hr
      simp only [Like.nodes, Dialect.grants_append]
      unfold Like.render at h
      obtain ⟨hsubject, hpattern, hescape⟩ := like_succeeds h
      refine ⟨⟨grants_expr subject hr.1.1 hsubject, ?_⟩, grants_expr? escape hr.2 hescape⟩
      -- A text pattern may be written without being rendered; it needs nothing.
      rcases hpattern with hpattern | ⟨value, rfl⟩
      · exact grants_expr pattern hr.1.2 hpattern
      · simp [Expr.nodes, Node.needs]

theorem grants_function : ∀ c : Call, (∀ n ∈ c.nodes, n.Rendered) → (c.render t).Succeeds →
    t.dialect.Grants c.nodes
  | ⟨name, args, distinct, filter⟩, hr, h => by
      simp only [Call.nodes, List.forall_mem_append] at hr
      simp only [Call.nodes, Dialect.grants_append]
      unfold Call.render at h
      obtain ⟨hargs, hfilter⟩ := call_succeeds h
      exact ⟨grants_args args hr.1 hargs, grants_expr? filter hr.2 hfilter⟩

/-- A star is not rendered where a filter is put into the arguments, and needs
nothing. -/
theorem grants_args : ∀ args : List Expr, (∀ n ∈ Expr.nodesOf args, n.Rendered) →
    (∀ arg ∈ args.zip (Expr.renderings t args), arg.2.Succeeds ∨ arg.1.isStar = true) →
    t.dialect.Grants (Expr.nodesOf args)
  | [], _, _ => by simp [Expr.nodesOf]
  | e :: rest, hr, h => by
      simp only [Expr.nodesOf, List.forall_mem_append] at hr
      rw [Expr.renderings, List.zip_cons_cons, List.forall_mem_cons] at h
      rw [Expr.nodesOf, Dialect.grants_append]
      refine ⟨?_, grants_args rest hr.2 h.2⟩
      rcases h.1 with he | hstar
      · exact grants_expr e hr.1 he
      · cases e with
        | star table => simp [Expr.nodes, Node.needs]
        | _ => cases hstar

theorem grants_orders : ∀ items : List OrderItem, (∀ n ∈ OrderItem.nodesOf items, n.Rendered) →
    (∀ r ∈ OrderItem.renderings t items, r.Succeeds) → t.dialect.Grants (OrderItem.nodesOf items)
  | [], _, _ => by simp [OrderItem.nodesOf]
  | ⟨expr, direction⟩ :: rest, hr, h => by
      simp only [OrderItem.nodesOf, List.forall_mem_append] at hr
      rw [OrderItem.renderings, List.forall_mem_cons] at h
      simp only [OrderItem.nodesOf, Dialect.grants_append]
      exact ⟨grants_expr expr hr.1 h.1.first, grants_orders rest hr.2 h.2⟩

theorem grants_tableRef : ∀ r : TableRef, (∀ n ∈ r.nodes, n.Rendered) → (r.render t).Succeeds →
    t.dialect.Grants r.nodes
  | .table _, _, _ => by simp [TableRef.nodes, Node.needs]
  | .query query correlation, hr, h => by
      simp only [TableRef.nodes, List.forall_mem_cons] at hr
      simp only [TableRef.nodes, Dialect.grants_cons]
      unfold TableRef.render at h
      exact ⟨by simp [Node.needs], grants_select query hr.2 h.rest.first⟩
  | .join left kind lateral right condition, hr, h => by
      simp only [TableRef.nodes, List.forall_mem_cons, List.forall_mem_append] at hr
      simp only [TableRef.nodes, Dialect.grants_cons, Dialect.grants_append]
      unfold TableRef.render at h
      obtain ⟨hleft, hlateral, hright, hcondition⟩ := join_succeeds h
      refine ⟨?_, ⟨grants_tableRef left hr.2.1.1 hleft, grants_tableRef right hr.2.1.2 hright⟩,
        grants_expr? condition hr.2.2 hcondition⟩
      cases lateral with
      | false => simp [Node.needs]
      | true => simpa [Node.needs] using hlateral rfl

theorem grants_tableRef? : ∀ o : Option TableRef, (∀ n ∈ TableRef.nodes? o, n.Rendered) →
    (∀ r ∈ TableRef.rendering? t o, r.Succeeds) → t.dialect.Grants (TableRef.nodes? o)
  | none, _, _ => by simp [TableRef.nodes?]
  | some table, hr, h => by
      simp only [TableRef.nodes?] at hr ⊢
      exact grants_tableRef table hr (h _ rfl)

theorem grants_commonTables : ∀ ctes : List Cte, (∀ n ∈ Cte.nodesOf ctes, n.Rendered) →
    (∀ r ∈ Cte.renderings t ctes, r.Succeeds) → t.dialect.Grants (Cte.nodesOf ctes)
  | [], _, _ => by simp [Cte.nodesOf]
  | ⟨name, columns, query, materialization⟩ :: rest, hr, h => by
      simp only [Cte.nodesOf, List.forall_mem_cons, List.forall_mem_append] at hr
      rw [Cte.renderings, List.forall_mem_cons] at h
      simp only [Cte.nodesOf, Dialect.grants_cons, Dialect.grants_append]
      exact ⟨by simp [Node.needs], grants_select query hr.2.1 (cte_succeeds h.1),
        grants_commonTables rest hr.2.2 h.2⟩

theorem grants_with (mutation : Bool) : ∀ w : With, (∀ n ∈ w.nodes mutation, n.Rendered) →
    (w.render t mutation).Succeeds → t.dialect.Grants (w.nodes mutation)
  | ⟨recursive, ctes⟩, hr, h => by
      simp only [With.nodes, List.forall_mem_cons] at hr
      simp only [With.nodes, Dialect.grants_cons]
      unfold With.render at h
      obtain ⟨hmutation, hrecursive, hctes⟩ := ctes_succeeds h
      refine ⟨?_, grants_commonTables ctes hr.2 hctes⟩
      intro need hneed
      simp only [Node.needs, List.mem_append] at hneed
      rcases hneed with hneed | hneed
      · cases mutation with
        | false => simp at hneed
        | true =>
            obtain rfl : need = .feature .cteInMutation := by simpa using hneed
            exact hmutation rfl
      · cases recursive with
        | false => simp at hneed
        | true =>
            obtain rfl : need = .feature .recursiveCte := by simpa using hneed
            exact hrecursive rfl

theorem grants_with? (mutation : Bool) : ∀ o : Option With,
    (∀ n ∈ With.nodes? mutation o, n.Rendered) →
    (∀ r ∈ With.rendering? t mutation o, r.Succeeds) → t.dialect.Grants (With.nodes? mutation o)
  | none, _, _ => by simp [With.nodes?]
  | some w, hr, h => by
      simp only [With.nodes?] at hr ⊢
      exact grants_with mutation w hr (h _ rfl)

theorem grants_items : ∀ items : List SelectItem, (∀ n ∈ SelectItem.nodesOf items, n.Rendered) →
    (∀ r ∈ SelectItem.renderings t items, r.Succeeds) → t.dialect.Grants (SelectItem.nodesOf items)
  | [], _, _ => by simp [SelectItem.nodesOf]
  | ⟨expr, label⟩ :: rest, hr, h => by
      simp only [SelectItem.nodesOf, List.forall_mem_cons, List.forall_mem_append] at hr
      rw [SelectItem.renderings, List.forall_mem_cons] at h
      simp only [SelectItem.nodesOf, Dialect.grants_cons, Dialect.grants_append]
      exact ⟨by simp [Node.needs], grants_expr expr hr.2.1 h.1.first,
        grants_items rest hr.2.2 h.2⟩

theorem grants_select : ∀ s : Select, (∀ n ∈ s.nodes, n.Rendered) → (s.render t).Succeeds →
    t.dialect.Grants s.nodes
  | ⟨withClause, distinct, columns, source, condition, groupBy, having, orderBy, limit, offset,
      lock⟩, hr, h => by
      simp only [Select.nodes, List.forall_mem_append] at hr
      obtain ⟨⟨⟨⟨⟨⟨⟨⟨⟨hwith, hcolumns⟩, hsource⟩, hcondition⟩, hgroup⟩, hhaving⟩, horder⟩, hlimit⟩,
        hoffset⟩, _⟩ := hr
      unfold Select.render at h
      split at h
      next => exact absurd h (Rendering.not_succeeds_fail _)
      next =>
        -- The clauses in the order they are written; `hbody` starts at the columns.
        have hbody := h.rest.rest.rest
        have htail := hbody.rest.rest.rest.rest
        simp only [Select.nodes, Dialect.grants_append]
        refine ⟨⟨⟨⟨⟨⟨⟨⟨⟨?_, ?_⟩, ?_⟩, ?_⟩, ?_⟩, ?_⟩, ?_⟩, ?_⟩, ?_⟩, ?_⟩
        · exact grants_with? false withClause hwith h.first.optional
        · exact grants_items columns hcolumns hbody.first.separated
        · exact grants_tableRef? source hsource hbody.rest.first.optional
        · exact grants_expr? condition hcondition hbody.rest.rest.first.optional
        · exact grants_exprs groupBy hgroup hbody.rest.rest.rest.first.listed
        · exact grants_expr? having hhaving htail.first.optional
        · exact grants_orders orderBy horder htail.rest.first.listed
        · exact grants_expr? limit hlimit htail.rest.rest.first.optional
        · exact grants_expr? offset hoffset htail.rest.rest.rest.first.optional
        · cases lock with
          | none => simp
          | some request =>
              have hlock := htail.rest.rest.rest.rest.optional (t.lock request) rfl
              simpa [Node.needs] using lock_succeeds hlock

end

end Translator

end SqlBackend
