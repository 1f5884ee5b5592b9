import SqlBackend.Proofs.Bracket.Clauses
import SqlBackend.Proofs.Literal.Alike

/-! # Queries close their brackets

Queries and expressions contain each other, so they are followed together, one case
for each constructor. A statement brings the depth back to where it was, however
deep its parts are nested, because each of them does.
-/

namespace SqlBackend

open Nesting (Balanced)
open Rendering.NestsWith (emit emitFragment word)

/-- What the backend itself writes closes what it opens. -/
structure Dialect.Bracketed (d : Dialect) : Prop where
  functions : d.functions.Balanced
  types : d.types.Balanced

/-- The names in the node bring no brackets with them. -/
def Node.Bracketed (n : Node) : Prop := ∀ name ∈ n.names, Balanced name

namespace Translator

variable {t : Translator}

mutual

theorem nests_expr (ht : t.dialect.Bracketed) : ∀ e : Expr, (∀ n ∈ e.nodes, n.Bracketed) →
    (e.render t).Nests 0 0
  | .literal value, _ => by
      rw [Expr.render]
      exact emit value.balanced_text
  | .column table name, hn => by
      have hnames := hn (.expr (.column table name)) (by simp [Expr.nodes])
      rw [Expr.render]
      exact emit (balanced_qualifiedName hnames)
  | .binary left op right, hn => by
      simp only [Expr.nodes, List.forall_mem_cons, List.forall_mem_append] at hn
      unfold Expr.render
      split
      · exact rowComparison_nests (nests_elements ht left hn.2.1) (nests_elements ht right hn.2.2)
      · apply (nests_expr ht left hn.2.1).seq
        exact (word (by cases op <;> rfl)).seq (nests_expr ht right hn.2.2)
  | .unary op operand, hn => by
      simp only [Expr.nodes, List.forall_mem_cons] at hn
      unfold Expr.render
      exact (word (by cases op <;> rfl)).seq (nests_expr ht operand hn.2)
  | .like predicate, hn => by
      simp only [Expr.nodes, List.forall_mem_cons] at hn
      unfold Expr.render
      exact nests_match ht predicate hn.2
  | .call call, hn => by
      simp only [Expr.nodes, List.forall_mem_cons] at hn
      unfold Expr.render
      exact nests_function ht call hn.2
  | .window call partition order, hn => by
      simp only [Expr.nodes, List.forall_mem_cons, List.forall_mem_append] at hn
      unfold Expr.render
      apply (nests_function ht call hn.2.1.1).seq
      exact window_nests (nests_exprs ht partition hn.2.1.2) (nests_orders ht order hn.2.2)
  | .subquery query, hn => by
      simp only [Expr.nodes, List.forall_mem_cons] at hn
      unfold Expr.render
      exact .enclosed rfl (nests_select ht query hn.2) rfl
  | .tuple items, hn => by
      simp only [Expr.nodes, List.forall_mem_cons] at hn
      unfold Expr.render
      exact .enclosed rfl (.separated rfl (nests_exprs ht items hn.2)) rfl
  | .isNull operand negated, hn => by
      simp only [Expr.nodes, List.forall_mem_cons] at hn
      unfold Expr.render
      exact (nests_expr ht operand hn.2).seq (word (by cases negated <;> rfl))
  | .distinctFrom left right negated, hn => by
      simp only [Expr.nodes, List.forall_mem_cons, List.forall_mem_append] at hn
      unfold Expr.render
      exact distinctFrom_nests (nests_expr ht left hn.2.1) (nests_expr ht right hn.2.2)
  | .inList operand items negated, hn => by
      simp only [Expr.nodes, List.forall_mem_cons, List.forall_mem_append] at hn
      unfold Expr.render
      split
      · exact word (by cases negated <;> rfl)
      · split
        · exact rowMember_nests (nests_elements ht operand hn.2.1) (nests_rows ht _ items hn.2.2)
        · apply (nests_expr ht operand hn.2.1).seq
          apply Rendering.NestsWith.enclosed
          · cases negated <;> rfl
          · exact .separated rfl (nests_exprs ht items hn.2.2)
          · rfl
  | .inQuery operand query negated, hn => by
      simp only [Expr.nodes, List.forall_mem_cons, List.forall_mem_append] at hn
      unfold Expr.render
      apply (Rendering.NestsWith.when (t.require_nests _)).seq
      apply (nests_expr ht operand hn.2.1).seq
      apply Rendering.NestsWith.enclosed
      · cases negated <;> rfl
      · exact nests_select ht query hn.2.2
      · rfl
  | .between operand low high negated, hn => by
      simp only [Expr.nodes, List.forall_mem_cons, List.forall_mem_append] at hn
      unfold Expr.render
      apply (nests_expr ht operand hn.2.1.1).seq
      apply (word (by cases negated <;> rfl)).seq
      apply (nests_expr ht low hn.2.1.2).seq
      exact (word rfl).seq (nests_expr ht high hn.2.2)
  | .caseOf operand branches otherwise, hn => by
      simp only [Expr.nodes, List.forall_mem_cons, List.forall_mem_append] at hn
      unfold Expr.render
      exact caseOf_nests (nests_expr? ht operand hn.2.1.1) (nests_branches ht branches hn.2.1.2)
        (nests_expr? ht otherwise hn.2.2)
  | .cast operand target, hn => by
      simp only [Expr.nodes, List.forall_mem_cons] at hn
      have htarget := emit (ht.types target)
      unfold Expr.render
      apply (word (b := 1) rfl).seq
      apply (nests_expr ht operand hn.2).deeper.seq
      exact (word rfl).seq (htarget.deeper.seq (word rfl))
  | .paren inner, hn => by
      simp only [Expr.nodes, List.forall_mem_cons] at hn
      unfold Expr.render
      exact .enclosed rfl (nests_expr ht inner hn.2) rfl
  | .parameter, _ => by
      rw [Expr.render]
      exact emitFragment (.word rfl)
  | .star table, hn => by
      have hnames := hn (.expr (.star table)) (by simp [Expr.nodes])
      have hstar : Balanced "*" := Nesting.leads_of_read rfl
      rw [Expr.render]
      apply emit
      apply balanced_qualifiedName
      rw [List.forall_mem_append, List.forall_mem_singleton]
      exact ⟨fun s hs => hnames s hs, hstar⟩

theorem nests_elements (ht : t.dialect.Bracketed) : ∀ e : Expr, (∀ n ∈ e.nodes, n.Bracketed) →
    ∀ r ∈ e.elements t, r.Nests 0 0
  | .tuple items, hn => by
      simp only [Expr.nodes, List.forall_mem_cons] at hn
      rw [Expr.elements]
      exact nests_exprs ht items hn.2
  | .literal _, _ | .column _ _, _ | .binary _ _ _, _ | .unary _ _, _ | .like _, _ | .call _, _
  | .window _ _ _, _ | .subquery _, _ | .isNull _ _, _ | .distinctFrom _ _ _, _
  | .inList _ _ _, _ | .inQuery _ _ _, _ | .between _ _ _ _, _ | .caseOf _ _ _, _ | .cast _ _, _
  | .paren _, _ | .parameter, _ | .star _, _ => by simp [Expr.elements]

theorem nests_exprs (ht : t.dialect.Bracketed) : ∀ es : List Expr,
    (∀ n ∈ Expr.nodesOf es, n.Bracketed) → ∀ r ∈ Expr.renderings t es, r.Nests 0 0
  | [], _ => by simp [Expr.renderings]
  | e :: rest, hn => by
      simp only [Expr.nodesOf, List.forall_mem_append] at hn
      rw [Expr.renderings, List.forall_mem_cons]
      exact ⟨nests_expr ht e hn.1, nests_exprs ht rest hn.2⟩

theorem nests_expr? (ht : t.dialect.Bracketed) : ∀ o : Option Expr,
    (∀ n ∈ Expr.nodes? o, n.Bracketed) → ∀ r ∈ Expr.rendering? t o, r.Nests 0 0
  | none, _ => by simp [Expr.rendering?]
  | some e, hn => by
      rw [Expr.nodes?] at hn
      rw [Expr.rendering?]
      rintro _ ⟨rfl⟩
      exact nests_expr ht e hn

theorem nests_rows (ht : t.dialect.Bracketed) (width : Nat) : ∀ items : List Expr,
    (∀ n ∈ Expr.nodesOf items, n.Bracketed) →
    (Expr.rows t width items).NestsWith 0 0 fun rows => ∀ row ∈ rows, ∀ f ∈ row, f.Balanced
  | [], _ => by
      rw [Expr.rows]
      exact .pure (by simp)
  | item :: rest, hn => by
      simp only [Expr.nodesOf, List.forall_mem_append] at hn
      unfold Expr.rows
      apply Rendering.NestsWith.bind (P := fun row => ∀ f ∈ row, f.Balanced)
      · split
        · exact row_nests width (nests_elements ht item hn.1)
        · exact .fail _
      · intro row hrow
        apply (nests_rows ht width rest hn.2).bind
        intro rows hrows
        exact .pure (List.forall_mem_cons.mpr ⟨hrow, hrows⟩)

theorem nests_branches (ht : t.dialect.Bracketed) : ∀ bs : List CaseBranch,
    (∀ n ∈ CaseBranch.nodesOf bs, n.Bracketed) → ∀ r ∈ CaseBranch.renderings t bs, r.Nests 0 0
  | [], _ => by simp [CaseBranch.renderings]
  | ⟨condition, result⟩ :: rest, hn => by
      simp only [CaseBranch.nodesOf, List.forall_mem_append] at hn
      rw [CaseBranch.renderings, List.forall_mem_cons]
      refine ⟨?_, nests_branches ht rest hn.2⟩
      apply (word rfl).seq
      apply (nests_expr ht condition hn.1.1).seq
      exact (word rfl).seq (nests_expr ht result hn.1.2)

theorem nests_match (ht : t.dialect.Bracketed) : ∀ l : Like, (∀ n ∈ l.nodes, n.Bracketed) →
    (l.render t).Nests 0 0
  | ⟨subject, pattern, escape, negated, caseSensitive⟩, hn => by
      simp only [Like.nodes, List.forall_mem_append] at hn
      unfold Like.render
      exact like_nests (nests_expr ht subject hn.1.1) (nests_expr ht pattern hn.1.2)
        (nests_expr? ht escape hn.2)

theorem nests_function (ht : t.dialect.Bracketed) : ∀ c : Call, (∀ n ∈ c.nodes, n.Bracketed) →
    (c.render t).Nests 0 0
  | ⟨name, args, distinct, filter⟩, hn => by
      simp only [Call.nodes, List.forall_mem_append] at hn
      have hargs := nests_exprs ht args hn.1
      unfold Call.render
      apply call_nests ht.functions
      · intro arg harg
        exact hargs arg.2 (List.of_mem_zip harg).2
      · exact nests_expr? ht filter hn.2

theorem nests_orders (ht : t.dialect.Bracketed) : ∀ items : List OrderItem,
    (∀ n ∈ OrderItem.nodesOf items, n.Bracketed) → ∀ r ∈ OrderItem.renderings t items, r.Nests 0 0
  | [], _ => by simp [OrderItem.renderings]
  | ⟨expr, direction⟩ :: rest, hn => by
      simp only [OrderItem.nodesOf, List.forall_mem_append] at hn
      rw [OrderItem.renderings, List.forall_mem_cons]
      refine ⟨?_, nests_orders ht rest hn.2⟩
      exact (nests_expr ht expr hn.1).seq (.when (word (by cases direction <;> rfl)))

theorem nests_tableRef (ht : t.dialect.Bracketed) : ∀ r : TableRef, (∀ n ∈ r.nodes, n.Bracketed) →
    (r.render t).Nests 0 0
  | .table table, hn => by
      rw [TableRef.render]
      exact namedTable_nests (hn (.tableRef (.table table)) (by simp [TableRef.nodes]))
  | .query query correlation, hn => by
      simp only [TableRef.nodes, List.forall_mem_cons] at hn
      have hname : Balanced correlation := hn.1 correlation (by simp [Node.names, Node.texts])
      unfold TableRef.render
      apply (word (b := 1) rfl).seq
      apply (nests_select ht query hn.2).deeper.seq
      exact (word rfl).seq (emit hname)
  | .join left kind lateral right condition, hn => by
      simp only [TableRef.nodes, List.forall_mem_cons, List.forall_mem_append] at hn
      unfold TableRef.render
      exact join_nests (nests_tableRef ht left hn.2.1.1) (nests_tableRef ht right hn.2.1.2)
        (nests_expr? ht condition hn.2.2)

theorem nests_tableRef? (ht : t.dialect.Bracketed) : ∀ o : Option TableRef,
    (∀ n ∈ TableRef.nodes? o, n.Bracketed) → ∀ r ∈ TableRef.rendering? t o, r.Nests 0 0
  | none, _ => by simp [TableRef.rendering?]
  | some table, hn => by
      rw [TableRef.nodes?] at hn
      rw [TableRef.rendering?]
      rintro _ ⟨rfl⟩
      exact nests_tableRef ht table hn

theorem nests_commonTables (ht : t.dialect.Bracketed) : ∀ ctes : List Cte,
    (∀ n ∈ Cte.nodesOf ctes, n.Bracketed) → ∀ r ∈ Cte.renderings t ctes, r.Nests 0 0
  | [], _ => by simp [Cte.renderings]
  | ⟨name, columns, query, materialization⟩ :: rest, hn => by
      simp only [Cte.nodesOf, List.forall_mem_cons, List.forall_mem_append] at hn
      obtain ⟨hnames, hquery, hrest⟩ := hn
      obtain ⟨hname, hcolumns⟩ : Balanced name ∧ ∀ c ∈ columns, Balanced c :=
        List.forall_mem_cons.mp hnames
      rw [Cte.renderings, List.forall_mem_cons]
      refine ⟨?_, nests_commonTables ht rest hrest⟩
      exact cte_nests hname hcolumns (nests_select ht query hquery)

theorem nests_with (ht : t.dialect.Bracketed) (mutation : Bool) : ∀ w : With,
    (∀ n ∈ w.nodes mutation, n.Bracketed) → (w.render t mutation).Nests 0 0
  | ⟨recursive, ctes⟩, hn => by
      simp only [With.nodes, List.forall_mem_cons] at hn
      unfold With.render
      exact ctes_nests (nests_commonTables ht ctes hn.2)

theorem nests_with? (ht : t.dialect.Bracketed) (mutation : Bool) : ∀ o : Option With,
    (∀ n ∈ With.nodes? mutation o, n.Bracketed) →
    ∀ r ∈ With.rendering? t mutation o, r.Nests 0 0
  | none, _ => by simp [With.rendering?]
  | some w, hn => by
      rw [With.nodes?] at hn
      rw [With.rendering?]
      rintro _ ⟨rfl⟩
      exact nests_with ht mutation w hn

theorem nests_items (ht : t.dialect.Bracketed) : ∀ items : List SelectItem,
    (∀ n ∈ SelectItem.nodesOf items, n.Bracketed) → ∀ r ∈ SelectItem.renderings t items, r.Nests 0 0
  | [], _ => by simp [SelectItem.renderings]
  | ⟨expr, label⟩ :: rest, hn => by
      simp only [SelectItem.nodesOf, List.forall_mem_cons, List.forall_mem_append] at hn
      obtain ⟨hlabel, hexpr, hrest⟩ := hn
      rw [SelectItem.renderings, List.forall_mem_cons]
      refine ⟨?_, nests_items ht rest hrest⟩
      apply (nests_expr ht expr hexpr).seq
      exact alias_nests rfl fun s hs => hlabel s (by simpa [Node.names, Node.texts] using hs)

theorem nests_select (ht : t.dialect.Bracketed) : ∀ s : Select, (∀ n ∈ s.nodes, n.Bracketed) →
    (s.render t).Nests 0 0
  | ⟨withClause, distinct, columns, source, condition, groupBy, having, orderBy, limit, offset,
      lock⟩, hn => by
      simp only [Select.nodes, List.forall_mem_append] at hn
      obtain ⟨⟨⟨⟨⟨⟨⟨⟨⟨hwith, hcolumns⟩, hsource⟩, hcondition⟩, hgroup⟩, hhaving⟩, horder⟩, hlimit⟩,
        hoffset⟩, _⟩ := hn
      have hlock : ∀ r ∈ lock.map t.lock, r.Nests 0 0 := by
        intro r hr
        obtain ⟨request, _, rfl⟩ := Option.map_eq_some_iff.mp hr
        exact t.lock_nests request
      unfold Select.render
      split
      next => exact .fail _
      next =>
        apply (Rendering.NestsWith.optional rfl (nests_with? ht false withClause hwith)).seq
        apply (word rfl).seq
        apply (Rendering.NestsWith.when (word rfl)).seq
        apply (Rendering.NestsWith.separated rfl (nests_items ht columns hcolumns)).seq
        apply (Rendering.NestsWith.optional rfl (nests_tableRef? ht source hsource)).seq
        apply (Rendering.NestsWith.optional rfl (nests_expr? ht condition hcondition)).seq
        apply (Rendering.NestsWith.listed rfl (nests_exprs ht groupBy hgroup)).seq
        apply (Rendering.NestsWith.optional rfl (nests_expr? ht having hhaving)).seq
        apply (Rendering.NestsWith.listed rfl (nests_orders ht orderBy horder)).seq
        apply (Rendering.NestsWith.optional rfl (nests_expr? ht limit hlimit)).seq
        apply (Rendering.NestsWith.optional rfl (nests_expr? ht offset hoffset)).seq
        exact .optional rfl hlock

end

end Translator

end SqlBackend
