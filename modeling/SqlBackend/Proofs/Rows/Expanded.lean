import SqlBackend.Proofs.Render.Operands
import SqlBackend.Render.Query
import SqlBackend.Statement.Node

/-! # Rows written element by element

What a backend without row constructors gets instead of rows, as a statement of
its own: comparisons of rows and memberships in lists of rows become conditions
on their elements, and everything else stays as it is. No tuple is left in such
a statement.
-/

namespace SqlBackend

/-- An expression that is written as nothing. -/
def Expr.blank : Expr := .column none ""

/-- Expressions with an operator between each two. -/
def Expr.chained (op : BinaryOp) : List Expr → Expr
  | [] => .blank
  | [e] => e
  | e :: next :: rest => .binary e op (Expr.chained op (next :: rest))

namespace Formula

mutual

/-- A formula over expressions is an expression. -/
def toExpr : Formula Expr → Expr
  | comparison op left right => .binary left op right
  | isNull operand => .isNull operand false
  | negation inner => .unary .not (toExpr inner)
  | all parts => .chained .and (toExprs parts)
  | any parts => .chained .or (toExprs parts)
  | group inner => .paren (toExpr inner)
  | isTrue condition negated =>
      .binary
        (.caseOf none [⟨toExpr condition, .literal (.integer 0)⟩] (some (.literal (.integer 1))))
        .eq (.literal (.integer (if negated then 1 else 0)))

def toExprs : List (Formula Expr) → List Expr
  | [] => []
  | part :: rest => toExpr part :: toExprs rest

end

end Formula

mutual

/-- The expression with its rows written element by element, where they are compared with
rows or looked up among rows. Of a tuple anywhere else only the first element stays, in
parentheses; with one element that is what the tuple is written as. -/
def Expr.expanded : Expr → Expr
  | .literal value => .literal value
  | .column table name => .column table name
  | .binary left op right =>
      if op.isComparison && left.isTuple && right.isTuple then
        (RowPredicate.comparison op (left.expandedElements.zip right.expandedElements)).toExpr
      else .binary left.expanded op right.expanded
  | .unary op operand => .unary op operand.expanded
  | .like predicate => .like predicate.expanded
  | .call call => .call call.expanded
  | .window call partition order =>
      .window call.expanded (Expr.expandedAll partition) (OrderItem.expandedAll order)
  | .subquery query => .subquery query.expanded
  | .tuple items => .paren ((Expr.expandedAll items).headD .blank)
  | .isNull operand negated => .isNull operand.expanded negated
  | .distinctFrom left right negated => .distinctFrom left.expanded right.expanded negated
  | .inList operand items negated =>
      if operand.isTuple && !items.isEmpty then
        (RowPredicate.member operand.expandedElements (Expr.expandedRows items) negated).toExpr
      else .inList operand.expanded (Expr.expandedAll items) negated
  | .inQuery operand query negated => .inQuery operand.expanded query.expanded negated
  | .between operand low high negated =>
      .between operand.expanded low.expanded high.expanded negated
  | .caseOf operand branches otherwise =>
      .caseOf (Expr.expanded? operand) (CaseBranch.expandedAll branches) (Expr.expanded? otherwise)
  | .cast operand target => .cast operand.expanded target
  | .paren inner => .paren inner.expanded
  | .parameter => .parameter
  | .star table => .star table

/-- The elements of a tuple. -/
def Expr.expandedElements : Expr → List Expr
  | .tuple items => Expr.expandedAll items
  | _ => []

def Expr.expandedAll : List Expr → List Expr
  | [] => []
  | e :: rest => e.expanded :: Expr.expandedAll rest

def Expr.expanded? : Option Expr → Option Expr
  | none => none
  | some e => some e.expanded

def Expr.expandedRows : List Expr → List (List Expr)
  | [] => []
  | item :: rest => item.expandedElements :: Expr.expandedRows rest

def CaseBranch.expandedAll : List CaseBranch → List CaseBranch
  | [] => []
  | ⟨condition, result⟩ :: rest =>
      ⟨condition.expanded, result.expanded⟩ :: CaseBranch.expandedAll rest

def Like.expanded : Like → Like
  | ⟨subject, pattern, escape, negated, caseSensitive⟩ =>
      ⟨subject.expanded, pattern.expanded, Expr.expanded? escape, negated, caseSensitive⟩

def Call.expanded : Call → Call
  | ⟨name, args, distinct, filter⟩ =>
      ⟨name, Expr.expandedAll args, distinct, Expr.expanded? filter⟩

def OrderItem.expandedAll : List OrderItem → List OrderItem
  | [] => []
  | ⟨expr, direction⟩ :: rest => ⟨expr.expanded, direction⟩ :: OrderItem.expandedAll rest

def TableRef.expanded : TableRef → TableRef
  | .table table => .table table
  | .query query correlation => .query query.expanded correlation
  | .join left kind lateral right condition =>
      .join left.expanded kind lateral right.expanded (Expr.expanded? condition)

def TableRef.expanded? : Option TableRef → Option TableRef
  | none => none
  | some table => some table.expanded

def Cte.expandedAll : List Cte → List Cte
  | [] => []
  | ⟨name, columns, query, materialization⟩ :: rest =>
      ⟨name, columns, query.expanded, materialization⟩ :: Cte.expandedAll rest

def With.expanded : With → With
  | ⟨recursive, ctes⟩ => ⟨recursive, Cte.expandedAll ctes⟩

def With.expanded? : Option With → Option With
  | none => none
  | some w => some w.expanded

def SelectItem.expandedAll : List SelectItem → List SelectItem
  | [] => []
  | ⟨expr, label⟩ :: rest => ⟨expr.expanded, label⟩ :: SelectItem.expandedAll rest

def Select.expanded : Select → Select
  | ⟨withClause, distinct, columns, source, condition, groupBy, having, orderBy, limit, offset,
      lock⟩ =>
      ⟨With.expanded? withClause, distinct, SelectItem.expandedAll columns,
        TableRef.expanded? source, Expr.expanded? condition, Expr.expandedAll groupBy,
        Expr.expanded? having, OrderItem.expandedAll orderBy, Expr.expanded? limit,
        Expr.expanded? offset, lock⟩

end

@[simp] theorem Expr.isEmpty_expandedAll (es : List Expr) :
    (Expr.expandedAll es).isEmpty = es.isEmpty := by
  cases es <;> rfl

@[simp] theorem SelectItem.isEmpty_expandedAll (items : List SelectItem) :
    (SelectItem.expandedAll items).isEmpty = items.isEmpty := by
  rcases items with _ | ⟨⟨_, _⟩, _⟩ <;> rfl

def InsertSource.expanded : InsertSource → InsertSource
  | .rows values => .rows (values.map Expr.expandedAll)
  | .query q => .query q.expanded
  | .defaults => .defaults

def Insert.expanded (i : Insert) : Insert where
  withClause := With.expanded? i.withClause
  target := i.target
  columns := i.columns
  values := i.values.expanded

def Assignment.expanded (a : Assignment) : Assignment where
  column := a.column
  value := a.value.expanded

def Update.expanded (u : Update) : Update where
  withClause := With.expanded? u.withClause
  target := u.target
  assignments := u.assignments.map Assignment.expanded
  sources := u.sources.map TableRef.expanded
  condition := Expr.expanded? u.condition

def Delete.expanded (d : Delete) : Delete where
  withClause := With.expanded? d.withClause
  target := d.target
  condition := Expr.expanded? d.condition

def Statement.expanded : Statement → Statement
  | .select query => .select query.expanded
  | .insert insertion => .insert insertion.expanded
  | .update change => .update change.expanded
  | .delete deletion => .delete deletion.expanded

mutual

/-- Tuples of two or more elements stand only where rows are compared with rows, looked up
among rows or looked up in a query: directly as an operand, neither in parentheses nor next to
an operand that is no tuple. -/
def Expr.rowsCompared : Expr → Bool
  | .literal _ => true
  | .column _ _ => true
  | .binary left op right =>
      if op.isComparison && left.isTuple && right.isTuple then
        left.elementsCompared && right.elementsCompared
      else left.rowsCompared && right.rowsCompared
  | .unary _ operand => operand.rowsCompared
  | .like predicate => predicate.rowsCompared
  | .call call => call.rowsCompared
  | .window call partition order =>
      call.rowsCompared && Expr.allCompared partition && OrderItem.allCompared order
  | .subquery query => query.rowsCompared
  | .tuple items => decide (items.length < 2) && Expr.allCompared items
  | .isNull operand _ => operand.rowsCompared
  | .distinctFrom left right _ => left.rowsCompared && right.rowsCompared
  | .inList operand items _ =>
      if operand.isTuple then operand.elementsCompared && Expr.rowElementsCompared items
      else operand.rowsCompared && Expr.allCompared items
  | .inQuery operand query _ => (operand.isTuple || operand.rowsCompared) && query.rowsCompared
  | .between operand low high _ => operand.rowsCompared && low.rowsCompared && high.rowsCompared
  | .caseOf operand branches otherwise =>
      Expr.rowsCompared? operand && CaseBranch.allCompared branches && Expr.rowsCompared? otherwise
  | .cast operand _ => operand.rowsCompared
  | .paren inner => inner.rowsCompared
  | .parameter => true
  | .star _ => true

/-- The elements of a tuple hold rows only where rows are compared. -/
def Expr.elementsCompared : Expr → Bool
  | .tuple items => Expr.allCompared items
  | _ => true

def Expr.allCompared : List Expr → Bool
  | [] => true
  | e :: rest => e.rowsCompared && Expr.allCompared rest

def Expr.rowsCompared? : Option Expr → Bool
  | none => true
  | some e => e.rowsCompared

def Expr.rowElementsCompared : List Expr → Bool
  | [] => true
  | item :: rest => item.elementsCompared && Expr.rowElementsCompared rest

def CaseBranch.allCompared : List CaseBranch → Bool
  | [] => true
  | ⟨condition, result⟩ :: rest =>
      condition.rowsCompared && result.rowsCompared && CaseBranch.allCompared rest

def Like.rowsCompared : Like → Bool
  | ⟨subject, pattern, escape, _, _⟩ =>
      subject.rowsCompared && pattern.rowsCompared && Expr.rowsCompared? escape

def Call.rowsCompared : Call → Bool
  | ⟨_, args, _, filter⟩ => Expr.allCompared args && Expr.rowsCompared? filter

def OrderItem.allCompared : List OrderItem → Bool
  | [] => true
  | ⟨expr, _⟩ :: rest => expr.rowsCompared && OrderItem.allCompared rest

def TableRef.rowsCompared : TableRef → Bool
  | .table _ => true
  | .query query _ => query.rowsCompared
  | .join left _ _ right condition =>
      left.rowsCompared && right.rowsCompared && Expr.rowsCompared? condition

def TableRef.rowsCompared? : Option TableRef → Bool
  | none => true
  | some table => table.rowsCompared

def Cte.allCompared : List Cte → Bool
  | [] => true
  | ⟨_, _, query, _⟩ :: rest => query.rowsCompared && Cte.allCompared rest

def With.rowsCompared : With → Bool
  | ⟨_, ctes⟩ => Cte.allCompared ctes

def With.rowsCompared? : Option With → Bool
  | none => true
  | some w => w.rowsCompared

def SelectItem.allCompared : List SelectItem → Bool
  | [] => true
  | ⟨expr, _⟩ :: rest => expr.rowsCompared && SelectItem.allCompared rest

def Select.rowsCompared : Select → Bool
  | ⟨withClause, _, columns, source, condition, groupBy, having, orderBy, limit, offset, _⟩ =>
      With.rowsCompared? withClause && SelectItem.allCompared columns &&
        TableRef.rowsCompared? source && Expr.rowsCompared? condition &&
        Expr.allCompared groupBy && Expr.rowsCompared? having && OrderItem.allCompared orderBy &&
        Expr.rowsCompared? limit && Expr.rowsCompared? offset

end

def InsertSource.rowsCompared : InsertSource → Bool
  | .rows values => values.all Expr.allCompared
  | .query q => q.rowsCompared
  | .defaults => true

/-- Rows stand only where they are compared, looked up among rows or looked up in a query. -/
def Statement.rowsCompared : Statement → Bool
  | .select query => query.rowsCompared
  | .insert i => With.rowsCompared? i.withClause && i.values.rowsCompared
  | .update u =>
      With.rowsCompared? u.withClause && u.assignments.all (·.value.rowsCompared) &&
        u.sources.all TableRef.rowsCompared && Expr.rowsCompared? u.condition
  | .delete d => With.rowsCompared? d.withClause && Expr.rowsCompared? d.condition

def Node.isTuple : Node → Bool
  | expr e => e.isTuple
  | _ => false

/-- None of the nodes is a tuple. -/
def Node.Untupled (nodes : List Node) : Prop := ∀ n ∈ nodes, n.isTuple = false

namespace Node

variable {n : Node} {first second : List Node}

@[simp] theorem untupled_nil : Untupled [] := by simp [Untupled]

@[simp] theorem untupled_cons : Untupled (n :: first) ↔ n.isTuple = false ∧ Untupled first :=
  List.forall_mem_cons

@[simp] theorem untupled_append :
    Untupled (first ++ second) ↔ Untupled first ∧ Untupled second :=
  List.forall_mem_append

theorem untupled_flatMap {ι κ : Type} {items : List ι} {g : ι → κ} {nodes : κ → List Node}
    (h : ∀ i ∈ items, Untupled (nodes (g i))) : Untupled ((items.map g).flatMap nodes) := by
  induction items with
  | nil => exact untupled_nil
  | cons i rest ih =>
      obtain ⟨hi, hrest⟩ := List.forall_mem_cons.mp h
      exact untupled_append.mpr ⟨hi, ih hrest⟩

end Node

open Node (Untupled)

theorem Expr.isTuple_of_untupled {e : Expr} (h : Untupled e.nodes) : e.isTuple = false := by
  cases e with
  | tuple items =>
      rw [nodes, Node.untupled_cons] at h
      exact h.1
  | _ => rfl

theorem Expr.nodesOf_untupled {es : List Expr} (h : ∀ e ∈ es, Untupled e.nodes) :
    Untupled (Expr.nodesOf es) := by
  induction es with
  | nil => simp [nodesOf]
  | cons e rest ih =>
      obtain ⟨he, hrest⟩ := List.forall_mem_cons.mp h
      rw [nodesOf, Node.untupled_append]
      exact ⟨he, ih hrest⟩

theorem Expr.chained_untupled {op : BinaryOp} {es : List Expr} (h : ∀ e ∈ es, Untupled e.nodes) :
    Untupled (Expr.chained op es).nodes := by
  induction es with
  | nil => simp [chained, blank, nodes, Node.isTuple, isTuple]
  | cons e rest ih =>
      obtain ⟨he, hrest⟩ := List.forall_mem_cons.mp h
      cases rest with
      | nil => exact he
      | cons next rest =>
          rw [chained, nodes, Node.untupled_cons, Node.untupled_append]
          exact ⟨rfl, he, ih hrest⟩

namespace Formula

mutual

/-- A formula over expressions without tuples has none. -/
theorem toExpr_untupled : ∀ f : Formula Expr, f.Over (fun e => Untupled e.nodes) →
    Untupled f.toExpr.nodes
  | comparison op left right, h => by
      rw [toExpr, Expr.nodes, Node.untupled_cons, Node.untupled_append]
      exact ⟨rfl, h⟩
  | isNull operand, h => by
      rw [toExpr, Expr.nodes, Node.untupled_cons]
      exact ⟨rfl, h⟩
  | negation inner, h => by
      rw [toExpr, Expr.nodes, Node.untupled_cons]
      exact ⟨rfl, toExpr_untupled inner h⟩
  | all parts, h => by
      rw [toExpr]
      exact Expr.chained_untupled (toExprs_untupled parts h)
  | any parts, h => by
      rw [toExpr]
      exact Expr.chained_untupled (toExprs_untupled parts h)
  | group inner, h => by
      rw [toExpr, Expr.nodes, Node.untupled_cons]
      exact ⟨rfl, toExpr_untupled inner h⟩
  | isTrue condition negated, h => by
      have hcondition := toExpr_untupled condition h
      simp [toExpr, Expr.nodes, CaseBranch.nodesOf, Expr.nodes?, Node.isTuple, Expr.isTuple,
        hcondition]

theorem toExprs_untupled : ∀ parts : List (Formula Expr),
    OverAll (fun e => Untupled e.nodes) parts → ∀ e ∈ toExprs parts, Untupled e.nodes
  | [], _ => by simp [toExprs]
  | part :: rest, h => by
      rw [toExprs, List.forall_mem_cons]
      exact ⟨toExpr_untupled part h.1, toExprs_untupled rest h.2⟩

end

end Formula

mutual

theorem Expr.expanded_untupled : ∀ e : Expr, Untupled e.expanded.nodes
  | .literal _ | .column _ _ | .parameter | .star _ => by
      simp [Expr.expanded, Expr.nodes, Node.isTuple, Expr.isTuple]
  | .binary left op right => by
      rw [Expr.expanded]
      split
      · refine Formula.toExpr_untupled _ (RowPredicate.comparison_over ?_)
        exact RowPredicate.zip_over left.expandedElements_untupled right.expandedElements_untupled
      · rw [Expr.nodes, Node.untupled_cons, Node.untupled_append]
        exact ⟨rfl, left.expanded_untupled, right.expanded_untupled⟩
  | .unary _ operand | .isNull operand _ | .cast operand _ | .paren operand => by
      rw [Expr.expanded, Expr.nodes, Node.untupled_cons]
      exact ⟨rfl, operand.expanded_untupled⟩
  | .like predicate => by
      rw [Expr.expanded, Expr.nodes, Node.untupled_cons]
      exact ⟨rfl, predicate.expanded_untupled⟩
  | .call call => by
      rw [Expr.expanded, Expr.nodes, Node.untupled_cons]
      exact ⟨rfl, call.expanded_untupled⟩
  | .window call partition order => by
      rw [Expr.expanded, Expr.nodes, Node.untupled_cons, Node.untupled_append,
        Node.untupled_append]
      exact ⟨rfl, ⟨call.expanded_untupled, Expr.nodesOf_untupled (Expr.expandedAll_untupled _)⟩,
        OrderItem.expandedAll_untupled order⟩
  | .subquery query => by
      rw [Expr.expanded, Expr.nodes, Node.untupled_cons]
      exact ⟨rfl, query.expanded_untupled⟩
  | .tuple items => by
      rw [Expr.expanded, Expr.nodes, Node.untupled_cons]
      refine ⟨rfl, ?_⟩
      cases items with
      | nil => simp [Expr.expandedAll, Expr.blank, Expr.nodes, Node.isTuple, Expr.isTuple]
      | cons e rest =>
          rw [Expr.expandedAll]
          exact e.expanded_untupled
  | .distinctFrom left right _ => by
      rw [Expr.expanded, Expr.nodes, Node.untupled_cons, Node.untupled_append]
      exact ⟨rfl, left.expanded_untupled, right.expanded_untupled⟩
  | .inList operand items negated => by
      rw [Expr.expanded]
      split
      · refine Formula.toExpr_untupled _ (RowPredicate.member_over ?_ ?_)
        · exact operand.expandedElements_untupled
        · exact Expr.expandedRows_untupled items
      · rw [Expr.nodes, Node.untupled_cons, Node.untupled_append]
        exact ⟨rfl, operand.expanded_untupled,
          Expr.nodesOf_untupled (Expr.expandedAll_untupled items)⟩
  | .inQuery operand query _ => by
      rw [Expr.expanded, Expr.nodes, Node.untupled_cons, Node.untupled_append]
      exact ⟨rfl, operand.expanded_untupled, query.expanded_untupled⟩
  | .between operand low high _ => by
      rw [Expr.expanded, Expr.nodes, Node.untupled_cons, Node.untupled_append,
        Node.untupled_append]
      exact ⟨rfl, ⟨operand.expanded_untupled, low.expanded_untupled⟩, high.expanded_untupled⟩
  | .caseOf operand branches otherwise => by
      rw [Expr.expanded, Expr.nodes, Node.untupled_cons, Node.untupled_append,
        Node.untupled_append]
      exact ⟨rfl, ⟨Expr.expanded?_untupled operand, CaseBranch.expandedAll_untupled branches⟩,
        Expr.expanded?_untupled otherwise⟩

theorem Expr.expandedElements_untupled : ∀ e : Expr, ∀ x ∈ e.expandedElements, Untupled x.nodes
  | .tuple items => by
      rw [Expr.expandedElements]
      exact Expr.expandedAll_untupled items
  | .literal _ | .column _ _ | .binary _ _ _ | .unary _ _ | .like _ | .call _ | .window _ _ _
  | .subquery _ | .isNull _ _ | .distinctFrom _ _ _ | .inList _ _ _ | .inQuery _ _ _
  | .between _ _ _ _ | .caseOf _ _ _ | .cast _ _ | .paren _ | .parameter | .star _ => by
      simp [Expr.expandedElements]

theorem Expr.expandedAll_untupled : ∀ es : List Expr,
    ∀ x ∈ Expr.expandedAll es, Untupled x.nodes
  | [] => by simp [Expr.expandedAll]
  | e :: rest => by
      rw [Expr.expandedAll, List.forall_mem_cons]
      exact ⟨e.expanded_untupled, Expr.expandedAll_untupled rest⟩

theorem Expr.expanded?_untupled : ∀ o : Option Expr, Untupled (Expr.nodes? (Expr.expanded? o))
  | none => by simp [Expr.expanded?, Expr.nodes?]
  | some e => by
      rw [Expr.expanded?, Expr.nodes?]
      exact e.expanded_untupled

theorem Expr.expandedRows_untupled : ∀ items : List Expr,
    ∀ row ∈ Expr.expandedRows items, ∀ x ∈ row, Untupled x.nodes
  | [] => by simp [Expr.expandedRows]
  | item :: rest => by
      rw [Expr.expandedRows, List.forall_mem_cons]
      exact ⟨item.expandedElements_untupled, Expr.expandedRows_untupled rest⟩

theorem CaseBranch.expandedAll_untupled : ∀ bs : List CaseBranch,
    Untupled (CaseBranch.nodesOf (CaseBranch.expandedAll bs))
  | [] => by simp [CaseBranch.expandedAll, CaseBranch.nodesOf]
  | ⟨condition, result⟩ :: rest => by
      rw [CaseBranch.expandedAll, CaseBranch.nodesOf, Node.untupled_append, Node.untupled_append]
      exact ⟨⟨condition.expanded_untupled, result.expanded_untupled⟩,
        CaseBranch.expandedAll_untupled rest⟩

theorem Like.expanded_untupled : ∀ l : Like, Untupled l.expanded.nodes
  | ⟨subject, pattern, escape, _, _⟩ => by
      rw [Like.expanded, Like.nodes, Node.untupled_append, Node.untupled_append]
      exact ⟨⟨subject.expanded_untupled, pattern.expanded_untupled⟩,
        Expr.expanded?_untupled escape⟩

theorem Call.expanded_untupled : ∀ c : Call, Untupled c.expanded.nodes
  | ⟨_, args, _, filter⟩ => by
      rw [Call.expanded, Call.nodes, Node.untupled_append]
      exact ⟨Expr.nodesOf_untupled (Expr.expandedAll_untupled args),
        Expr.expanded?_untupled filter⟩

theorem OrderItem.expandedAll_untupled : ∀ items : List OrderItem,
    Untupled (OrderItem.nodesOf (OrderItem.expandedAll items))
  | [] => by simp [OrderItem.expandedAll, OrderItem.nodesOf]
  | ⟨expr, _⟩ :: rest => by
      rw [OrderItem.expandedAll, OrderItem.nodesOf, Node.untupled_append]
      exact ⟨expr.expanded_untupled, OrderItem.expandedAll_untupled rest⟩

theorem TableRef.expanded_untupled : ∀ r : TableRef, Untupled r.expanded.nodes
  | .table _ => by simp [TableRef.expanded, TableRef.nodes, Node.isTuple]
  | .query query _ => by
      rw [TableRef.expanded, TableRef.nodes, Node.untupled_cons]
      exact ⟨rfl, query.expanded_untupled⟩
  | .join left _ _ right condition => by
      rw [TableRef.expanded, TableRef.nodes, Node.untupled_cons, Node.untupled_append,
        Node.untupled_append]
      exact ⟨rfl, ⟨left.expanded_untupled, right.expanded_untupled⟩,
        Expr.expanded?_untupled condition⟩

theorem TableRef.expanded?_untupled : ∀ o : Option TableRef,
    Untupled (TableRef.nodes? (TableRef.expanded? o))
  | none => by simp [TableRef.expanded?, TableRef.nodes?]
  | some table => by
      rw [TableRef.expanded?, TableRef.nodes?]
      exact table.expanded_untupled

theorem Cte.expandedAll_untupled : ∀ ctes : List Cte, Untupled (Cte.nodesOf (Cte.expandedAll ctes))
  | [] => by simp [Cte.expandedAll, Cte.nodesOf]
  | ⟨_, _, query, _⟩ :: rest => by
      rw [Cte.expandedAll, Cte.nodesOf, Node.untupled_cons, Node.untupled_append]
      exact ⟨rfl, query.expanded_untupled, Cte.expandedAll_untupled rest⟩

theorem With.expanded_untupled (mutation : Bool) : ∀ w : With,
    Untupled (w.expanded.nodes mutation)
  | ⟨_, ctes⟩ => by
      rw [With.expanded, With.nodes, Node.untupled_cons]
      exact ⟨rfl, Cte.expandedAll_untupled ctes⟩

theorem With.expanded?_untupled (mutation : Bool) : ∀ o : Option With,
    Untupled (With.nodes? mutation (With.expanded? o))
  | none => by simp [With.expanded?, With.nodes?]
  | some w => by
      rw [With.expanded?, With.nodes?]
      exact w.expanded_untupled mutation

theorem SelectItem.expandedAll_untupled : ∀ items : List SelectItem,
    Untupled (SelectItem.nodesOf (SelectItem.expandedAll items))
  | [] => by simp [SelectItem.expandedAll, SelectItem.nodesOf]
  | ⟨expr, _⟩ :: rest => by
      rw [SelectItem.expandedAll, SelectItem.nodesOf, Node.untupled_cons, Node.untupled_append]
      exact ⟨rfl, expr.expanded_untupled, SelectItem.expandedAll_untupled rest⟩

theorem Select.expanded_untupled : ∀ s : Select, Untupled s.expanded.nodes
  | ⟨withClause, _, columns, source, condition, groupBy, having, orderBy, limit, offset, lock⟩ => by
      have hlock : Untupled (lock.toList.map .lock) := by
        cases lock <;> simp [Node.isTuple]
      simp only [Select.expanded, Select.nodes, Node.untupled_append]
      refine ⟨⟨⟨⟨⟨⟨⟨⟨⟨?_, ?_⟩, ?_⟩, ?_⟩, ?_⟩, ?_⟩, ?_⟩, ?_⟩, ?_⟩, hlock⟩
      · exact With.expanded?_untupled false withClause
      · exact SelectItem.expandedAll_untupled columns
      · exact TableRef.expanded?_untupled source
      · exact Expr.expanded?_untupled condition
      · exact Expr.nodesOf_untupled (Expr.expandedAll_untupled groupBy)
      · exact Expr.expanded?_untupled having
      · exact OrderItem.expandedAll_untupled orderBy
      · exact Expr.expanded?_untupled limit
      · exact Expr.expanded?_untupled offset

end

/-- No tuple is left in an expanded statement, not even in what some rules leave out. -/
theorem Statement.expanded_untupled (s : Statement) : Untupled (s.expanded.nodes .standard) := by
  cases s with
  | select query => exact query.expanded_untupled
  | insert i =>
      simp only [expanded, nodes, Insert.nodes, Insert.expanded, Node.untupled_append,
        Node.untupled_cons]
      refine ⟨With.expanded?_untupled true _, rfl, rfl, ?_⟩
      cases i.values with
      | rows values =>
          exact Node.untupled_flatMap fun row _ =>
            Expr.nodesOf_untupled (Expr.expandedAll_untupled row)
      | query q => exact q.expanded_untupled
      | defaults => exact Node.untupled_nil
  | update u =>
      simp only [expanded, nodes, Update.nodes, Update.expanded, Update.sourceNodes,
        Node.untupled_append, Node.untupled_cons]
      refine ⟨With.expanded?_untupled true _, rfl, ⟨?_, rfl, ?_⟩, Expr.expanded?_untupled _⟩
      · refine Node.untupled_flatMap fun a _ => ?_
        rw [Assignment.nodes, Node.untupled_cons]
        exact ⟨rfl, a.value.expanded_untupled⟩
      · exact Node.untupled_flatMap fun table _ => table.expanded_untupled
  | delete d =>
      simp only [expanded, nodes, Delete.nodes, Delete.expanded, Node.untupled_append,
        Node.untupled_cons]
      exact ⟨With.expanded?_untupled true _, rfl, Expr.expanded?_untupled _⟩

end SqlBackend
