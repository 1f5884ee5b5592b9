import SqlBackend.Render.Clause

/-! # Queries

Queries and expressions contain each other, so they are rendered together.
Every part is rendered by itself and then put in its place; a translator's
features and style matter only where a clause is put together.
-/

namespace SqlBackend

open Rendering (emit fail)

mutual

def Expr.render (t : Translator) : Expr → Rendering Unit
  | .literal value => emit value.text
  | .column table name => emit (qualifiedName table name)
  | .binary left op right =>
      if op.isComparison && left.isTuple && right.isTuple then
        t.rowComparison op (left.elements t) (right.elements t)
      else do
        left.render t
        emit (" " ++ op.text ++ " ")
        right.render t
  | .unary op operand => do
      emit op.text
      operand.render t
  | .like predicate => predicate.render t
  | .call call => call.render t
  | .window call partition order => do
      call.render t
      t.window (Expr.renderings t partition) (OrderItem.renderings t order)
  | .subquery query => do
      emit "("
      query.render t
      emit ")"
  | .tuple items => do
      emit "("
      .separated ", " (Expr.renderings t items)
      emit ")"
  | .isNull operand negated => do
      operand.render t
      emit (if negated then " is not null" else " is null")
  | .distinctFrom left right negated => t.distinctFrom (left.render t) (right.render t) negated
  | .inList operand items negated =>
      if items.isEmpty then emit (Translator.emptyMember negated)
      else if operand.isTuple && !t.supports .rowConstructor then
        let elements := operand.elements t
        Translator.rowMember elements (Expr.rows t elements.length items) negated
      else do
        operand.render t
        emit (Translator.memberWords negated)
        .separated ", " (Expr.renderings t items)
        emit ")"
  | .inQuery operand query negated => do
      .when operand.isTuple (t.require .rowInSubquery)
      operand.render t
      emit (Translator.memberWords negated)
      query.render t
      emit ")"
  | .between operand low high negated => do
      operand.render t
      emit (if negated then " not between " else " between ")
      low.render t
      emit " and "
      high.render t
  | .caseOf operand branches otherwise =>
      Translator.caseOf (Expr.rendering? t operand) (CaseBranch.renderings t branches)
        (Expr.rendering? t otherwise)
  | .cast operand target => do
      emit "cast("
      operand.render t
      emit " as "
      emit (t.dialect.types.castSpelling target)
      emit ")"
  | .paren inner => do
      emit "("
      inner.render t
      emit ")"
  | .parameter => .emitFragment ⟨Dialect.placeholder, 1⟩
  | .star table => emit (qualifiedName table "*")

/-- The elements of a tuple, each by itself. -/
def Expr.elements (t : Translator) : Expr → List (Rendering Unit)
  | .tuple items => Expr.renderings t items
  | _ => []

def Expr.renderings (t : Translator) : List Expr → List (Rendering Unit)
  | [] => []
  | e :: rest => e.render t :: Expr.renderings t rest

def Expr.rendering? (t : Translator) : Option Expr → Option (Rendering Unit)
  | none => none
  | some e => some (e.render t)

/-- The rows of a list that a row of `width` elements is looked up in. -/
def Expr.rows (t : Translator) (width : Nat) : List Expr → Rendering (List (List Fragment))
  | [] => pure []
  | item :: rest => do
      let row ← (if item.isTuple then Translator.row width (item.elements t)
        else fail (.illegalArgument .itemNotTuple) : Rendering (List Fragment))
      return row :: (← Expr.rows t width rest)

def CaseBranch.renderings (t : Translator) : List CaseBranch → List (Rendering Unit)
  | [] => []
  | ⟨condition, result⟩ :: rest =>
      (do
        emit " when "
        condition.render t
        emit " then "
        result.render t) :: CaseBranch.renderings t rest

def Like.render (t : Translator) : Like → Rendering Unit
  | ⟨subject, pattern, escape, negated, caseSensitive⟩ =>
      t.like (subject.render t) pattern (pattern.render t) (Expr.rendering? t escape) negated
        caseSensitive

def Call.render (t : Translator) : Call → Rendering Unit
  | ⟨name, args, distinct, filter⟩ =>
      t.call name (args.zip (Expr.renderings t args)) distinct (Expr.rendering? t filter)

def OrderItem.renderings (t : Translator) : List OrderItem → List (Rendering Unit)
  | [] => []
  | ⟨expr, direction⟩ :: rest =>
      (do
        expr.render t
        .when (direction ≠ .implied) (emit (" " ++ direction.text))) :: OrderItem.renderings t rest

def TableRef.render (t : Translator) : TableRef → Rendering Unit
  | .table table => Translator.namedTable table
  | .query query correlation => do
      emit "("
      query.render t
      emit ") "
      emit correlation
  | .join left kind lateral right condition =>
      t.join (left.render t) kind lateral (right.render t) (Expr.rendering? t condition)

def TableRef.rendering? (t : Translator) : Option TableRef → Option (Rendering Unit)
  | none => none
  | some table => some (table.render t)

def Cte.renderings (t : Translator) : List Cte → List (Rendering Unit)
  | [] => []
  | ⟨name, columns, query, materialization⟩ :: rest =>
      t.cte name columns materialization (query.render t) :: Cte.renderings t rest

/-- The common table expressions before a query, or with `mutation` before a
statement that changes a table. -/
def With.render (t : Translator) (mutation : Bool) : With → Rendering Unit
  | ⟨recursive, ctes⟩ => t.ctes mutation recursive (Cte.renderings t ctes)

def With.rendering? (t : Translator) (mutation : Bool) : Option With → Option (Rendering Unit)
  | none => none
  | some w => some (w.render t mutation)

def SelectItem.renderings (t : Translator) : List SelectItem → List (Rendering Unit)
  | [] => []
  | ⟨expr, label⟩ :: rest =>
      (do
        expr.render t
        .optional " as " (label.map emit)) :: SelectItem.renderings t rest

def Select.render (t : Translator) : Select → Rendering Unit
  | ⟨withClause, distinct, columns, source, condition, groupBy, having, orderBy, limit, offset,
      lock⟩ =>
      if columns.isEmpty then fail (.illegalArgument .selectWithoutColumns)
      else do
        .optional "" (With.rendering? t false withClause)
        emit "select "
        .when distinct (emit "distinct ")
        .separated ", " (SelectItem.renderings t columns)
        .optional " from " (TableRef.rendering? t source)
        .optional " where " (Expr.rendering? t condition)
        .listed " group by " (Expr.renderings t groupBy)
        .optional " having " (Expr.rendering? t having)
        .listed " order by " (OrderItem.renderings t orderBy)
        .optional " limit " (Expr.rendering? t limit)
        .optional " offset " (Expr.rendering? t offset)
        .optional "" (lock.map t.lock)

end

theorem Expr.renderings_eq_map (t : Translator) (es : List Expr) :
    Expr.renderings t es = es.map (Expr.render t) := by
  induction es with
  | nil => rfl
  | cons e rest ih => rw [renderings, ih, List.map_cons]

@[simp] theorem Expr.length_renderings (t : Translator) (es : List Expr) :
    (Expr.renderings t es).length = es.length := by
  rw [renderings_eq_map, List.length_map]

/-- The pattern of a match with its escape character. -/
def Like.renderPattern (t : Translator) (l : Like) : Rendering Unit :=
  t.likePattern l.pattern (l.pattern.render t) (Expr.rendering? t l.escape)

/-- The escape character of a match. -/
def Like.renderEscape (t : Translator) (l : Like) : Rendering Unit :=
  Translator.escapeClause (Expr.rendering? t l.escape)

end SqlBackend
