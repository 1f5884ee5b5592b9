import SqlBackend.Dialect.Basic
import SqlBackend.Error
import SqlBackend.Statement.Basic

/-! # Nodes of a statement

All that a statement is made of, at any depth, in one list of nodes. A property
of whole statements, such as the names that occur in it or what it asks of the
backend, is a property of the single node and said of all nodes.
-/

namespace SqlBackend

/-- A place in a statement, with everything below it. -/
inductive Node where
  | text (text : String)
  | expr (e : Expr)
  | item (i : SelectItem)
  | tableRef (r : TableRef)
  | target (table : NamedTable)
  | columns (names : List String)
  | cte (c : Cte)
  | withClause (w : With) (mutation : Bool)
  /-- The further tables of an update. -/
  | sources (tables : List TableRef)
  | lock (request : LockRequest)

def NamedTable.texts (t : NamedTable) : List String :=
  t.schema.toList ++ t.name :: t.correlation.toList

/-- The names, aliases and contents of string literals that stand in the node
itself. The name of a called function is not written; its template is. -/
def Node.texts : Node → List String
  | text s => [s]
  | expr (.literal (.string value)) => [value]
  | expr (.column table name) => table.toList ++ [name]
  | expr (.star table) => table.toList
  | item i => i.label.toList
  | tableRef (.table t) => t.texts
  | tableRef (.query _ correlation) => [correlation]
  | target t => t.texts
  | columns names => names
  | cte c => c.name :: c.columns
  | _ => []

def LockTimeout.needs : LockTimeout → List Need
  | noWait => [.feature .noWait]
  | skipLocked => [.feature .skipLocked]
  | after _ => [.lockTimeout]
  | waitForever => []

/-- What the node itself asks of the backend and nothing can stand in for. -/
def Node.needs : Node → List Need
  | withClause w mutation =>
      (if mutation then [.feature .cteInMutation] else []) ++
        if w.recursive then [.feature .recursiveCte] else []
  | tableRef (.join _ _ true _ _) => [.feature .lateral]
  | expr (.window _ (_ :: _) _) => [.feature .partitionBy]
  | expr (.inQuery (.tuple _) _ _) => [.feature .rowInSubquery]
  | sources (_ :: _) => [.feature .fromInUpdate]
  | lock request => request.timeout.needs
  | _ => []

/-- Membership in a list without items. -/
def Node.isEmptyMembership : Node → Bool
  | expr (.inList _ [] _) => true
  | _ => false

mutual

def Expr.nodes : Expr → List Node
  | e@(.literal _) => [.expr e]
  | e@(.column _ _) => [.expr e]
  | e@(.binary left _ right) => .expr e :: (left.nodes ++ right.nodes)
  | e@(.unary _ operand) => .expr e :: operand.nodes
  | e@(.like predicate) => .expr e :: predicate.nodes
  | e@(.call call) => .expr e :: call.nodes
  | e@(.window call partition order) =>
      .expr e :: (call.nodes ++ Expr.nodesOf partition ++ OrderItem.nodesOf order)
  | e@(.subquery query) => .expr e :: query.nodes
  | e@(.tuple items) => .expr e :: Expr.nodesOf items
  | e@(.isNull operand _) => .expr e :: operand.nodes
  | e@(.distinctFrom left right _) => .expr e :: (left.nodes ++ right.nodes)
  | e@(.inList operand items _) => .expr e :: (operand.nodes ++ Expr.nodesOf items)
  | e@(.inQuery operand query _) => .expr e :: (operand.nodes ++ query.nodes)
  | e@(.between operand low high _) => .expr e :: (operand.nodes ++ low.nodes ++ high.nodes)
  | e@(.caseOf operand branches otherwise) =>
      .expr e :: (Expr.nodes? operand ++ CaseBranch.nodesOf branches ++ Expr.nodes? otherwise)
  | e@(.cast operand _) => .expr e :: operand.nodes
  | e@(.paren inner) => .expr e :: inner.nodes
  | e@(.parameter) => [.expr e]
  | e@(.star _) => [.expr e]

def Expr.nodesOf : List Expr → List Node
  | [] => []
  | e :: rest => e.nodes ++ Expr.nodesOf rest

def Expr.nodes? : Option Expr → List Node
  | none => []
  | some e => e.nodes

def CaseBranch.nodesOf : List CaseBranch → List Node
  | [] => []
  | ⟨condition, result⟩ :: rest => condition.nodes ++ result.nodes ++ CaseBranch.nodesOf rest

def Like.nodes : Like → List Node
  | ⟨subject, pattern, escape, _, _⟩ => subject.nodes ++ pattern.nodes ++ Expr.nodes? escape

def Call.nodes : Call → List Node
  | ⟨_, args, _, filter⟩ => Expr.nodesOf args ++ Expr.nodes? filter

def OrderItem.nodesOf : List OrderItem → List Node
  | [] => []
  | ⟨expr, _⟩ :: rest => expr.nodes ++ OrderItem.nodesOf rest

def TableRef.nodes : TableRef → List Node
  | r@(.table _) => [.tableRef r]
  | r@(.query query _) => .tableRef r :: query.nodes
  | r@(.join left _ _ right condition) =>
      .tableRef r :: (left.nodes ++ right.nodes ++ Expr.nodes? condition)

def TableRef.nodes? : Option TableRef → List Node
  | none => []
  | some r => r.nodes

def Cte.nodesOf : List Cte → List Node
  | [] => []
  | ⟨name, columns, query, materialization⟩ :: rest =>
      .cte ⟨name, columns, query, materialization⟩ :: (query.nodes ++ Cte.nodesOf rest)

def With.nodes (mutation : Bool) : With → List Node
  | ⟨recursive, ctes⟩ => .withClause ⟨recursive, ctes⟩ mutation :: Cte.nodesOf ctes

def With.nodes? (mutation : Bool) : Option With → List Node
  | none => []
  | some w => w.nodes mutation

def SelectItem.nodesOf : List SelectItem → List Node
  | [] => []
  | ⟨expr, label⟩ :: rest => .item ⟨expr, label⟩ :: (expr.nodes ++ SelectItem.nodesOf rest)

def Select.nodes : Select → List Node
  | ⟨withClause, _, columns, source, condition, groupBy, having, orderBy, limit, offset, lock⟩ =>
      With.nodes? false withClause ++ SelectItem.nodesOf columns ++ TableRef.nodes? source ++
        Expr.nodes? condition ++ Expr.nodesOf groupBy ++ Expr.nodes? having ++
        OrderItem.nodesOf orderBy ++ Expr.nodes? limit ++ Expr.nodes? offset ++
        lock.toList.map .lock

end

def InsertSource.nodes : InsertSource → List Node
  | .rows values => values.flatMap Expr.nodesOf
  | .query q => q.nodes
  | .defaults => []

def Insert.nodes (i : Insert) : List Node :=
  With.nodes? true i.withClause ++ .target i.target :: .columns i.columns :: i.values.nodes

def Assignment.nodes (a : Assignment) : List Node := .columns [a.column] :: a.value.nodes

/-- The further tables of an update, which some rules leave out. -/
def Update.sourceNodes (style : RenderingStyle) (u : Update) : List Node :=
  match style with
  | .standard => .sources u.sources :: u.sources.flatMap TableRef.nodes
  | .spanner _ => []

def Update.nodes (style : RenderingStyle) (u : Update) : List Node :=
  With.nodes? true u.withClause ++ .target u.target ::
    (u.assignments.flatMap Assignment.nodes ++ u.sourceNodes style ++ Expr.nodes? u.condition)

def Delete.nodes (d : Delete) : List Node :=
  With.nodes? true d.withClause ++ .target d.target :: Expr.nodes? d.condition

/-- The nodes of a statement, without those that the rules of rendering leave out. -/
def Statement.nodes (style : RenderingStyle) : Statement → List Node
  | .select query => query.nodes
  | .insert insertion => insertion.nodes
  | .update change => change.nodes style
  | .delete deletion => deletion.nodes

end SqlBackend
