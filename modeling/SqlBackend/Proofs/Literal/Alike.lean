import Mathlib.Data.List.Forall2
import SqlBackend.Render.Clause
import SqlBackend.Statement.Node

/-! # Statements that differ in their string literals

Two statements are alike if they are the same up to the contents of their string
literals. What the contents at one place have to do with each other is left
open, so a relation can tell which literals of the statements belong together.
-/

namespace SqlBackend

/-- What a string literal is used for: the whole pattern of a match that names
no escape character, or anything else. -/
inductive LiteralUse where
  | value
  | pattern
deriving DecidableEq, Repr

def Literal.isString : Literal → Bool
  | string _ => true
  | _ => false

def Expr.isString : Expr → Bool
  | literal value => value.isString
  | _ => false

section

variable (S : LiteralUse → String → String → Prop)

mutual

/-- The same expression but for the contents of string literals, which `S`
relates place by place. -/
inductive Expr.Alike : Expr → Expr → Prop where
  | literal {value : Literal} (h : value.isString = false) :
      Expr.Alike (.literal value) (.literal value)
  | string {a b : String} (h : S .value a b) :
      Expr.Alike (.literal (.string a)) (.literal (.string b))
  | column {table : Option String} {name : String} :
      Expr.Alike (.column table name) (.column table name)
  | binary {left left' right right' : Expr} {op : BinaryOp} (hleft : Expr.Alike left left')
      (hright : Expr.Alike right right') :
      Expr.Alike (.binary left op right) (.binary left' op right')
  | unary {op : UnaryOp} {operand operand' : Expr} (h : Expr.Alike operand operand') :
      Expr.Alike (.unary op operand) (.unary op operand')
  | like {l l' : Like} (h : Like.Alike l l') : Expr.Alike (.like l) (.like l')
  | call {c c' : Call} (h : Call.Alike c c') : Expr.Alike (.call c) (.call c')
  | window {c c' : Call} {partition partition' : List Expr} {order order' : List OrderItem}
      (hcall : Call.Alike c c') (hpartition : List.Forall₂ Expr.Alike partition partition')
      (horder : List.Forall₂ OrderItem.Alike order order') :
      Expr.Alike (.window c partition order) (.window c' partition' order')
  | subquery {query query' : Select} (h : Select.Alike query query') :
      Expr.Alike (.subquery query) (.subquery query')
  | tuple {items items' : List Expr} (h : List.Forall₂ Expr.Alike items items') :
      Expr.Alike (.tuple items) (.tuple items')
  | isNull {operand operand' : Expr} {negated : Bool} (h : Expr.Alike operand operand') :
      Expr.Alike (.isNull operand negated) (.isNull operand' negated)
  | distinctFrom {left left' right right' : Expr} {negated : Bool} (hleft : Expr.Alike left left')
      (hright : Expr.Alike right right') :
      Expr.Alike (.distinctFrom left right negated) (.distinctFrom left' right' negated)
  | inList {operand operand' : Expr} {items items' : List Expr} {negated : Bool}
      (hoperand : Expr.Alike operand operand') (hitems : List.Forall₂ Expr.Alike items items') :
      Expr.Alike (.inList operand items negated) (.inList operand' items' negated)
  | inQuery {operand operand' : Expr} {query query' : Select} {negated : Bool}
      (hoperand : Expr.Alike operand operand') (hquery : Select.Alike query query') :
      Expr.Alike (.inQuery operand query negated) (.inQuery operand' query' negated)
  | between {operand operand' low low' high high' : Expr} {negated : Bool}
      (hoperand : Expr.Alike operand operand') (hlow : Expr.Alike low low')
      (hhigh : Expr.Alike high high') :
      Expr.Alike (.between operand low high negated) (.between operand' low' high' negated)
  | caseOf {operand operand' otherwise otherwise' : Option Expr}
      {branches branches' : List CaseBranch} (hoperand : Option.Rel Expr.Alike operand operand')
      (hbranches : List.Forall₂ CaseBranch.Alike branches branches')
      (hotherwise : Option.Rel Expr.Alike otherwise otherwise') :
      Expr.Alike (.caseOf operand branches otherwise) (.caseOf operand' branches' otherwise')
  | cast {operand operand' : Expr} {target : DataType} (h : Expr.Alike operand operand') :
      Expr.Alike (.cast operand target) (.cast operand' target)
  | paren {inner inner' : Expr} (h : Expr.Alike inner inner') :
      Expr.Alike (.paren inner) (.paren inner')
  | parameter : Expr.Alike .parameter .parameter
  | star {table : Option String} : Expr.Alike (.star table) (.star table)

inductive CaseBranch.Alike : CaseBranch → CaseBranch → Prop where
  | intro {condition condition' result result' : Expr} (hcondition : Expr.Alike condition condition')
      (hresult : Expr.Alike result result') :
      CaseBranch.Alike ⟨condition, result⟩ ⟨condition', result'⟩

inductive Like.Alike : Like → Like → Prop where
  | pattern {subject subject' : Expr} {a b : String} {negated caseSensitive : Bool}
      (hsubject : Expr.Alike subject subject') (h : S .pattern a b) :
      Like.Alike ⟨subject, .literal (.string a), none, negated, caseSensitive⟩
        ⟨subject', .literal (.string b), none, negated, caseSensitive⟩
  | other {subject subject' pattern pattern' : Expr} {escape escape' : Option Expr}
      {negated caseSensitive : Bool} (hsubject : Expr.Alike subject subject')
      (hpattern : Expr.Alike pattern pattern') (hescape : Option.Rel Expr.Alike escape escape')
      (h : escape = none → pattern.isString = false) :
      Like.Alike ⟨subject, pattern, escape, negated, caseSensitive⟩
        ⟨subject', pattern', escape', negated, caseSensitive⟩

inductive Call.Alike : Call → Call → Prop where
  | intro {name : String} {args args' : List Expr} {distinct : Bool} {filter filter' : Option Expr}
      (hargs : List.Forall₂ Expr.Alike args args') (hfilter : Option.Rel Expr.Alike filter filter') :
      Call.Alike ⟨name, args, distinct, filter⟩ ⟨name, args', distinct, filter'⟩

inductive OrderItem.Alike : OrderItem → OrderItem → Prop where
  | intro {expr expr' : Expr} {direction : OrderDirection} (h : Expr.Alike expr expr') :
      OrderItem.Alike ⟨expr, direction⟩ ⟨expr', direction⟩

inductive TableRef.Alike : TableRef → TableRef → Prop where
  | table {table : NamedTable} : TableRef.Alike (.table table) (.table table)
  | query {query query' : Select} {correlation : String} (h : Select.Alike query query') :
      TableRef.Alike (.query query correlation) (.query query' correlation)
  | join {left left' right right' : TableRef} {kind : JoinKind} {lateral : Bool}
      {condition condition' : Option Expr} (hleft : TableRef.Alike left left')
      (hright : TableRef.Alike right right')
      (hcondition : Option.Rel Expr.Alike condition condition') :
      TableRef.Alike (.join left kind lateral right condition)
        (.join left' kind lateral right' condition')

inductive Cte.Alike : Cte → Cte → Prop where
  | intro {name : String} {columns : List String} {query query' : Select}
      {materialization : Option Materialization} (h : Select.Alike query query') :
      Cte.Alike ⟨name, columns, query, materialization⟩ ⟨name, columns, query', materialization⟩

inductive With.Alike : With → With → Prop where
  | intro {recursive : Bool} {ctes ctes' : List Cte} (h : List.Forall₂ Cte.Alike ctes ctes') :
      With.Alike ⟨recursive, ctes⟩ ⟨recursive, ctes'⟩

inductive SelectItem.Alike : SelectItem → SelectItem → Prop where
  | intro {expr expr' : Expr} {label : Option String} (h : Expr.Alike expr expr') :
      SelectItem.Alike ⟨expr, label⟩ ⟨expr', label⟩

inductive Select.Alike : Select → Select → Prop where
  | intro {withClause withClause' : Option With} {distinct : Bool}
      {columns columns' : List SelectItem} {source source' : Option TableRef}
      {condition condition' having having' limit limit' offset offset' : Option Expr}
      {groupBy groupBy' : List Expr} {orderBy orderBy' : List OrderItem} {lock : Option LockRequest}
      (hwith : Option.Rel With.Alike withClause withClause')
      (hcolumns : List.Forall₂ SelectItem.Alike columns columns')
      (hsource : Option.Rel TableRef.Alike source source')
      (hcondition : Option.Rel Expr.Alike condition condition')
      (hgroupBy : List.Forall₂ Expr.Alike groupBy groupBy')
      (hhaving : Option.Rel Expr.Alike having having')
      (horderBy : List.Forall₂ OrderItem.Alike orderBy orderBy')
      (hlimit : Option.Rel Expr.Alike limit limit')
      (hoffset : Option.Rel Expr.Alike offset offset') :
      Select.Alike
        ⟨withClause, distinct, columns, source, condition, groupBy, having, orderBy, limit, offset,
          lock⟩
        ⟨withClause', distinct, columns', source', condition', groupBy', having', orderBy', limit',
          offset', lock⟩

end

inductive InsertSource.Alike : InsertSource → InsertSource → Prop where
  | rows {rows rows' : List (List Expr)} (h : List.Forall₂ (List.Forall₂ (Expr.Alike S)) rows rows') :
      InsertSource.Alike (.rows rows) (.rows rows')
  | query {query query' : Select} (h : query.Alike S query') :
      InsertSource.Alike (.query query) (.query query')
  | defaults : InsertSource.Alike .defaults .defaults

/-- The same statement but for the contents of string literals, which `S`
relates place by place. -/
inductive Statement.Alike : Statement → Statement → Prop where
  | select {query query' : Select} (h : query.Alike S query') :
      Statement.Alike (.select query) (.select query')
  | insert {withClause withClause' : Option With} {target : NamedTable} {columns : List String}
      {values values' : InsertSource} (hwith : Option.Rel (With.Alike S) withClause withClause')
      (hvalues : values.Alike S values') :
      Statement.Alike (.insert ⟨withClause, target, columns, values⟩)
        (.insert ⟨withClause', target, columns, values'⟩)
  | update {withClause withClause' : Option With} {target : NamedTable}
      {assignments assignments' : List Assignment} {sources sources' : List TableRef}
      {condition condition' : Option Expr} (hwith : Option.Rel (With.Alike S) withClause withClause')
      (hassignments : List.Forall₂ (fun a a' => a.column = a'.column ∧ a.value.Alike S a'.value)
        assignments assignments')
      (hsources : List.Forall₂ (TableRef.Alike S) sources sources')
      (hcondition : Option.Rel (Expr.Alike S) condition condition') :
      Statement.Alike (.update ⟨withClause, target, assignments, sources, condition⟩)
        (.update ⟨withClause', target, assignments', sources', condition'⟩)
  | delete {withClause withClause' : Option With} {target : NamedTable}
      {condition condition' : Option Expr} (hwith : Option.Rel (With.Alike S) withClause withClause')
      (hcondition : Option.Rel (Expr.Alike S) condition condition') :
      Statement.Alike (.delete ⟨withClause, target, condition⟩)
        (.delete ⟨withClause', target, condition'⟩)

end

/-- The names and aliases in a node, which are all its texts but the contents of
string literals. -/
def Node.names : Node → List String
  | .expr (.literal _) => []
  | n => n.texts

theorem isEmpty_eq_of_forall₂ {α β : Type} {R : α → β → Prop} {xs : List α} {ys : List β}
    (h : List.Forall₂ R xs ys) : xs.isEmpty = ys.isEmpty := by
  cases h <;> rfl

variable {S : LiteralUse → String → String → Prop}

namespace Expr

theorem Alike.isTuple_eq {e e' : Expr} (h : e.Alike S e') : e.isTuple = e'.isTuple := by
  cases h <;> rfl

theorem Alike.isStar_eq {e e' : Expr} (h : e.Alike S e') : e.isStar = e'.isStar := by
  cases h <;> rfl

end Expr

theorem Expr.exists_of_isString {e : Expr} (h : e.isString = true) :
    ∃ value, e = .literal (.string value) := by
  cases e with
  | literal literal =>
      cases literal with
      | string value => exact ⟨value, rfl⟩
      | _ => cases h
  | _ => cases h

/-- Every content belongs to itself only. -/
abbrev sameContent : LiteralUse → String → String → Prop := fun _ a b => a = b

mutual

theorem Expr.alike_self : ∀ e : Expr, e.Alike sameContent e
  | .literal (.string _) => .string rfl
  | .literal (.integer _) | .literal (.float _) | .literal (.boolean _) | .literal .null =>
      .literal rfl
  | .column _ _ => .column
  | .binary left _ right => .binary left.alike_self right.alike_self
  | .unary _ operand => .unary operand.alike_self
  | .like predicate => .like predicate.alike_self
  | .call call => .call call.alike_self
  | .window call partition order =>
      .window call.alike_self (Expr.alike_self_list partition) (OrderItem.alike_self_list order)
  | .subquery query => .subquery query.alike_self
  | .tuple items => .tuple (Expr.alike_self_list items)
  | .isNull operand _ => .isNull operand.alike_self
  | .distinctFrom left right _ => .distinctFrom left.alike_self right.alike_self
  | .inList operand items _ => .inList operand.alike_self (Expr.alike_self_list items)
  | .inQuery operand query _ => .inQuery operand.alike_self query.alike_self
  | .between operand low high _ => .between operand.alike_self low.alike_self high.alike_self
  | .caseOf operand branches otherwise =>
      .caseOf (Expr.alike_self_option operand) (CaseBranch.alike_self_list branches)
        (Expr.alike_self_option otherwise)
  | .cast operand _ => .cast operand.alike_self
  | .paren inner => .paren inner.alike_self
  | .parameter => .parameter
  | .star _ => .star

theorem Expr.alike_self_list : ∀ es : List Expr, List.Forall₂ (Expr.Alike sameContent) es es
  | [] => .nil
  | e :: rest => .cons e.alike_self (Expr.alike_self_list rest)

theorem Expr.alike_self_option : ∀ o : Option Expr, Option.Rel (Expr.Alike sameContent) o o
  | none => .none
  | some e => .some e.alike_self

theorem CaseBranch.alike_self_list : ∀ bs : List CaseBranch,
    List.Forall₂ (CaseBranch.Alike sameContent) bs bs
  | [] => .nil
  | ⟨condition, result⟩ :: rest =>
      .cons (.intro condition.alike_self result.alike_self) (CaseBranch.alike_self_list rest)

theorem Like.alike_self : ∀ l : Like, l.Alike sameContent l
  | ⟨subject, pattern, escape, _, _⟩ => by
      have hsubject := subject.alike_self
      by_cases h : escape = none ∧ pattern.isString = true
      · obtain ⟨value, rfl⟩ := pattern.exists_of_isString h.2
        obtain rfl := h.1
        exact .pattern hsubject rfl
      · exact .other hsubject pattern.alike_self (Expr.alike_self_option escape) (by simpa using h)

theorem Call.alike_self : ∀ c : Call, c.Alike sameContent c
  | ⟨_, args, _, filter⟩ => .intro (Expr.alike_self_list args) (Expr.alike_self_option filter)

theorem OrderItem.alike_self_list : ∀ os : List OrderItem, List.Forall₂ (OrderItem.Alike sameContent) os os
  | [] => .nil
  | ⟨expr, _⟩ :: rest => .cons (.intro expr.alike_self) (OrderItem.alike_self_list rest)

theorem TableRef.alike_self : ∀ r : TableRef, r.Alike sameContent r
  | .table _ => .table
  | .query query _ => .query query.alike_self
  | .join left _ _ right condition =>
      .join left.alike_self right.alike_self (Expr.alike_self_option condition)

theorem TableRef.alike_self_option : ∀ o : Option TableRef, Option.Rel (TableRef.Alike sameContent) o o
  | none => .none
  | some r => .some r.alike_self

theorem Cte.alike_self_list : ∀ cs : List Cte, List.Forall₂ (Cte.Alike sameContent) cs cs
  | [] => .nil
  | ⟨_, _, query, _⟩ :: rest => .cons (.intro query.alike_self) (Cte.alike_self_list rest)

theorem With.alike_self : ∀ w : With, w.Alike sameContent w
  | ⟨_, ctes⟩ => .intro (Cte.alike_self_list ctes)

theorem With.alike_self_option : ∀ o : Option With, Option.Rel (With.Alike sameContent) o o
  | none => .none
  | some w => .some w.alike_self

theorem SelectItem.alike_self_list : ∀ is : List SelectItem,
    List.Forall₂ (SelectItem.Alike sameContent) is is
  | [] => .nil
  | ⟨expr, _⟩ :: rest => .cons (.intro expr.alike_self) (SelectItem.alike_self_list rest)

theorem Select.alike_self : ∀ s : Select, s.Alike sameContent s
  | ⟨withClause, _, columns, source, condition, groupBy, having, orderBy, limit, offset, _⟩ =>
      .intro (With.alike_self_option withClause) (SelectItem.alike_self_list columns)
        (TableRef.alike_self_option source) (Expr.alike_self_option condition)
        (Expr.alike_self_list groupBy) (Expr.alike_self_option having)
        (OrderItem.alike_self_list orderBy) (Expr.alike_self_option limit)
        (Expr.alike_self_option offset)

end

/-- Every statement is alike itself. -/
theorem Statement.alike_self (s : Statement) : s.Alike sameContent s := by
  cases s with
  | select query => exact .select query.alike_self
  | insert insertion =>
      refine .insert (With.alike_self_option _) ?_
      cases insertion.values with
      | rows rows => exact .rows (List.forall₂_same.mpr fun row _ => Expr.alike_self_list row)
      | query query => exact .query query.alike_self
      | defaults => exact .defaults
  | update change =>
      refine .update (With.alike_self_option _) ?_ ?_ (Expr.alike_self_option _)
      · exact List.forall₂_same.mpr fun a _ => ⟨rfl, a.value.alike_self⟩
      · exact List.forall₂_same.mpr fun r _ => r.alike_self
  | delete deletion => exact .delete (With.alike_self_option _) (Expr.alike_self_option _)

end SqlBackend
