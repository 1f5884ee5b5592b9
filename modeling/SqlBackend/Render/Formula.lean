import SqlBackend.Fragment
import SqlBackend.Statement.Operator

/-! # Conditions over rendered operands

Where a backend lacks a predicate, a condition over the operands takes its
place. The condition is built as a formula first and put into text afterwards.
In the text `and` binds more tightly than `or`, so only the groups that the
formula names are put in parentheses.
-/

namespace SqlBackend

/-- A condition over operands of type `α`. -/
inductive Formula (α : Type) where
  | comparison (op : BinaryOp) (left right : α)
  | isNull (operand : α)
  | negation (inner : Formula α)
  | all (parts : List (Formula α))
  | any (parts : List (Formula α))
  | group (inner : Formula α)
  /-- Whether a condition is true, or with `negated` whether it is not. Neither
  is unknown where the condition is. -/
  | isTrue (condition : Formula α) (negated : Bool)

namespace Formula

mutual

/-- The text of a formula over fragments. -/
def fragment : Formula Fragment → Fragment
  | comparison op left right => left ++ .ofText (" " ++ op.text ++ " ") ++ right
  | isNull operand => operand ++ .ofText " is null"
  | negation inner => .ofText "not " ++ fragment inner
  | all parts => .joined " and " (fragments parts)
  | any parts => .joined " or " (fragments parts)
  | group inner => (fragment inner).parenthesized
  | isTrue condition negated =>
      .ofText "case when " ++ fragment condition ++
        .ofText (" then 0 else 1 end = " ++ if negated then "1" else "0")

def fragments : List (Formula Fragment) → List Fragment
  | [] => []
  | part :: rest => fragment part :: fragments rest

end

end Formula

end SqlBackend
