/-! # Operators

The operators of expressions with their spelling. The comparisons among them
also compare rows element by element.
-/

namespace SqlBackend

inductive BinaryOp where
  | add
  | sub
  | mul
  | div
  | mod
  | eq
  | ne
  | lt
  | le
  | gt
  | ge
  | and
  | or
  | concat
deriving DecidableEq, Repr

namespace BinaryOp

def text : BinaryOp → String
  | add => "+"
  | sub => "-"
  | mul => "*"
  | div => "/"
  | mod => "%"
  | eq => "="
  | ne => "<>"
  | lt => "<"
  | le => "<="
  | gt => ">"
  | ge => ">="
  | and => "and"
  | or => "or"
  | concat => "||"

def isComparison : BinaryOp → Bool
  | eq | ne | lt | le | gt | ge => true
  | _ => false

/-- The operator that holds for the same pairs except the equal ones. -/
def strict : BinaryOp → BinaryOp
  | le => lt
  | ge => gt
  | op => op

end BinaryOp

inductive UnaryOp where
  | neg
  | not
deriving DecidableEq, Repr

/-- The operator as it stands before its operand. -/
def UnaryOp.text : UnaryOp → String
  | neg => "-"
  | not => "not "

inductive OrderDirection where
  | asc
  | desc
deriving DecidableEq, Repr

namespace OrderDirection

def text : OrderDirection → String
  | asc => "asc"
  | desc => "desc"

/-- The direction of an ordering that does not name one. -/
def implied : OrderDirection := asc

end OrderDirection

inductive JoinKind where
  | inner
  | left
  | right
  | full
  | cross
deriving DecidableEq, Repr

def JoinKind.text : JoinKind → String
  | inner => "join"
  | left => "left join"
  | right => "right join"
  | full => "full join"
  | cross => "cross join"

end SqlBackend
