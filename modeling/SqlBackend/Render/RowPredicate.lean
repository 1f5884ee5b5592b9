import SqlBackend.Render.Formula

/-! # Predicates on rows

Comparisons of rows, membership in a list of rows and null-safe equality,
written with comparisons of single operands for backends that compare nothing
else. An ordering is decided by the first pair of elements that differ.
-/

namespace SqlBackend.RowPredicate

variable {α : Type}

/-- All pairs are equal. -/
def equal (pairs : List (α × α)) : Formula α :=
  .group (.all (pairs.map fun p => .comparison .eq p.1 p.2))

/-- Some pair differs. -/
def different (pairs : List (α × α)) : Formula α :=
  .group (.any (pairs.map fun p => .comparison .ne p.1 p.2))

/-- The first pair that differs decides. Only the last pair is compared by the
operator itself, all others by its strict form. -/
def lexicographic (op : BinaryOp) : List (α × α) → Formula α
  | [] => .all []
  | [p] => .comparison op p.1 p.2
  | p :: q :: rest =>
      let later := lexicographic op (q :: rest)
      .any [.comparison op.strict p.1 p.2,
        .all [.comparison .eq p.1 p.2, if rest.isEmpty then later else .group later]]

/-- The comparison of two rows, given as pairs of their elements. -/
def comparison (op : BinaryOp) (pairs : List (α × α)) : Formula α :=
  match op with
  | .eq => equal pairs
  | .ne => different pairs
  | _ => .group (lexicographic op pairs)

/-- Whether a row is one of some others, or with `negated` none of them. -/
def member (row : List α) (candidates : List (List α)) (negated : Bool) : Formula α :=
  let found : Formula α := .group (.any (candidates.map fun c => equal (row.zip c)))
  if negated then .negation found else found

/-- Whether two operands differ, where null differs from everything but null;
with `negated` whether they do not. -/
def distinct (left right : α) (negated : Bool) : Formula α :=
  .isTrue (.group (.any [.comparison .eq left right, .all [.isNull left, .isNull right]]))
    (!negated)

/-- The comparison of two rows on backends that have row constructors. -/
def native (op : BinaryOp) (left right : List Fragment) : Fragment :=
  (Fragment.joined ", " left).parenthesized ++ .ofText (" " ++ op.text ++ " ") ++
    (Fragment.joined ", " right).parenthesized

end SqlBackend.RowPredicate
