import Mathlib.Logic.Basic
import Mathlib.Order.Lattice
import SqlBackend.Statement.Operator

/-! # Truth of conditions

A condition is true, false or unknown. A comparison with null is unknown, a
conjunction is false as soon as one of its parts is, and a disjunction is true
as soon as one of its parts is. Rows compare as PostgreSQL documents it, without
regard to how the comparison is written down.
-/

namespace SqlBackend

inductive Truth where
  | yes
  | no
  | unknown
deriving DecidableEq, Repr

namespace Truth

def ofBool (b : Bool) : Truth := if b then yes else no

def not : Truth → Truth
  | yes => no
  | no => yes
  | unknown => unknown

def and : Truth → Truth → Truth
  | no, _ => no
  | yes, b => b
  | unknown, no => no
  | unknown, _ => unknown

def or : Truth → Truth → Truth
  | yes, _ => yes
  | no, b => b
  | unknown, yes => yes
  | unknown, _ => unknown

def all (parts : List Truth) : Truth := parts.foldr and yes

def any (parts : List Truth) : Truth := parts.foldr or no

@[simp] theorem and_yes (a : Truth) : a.and yes = a := by cases a <;> rfl

@[simp] theorem or_no (a : Truth) : a.or no = a := by cases a <;> rfl

@[simp] theorem all_cons (a : Truth) (rest : List Truth) : all (a :: rest) = a.and (all rest) := rfl

@[simp] theorem any_cons (a : Truth) (rest : List Truth) : any (a :: rest) = a.or (any rest) := rfl

/-- One false part makes a conjunction false, and otherwise one unknown part
makes it unknown. -/
theorem all_eq (parts : List Truth) :
    all parts = if no ∈ parts then no else if ∀ part ∈ parts, part = yes then yes else unknown := by
  induction parts with
  | nil => rfl
  | cons part rest ih =>
      rw [all_cons, ih]
      cases part with
      | yes => simp [and]
      | no => simp [and]
      -- Only here does the rest still matter.
      | unknown =>
          by_cases hno : no ∈ rest
          · simp [hno, and]
          · by_cases hyes : ∀ part ∈ rest, part = yes
            · rw [if_neg hno, if_pos hyes]
              simp [hno, and]
            · rw [if_neg hno, if_neg hyes]
              simp [hno, and]

/-- A disjunction is the negated conjunction of the negated parts. -/
theorem any_eq_not_all (parts : List Truth) : any parts = (all (parts.map not)).not := by
  induction parts with
  | nil => rfl
  | cons part rest ih =>
      rw [any_cons, ih, List.map_cons, all_cons]
      generalize all (rest.map not) = others
      cases part <;> cases others <;> rfl

end Truth

variable {δ : Type} [LinearOrder δ]

/-- Whether the operator holds between two values. -/
def BinaryOp.holds (op : BinaryOp) (a b : δ) : Bool :=
  match op with
  | eq => a = b
  | ne => a ≠ b
  | lt => a < b
  | le => a ≤ b
  | gt => b < a
  | ge => b ≤ a
  | _ => false

/-- The comparison of two values, of which each may be null. -/
def BinaryOp.truth (op : BinaryOp) : Option δ → Option δ → Truth
  | some a, some b => .ofBool (op.holds a b)
  | _, _ => .unknown

namespace BinaryOp

@[simp] theorem truth_some (op : BinaryOp) (a b : δ) :
    op.truth (some a) (some b) = .ofBool (op.holds a b) := rfl

@[simp] theorem truth_none_left (op : BinaryOp) (b : Option δ) : op.truth none b = .unknown := rfl

@[simp] theorem truth_none_right (op : BinaryOp) (a : Option δ) : op.truth a none = .unknown := by
  cases a <;> rfl

@[simp] theorem eq_holds (a b : δ) : eq.holds a b = decide (a = b) := rfl

@[simp] theorem ne_holds (a b : δ) : ne.holds a b = !decide (a = b) := by simp [holds]

theorem holds_self (op : BinaryOp) (a : δ) :
    op.holds a a = decide (op = eq ∨ op = le ∨ op = ge) := by
  cases op <;> simp [holds]

/-- The strict operator holds between no value and itself, and between unequal
values if the operator does. -/
theorem strict_holds {op : BinaryOp} (hop : op ≠ eq) (a b : δ) :
    op.strict.holds a b = (!decide (a = b) && op.holds a b) := by
  cases op with
  | eq => exact absurd rfl hop
  | le => simp [strict, holds, lt_iff_le_and_ne, and_comm]
  | ge => simp [strict, holds, lt_iff_le_and_ne, ne_comm, Bool.and_comm]
  | _ => by_cases h : a = b <;> simp [strict, holds, h]

theorem strict_isComparison (op : BinaryOp) : op.strict.isComparison = op.isComparison := by
  cases op <;> rfl

/-- Values differ exactly if they are not equal. -/
theorem truth_ne (a b : Option δ) : ne.truth a b = (eq.truth a b).not := by
  cases a with
  | none => rfl
  | some a =>
      cases b with
      | none => rfl
      | some b => by_cases h : a = b <;> simp [Truth.ofBool, Truth.not, h]

end BinaryOp

namespace Row

/-- Rows are unequal if two of their elements are known to be unequal, and equal
if all their elements are known to be equal. -/
def equal (pairs : List (Option δ × Option δ)) : Truth :=
  if ∃ p ∈ pairs, BinaryOp.eq.truth p.1 p.2 = .no then .no
  else if ∀ p ∈ pairs, BinaryOp.eq.truth p.1 p.2 = .yes then .yes
  else .unknown

/-- The first pair that is unequal or contains a null decides; if it contains a
null, the comparison is unknown. -/
def order (op : BinaryOp) : List (Option δ × Option δ) → Truth
  | [] => .ofBool (op = .le ∨ op = .ge)
  | (some a, some b) :: rest => if a = b then order op rest else .ofBool (op.holds a b)
  | _ :: _ => .unknown

/-- The comparison of two rows, given as pairs of their elements. -/
def compare (op : BinaryOp) (pairs : List (Option δ × Option δ)) : Truth :=
  match op with
  | .eq => equal pairs
  | .ne => (equal pairs).not
  | _ => order op pairs

theorem equal_eq_all (pairs : List (Option δ × Option δ)) :
    equal pairs = .all (pairs.map fun p => BinaryOp.eq.truth p.1 p.2) := by
  rw [Truth.all_eq, equal]
  refine if_congr ?_ rfl (if_congr ?_ rfl rfl)
  · simp
  · rw [List.forall_mem_map]

theorem not_equal_eq_any (pairs : List (Option δ × Option δ)) :
    (equal pairs).not = .any (pairs.map fun p => BinaryOp.ne.truth p.1 p.2) := by
  rw [Truth.any_eq_not_all, equal_eq_all, List.map_map]
  have hnot : ∀ a : Truth, a.not.not = a := by
    intro a
    cases a <;> rfl
  simp [Function.comp_def, BinaryOp.truth_ne, hnot]

/-- An ordering holds if the strict operator holds between the first elements, or
if those are equal and it holds between the elements behind them. -/
theorem order_cons {op : BinaryOp} (heq : op ≠ .eq) (p : Option δ × Option δ)
    (rest : List (Option δ × Option δ)) :
    order op (p :: rest) =
      (op.strict.truth p.1 p.2).or ((BinaryOp.eq.truth p.1 p.2).and (order op rest)) := by
  match p with
  | (none, _) => cases h : order op rest <;> rfl
  | (some _, none) => cases h : order op rest <;> rfl
  | (some a, some b) =>
      rw [BinaryOp.truth_some, BinaryOp.truth_some, BinaryOp.strict_holds heq, BinaryOp.eq_holds]
      by_cases h : a = b
      · simp [order, Truth.ofBool, Truth.and, Truth.or, h]
      · simp [order, Truth.ofBool, Truth.and, h]

/-- The last pair of an ordering is compared by the operator itself. -/
theorem order_singleton {op : BinaryOp} (heq : op ≠ .eq) (p : Option δ × Option δ) :
    order op [p] = op.truth p.1 p.2 := by
  match p with
  | (none, _) => rfl
  | (some _, none) => rfl
  | (some a, some b) =>
      by_cases h : a = b
      · simp [order, BinaryOp.holds_self, heq, h]
      · simp [order, h]

end Row

end SqlBackend
