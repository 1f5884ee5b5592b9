import Mathlib.Data.List.Dedup
import Mathlib.Data.List.ReduceOption
import SqlBackend.Proofs.Aggregate.Registered
import SqlBackend.Proofs.Predicate.Truth
import SqlBackend.Render.Clause

/-! # Values of aggregates

An aggregate makes one value of what its argument is in each row that a filter lets
through. Most aggregates leave nulls out, and those do not tell a row that is left out
from one where the argument is null. An aggregate that collects its inputs does.
-/

namespace SqlBackend

/-- What an aggregate can come to. -/
inductive Aggregated (δ : Type) where
  | null
  | number (n : Nat)
  | value (v : δ)
  | collection (items : List (Option δ))
deriving DecidableEq, Repr

namespace Aggregate

variable {δ : Type}

/-- Whether nulls are left out before anything else is done. -/
def skipsNull : Aggregate → Bool
  | arrayAgg | jsonbAgg => false
  | count | sum | avg | min | max | stringAgg => true

/-- The value of an aggregate over its inputs. What is made of the values that are not
null, `reduce`, is that of the aggregate where it neither counts nor collects. Of no
inputs there is a count, and nothing else but null. -/
def value (reduce : Aggregate → List δ → δ) (a : Aggregate) (inputs : List (Option δ)) :
    Aggregated δ :=
  match a with
  | count => .number inputs.reduceOption.length
  | arrayAgg | jsonbAgg => if inputs.isEmpty then .null else .collection inputs
  | sum | avg | min | max | stringAgg =>
      if inputs.reduceOption.isEmpty then .null else .value (reduce a inputs.reduceOption)

variable {reduce : Aggregate → List δ → δ} {a : Aggregate} {inputs others : List (Option δ)}

theorem value_congr (ha : a.skipsNull = true) (h : inputs.reduceOption = others.reduceOption) :
    a.value reduce inputs = a.value reduce others := by
  cases a with
  | arrayAgg | jsonbAgg => cases ha
  | _ => simp only [value, h]

theorem value_inj (ha : a.skipsNull = false) :
    a.value reduce inputs = a.value reduce others ↔ inputs = others := by
  cases a with
  | arrayAgg | jsonbAgg => cases inputs <;> cases others <;> simp [value]
  | _ => cases ha

end Aggregate

/-- What expressions say of a row: their values, null or not, and which conditions are
true. Numerals are not null, and a choice is its result where its condition is true. -/
structure Interpretation (ρ δ : Type) where
  value : Expr → ρ → Option δ
  truth : Expr → ρ → Truth
  reduce : Aggregate → List δ → δ
  value_null : ∀ row, value (.literal .null) row = none
  value_integer : ∀ n row, value (.literal (.integer n)) row ≠ none
  value_case : ∀ condition result otherwise row,
    value (.caseOf none [⟨condition, result⟩] (some otherwise)) row =
      if truth condition row = .yes then value result row else value otherwise row

namespace Expr

/-- The value of an argument. A star stands for the row itself, so any value that is not
null does for it. -/
def unstarred (arg : Expr) : Expr := if arg.isStar then .literal (.integer 1) else arg

/-- The argument where the condition is true, and null elsewhere. -/
def filtered (condition arg : Expr) : Expr :=
  .caseOf none [⟨condition, arg.unstarred⟩] (some (.literal .null))

end Expr

/-- The call with its filter put into the arguments. -/
def Call.unfiltered (c : Call) : Call :=
  match c.filter with
  | none => c
  | some condition => { c with args := c.args.map (Expr.filtered condition), filter := none }

namespace Interpretation

variable {ρ δ : Type} (i : Interpretation ρ δ)

/-- What an argument is in a row. -/
def input (arg : Expr) (row : ρ) : Option δ := i.value arg.unstarred row

/-- The rows that a call sees. -/
def kept (filter : Option Expr) (rows : List ρ) : List ρ :=
  match filter with
  | none => rows
  | some condition => rows.filter fun row => i.truth condition row = .yes

/-- The value over some rows of a call of an aggregate with one argument. -/
def callValue? [DecidableEq δ] (a : Aggregate) (c : Call) (rows : List ρ) : Option (Aggregated δ) :=
  match c.args with
  | [arg] =>
      let inputs := (i.kept c.filter rows).map (i.input arg)
      some (a.value i.reduce (if c.distinct then inputs.dedup else inputs))
  | _ => none

theorem input_filtered (condition arg : Expr) (row : ρ) :
    i.input (.filtered condition arg) row =
      if i.truth condition row = .yes then i.input arg row else none := by
  have hchoice : (Expr.filtered condition arg).unstarred = .filtered condition arg := rfl
  rw [input, hchoice, Expr.filtered, i.value_case, i.value_null]
  rfl

/-- A filtered argument is null in the rows that the filter leaves out, and nulls do not
count among the values. -/
theorem reduceOption_filtered (condition arg : Expr) (rows : List ρ) :
    (rows.map (i.input (.filtered condition arg))).reduceOption =
      ((i.kept (some condition) rows).map (i.input arg)).reduceOption := by
  unfold List.reduceOption kept
  rw [List.filterMap_map, List.filterMap_map, List.filterMap_filter]
  refine List.filterMap_congr fun row _ => ?_
  simp [input_filtered]

/-- The inputs are the same only if the filter leaves no row out. -/
theorem map_filtered_iff (condition arg : Expr) (rows : List ρ) :
    rows.map (i.input (.filtered condition arg)) =
        (i.kept (some condition) rows).map (i.input arg) ↔
      ∀ row ∈ rows, i.truth condition row = .yes := by
  constructor
  · -- A row that is left out makes the list of inputs shorter.
    intro h row hrow
    have hlength := congrArg List.length h
    rw [List.length_map, List.length_map, kept, eq_comm, List.length_filter_eq_length_iff] at hlength
    exact of_decide_eq_true (hlength row hrow)
  · intro h
    have hkept : i.kept (some condition) rows = rows :=
      List.filter_eq_self.mpr fun row hrow => decide_eq_true (h row hrow)
    rw [hkept]
    refine List.map_congr_left fun row hrow => ?_
    rw [input_filtered, if_pos (h row hrow)]

end Interpretation

/-- It is the same to leave out repetitions before or after nulls are left out. -/
theorem reduceOption_dedup {δ : Type} [DecidableEq δ] (inputs : List (Option δ)) :
    inputs.dedup.reduceOption = inputs.reduceOption.dedup := by
  induction inputs with
  | nil => rfl
  | cons first rest ih =>
      cases first with
      | none => by_cases hmem : none ∈ rest <;> simp [hmem, ih]
      | some v =>
          by_cases hmem : some v ∈ rest
          · have hvalue := List.reduceOption_mem_iff.mpr hmem
            simp [hmem, hvalue, ih]
          · have hvalue := mt List.reduceOption_mem_iff.mp hmem
            simp [hmem, hvalue, ih]

namespace Interpretation

variable {ρ δ : Type} [DecidableEq δ] (i : Interpretation ρ δ) {a : Aggregate} {c : Call}
  {arg condition : Expr}

theorem callValue?_of_filter (hargs : c.args = [arg]) (hfilter : c.filter = some condition)
    (rows : List ρ) :
    i.callValue? a c rows =
      let inputs := (i.kept (some condition) rows).map (i.input arg)
      some (a.value i.reduce (if c.distinct then inputs.dedup else inputs)) := by
  rw [callValue?, hargs, hfilter]

theorem callValue?_unfiltered (hargs : c.args = [arg]) (hfilter : c.filter = some condition)
    (rows : List ρ) :
    i.callValue? a c.unfiltered rows =
      let inputs := rows.map (i.input (.filtered condition arg))
      some (a.value i.reduce (if c.distinct then inputs.dedup else inputs)) := by
  rw [Call.unfiltered, hfilter, hargs]
  rfl

/-- Of a star, the count is that of the rows that the call sees. -/
theorem callValue?_count_star (hargs : c.args = [arg]) (hstar : arg.isStar = true)
    (hdistinct : c.distinct = false) (rows : List ρ) :
    i.callValue? .count c rows = some (.number (i.kept c.filter rows).length) := by
  have hinput : ∀ row, i.input arg row ≠ none := by
    unfold input Expr.unstarred
    rw [if_pos hstar]
    exact i.value_integer 1
  have hall : ((i.kept c.filter rows).map (i.input arg)).reduceOption.length =
      (i.kept c.filter rows).length := by
    rw [List.reduceOption_length_eq_iff.mpr, List.length_map]
    rw [List.forall_mem_map]
    exact fun row _ => Option.isSome_iff_ne_none.mpr (hinput row)
  rw [callValue?, hargs, hdistinct]
  exact congrArg (fun n => some (Aggregated.number n)) hall

/-- An aggregate that skips nulls has the same value with the filter in its argument. -/
theorem callValue?_skipping (hargs : c.args = [arg]) (hfilter : c.filter = some condition)
    (ha : a.skipsNull = true) (rows : List ρ) :
    i.callValue? a c.unfiltered rows = i.callValue? a c rows := by
  rw [i.callValue?_unfiltered hargs hfilter, i.callValue?_of_filter hargs hfilter]
  refine congrArg some (Aggregate.value_congr ha ?_)
  have hinputs := i.reduceOption_filtered condition arg rows
  cases c.distinct with
  | false => exact hinputs
  | true =>
      rw [if_pos rfl, if_pos rfl, reduceOption_dedup, reduceOption_dedup, hinputs]

/-- An aggregate that collects its inputs has it only if no row is left out. -/
theorem callValue?_collecting (hargs : c.args = [arg]) (hfilter : c.filter = some condition)
    (hdistinct : c.distinct = false) (ha : a.skipsNull = false) (rows : List ρ) :
    i.callValue? a c.unfiltered rows = i.callValue? a c rows ↔
      ∀ row ∈ rows, i.truth condition row = .yes := by
  rw [i.callValue?_unfiltered hargs hfilter, i.callValue?_of_filter hargs hfilter, hdistinct,
    ← i.map_filtered_iff condition arg rows]
  simp [Aggregate.value_inj ha]

section Columns

variable {ρ : Type} (column : String → ρ → Option Int) (condition : String → ρ → Truth)

def columnTruth : Expr → ρ → Truth
  | .column none name, row => condition name row
  | _, _ => .unknown

def columnValue : Expr → ρ → Option Int
  | .literal (.integer n), _ => some n
  | .column none name, row => column name row
  | .caseOf none [⟨c, result⟩] (some otherwise), row =>
      if columnTruth condition c row = .yes then columnValue result row
      else columnValue otherwise row
  | _, _ => none

/-- Columns of integers, which have no text to be joined. -/
def reduceIntegers : Aggregate → List Int → Int
  | .sum, values => values.foldl (· + ·) 0
  | .avg, values => values.foldl (· + ·) 0 / values.length
  | .min, first :: rest => rest.foldl Min.min first
  | .max, first :: rest => rest.foldl Max.max first
  | _, _ => 0

/-- Rows of integers and of conditions that each have a name. -/
def ofColumns : Interpretation ρ Int where
  value := columnValue column condition
  truth := columnTruth condition
  reduce := reduceIntegers
  value_null _ := by simp [columnValue]
  value_integer n _ := by simp [columnValue]
  value_case c result otherwise row := by rw [columnValue]

end Columns

end Interpretation

end SqlBackend
