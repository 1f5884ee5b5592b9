import SqlBackend.Function.Builtin
import SqlBackend.Proofs.Function.Substitution

/-! # Aggregates of Spanner

Spanner has eight aggregates. All but one are called by the name that they are
registered under, with their arguments in parentheses.
-/

namespace SqlBackend

/-- Up to the first question mark a template stands for itself. -/
theorem expandTemplate_append {words : String} (h : '?' ∉ words.toList) (rest : String)
    (args : List Fragment) :
    expandTemplate (words ++ rest) args = .ofText words ++ expandTemplate rest args := by
  have hapart : TemplatePiece.Apart words.toList rest.toList := fun hlast =>
    absurd (List.mem_of_getLast? hlast) h
  rw [expandTemplate_append_of_apart hapart, expandTemplate_of_not_mem h]

/-- A named function is called with its arguments in parentheses. -/
theorem SqlFunction.call_named {name : String} (h : '?' ∉ name.toList) (args : List Fragment) :
    (named name).call args =
      .ok (.ofText name ++ (.ofText "(" ++ (.joined ", " args ++ .ofText ")"))) := by
  have htemplate : expandTemplate "(?*)" args = .ofText "(" ++ (.joined ", " args ++ .ofText ")") :=
    rfl
  rw [← htemplate, ← expandTemplate_append h]
  rfl

/-- The aggregates that Spanner has. -/
inductive Aggregate where
  | count
  | sum
  | avg
  | min
  | max
  | stringAgg
  | arrayAgg
  | jsonbAgg
deriving DecidableEq, Repr

namespace Aggregate

def all : List Aggregate := [count, sum, avg, min, max, stringAgg, arrayAgg, jsonbAgg]

/-- The name that an aggregate is registered under. -/
def name : Aggregate → String
  | count => "count"
  | sum => "sum"
  | avg => "avg"
  | min => "min"
  | max => "max"
  | stringAgg => "string_agg"
  | arrayAgg => "array_agg"
  | jsonbAgg => "json_arrayagg"

/-- The name that an aggregate is called by. -/
def word : Aggregate → String
  | jsonbAgg => "jsonb_agg"
  | a => a.name

/-- What an aggregate is registered as. -/
def function : Aggregate → SqlFunction
  | jsonbAgg => (SqlFunction.templated "json_arrayagg" 1 "jsonb_agg(?1)").asAggregate
  | a => .namedAggregate a.name

/-- The call of an aggregate with one argument. -/
def called (a : Aggregate) (distinct : Bool) (arg : Fragment) : Fragment :=
  .ofText a.word ++ (.ofText "(" ++
    ((if distinct then .ofText "distinct " ++ arg else arg) ++ .ofText ")"))

/-- Spanner has no other aggregates. -/
theorem spanner_aggregates :
    Registry.spanner.functions.filter (·.aggregate) = (all.map function).reverse := by
  decide +kernel

theorem call_function (a : Aggregate) (arg : Fragment) :
    a.function.call [arg] = .ok (.ofText a.word ++ (.ofText "(" ++ (arg ++ .ofText ")"))) := by
  cases a with
  | jsonbAgg =>
      have hword : '?' ∉ "jsonb_agg".toList := by decide
      exact congrArg Except.ok (expandTemplate_append hword "(?1)" [arg])
  | _ => exact SqlFunction.call_named (by decide) [arg]

/-- A function that is registered with Spanner as an aggregate is one of the eight. -/
theorem exists_of_registered {name : String} {f : SqlFunction}
    (hfind : Registry.spanner.find? name = some f) (haggregate : f.aggregate = true) :
    ∃ a : Aggregate, f = a.function := by
  have hmem : f ∈ Registry.spanner.functions.filter (·.aggregate) :=
    List.mem_filter.mpr ⟨List.mem_of_find?_eq_some hfind, haggregate⟩
  rw [spanner_aggregates, List.mem_reverse] at hmem
  obtain ⟨a, _, rfl⟩ := List.mem_map.mp hmem
  exact ⟨a, rfl⟩

/-- Each of the eight is found, whatever the case of its name. -/
theorem find?_spanner (a : Aggregate) {name : String} (hname : a.function.key = Text.lower name) :
    Registry.spanner.find? name = some a.function := by
  have hall : a ∈ all := by cases a <;> decide
  have hmem : a.function ∈ Registry.spanner.functions.filter (·.aggregate) := by
    rw [spanner_aggregates, List.mem_reverse]
    exact List.mem_map_of_mem hall
  exact Registry.find?_eq_some_iff.mpr ⟨List.mem_of_mem_filter hmem, hname⟩

end Aggregate

end SqlBackend
