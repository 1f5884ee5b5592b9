import Mathlib.Algebra.GroupWithZero.Nat
import SqlBackend.Proofs.Function.Tame

/-! # Templates that copy every argument once

A call binds the parameters of its arguments if its template copies each of them
once, wherever it puts them. The order does not matter: Spanner's `strpos` takes
the arguments of `position` the other way round. All built-in templates copy
their arguments so.
-/

namespace SqlBackend

/-- How many parameters some fragments have together. -/
def Fragment.total (fs : List Fragment) : Nat := (fs.map Fragment.parameters).sum

namespace TemplatePiece

/-- The arguments that a part of a template stands for, as places among so many. -/
def copied (count : Nat) : TemplatePiece → List Nat
  | char _ => []
  | argument 0 => []
  | argument (n + 1) => [n]
  | allArguments => List.range count

end TemplatePiece

/-- With so many arguments the template copies each of them exactly once. -/
def CopiesEach (template : String) (count : Nat) : Prop :=
  ((TemplatePiece.ofChars template.toList).flatMap (·.copied count)).Perm (List.range count)

instance (template : String) (count : Nat) : Decidable (CopiesEach template count) :=
  inferInstanceAs (Decidable (List.Perm _ _))

/-- The pattern copies each argument once: one by one where it takes so many, and all
at once where it takes any number. -/
def CallPattern.copiesEach (p : CallPattern) : Bool :=
  match p.arity with
  | .exactly count => CopiesEach p.template count
  | .atLeast _ =>
      (TemplatePiece.ofChars p.template.toList).filter (!·.isChar) = [.allArguments]

def Registry.CopiesEach (r : Registry) : Prop :=
  ∀ f ∈ r.functions, ∀ p ∈ f.patterns, p.copiesEach = true

namespace Fragment

@[simp] theorem total_nil : total [] = 0 := rfl

@[simp] theorem total_cons (f : Fragment) (fs : List Fragment) :
    total (f :: fs) = f.parameters + total fs := rfl

theorem parameters_joined_eq_total (separator : String) (fs : List Fragment) :
    (joined separator fs).parameters = total fs := by
  rw [parameters_joined, total, List.sum_eq_foldr, List.foldr_map]

theorem map_range_getD (fs : List Fragment) :
    ((List.range fs.length).map fun i => fs[i]?.getD {}) = fs := by
  apply List.ext_getElem
  · simp
  · intro i hi _
    have hi : i < fs.length := by simpa using hi
    simp [hi]

/-- The parameters of all arguments, one place after the other. -/
theorem sum_range_eq_total (fs : List Fragment) :
    ((List.range fs.length).map fun i => (fs[i]?.getD {}).parameters).sum = total fs := by
  have hparameters := congrArg (List.map parameters) (map_range_getD fs)
  rw [List.map_map] at hparameters
  exact congrArg List.sum hparameters

end Fragment

open Fragment (total)

theorem TemplatePiece.parameters_expand (args : List Fragment) (piece : TemplatePiece) :
    (piece.expand args).parameters =
      ((piece.copied args.length).map fun i => (args[i]?.getD {}).parameters).sum := by
  cases piece with
  | char c => rfl
  | argument position =>
      cases position with
      | zero => rfl
      | succ n => simp [expand, copied]
  | allArguments =>
      rw [expand, copied, Fragment.sum_range_eq_total, Fragment.parameters_joined_eq_total]

/-- A call has the parameters of the arguments that its template copies. -/
theorem parameters_expandTemplate (template : String) (args : List Fragment) :
    (expandTemplate template args).parameters =
      (((TemplatePiece.ofChars template.toList).flatMap (·.copied args.length)).map
        fun i => (args[i]?.getD {}).parameters).sum := by
  unfold expandTemplate
  induction TemplatePiece.ofChars template.toList with
  | nil => rfl
  | cons piece rest ih =>
      rw [List.foldr_cons, Fragment.parameters_append, ih, piece.parameters_expand,
        List.flatMap_cons, List.map_append, List.sum_append]

theorem CopiesEach.parameters {template : String} {args : List Fragment}
    (h : CopiesEach template args.length) :
    (expandTemplate template args).parameters = total args := by
  rw [parameters_expandTemplate, (h.map _).sum_nat, Fragment.sum_range_eq_total]

/-- Characters copy nothing. -/
theorem TemplatePiece.flatMap_copied_filter (count : Nat) (pieces : List TemplatePiece) :
    (pieces.filter (!·.isChar)).flatMap (·.copied count) = pieces.flatMap (·.copied count) := by
  induction pieces with
  | nil => rfl
  | cons piece rest ih =>
      cases piece with
      | char c => exact ih
      | argument _ => rw [List.filter_cons_of_pos rfl, List.flatMap_cons, List.flatMap_cons, ih]
      | allArguments => rw [List.filter_cons_of_pos rfl, List.flatMap_cons, List.flatMap_cons, ih]

theorem CallPattern.copiesEach_of_accepts {p : CallPattern} (h : p.copiesEach = true) {count : Nat}
    (haccepts : p.arity.accepts count = true) : CopiesEach p.template count := by
  unfold copiesEach at h
  split at h
  next fixed harity =>
    rw [harity] at haccepts
    obtain rfl : count = fixed := by simpa [Arity.accepts] using haccepts
    simpa using h
  next =>
    have hpieces := of_decide_eq_true h
    rw [CopiesEach, ← TemplatePiece.flatMap_copied_filter, hpieces]
    simp [TemplatePiece.copied]

namespace SqlFunction

theorem postgres_copiesEach : ∀ f ∈ postgres, ∀ p ∈ f.patterns, p.copiesEach = true := by
  decide +kernel

theorem spanner_copiesEach : ∀ f ∈ spanner, ∀ p ∈ f.patterns, p.copiesEach = true := by
  decide +kernel

end SqlFunction

namespace Registry

theorem postgres_copiesEach : postgres.CopiesEach :=
  forall_postgres SqlFunction.postgres_copiesEach

theorem spanner_copiesEach : spanner.CopiesEach :=
  forall_spanner SqlFunction.postgres_copiesEach SqlFunction.spanner_copiesEach

/-- A successful call has the parameters of its arguments. -/
theorem CopiesEach.call {r : Registry} (hr : r.CopiesEach) {name : String} {args : List Fragment}
    {called : Fragment} (h : r.call name args = .ok called) : called.parameters = total args := by
  unfold Registry.call SqlFunction.call at h
  split at h
  next f hf =>
    split at h
    next p hp =>
      cases h
      have hcopies := hr f (List.mem_of_find?_eq_some hf) p (List.mem_of_find?_eq_some hp)
      have haccepts : p.arity.accepts args.length = true := by simpa using List.find?_some hp
      exact (p.copiesEach_of_accepts hcopies haccepts).parameters
    next => cases h
  next => cases h

end Registry

end SqlBackend
