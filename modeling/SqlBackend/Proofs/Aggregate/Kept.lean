import SqlBackend.Proofs.Aggregate.Calls
import SqlBackend.Proofs.Aggregate.Registered

/-! # What becomes of filters and of distinct calls

A filter that is put into the arguments, and the mark of a distinct call, are written
with the arguments that carry them. A call without arguments, or by a template that
leaves these arguments out, is written as if there were neither.
-/

namespace SqlBackend

theorem exists_getElem?_of_forall₂ {α β : Type} {R : α → β → Prop} {l : List α} {m : List β}
    (h : List.Forall₂ R l m) {i : Nat} {a : α} (ha : l[i]? = some a) :
    ∃ b, m[i]? = some b ∧ R a b := by
  induction h generalizing i with
  | nil => cases ha
  | cons hab _ ih =>
      cases i with
      | zero =>
          cases ha
          exact ⟨_, rfl, hab⟩
      | succ i => exact ih ha

theorem exists_forall₂_of_forall₂ {α β γ : Type} {R : α → β → Prop} {S : α → γ → Prop} {l : List α}
    {m : List β} (h : List.Forall₂ R l m) (hRS : ∀ a b, R a b → ∃ c, S a c) :
    ∃ n, List.Forall₂ S l n := by
  induction h with
  | nil => exact ⟨[], .nil⟩
  | cons hab _ ih =>
      obtain ⟨c, hc⟩ := hRS _ _ hab
      obtain ⟨n, hn⟩ := ih
      exact ⟨c :: n, .cons hc hn⟩

namespace Call

open Translator (marked)

variable {t : Translator} {c : Call} {condition : Option Fragment} {values : List Fragment}
  {called : Fragment}

/-- The places of the arguments that the call copies. -/
def copiedPlaces (t : Translator) (c : Call) : List Nat :=
  t.dialect.functions.copiedPlaces c.name c.args.length

namespace Prepared

theorem length_marked (h : c.Prepared t condition values called) :
    (marked c.distinct values).length = c.args.length := by
  rw [Translator.length_marked, h.arguments.length_eq]

/-- An argument that is copied is in the call. -/
theorem contains_argument (h : c.Prepared t condition values called) {i : Nat}
    (hi : i ∈ c.copiedPlaces t) {arg : Expr} (harg : c.args[i]? = some arg) :
    ∃ value, t.ArgumentAs condition arg value ∧ called.Contains value := by
  obtain ⟨value, hvalue, hwritten⟩ := exists_getElem?_of_forall₂ h.arguments harg
  obtain ⟨marked, hmarked, hcontains⟩ := Translator.exists_marked_contains c.distinct hvalue
  have hplace := hi
  rw [copiedPlaces, ← h.length_marked] at hplace
  exact ⟨value, hwritten, (Registry.contains_of_call h.call hplace hmarked).trans hcontains⟩

/-- The first argument of a distinct call is marked where it is copied. -/
theorem contains_mark (h : c.Prepared t condition values called) (hdistinct : c.distinct = true)
    (hcopied : 0 ∈ c.copiedPlaces t) {arg : Expr} (harg : c.args[0]? = some arg) :
    ∃ first, t.ArgumentAs condition arg first ∧
      called.Contains (.ofText "distinct " ++ first) := by
  obtain ⟨first, hfirst, hwritten⟩ := exists_getElem?_of_forall₂ h.arguments harg
  have hmarked : (marked c.distinct values)[0]? = some (.ofText "distinct " ++ first) := by
    cases values with
    | nil => cases hfirst
    | cons v rest =>
        cases hfirst
        rw [hdistinct]
        rfl
  rw [copiedPlaces, ← h.length_marked] at hcopied
  exact ⟨first, hwritten, Registry.contains_of_call h.call hcopied hmarked⟩

/-- The call of other texts that agree with these where they are copied. -/
theorem congr (h : c.Prepared t condition values called) {others : List Fragment}
    (hlength : others.length = values.length) (distinct : Bool)
    (hsame : ∀ i ∈ c.copiedPlaces t, (marked c.distinct values)[i]? = (marked distinct others)[i]?) :
    t.dialect.functions.call c.name (marked distinct others) = .ok called := by
  refine Registry.call_congr ?_ ?_ h.call
  · rw [Translator.length_marked, Translator.length_marked, hlength]
  · rw [h.length_marked]
    exact hsame

/-- Where the backend has a filter clause, the arguments are the same without a filter. -/
theorem unfiltered_native (h : c.Prepared t condition values called)
    (hnative : t.supports .filterClause = true) :
    ({ c with filter := none } : Call).WrittenAs t called := by
  refine ⟨none, values, called, .none, ⟨?_, h.call⟩, rfl⟩
  exact h.arguments.imp fun _ _ harg => (Translator.argumentAs_native hnative condition).mp harg

/-- A filter that is put into arguments which are not copied changes nothing. -/
theorem unfiltered_lost (h : c.Prepared t condition values called)
    (hlost : ∀ i ∈ c.copiedPlaces t, c.args.length ≤ i) :
    ({ c with filter := none } : Call).WrittenAs t called := by
  -- The arguments have other texts without the filter, but the template copies none of them.
  obtain ⟨others, hothers⟩ := exists_forall₂_of_forall₂ h.arguments
    fun _ _ harg => Translator.exists_writes_of_argumentAs harg
  have hlength : others.length = values.length :=
    hothers.length_eq.symm.trans h.arguments.length_eq
  refine ⟨none, others, called, .none, ⟨hothers, h.congr hlength c.distinct ?_⟩, rfl⟩
  intro i hi
  have hi := hlost i hi
  rw [List.getElem?_eq_none, List.getElem?_eq_none]
  · rw [Translator.length_marked, ← hothers.length_eq]
    exact hi
  · rw [h.length_marked]
    exact hi

/-- Without a first argument that is copied, a distinct call is like any other. -/
theorem undistinct_lost (h : c.Prepared t condition values called)
    (hlost : 0 ∉ c.copiedPlaces t ∨ c.args = []) :
    ({ c with distinct := false } : Call).Prepared t condition values called := by
  refine ⟨h.arguments, h.congr rfl false fun i hi => ?_⟩
  cases i with
  | succ i => rw [Translator.getElem?_marked_succ, Translator.getElem?_marked_succ]
  | zero =>
      have hargs := hlost.resolve_left (not_not.mpr hi)
      have hvalues : values = [] := List.forall₂_nil_left_iff.mp (hargs ▸ h.arguments)
      rw [hvalues]
      cases c.distinct <;> rfl

/-- The functions of PostgreSQL and of Spanner copy all their arguments. -/
theorem mem_copiedPlaces (h : c.Prepared t condition values called)
    (hcopies : t.dialect.functions.CopiesEach) {i : Nat} (hi : i < c.args.length) :
    i ∈ c.copiedPlaces t := by
  rw [copiedPlaces, ← h.length_marked]
  exact hcopies.mem_copiedPlaces h.call (h.length_marked ▸ hi)

end Prepared

theorem contains_withFilter (t : Translator) (condition : Option Fragment) (called : Fragment) :
    (t.withFilter condition called).Contains called := by
  unfold Translator.withFilter
  split
  · exact (((Fragment.Contains.refl called).append_right _).append_right _).append_right _
  · exact .refl called

/-- What becomes of a filter and of the mark of a distinct call, whatever the backend. With
a filter clause the filter stands once behind the call that is written without it. Without
one it stands in the text of every argument that the template copies, and a distinct call
has its mark in front of the first argument if that is copied. All built-in functions copy
all arguments. But where nothing is copied that carries them, the filter and the mark are
lost: the call is written as without them. -/
theorem filter_and_mark_kept_where_copied (t : Translator) (c : Call) {before after : Output}
    (h : (c.render t).run before = (.ok (), after)) :
    ∃ written condition, after = before ++ .ofFragment written ∧
      Option.Rel (fun e f => (e.render t).Writes f) c.filter condition ∧
      (∀ f, condition = some f → t.supports .filterClause = true →
        ∃ called, ({ c with filter := none }.render t).Writes called ∧
          written = called ++ .ofText " filter (where " ++ f ++ .ofText ")") ∧
      (∀ f, condition = some f → t.supports .filterClause = false →
        (∀ i ∈ c.copiedPlaces t, ∀ arg, c.args[i]? = some arg →
          ∃ value, t.ValueAs arg value ∧ written.Contains (.caseWhen f value)) ∧
        ((∀ i ∈ c.copiedPlaces t, c.args.length ≤ i) →
          ({ c with filter := none }.render t).Writes written)) ∧
      (c.distinct = true →
        (0 ∈ c.copiedPlaces t → ∀ arg, c.args[0]? = some arg →
          ∃ first, t.ArgumentAs condition arg first ∧
            written.Contains (.ofText "distinct " ++ first)) ∧
        (0 ∉ c.copiedPlaces t ∨ c.args = [] →
          ({ c with distinct := false }.render t).Writes written)) ∧
      (t.dialect.functions.CopiesEach → ∀ i < c.args.length, i ∈ c.copiedPlaces t) := by
  obtain ⟨written, ⟨condition, values, called, hcondition, hprepared, rfl⟩, rfl⟩ := run_iff.mp h
  have hcalled := contains_withFilter t condition called
  refine ⟨_, condition, rfl, hcondition, ?_, ?_, ?_, fun hcopies _ hi =>
    hprepared.mem_copiedPlaces hcopies hi⟩
  · rintro f rfl hnative
    exact ⟨called, writes_iff.mpr (hprepared.unfiltered_native hnative),
      Translator.withFilter_native hnative f called⟩
  · rintro f rfl hemulated
    constructor
    · intro i hi arg harg
      obtain ⟨text, htext, hcontains⟩ := hprepared.contains_argument hi harg
      obtain ⟨value, hvalue, rfl⟩ := (Translator.argumentAs_emulated hemulated f).mp htext
      exact ⟨value, hvalue, hcalled.trans hcontains⟩
    · intro hlost
      rw [Translator.withFilter_emulated hemulated]
      exact writes_iff.mpr (hprepared.unfiltered_lost hlost)
  · intro hdistinct
    constructor
    · intro hcopied arg harg
      obtain ⟨first, hfirst, hmark⟩ := hprepared.contains_mark hdistinct hcopied harg
      exact ⟨first, hfirst, hcalled.trans hmark⟩
    · intro hlost
      exact writes_iff.mpr
        ⟨condition, values, called, hcondition, hprepared.undistinct_lost hlost, rfl⟩

/-- A template that takes its arguments the other way round, without a filter clause and
with one. -/
theorem filter_and_mark_kept_where_copied_swapped :
    let name : Expr := .column none "name"
    let sought : Expr := .literal (.string "x")
    let active : Expr := .column none "active"
    let c : Call := ⟨"Locate", [sought, name], true, some active⟩
    let functions := Registry.empty.register (.templated "locate" 2 "strpos(?2, ?1)")
    let lacking := { Dialect.spanner {} with functions }.translator
    let native := { Dialect.postgres with functions }.translator
    let text := "strpos(case when active then name else null end, " ++
      "distinct case when active then 'x' else null end)"
    (c.render lacking).run {} = (.ok (), .ofText text) ∧
      (∃ written f, Output.ofText text = {} ++ .ofFragment written ∧
        (active.render lacking).Writes f ∧
        (∃ value, lacking.ValueAs name value ∧ written.Contains (.caseWhen f value)) ∧
        ∃ first, lacking.ArgumentAs (some f) sought first ∧
          written.Contains (.ofText "distinct " ++ first)) ∧
      (c.render native).run {} =
        (.ok (), .ofText "strpos(name, distinct 'x') filter (where active)") ∧
      ∃ called f, (active.render native).Writes f ∧
        ({ c with filter := none }.render native).Writes called := by
  intro name sought active c functions lacking native text
  have hcopies : functions.CopiesEach := by
    intro f hf p hp
    obtain rfl := List.mem_singleton.mp hf
    obtain rfl := List.mem_singleton.mp hp
    decide
  have hlacking : (c.render lacking).run {} = (.ok (), .ofText text) := by decide +kernel
  have hnative : (c.render native).run {} =
      (.ok (), .ofText "strpos(name, distinct 'x') filter (where active)") := by decide +kernel
  refine ⟨hlacking, ?_, hnative, ?_⟩
  · obtain ⟨written, condition, hwritten, hactive, _, hemulated, hmark, hcopied⟩ :=
      filter_and_mark_kept_where_copied lacking c hlacking
    obtain ⟨hactive⟩ := hactive
    have hname := (hemulated _ rfl rfl).1 1 (hcopied hcopies 1 (by decide)) name rfl
    exact ⟨written, _, hwritten, hactive, hname,
      (hmark rfl).1 (hcopied hcopies 0 (by decide)) sought rfl⟩
  · obtain ⟨_, condition, _, hactive, hkept, _⟩ :=
      filter_and_mark_kept_where_copied native c hnative
    obtain ⟨hactive⟩ := hactive
    obtain ⟨called, hcalled, _⟩ := hkept _ rfl rfl
    exact ⟨called, _, hactive, hcalled⟩

/-- A distinct call without arguments loses its mark, and its filter where there is no
filter clause. -/
theorem filter_and_mark_lost_without_arguments :
    let active : Expr := .column none "active"
    let c : Call := ⟨"count", [], true, some active⟩
    let t := (Dialect.spanner {}).translator
    (c.render t).run {} = (.ok (), .ofText "count()") ∧ (active.render t).Writes (.ofText "active") ∧
      ¬"active".toList <:+: "count()".toList ∧ ¬"distinct ".toList <:+: "count()".toList := by
  intro active c t
  have hfind : t.dialect.functions.find? c.name = some (Aggregate.function .count) :=
    Aggregate.find?_spanner .count (by decide)
  have hcall : t.dialect.functions.call c.name (marked c.distinct []) = .ok (.ofText "count()") := by
    rw [Registry.call, hfind]
    rfl
  have hwritten : c.WrittenAs t (.ofText "count()") :=
    ⟨some (.ofText "active"), [], _, .some fun _ => rfl, ⟨.nil, hcall⟩,
      (Translator.withFilter_emulated rfl _ _).symm⟩
  refine ⟨run_iff.mpr ⟨_, hwritten, rfl⟩, fun _ => rfl, ?_, ?_⟩
  · rw [← Text.occurs_iff]
    decide
  · rw [← Text.occurs_iff]
    decide

end Call

end SqlBackend
