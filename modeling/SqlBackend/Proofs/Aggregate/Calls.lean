import Mathlib.Data.List.Forall2
import Mathlib.Data.Option.Basic
import SqlBackend.Proofs.Function.Contained
import SqlBackend.Proofs.Render.AppendOnly
import SqlBackend.Proofs.Render.Totality

/-! # What a call writes

A call is written from the texts of its filter and its arguments by the template of its
function. The filter stands behind the call, or in each argument where the backend has
no filter clause, and a distinct call marks its first argument.
-/

namespace SqlBackend

namespace Rendering

variable {α β : Type}

/-- Behind every output the rendering ends well and writes this fragment. -/
def Writes (r : Rendering Unit) (f : Fragment) : Prop := r.Appends (.ok ()) (.ofFragment f)

/-- The rendering writes nothing, and its results are those that satisfy `P`. -/
def Gives (r : Rendering α) (P : α → Prop) : Prop :=
  ∀ before a after, r.run before = (.ok a, after) ↔ P a ∧ after = before

theorem run_bind_ok_iff {r : Rendering α} {f : α → Rendering β} {before last : Output} {b : β} :
    (r >>= f).run before = (.ok b, last) ↔
      ∃ a after, r.run before = (.ok a, after) ∧ (f a).run after = (.ok b, last) := by
  refine ⟨run_bind_ok, ?_⟩
  rintro ⟨a, after, hr, hf⟩
  rw [run_bind, hr]
  exact hf

namespace Gives

variable {r : Rendering α} {P : α → Prop}

theorem pure (a : α) : (Pure.pure a : Rendering α).Gives (· = a) := by
  intro before b after
  simp [eq_comm]

theorem ofExcept (outcome : Except Error α) : (ofExcept outcome).Gives (outcome = .ok ·) := by
  intro before a after
  simp [eq_comm]

theorem bind {f : α → Rendering β} {Q : α → β → Prop} (hr : r.Gives P)
    (hf : ∀ a, (f a).Gives (Q a)) : (r >>= f).Gives fun b => ∃ a, P a ∧ Q a b := by
  intro before b after
  rw [run_bind_ok_iff]
  constructor
  · rintro ⟨a, middle, ha, hb⟩
    obtain ⟨hP, rfl⟩ := (hr _ _ _).mp ha
    obtain ⟨hQ, rfl⟩ := (hf a _ _ _).mp hb
    exact ⟨⟨a, hP, hQ⟩, rfl⟩
  · rintro ⟨⟨a, hP, hQ⟩, rfl⟩
    exact ⟨a, after, (hr _ _ _).mpr ⟨hP, rfl⟩, (hf a _ _ _).mpr ⟨hQ, rfl⟩⟩

theorem congr {Q : α → Prop} (hr : r.Gives P) (h : ∀ a, P a ↔ Q a) : r.Gives Q := by
  intro before a after
  rw [hr, h]

/-- Results that are collected one by one. -/
theorem sequence {ι : Type} {items : List ι} {r : ι → Rendering α} {P : ι → α → Prop}
    (h : ∀ i ∈ items, (r i).Gives (P i)) :
    (Rendering.sequence (items.map r)).Gives (List.Forall₂ P items) := by
  induction items with
  | nil => exact (pure []).congr fun _ => List.forall₂_nil_left_iff.symm
  | cons i rest ih =>
      have hi := h i List.mem_cons_self
      have hrest := ih fun j hj => h j (List.mem_cons_of_mem _ hj)
      refine (hi.bind fun a => hrest.bind fun as => pure (a :: as)).congr ?_
      intro as
      simp only [List.forall₂_cons_left_iff, exists_and_left]

end Gives

end Rendering

open Rendering (Gives)

theorem Expr.detached_gives (t : Translator) (e : Expr) :
    (e.render t).detached.Gives (e.render t).Writes := by
  intro before f after
  constructor
  · intro h
    obtain ⟨outcome, written, happends, hmarks⟩ := e.render_appends t
    rw [happends.run_detached hmarks] at h
    obtain ⟨houtcome, rfl⟩ := Prod.mk.injEq _ _ _ _ ▸ h
    obtain ⟨_, rfl, rfl⟩ := map_eq_ok_iff.mp houtcome
    refine ⟨?_, rfl⟩
    have hwritten : written = .ofFragment written.fragment := Output.ext rfl rfl hmarks
    rw [Rendering.Writes, ← hwritten]
    exact happends
  · rintro ⟨hwrites, rfl⟩
    exact hwrites.run_detached rfl after

theorem Expr.detached?_gives (t : Translator) (e : Option Expr) :
    (Rendering.detached? (Expr.rendering? t e)).Gives
      (Option.Rel (fun e f => (e.render t).Writes f) e) := by
  cases e with
  | none =>
      refine (Gives.pure none).congr fun f => ?_
      cases f <;> simp
  | some e =>
      refine ((e.detached_gives t).bind fun f => Gives.pure (some f)).congr fun f => ?_
      cases f <;> simp

/-- The value where the condition is true, and null elsewhere. -/
def Fragment.caseWhen (condition value : Fragment) : Fragment :=
  .ofText "case when " ++ condition ++ .ofText " then " ++ value ++ .ofText " else null end"

namespace Translator

/-- The value of an argument where a filter is put into it. A star becomes a number. -/
def ValueAs (t : Translator) (arg : Expr) (value : Fragment) : Prop :=
  if arg.isStar then value = .ofText "1" else (arg.render t).Writes value

/-- What is put into a template for an argument of a call with this filter. -/
def ArgumentAs (t : Translator) (condition : Option Fragment) (arg : Expr) (f : Fragment) : Prop :=
  match condition, t.supports .filterClause with
  | some c, false => ∃ value, t.ValueAs arg value ∧ f = .caseWhen c value
  | _, _ => (arg.render t).Writes f

/-- The call with its filter behind it, where the backend has a filter clause. -/
def withFilter (t : Translator) (condition : Option Fragment) (called : Fragment) : Fragment :=
  match condition, t.supports .filterClause with
  | some c, true => called ++ .ofText " filter (where " ++ c ++ .ofText ")"
  | _, _ => called

/-- The arguments as they are put into the template. -/
def marked (distinct : Bool) (values : List Fragment) : List Fragment :=
  if distinct then markDistinct values else values

theorem filteredArgument_gives (t : Translator) (condition : Fragment) (arg : Expr) :
    (filteredArgument condition arg (arg.render t)).Gives fun f =>
      ∃ value, t.ValueAs arg value ∧ f = .caseWhen condition value := by
  have hvalue : (if arg.isStar then pure (.ofText "1") else (arg.render t).detached :
      Rendering Fragment).Gives (t.ValueAs arg) := by
    unfold ValueAs
    cases arg.isStar with
    | true => exact Gives.pure _
    | false => exact arg.detached_gives t
  exact hvalue.bind fun value => Gives.pure _

/-- An argument as it is put into the template of a call with this filter. -/
def argument (t : Translator) (condition : Option Fragment) (arg : Expr) : Rendering Fragment :=
  match condition, t.supports .filterClause with
  | some c, false => filteredArgument c arg (arg.render t)
  | _, _ => (arg.render t).detached

theorem argument_gives (t : Translator) (condition : Option Fragment) (arg : Expr) :
    (t.argument condition arg).Gives (t.ArgumentAs condition arg) := by
  unfold argument ArgumentAs
  split
  next c _ => exact t.filteredArgument_gives c arg
  next => exact arg.detached_gives t

end Translator

namespace Call

open Translator (marked)

variable {t : Translator} {c : Call}

/-- The texts that the template of a call is given for the arguments, and what it makes
of them. -/
structure Prepared (t : Translator) (c : Call) (condition : Option Fragment)
    (values : List Fragment) (called : Fragment) : Prop where
  arguments : List.Forall₂ (t.ArgumentAs condition) c.args values
  call : t.dialect.functions.call c.name (marked c.distinct values) = .ok called

/-- What a call is written as: its filter, its arguments, and the template of its
function in between. -/
def WrittenAs (t : Translator) (c : Call) (written : Fragment) : Prop :=
  ∃ condition values called, Option.Rel (fun e f => (e.render t).Writes f) c.filter condition ∧
    c.Prepared t condition values called ∧ written = t.withFilter condition called

/-- The text of a call, before it is written. -/
def fragment (t : Translator) (c : Call) : Rendering Fragment := do
  let condition ← Rendering.detached? (Expr.rendering? t c.filter)
  let values ← .sequence (c.args.map (t.argument condition))
  let called ← .ofExcept (t.dialect.functions.call c.name (marked c.distinct values))
  return t.withFilter condition called

theorem fragment_gives (t : Translator) (c : Call) : (c.fragment t).Gives (c.WrittenAs t) := by
  have hgives := (Expr.detached?_gives t c.filter).bind fun condition =>
    (Gives.sequence fun arg (_ : arg ∈ c.args) => t.argument_gives condition arg).bind fun values =>
      (Gives.ofExcept (t.dialect.functions.call c.name (marked c.distinct values))).bind
        fun called => Gives.pure (t.withFilter condition called)
  refine hgives.congr fun written => ?_
  constructor
  · rintro ⟨condition, hcondition, values, hvalues, called, hcalled, hwritten⟩
    exact ⟨condition, values, called, hcondition, ⟨hvalues, hcalled⟩, hwritten⟩
  · rintro ⟨condition, values, called, hcondition, ⟨hvalues, hcalled⟩, hwritten⟩
    exact ⟨condition, hcondition, values, hvalues, called, hcalled, hwritten⟩

theorem render_eq : c.render t = c.fragment t >>= Rendering.emitFragment := by
  obtain ⟨name, args, distinct, filter⟩ := c
  have hargs : args.zip (Expr.renderings t args) = args.map fun arg => (arg, arg.render t) := by
    rw [Expr.renderings_eq_map, List.map_prod_left_eq_zip]
  rw [render, Translator.call, hargs]
  simp only [fragment, bind_assoc, pure_bind, List.map_map]
  congr 1
  funext condition
  -- What is left differs only in where the cases of the filter are told apart.
  unfold Translator.argument Translator.withFilter
  cases condition with
  | none => rfl
  | some f => cases t.supports .filterClause <;> rfl

theorem run_iff {before after : Output} :
    (c.render t).run before = (.ok (), after) ↔
      ∃ written, c.WrittenAs t written ∧ after = before ++ .ofFragment written := by
  rw [render_eq, Rendering.run_bind_ok_iff]
  constructor
  · rintro ⟨written, middle, hfragment, hlast⟩
    obtain ⟨hwritten, rfl⟩ := (c.fragment_gives t _ _ _).mp hfragment
    exact ⟨written, hwritten, (congrArg Prod.snd hlast).symm⟩
  · rintro ⟨written, hwritten, rfl⟩
    exact ⟨written, before, (c.fragment_gives t _ _ _).mpr ⟨hwritten, rfl⟩, rfl⟩

theorem writes_iff {written : Fragment} :
    (c.render t).Writes written ↔ c.WrittenAs t written := by
  constructor
  · intro h
    obtain ⟨other, hother, hsame⟩ := run_iff.mp (h {})
    rw [Output.empty_append, Output.empty_append] at hsame
    have hfragment : written = other := congrArg Output.fragment hsame
    exact hfragment ▸ hother
  · intro h before
    exact run_iff.mpr ⟨written, h, rfl⟩

end Call

namespace Translator

theorem length_marked (distinct : Bool) (values : List Fragment) :
    (marked distinct values).length = values.length := by
  unfold marked
  split
  · exact length_markDistinct values
  · rfl

/-- The mark changes no argument but the first. -/
theorem getElem?_marked_succ (distinct : Bool) (values : List Fragment) (i : Nat) :
    (marked distinct values)[i + 1]? = values[i + 1]? := by
  cases distinct <;> cases values <;> rfl

theorem exists_marked_contains (distinct : Bool) {values : List Fragment} {i : Nat} {v : Fragment}
    (h : values[i]? = some v) : ∃ w, (marked distinct values)[i]? = some w ∧ w.Contains v := by
  cases i with
  | succ i => exact ⟨v, by rw [getElem?_marked_succ, h], .refl v⟩
  | zero =>
      cases values with
      | nil => cases h
      | cons first rest =>
          cases h
          cases distinct with
          | false => exact ⟨v, rfl, .refl v⟩
          | true => exact ⟨.ofText "distinct " ++ v, rfl, (Fragment.Contains.refl v).append_left _⟩

variable {t : Translator} {arg : Expr} {f : Fragment}

theorem argumentAs_native (h : t.supports .filterClause = true) (condition : Option Fragment) :
    t.ArgumentAs condition arg f ↔ (arg.render t).Writes f := by
  unfold ArgumentAs
  rw [h]
  cases condition <;> rfl

theorem argumentAs_emulated (h : t.supports .filterClause = false) (condition : Fragment) :
    t.ArgumentAs (some condition) arg f ↔
      ∃ value, t.ValueAs arg value ∧ f = .caseWhen condition value := by
  unfold ArgumentAs
  rw [h]

theorem withFilter_native (h : t.supports .filterClause = true) (condition called : Fragment) :
    t.withFilter (some condition) called =
      called ++ .ofText " filter (where " ++ condition ++ .ofText ")" := by
  unfold withFilter
  rw [h]

theorem withFilter_emulated (h : t.supports .filterClause = false) (condition : Option Fragment)
    (called : Fragment) : t.withFilter condition called = called := by
  unfold withFilter
  rw [h]
  cases condition <;> rfl

/-- Also a star has a text of its own. -/
theorem exists_writes_of_argumentAs {condition : Option Fragment} (h : t.ArgumentAs condition arg f) :
    ∃ g, (arg.render t).Writes g := by
  unfold ArgumentAs at h
  split at h
  next =>
    obtain ⟨value, hvalue, _⟩ := h
    unfold ValueAs at hvalue
    split at hvalue
    next hstar =>
      cases arg with
      | star table => exact ⟨_, Rendering.Appends.emit _⟩
      | _ => cases hstar
    next => exact ⟨value, hvalue⟩
  next => exact ⟨f, h⟩

end Translator

end SqlBackend
