import SqlBackend.Proofs.Predicate.Words
import SqlBackend.Proofs.Render.AppendOnly
import SqlBackend.Proofs.Rows.Expanded
import SqlBackend.Proofs.Rows.Refines

/-! # Rows are written as their expansions

Without row constructors, comparisons of rows and memberships in lists of rows
are written from the fragments of their elements. What comes out is the text of
the expanded expression, because the condition over the fragments is the same as
the condition over the elements.
-/

namespace SqlBackend

open Rendering (Refines RefinesAll)
open Rendering.Appends (emit)

/-- The backend takes rows apart or refuses them. -/
structure Translator.Rowless (t : Translator) : Prop where
  rowConstructor : t.supports .rowConstructor = false
  rowOrderComparison : t.supports .rowOrderComparison = false
  rowInSubquery : t.supports .rowInSubquery = false

theorem Translator.Rowless.rowFeature {t : Translator} (h : t.Rowless) (op : BinaryOp) :
    t.supports op.rowFeature = false := by
  cases op <;> first | exact h.rowConstructor | exact h.rowOrderComparison

namespace Expr

variable {t : Translator}

/-- What the expression is rendered as by itself. -/
def written (t : Translator) (e : Expr) : Fragment := ((e.render t).run {}).2.fragment

/-- The expression is no tuple, and rendered as the same fragment behind any output. -/
structure Single (t : Translator) (e : Expr) : Prop where
  untupled : e.isTuple = false
  appends : (e.render t).Appends (.ok ()) (.ofFragment (e.written t))

/-- Rendered apart an expression gives the fragment that it is rendered as anywhere. -/
theorem single_of_detached {e : Expr} (htuple : e.isTuple = false) {before after : Output}
    {f : Fragment} (h : (e.render t).detached.run before = (.ok f, after)) :
    after = before ∧ f = e.written t ∧ e.Single t := by
  obtain ⟨outcome, output, happends, hmarks⟩ := e.render_appends t
  rw [happends.run_detached hmarks] at h
  obtain ⟨houtcome, rfl⟩ := Prod.mk.inj h
  obtain ⟨_, rfl, rfl⟩ := map_eq_ok_iff.mp houtcome
  have hwritten : output.fragment = e.written t := by
    rw [written, happends, Output.empty_append]
  have houtput : output = .ofFragment (e.written t) := by
    rw [← hwritten]
    exact Output.ext rfl rfl hmarks
  rw [houtput] at happends
  exact ⟨rfl, hwritten, htuple, happends⟩

theorem single_of_fragments {es : List Expr} (htuples : ∀ e ∈ es, e.isTuple = false)
    {before after : Output} {fs : List Fragment}
    (h : (Rendering.fragments (renderings t es)).run before = (.ok fs, after)) :
    after = before ∧ fs = es.map (written t) ∧ ∀ e ∈ es, e.Single t := by
  induction es generalizing before after fs with
  | nil =>
      cases h
      exact ⟨rfl, rfl, by simp⟩
  | cons e rest ih =>
      obtain ⟨htuple, htuples⟩ := List.forall_mem_cons.mp htuples
      rw [renderings] at h
      obtain ⟨f, _, he, hnext⟩ := Rendering.run_bind_ok h
      obtain ⟨tail, _, hrest, hpure⟩ := Rendering.run_bind_ok hnext
      obtain ⟨rfl, rfl, hsingle⟩ := single_of_detached htuple he
      obtain ⟨rfl, rfl, hsingles⟩ := ih htuples hrest
      cases hpure
      exact ⟨rfl, rfl, List.forall_mem_cons.mpr ⟨hsingle, hsingles⟩⟩

theorem chained_appends {op : BinaryOp} (hop : op.isComparison = false) {es : List Expr}
    {fs : List Fragment}
    (h : List.Forall₂ (fun e f => (e.render t).Appends (.ok ()) (.ofFragment f)) es fs) :
    ((chained op es).render t).Appends (.ok ())
      (.ofFragment (.joined (" " ++ op.text ++ " ") fs)) := by
  induction h with
  | nil =>
      rw [chained, blank, render]
      exact emit ""
  | cons he hrest ih =>
      cases hrest with
      | nil => exact he
      | cons =>
          rw [chained, render, if_neg (by simp [hop]), Fragment.joined, Fragment.append_assoc]
          exact he.seq ((emit _).seq ih)

end Expr

namespace Formula

variable {t : Translator}

/-- The words of a choice, written one after the other and all at once. -/
theorem choice_text (f : Fragment) (negated : Bool) :
    .ofText "case" ++ (.ofText " when " ++ (f ++ (.ofText " then " ++
      .ofText (toString (0 : Int)))) ++ (.ofText " else " ++ .ofText (toString (1 : Int)) ++
      .ofText " end")) ++ (.ofText " = " ++ .ofText (toString (if negated then 1 else 0 : Int))) =
      (.ofText "case when " ++ f ++
        .ofText (" then 0 else 1 end = " ++ if negated then "1" else "0") : Fragment) := by
  have hbefore : "case when " = "case" ++ " when " := rfl
  have hbehind : " then 0 else 1 end = " = " then " ++ ("0" ++ (" else " ++ ("1" ++ (" end" ++
    " = ")))) := rfl
  ext
  · simp only [Fragment.text_append, Fragment.text_ofText, hbefore, hbehind, String.append_assoc]
    cases negated <;> rfl
  · simp

mutual

/-- A formula over expressions is written as the formula over what they are written as. -/
theorem toExpr_appends : ∀ f : Formula Expr, f.Over (Expr.Single t) →
    (f.toExpr.render t).Appends (.ok ()) (.ofFragment (f.map (Expr.written t)).fragment)
  | comparison op left right, h => by
      rw [toExpr, Expr.render, if_neg (by simp [h.1.untupled]), map, fragment,
        Fragment.append_assoc]
      exact h.1.appends.seq ((emit _).seq h.2.appends)
  | isNull operand, h => by
      rw [toExpr, Expr.render, map, fragment]
      exact h.appends.seq (emit _)
  | negation inner, h => by
      rw [toExpr, Expr.render, map, fragment]
      exact (emit _).seq (toExpr_appends inner h)
  | all parts, h => by
      rw [toExpr, map, fragment]
      exact Expr.chained_appends rfl (toExprs_appends parts h)
  | any parts, h => by
      rw [toExpr, map, fragment]
      exact Expr.chained_appends rfl (toExprs_appends parts h)
  | group inner, h => by
      rw [toExpr, Expr.render, map, fragment, Fragment.parenthesized, Fragment.append_assoc]
      exact (emit _).seq ((toExpr_appends inner h).seq (emit _))
  | isTrue condition negated, h => by
      -- The choice is put together from its words; the formula writes them in two pieces.
      have hnumber : ∀ value : Int, ((Expr.literal (.integer value)).render t).Appends (.ok ())
          (.ofFragment (.ofText (toString value))) := fun value => by
        rw [Expr.render]
        exact emit _
      have hbranch := (emit " when ").seq ((toExpr_appends condition h).seq
        ((emit " then ").seq (hnumber 0)))
      have hcase := (emit "case").seq (hbranch.seq (((emit " else ").seq (hnumber 1)).seq
        (emit " end")))
      have htest := hcase.seq ((emit " = ").seq (hnumber (if negated then 1 else 0)))
      rw [choice_text] at htest
      rw [toExpr, Expr.render, if_neg (by simp [Expr.isTuple]), Expr.render, map, fragment]
      exact htest

theorem toExprs_appends : ∀ parts : List (Formula Expr), OverAll (Expr.Single t) parts →
    List.Forall₂ (fun e f => (e.render t).Appends (.ok ()) (.ofFragment f)) (toExprs parts)
      (fragments (mapAll (Expr.written t) parts))
  | [], _ => by
      rw [toExprs, mapAll, fragments]
      exact .nil
  | part :: rest, h => by
      rw [toExprs, mapAll, fragments]
      exact .cons (toExpr_appends part h.1) (toExprs_appends rest h.2)

end

end Formula

namespace Translator

variable {t : Translator}

theorem rowComparison_refines (ht : t.Rowless) {op : BinaryOp} {left right : List (Rendering Unit)}
    {left' right' : List Expr} (hleft : RefinesAll left (Expr.renderings t left'))
    (hright : RefinesAll right (Expr.renderings t right'))
    (hltuples : ∀ e ∈ left', e.isTuple = false) (hrtuples : ∀ e ∈ right', e.isTuple = false) :
    (t.rowComparison op left right).Refines
      ((RowPredicate.comparison op (left'.zip right')).toExpr.render t) := by
  intro before a after h
  unfold rowComparison at h
  split at h
  next => cases h
  next =>
    obtain ⟨l, _, hl, hnext⟩ := Rendering.run_bind_ok h
    obtain ⟨r, _, hr, hemit⟩ := Rendering.run_bind_ok hnext
    obtain ⟨rfl, rfl, hleft⟩ := Expr.single_of_fragments hltuples (hleft.fragments _ _ _ hl)
    obtain ⟨rfl, rfl, hright⟩ := Expr.single_of_fragments hrtuples (hright.fragments _ _ _ hr)
    rw [ht.rowFeature] at hemit
    cases hemit
    have hover : (RowPredicate.comparison op (left'.zip right')).Over (Expr.Single t) :=
      RowPredicate.comparison_over (RowPredicate.zip_over hleft hright)
    rw [Formula.toExpr_appends _ hover, RowPredicate.map_comparison, List.zip_map]

/-- The elements of rows are kept apart row by row. -/
theorem single_of_rows {width : Nat} {items : List Expr} {rows' : List (List Expr)}
    (hitems : List.Forall₂ (fun item row => RefinesAll (item.elements t) (Expr.renderings t row))
      items rows')
    (htuples : ∀ row ∈ rows', ∀ e ∈ row, e.isTuple = false) {before after : Output}
    {rows : List (List Fragment)}
    (h : (Expr.rows t width items).run before = (.ok rows, after)) :
    after = before ∧ rows = rows'.map (List.map (Expr.written t)) ∧
      ∀ row ∈ rows', ∀ e ∈ row, e.Single t := by
  induction hitems generalizing before after rows with
  | nil =>
      rw [Expr.rows] at h
      cases h
      exact ⟨rfl, rfl, by simp⟩
  | cons hitem _ ih =>
      obtain ⟨htuple, htuples⟩ := List.forall_mem_cons.mp htuples
      rw [Expr.rows] at h
      obtain ⟨fs, _, hrow, hnext⟩ := Rendering.run_bind_ok h
      obtain ⟨tail, _, hrest, hpure⟩ := Rendering.run_bind_ok hnext
      split at hrow
      next =>
        unfold Translator.row at hrow
        split at hrow
        next =>
          obtain ⟨rfl, rfl, hsingle⟩ :=
            Expr.single_of_fragments htuple (hitem.fragments _ _ _ hrow)
          obtain ⟨rfl, rfl, hsingles⟩ := ih htuples hrest
          cases hpure
          exact ⟨rfl, rfl, List.forall_mem_cons.mpr ⟨hsingle, hsingles⟩⟩
        next => cases hrow
      next => cases hrow

theorem rowMember_refines {width : Nat} {elements : List (Rendering Unit)} {items : List Expr}
    {row' : List Expr} {rows' : List (List Expr)} {negated : Bool}
    (helements : RefinesAll elements (Expr.renderings t row'))
    (hitems : List.Forall₂ (fun item row => RefinesAll (item.elements t) (Expr.renderings t row))
      items rows')
    (hrow : ∀ e ∈ row', e.isTuple = false) (hrows : ∀ row ∈ rows', ∀ e ∈ row, e.isTuple = false) :
    (rowMember elements (Expr.rows t width items) negated).Refines
      ((RowPredicate.member row' rows' negated).toExpr.render t) := by
  intro before a after h
  unfold rowMember at h
  split at h
  next => cases h
  next =>
    obtain ⟨fs, _, hfragments, hnext⟩ := Rendering.run_bind_ok h
    obtain ⟨rows, _, hcandidates, hemit⟩ := Rendering.run_bind_ok hnext
    obtain ⟨rfl, rfl, hrow⟩ :=
      Expr.single_of_fragments hrow (helements.fragments _ _ _ hfragments)
    obtain ⟨rfl, rfl, hrows⟩ := single_of_rows hitems hrows hcandidates
    cases hemit
    have hover : (RowPredicate.member row' rows' negated).Over (Expr.Single t) :=
      RowPredicate.member_over hrow hrows
    rw [Formula.toExpr_appends _ hover, RowPredicate.map_member]

end Translator

end SqlBackend
