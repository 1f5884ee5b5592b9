import SqlBackend.Proofs.Render.Discipline

/-! # Operands of conditions

The condition that stands in for a predicate is made of the predicate's own
operands and of fixed words.
-/

namespace SqlBackend

namespace Formula

variable {α : Type}

mutual

/-- All operands of the formula have a property. -/
def Over (p : α → Prop) : Formula α → Prop
  | comparison _ left right => p left ∧ p right
  | isNull operand => p operand
  | negation inner => Over p inner
  | all parts => OverAll p parts
  | any parts => OverAll p parts
  | group inner => Over p inner
  | isTrue condition _ => Over p condition

def OverAll (p : α → Prop) : List (Formula α) → Prop
  | [] => True
  | part :: rest => Over p part ∧ OverAll p rest

end

theorem overAll_iff {p : α → Prop} {parts : List (Formula α)} :
    OverAll p parts ↔ ∀ part ∈ parts, Over p part := by
  induction parts with
  | nil => simp [OverAll]
  | cons part rest ih => simp [OverAll, ih]

end Formula

namespace RowPredicate

variable {α : Type} {p : α → Prop} {pairs : List (α × α)}

theorem equal_over (h : ∀ q ∈ pairs, p q.1 ∧ p q.2) : (equal pairs).Over p := by
  simp only [equal, Formula.Over, Formula.overAll_iff, List.mem_map]
  rintro part ⟨q, hq, rfl⟩
  exact h q hq

theorem different_over (h : ∀ q ∈ pairs, p q.1 ∧ p q.2) : (different pairs).Over p := by
  simp only [different, Formula.Over, Formula.overAll_iff, List.mem_map]
  rintro part ⟨q, hq, rfl⟩
  exact h q hq

theorem lexicographic_over {op : BinaryOp} (h : ∀ q ∈ pairs, p q.1 ∧ p q.2) :
    (lexicographic op pairs).Over p := by
  induction pairs with
  | nil => simp [lexicographic, Formula.Over, Formula.OverAll]
  | cons q rest ih =>
      have hq := h q (by simp)
      have hrest := ih fun q hq => h q (by simp [hq])
      cases rest with
      | nil => simpa [lexicographic, Formula.Over] using hq
      | cons r rest =>
          simp only [lexicographic, Formula.Over, Formula.OverAll, and_true]
          refine ⟨hq, hq, ?_⟩
          split
          · exact hrest
          · exact hrest

theorem comparison_over {op : BinaryOp} (h : ∀ q ∈ pairs, p q.1 ∧ p q.2) :
    (comparison op pairs).Over p := by
  unfold comparison
  split
  · exact equal_over h
  · exact different_over h
  · exact lexicographic_over h

theorem zip_over {left right : List α} (hleft : ∀ a ∈ left, p a) (hright : ∀ a ∈ right, p a) :
    ∀ q ∈ left.zip right, p q.1 ∧ p q.2 := by
  intro q hq
  exact ⟨hleft _ (List.of_mem_zip hq).1, hright _ (List.of_mem_zip hq).2⟩

theorem member_over {row : List α} {candidates : List (List α)} {negated : Bool}
    (hrow : ∀ a ∈ row, p a) (hcandidates : ∀ c ∈ candidates, ∀ a ∈ c, p a) :
    (member row candidates negated).Over p := by
  have hfound : (Formula.group (.any (candidates.map fun c => equal (row.zip c)))).Over p := by
    simp only [Formula.Over, Formula.overAll_iff, List.mem_map]
    rintro f ⟨c, hc, rfl⟩
    exact equal_over (zip_over hrow (hcandidates c hc))
  unfold member
  split
  · exact hfound
  · exact hfound

theorem distinct_over {left right : α} {negated : Bool} (hleft : p left) (hright : p right) :
    (distinct left right negated).Over p := by
  simp [distinct, Formula.Over, Formula.OverAll, hleft, hright]

end RowPredicate

namespace Discipline

variable {t : Translator} (D : Discipline t)

mutual

theorem fragment_formula : ∀ f : Formula Fragment, f.Over D.fragment → D.fragment f.fragment
  | .comparison op left right, h =>
      D.fragment_append
        (D.fragment_append h.1 (D.fragment_words (by cases op <;> rfl))) h.2
  | .isNull operand, h => D.fragment_append h (D.fragment_words rfl)
  | .negation inner, h =>
      D.fragment_append (D.fragment_words rfl) (fragment_formula inner h)
  | .all parts, h => D.fragment_joined rfl (fragment_formulas parts h)
  | .any parts, h => D.fragment_joined rfl (fragment_formulas parts h)
  | .group inner, h => D.fragment_parenthesized (fragment_formula inner h)
  | .isTrue condition negated, h =>
      D.fragment_append
        (D.fragment_append (D.fragment_words rfl) (fragment_formula condition h))
        (D.fragment_words (by cases negated <;> rfl))

theorem fragment_formulas : ∀ fs : List (Formula Fragment), Formula.OverAll D.fragment fs →
    ∀ f ∈ Formula.fragments fs, D.fragment f
  | [], _ => by simp [Formula.fragments]
  | f :: rest, h => by
      have hf := fragment_formula f h.1
      have hrest := fragment_formulas rest h.2
      simpa [Formula.fragments] using ⟨hf, hrest⟩

end

end Discipline

end SqlBackend
