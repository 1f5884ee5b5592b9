import SqlBackend.Proofs.Literal.Alike

/-! # Renderings that do at least as well

One rendering does at least as well as another if it writes the same wherever the
other one ends well. Where the other one fails it may do anything. A clause does
at least as well if its parts do.
-/

namespace SqlBackend

namespace Rendering

variable {α β : Type}

/-- Wherever the first rendering ends well the second one ends in the same way. -/
def Refines (r r' : Rendering α) : Prop :=
  ∀ before a after, r.run before = (.ok a, after) → r'.run before = (.ok a, after)

/-- Renderings of which each does at least as well as the one in its place. -/
abbrev RefinesAll (rs rs' : List (Rendering Unit)) : Prop := List.Forall₂ Refines rs rs'

namespace Refines

theorem refl (r : Rendering α) : r.Refines r := fun _ _ _ h => h

theorem fail (e : Error) (r : Rendering α) : (Rendering.fail e).Refines r := by
  rintro before a after ⟨⟩

theorem bind {r r' : Rendering α} {f f' : α → Rendering β} (hr : r.Refines r')
    (hf : ∀ a, (f a).Refines (f' a)) : (r >>= f).Refines (r' >>= f') := by
  intro before b last h
  obtain ⟨a, after, hrun, hnext⟩ := run_bind_ok h
  rw [run_bind, hr before a after hrun]
  exact hf a after b last hnext

theorem seq {r r' : Rendering α} {s s' : Rendering β} (hr : r.Refines r') (hs : s.Refines s') :
    (r >>= fun _ => s).Refines (r' >>= fun _ => s') :=
  hr.bind fun _ => hs

/-- The same first step on both sides. -/
theorem skip {r : Rendering α} {s s' : Rendering β} (hs : s.Refines s') :
    (r >>= fun _ => s).Refines (r >>= fun _ => s') :=
  (refl r).seq hs

/-- The same last step on both sides. -/
theorem keep {r r' : Rendering α} {s : Rendering β} (hr : r.Refines r') :
    (r >>= fun _ => s).Refines (r' >>= fun _ => s) :=
  hr.seq (refl s)

theorem detached {r r' : Rendering Unit} (h : r.Refines r') : r.detached.Refines r'.detached := by
  rintro before f _ hrun
  obtain ⟨houtcome, rfl⟩ := Prod.mk.inj hrun
  obtain ⟨_, hinner, rfl⟩ := map_eq_ok_iff.mp houtcome
  have hrun' := h _ _ _ (Prod.ext hinner rfl)
  simp only [Rendering.detached, hrun']
  rfl

theorem sequence {rs rs' : List (Rendering α)} (h : List.Forall₂ Refines rs rs') :
    (Rendering.sequence rs).Refines (Rendering.sequence rs') := by
  induction h with
  | nil => exact refl _
  | cons hr _ ih => exact hr.bind fun _ => ih.bind fun _ => refl _

end Refines

namespace RefinesAll

variable {rs rs' : List (Rendering Unit)} {o o' : Option (Rendering Unit)}
  {lead separator : String}

theorem separated (h : RefinesAll rs rs') :
    (Rendering.separated separator rs).Refines (Rendering.separated separator rs') := by
  induction h with
  | nil => exact .refl _
  | cons hr hrest ih =>
      cases hrest with
      | nil => exact hr
      | cons => exact hr.seq (.skip ih)

theorem listed (h : RefinesAll rs rs') :
    (Rendering.listed lead rs).Refines (Rendering.listed lead rs') := by
  cases h with
  | nil => exact .refl _
  | cons hr hrest => exact .skip (separated (.cons hr hrest))

theorem fragments (h : RefinesAll rs rs') :
    (Rendering.fragments rs).Refines (Rendering.fragments rs') := by
  refine .sequence ?_
  rw [List.forall₂_map_left_iff, List.forall₂_map_right_iff]
  exact h.imp fun _ _ => Refines.detached

theorem map {ι κ : Type} {items : List ι} {g : ι → κ} {r : ι → Rendering Unit}
    {r' : κ → Rendering Unit} (h : ∀ i ∈ items, (r i).Refines (r' (g i))) :
    RefinesAll (items.map r) ((items.map g).map r') := by
  induction items with
  | nil => exact .nil
  | cons i rest ih =>
      obtain ⟨hi, hrest⟩ := List.forall_mem_cons.mp h
      exact .cons hi (ih hrest)

end RefinesAll

theorem Refines.optional {lead : String} {o o' : Option (Rendering Unit)}
    (h : Option.Rel Refines o o') :
    (Rendering.optional lead o).Refines (Rendering.optional lead o') := by
  cases h with
  | none => exact .refl _
  | some hr => exact .skip hr

theorem Refines.detached? {o o' : Option (Rendering Unit)} (h : Option.Rel Refines o o') :
    (Rendering.detached? o).Refines (Rendering.detached? o') := by
  cases h with
  | none => exact .refl _
  | some hr => exact hr.detached.bind fun _ => .refl _

end Rendering

open Rendering (Refines RefinesAll emit)

/-- The literal that the expression is, if it is one. -/
def Expr.literal? : Expr → Option Literal
  | literal value => some value
  | _ => none

namespace Translator

variable {t : Translator} {left left' right right' query query' subject subject' rendered
    rendered' : Rendering Unit}
  {items items' order order' : List (Rendering Unit)}
  {operand? operand?' condition? condition?' escape? escape?' : Option (Rendering Unit)}

theorem cte_refines {name : String} {columns : List String} {hint : Option Materialization}
    (h : query.Refines query') :
    (t.cte name columns hint query).Refines (t.cte name columns hint query') :=
  .skip (.skip (.skip (.skip (.skip (.skip h.keep)))))

theorem ctes_refines {mutation recursive : Bool} (h : RefinesAll items items') :
    (t.ctes mutation recursive items).Refines (t.ctes mutation recursive items') :=
  .skip (.skip (.skip (.skip h.separated.keep)))

theorem join_refines {kind : JoinKind} {lateral : Bool} (hleft : left.Refines left')
    (hright : right.Refines right') (hcondition : Option.Rel Refines condition? condition?') :
    (t.join left kind lateral right condition?).Refines
      (t.join left' kind lateral right' condition?') :=
  hleft.seq (.skip (.skip (.skip (.skip (hright.seq (.optional hcondition))))))

theorem distinctFrom_refines {negated : Bool} (hleft : left.Refines left')
    (hright : right.Refines right') :
    (t.distinctFrom left right negated).Refines (t.distinctFrom left' right' negated) := by
  unfold distinctFrom
  split
  · exact hleft.seq (.skip hright)
  · exact hleft.detached.bind fun _ => hright.detached.bind fun _ => .refl _

theorem escapeClause_refines (h : Option.Rel Refines escape? escape?') :
    (escapeClause escape?).Refines (escapeClause escape?') := by
  cases h with
  | none => exact .refl _
  | some hr => exact .skip hr

/-- How a pattern is written depends on its literal, if it is one. -/
theorem reescaped_eq (pattern : Expr) (rendered : Rendering Unit) :
    reescaped pattern rendered =
      (match pattern.literal? with
        | some (.string value) => emit (Text.literal (Text.doubled '\\' value))
        | some .null => rendered
        | _ => emit "replace(" >>= fun _ => rendered >>= fun _ => emit ",'\\','\\\\')") := by
  cases pattern with
  | literal value => cases value <;> rfl
  | _ => rfl

theorem reescaped_refines {pattern pattern' : Expr}
    (hpattern : pattern'.literal? = pattern.literal?) (h : rendered.Refines rendered') :
    (reescaped pattern rendered).Refines (reescaped pattern' rendered') := by
  rw [reescaped_eq, reescaped_eq, hpattern]
  split
  · exact .refl _
  · exact h
  · exact .skip h.keep

theorem likePattern_refines {pattern pattern' : Expr}
    (hpattern : pattern'.literal? = pattern.literal?) (h : rendered.Refines rendered')
    (hescape : Option.Rel Refines escape? escape?') :
    (t.likePattern pattern rendered escape?).Refines
      (t.likePattern pattern' rendered' escape?') := by
  have hclause := h.seq (escapeClause_refines hescape)
  unfold likePattern
  cases hescape with
  | some => rcases t.style with _ | _ | _ <;> exact hclause
  | none =>
      split
      · exact reescaped_refines hpattern h
      · exact h
      · exact hclause

theorem like_refines {pattern pattern' : Expr} {negated caseSensitive : Bool}
    (hsubject : subject.Refines subject') (hpattern : pattern'.literal? = pattern.literal?)
    (h : rendered.Refines rendered') (hescape : Option.Rel Refines escape? escape?') :
    (t.like subject pattern rendered escape? negated caseSensitive).Refines
      (t.like subject' pattern' rendered' escape?' negated caseSensitive) := by
  unfold like
  split
  · exact .skip (hsubject.seq (.skip (h.seq (.skip (escapeClause_refines hescape)))))
  · exact hsubject.seq (.skip (likePattern_refines hpattern h hescape))

theorem filteredArgument_refines {condition : Fragment} {arg arg' : Expr}
    (hstar : arg'.isStar = arg.isStar) (h : rendered.Refines rendered') :
    (filteredArgument condition arg rendered).Refines
      (filteredArgument condition arg' rendered') := by
  unfold filteredArgument
  rw [hstar]
  split
  · exact .refl _
  · exact h.detached.bind fun _ => .refl _

theorem call_refines {name : String} {args args' : List (Expr × Rendering Unit)} {distinct : Bool}
    {filter filter' : Option (Rendering Unit)}
    (hargs : List.Forall₂ (fun arg arg' => arg'.1.isStar = arg.1.isStar ∧ arg.2.Refines arg'.2)
      args args') (hfilter : Option.Rel Refines filter filter') :
    (t.call name args distinct filter).Refines (t.call name args' distinct filter') := by
  refine (Refines.detached? hfilter).bind fun condition => ?_
  refine Refines.bind (.sequence ?_) fun _ => .refl _
  rw [List.forall₂_map_left_iff, List.forall₂_map_right_iff]
  refine hargs.imp fun arg arg' harg => ?_
  split
  · exact filteredArgument_refines harg.1 harg.2
  · exact harg.2.detached

theorem window_refines {partition partition' : List (Rendering Unit)}
    (hpartition : RefinesAll partition partition') (horder : RefinesAll order order') :
    (t.window partition order).Refines (t.window partition' order') := by
  unfold window
  rw [isEmpty_eq_of_forall₂ hpartition, isEmpty_eq_of_forall₂ horder]
  exact .skip (.skip (hpartition.listed.seq (.skip horder.listed.keep)))

theorem caseOf_refines (hoperand : Option.Rel Refines operand? operand?')
    (hbranches : RefinesAll items items') (hotherwise : Option.Rel Refines condition? condition?') :
    (caseOf operand? items condition?).Refines (caseOf operand?' items' condition?') :=
  .skip ((Refines.optional hoperand).seq
    (hbranches.separated.seq (Refines.optional hotherwise).keep))

end Translator

end SqlBackend
