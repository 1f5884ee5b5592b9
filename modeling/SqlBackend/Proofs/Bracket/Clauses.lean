import SqlBackend.Proofs.Bracket.Backend
import SqlBackend.Proofs.Render.Clauses
import SqlBackend.Proofs.Render.Operands

/-! # Clauses that close their brackets

A clause closes what it opens if its parts do. It may open a bracket before a part
and close it behind another one, in a later step and under a condition of its own,
so the depth is followed from step to step.
-/

namespace SqlBackend

open Nesting (Leads Balanced)
open Rendering.NestsWith (emit emitFragment word)

namespace Formula

mutual

theorem balanced_fragment : ∀ f : Formula Fragment, f.Over Fragment.Balanced → f.fragment.Balanced
  | .comparison op left right, h => by
      have hword : (Fragment.ofText (" " ++ op.text ++ " ")).Balanced := by
        apply Fragment.Balanced.word
        cases op <;> rfl
      exact (h.1.append hword).append h.2
  | .isNull operand, h => Fragment.Balanced.append h (.word rfl)
  | .negation inner, h => .append (.word rfl) (balanced_fragment inner h)
  | .all parts, h => .joined rfl (balanced_fragments parts h)
  | .any parts, h => .joined rfl (balanced_fragments parts h)
  | .group inner, h => (balanced_fragment inner h).parenthesized
  | .isTrue condition negated, h => by
      have hend : (Fragment.ofText
          (" then 0 else 1 end = " ++ if negated then "1" else "0")).Balanced := by
        apply Fragment.Balanced.word
        cases negated <;> rfl
      exact (Fragment.Balanced.append (.word rfl) (balanced_fragment condition h)).append hend

theorem balanced_fragments : ∀ fs : List (Formula Fragment), OverAll Fragment.Balanced fs →
    ∀ f ∈ fragments fs, f.Balanced
  | [], _ => by simp [fragments]
  | f :: rest, h => by
      have hf := balanced_fragment f h.1
      have hrest := balanced_fragments rest h.2
      simpa [fragments] using ⟨hf, hrest⟩

end

end Formula

theorem RowPredicate.balanced_native {op : BinaryOp} {left right : List Fragment}
    (hleft : ∀ f ∈ left, f.Balanced) (hright : ∀ f ∈ right, f.Balanced) :
    (native op left right).Balanced := by
  have hword : (Fragment.ofText (" " ++ op.text ++ " ")).Balanced := by
    apply Fragment.Balanced.word
    cases op <;> rfl
  have hrow : ∀ fs : List Fragment, (∀ f ∈ fs, f.Balanced) →
      (Fragment.joined ", " fs).parenthesized.Balanced :=
    fun _ h => (Fragment.Balanced.joined rfl h).parenthesized
  exact ((hrow left hleft).append hword).append (hrow right hright)

theorem balanced_qualifiedName {schema : Option String} {name : String}
    (h : ∀ s ∈ schema.toList ++ [name], Balanced s) : Balanced (qualifiedName schema name) := by
  have hpoint : Balanced "." := Nesting.leads_of_read rfl
  cases schema with
  | none => exact h name (by simp)
  | some s => exact ((h s (by simp)).append hpoint).append (h name (by simp))

theorem NamedTable.balanced_expression {table : NamedTable} (h : ∀ s ∈ table.texts, Balanced s) :
    Balanced table.expression := by
  apply balanced_qualifiedName
  intro s hs
  apply h
  rw [texts, List.append_cons]
  exact List.mem_append_left _ hs

/-- Numbers are written without brackets, and strings with those of their contents
only, which do not count. -/
theorem Literal.balanced_text (value : Literal) : Balanced value.text := by
  have hnumber : ∀ text : String, (∀ c ∈ text.toList, Decimal.isNumberChar c = true) →
      Balanced text := by
    intro text h
    apply Nesting.balanced_of_forall
    intro c hc
    have hchar := h c hc
    apply Nesting.isMark_eq_false
    all_goals
      rintro rfl
      exact absurd hchar (by decide)
  cases value with
  | integer value => exact hnumber _ fun _ => Decimal.isNumberChar_of_mem_int
  | float bits => exact hnumber _ fun _ => Decimal.isNumberChar_of_mem_bits
  | string value => exact Nesting.balanced_literal value
  | boolean value =>
      apply Nesting.leads_of_read
      cases value <;> rfl
  | null => exact Nesting.leads_of_read rfl

namespace Translator

variable {t : Translator} {left right query subject rendered : Rendering Unit}
  {items order elements : List (Rendering Unit)}
  {operand? condition? escape? : Option (Rendering Unit)} {a : Nat}

theorem require_nests (t : Translator) (feature : Feature) : (t.require feature).Nests a a :=
  .ofExcept fun _ _ => trivial

theorem balanced_lockClause {d : Dialect} {request : LockRequest} {clause : String}
    (h : d.lockClause request = .ok clause) : Balanced clause := by
  have hwords : ∀ words ∈ [Dialect.forUpdate, Dialect.forShare],
      ∀ ending ∈ ["", " nowait", " skip locked"],
        Nesting.read ⟨false, 0⟩ (words ++ ending).toList = some ⟨false, 0⟩ := by decide
  rcases d.lockClause_cases request with ⟨need, _, _, herror⟩ | ⟨_, hok⟩
  · cases herror.symm.trans h
  · cases hok.symm.trans h
    apply Nesting.leads_of_read
    apply hwords
    · cases request.mode with
      | write => simp [Dialect.lockWords]
      | read => by_cases hd : d.sharedRowLocks = true <;> simp [Dialect.lockWords, hd]
    · cases request.timeout <;> simp [LockTimeout.words]

theorem lock_nests (t : Translator) (request : LockRequest) : (t.lock request).Nests 0 0 :=
  Rendering.NestsWith.bind (P := Balanced) (.ofExcept fun _ => balanced_lockClause)
    fun _ hclause => emit hclause

theorem hint_nests (t : Translator) (m : Materialization) : (t.hint m).Nests 0 0 := by
  unfold hint
  split
  · exact .pure trivial
  · split
    · cases m with
      | materialized => exact word rfl
      | notMaterialized => exact word rfl
    · exact .pure trivial

theorem alias_nests {lead : String} {name : Option String}
    (hlead : Nesting.read ⟨false, 0⟩ lead.toList = some ⟨false, 0⟩) (h : ∀ s ∈ name, Balanced s) :
    (Rendering.optional lead (name.map Rendering.emit)).Nests 0 0 := by
  apply Rendering.NestsWith.optional hlead
  intro r hr
  obtain ⟨s, hs, rfl⟩ := Option.map_eq_some_iff.mp hr
  exact emit (h s hs)

theorem cte_nests {name : String} {columns : List String} {hint : Option Materialization}
    (hname : Balanced name) (hcolumns : ∀ c ∈ columns, Balanced c) (hquery : query.Nests 0 0) :
    (t.cte name columns hint query).Nests 0 0 := by
  have hhint : (hint.elim (pure ()) t.hint).Nests 0 0 := by
    cases hint with
    | none => exact .pure trivial
    | some m => exact t.hint_nests m
  apply (emit hname).seq
  apply Rendering.NestsWith.bracketed hcolumns
  apply (word rfl).seq
  apply hhint.seq
  exact .enclosed rfl hquery rfl

theorem ctes_nests {mutation recursive : Bool} (hitems : ∀ r ∈ items, r.Nests 0 0) :
    (t.ctes mutation recursive items).Nests 0 0 := by
  apply (Rendering.NestsWith.when (t.require_nests _)).seq
  apply (Rendering.NestsWith.when (t.require_nests _)).seq
  apply (word rfl).seq
  apply (Rendering.NestsWith.when (word rfl)).seq
  exact (Rendering.NestsWith.separated rfl hitems).seq (word rfl)

theorem namedTable_nests {table : NamedTable} (h : ∀ s ∈ table.texts, Balanced s) :
    (namedTable table).Nests 0 0 :=
  (emit (NamedTable.balanced_expression h)).seq
    (alias_nests rfl fun s hs => h s (by simp [NamedTable.texts, Option.mem_def.mp hs]))

theorem target_nests (t : Translator) {table : NamedTable} (kind : MutationKind)
    (h : ∀ s ∈ table.texts, Balanced s) : (t.target table kind).Nests 0 0 := by
  apply (emit (NamedTable.balanced_expression h)).seq
  apply (Rendering.NestsWith.affect table.expression).seq
  split
  · exact .pure trivial
  · exact alias_nests rfl fun s hs => h s (by simp [NamedTable.texts, Option.mem_def.mp hs])

theorem join_nests {kind : JoinKind} {lateral : Bool} (hleft : left.Nests 0 0)
    (hright : right.Nests 0 0) (hcondition : ∀ r ∈ condition?, r.Nests 0 0) :
    (t.join left kind lateral right condition?).Nests 0 0 := by
  apply hleft.seq
  apply (word rfl).seq
  apply (word (by cases kind <;> rfl)).seq
  apply (Rendering.NestsWith.when ((t.require_nests _).seq (word rfl))).seq
  apply (word rfl).seq
  exact hright.seq (.optional rfl hcondition)

theorem rowComparison_nests {op : BinaryOp} (hitems : ∀ r ∈ items, r.Nests 0 0)
    (helements : ∀ r ∈ elements, r.Nests 0 0) : (t.rowComparison op items elements).Nests 0 0 := by
  unfold rowComparison
  split
  next => exact .fail _
  next =>
    apply (Rendering.NestsWith.fragments hitems).bind
    intro l hl
    apply (Rendering.NestsWith.fragments helements).bind
    intro r hr
    split
    · exact emitFragment (RowPredicate.balanced_native hl hr)
    · apply emitFragment
      apply Formula.balanced_fragment
      exact RowPredicate.comparison_over (RowPredicate.zip_over hl hr)

theorem row_nests (width : Nat) (h : ∀ r ∈ elements, r.Nests 0 0) :
    (row width elements).NestsWith 0 0 fun fs => ∀ f ∈ fs, f.Balanced := by
  unfold row
  split
  · exact .fragments h
  · exact .fail _

theorem rowMember_nests {candidates : Rendering (List (List Fragment))} {negated : Bool}
    (h : ∀ r ∈ elements, r.Nests 0 0)
    (hcandidates : candidates.NestsWith 0 0 fun rows => ∀ row ∈ rows, ∀ f ∈ row, f.Balanced) :
    (rowMember elements candidates negated).Nests 0 0 := by
  unfold rowMember
  split
  · exact .fail _
  · apply (Rendering.NestsWith.fragments h).bind
    intro row hrow
    apply hcandidates.bind
    intro rows hrows
    apply emitFragment
    apply Formula.balanced_fragment
    exact RowPredicate.member_over hrow hrows

theorem distinctFrom_nests {negated : Bool} (hleft : left.Nests 0 0) (hright : right.Nests 0 0) :
    (t.distinctFrom left right negated).Nests 0 0 := by
  unfold distinctFrom
  split
  · exact hleft.seq ((word (by cases negated <;> rfl)).seq hright)
  · apply hleft.detached.bind
    intro l hl
    apply hright.detached.bind
    intro r hr
    apply emitFragment
    apply Formula.balanced_fragment
    exact RowPredicate.distinct_over hl hr

theorem escapeClause_nests (h : ∀ r ∈ escape?, r.Nests 0 0) :
    (escapeClause escape?).Nests 0 0 := by
  apply (word rfl).seq
  cases escape? with
  | none => exact word rfl
  | some r => exact h r rfl

theorem likePattern_nests {pattern : Expr} (hrendered : rendered.Nests 0 0)
    (hescape : ∀ r ∈ escape?, r.Nests 0 0) :
    (t.likePattern pattern rendered escape?).Nests 0 0 := by
  unfold likePattern
  split
  · unfold reescaped
    split
    · exact emit (Nesting.balanced_literal _)
    · exact hrendered
    · exact .enclosed rfl hrendered rfl
  · exact hrendered
  · exact hrendered.seq (escapeClause_nests hescape)

theorem like_nests {pattern : Expr} {negated caseSensitive : Bool} (hsubject : subject.Nests 0 0)
    (hrendered : rendered.Nests 0 0) (hescape : ∀ r ∈ escape?, r.Nests 0 0) :
    (t.like subject pattern rendered escape? negated caseSensitive).Nests 0 0 := by
  unfold like
  split
  · -- The word between the two sides closes one bracket and opens another.
    have hbetween : (Rendering.emit
        (if negated then ") not like lower(" else ") like lower(")).Nests 1 1 :=
      word (by cases negated <;> rfl)
    apply (word (b := 1) rfl).seq
    apply hsubject.deeper.seq
    apply hbetween.seq
    apply hrendered.deeper.seq
    exact (word rfl).seq (escapeClause_nests hescape)
  · apply hsubject.seq
    apply (word (by cases negated <;> cases caseSensitive <;> rfl)).seq
    exact likePattern_nests hrendered hescape

theorem filteredArgument_nests {condition : Fragment} {arg : Expr} (hcondition : condition.Balanced)
    (hrendered : rendered.Nests 0 0) :
    (filteredArgument condition arg rendered).NestsWith 0 0 Fragment.Balanced := by
  apply Rendering.NestsWith.bind (P := Fragment.Balanced)
  · split
    · exact .pure (.word rfl)
    · exact hrendered.detached
  · intro value hvalue
    have hhead := (Fragment.Balanced.word (w := "case when ") rfl).append hcondition
    exact .pure (((hhead.append (.word rfl)).append hvalue).append (.word rfl))

theorem balanced_markDistinct {fs : List Fragment} (h : ∀ f ∈ fs, f.Balanced) :
    ∀ f ∈ markDistinct fs, f.Balanced := by
  cases fs with
  | nil => exact h
  | cons f rest =>
      obtain ⟨hf, hrest⟩ := List.forall_mem_cons.mp h
      exact List.forall_mem_cons.mpr ⟨.append (.word rfl) hf, hrest⟩

theorem call_nests (ht : t.dialect.functions.Balanced) {name : String}
    {args : List (Expr × Rendering Unit)} {distinct : Bool} {filter : Option (Rendering Unit)}
    (hargs : ∀ arg ∈ args, arg.2.Nests 0 0) (hfilter : ∀ r ∈ filter, r.Nests 0 0) :
    (t.call name args distinct filter).Nests 0 0 := by
  unfold call
  apply (Rendering.NestsWith.detached? hfilter).bind
  intro condition hcondition
  apply Rendering.NestsWith.bind (P := fun values => ∀ f ∈ values, f.Balanced)
  · apply Rendering.NestsWith.sequence
    rw [List.forall_mem_map]
    intro arg harg
    split
    next c _ => exact filteredArgument_nests (hcondition c rfl) (hargs arg harg)
    next => exact (hargs arg harg).detached
  · intro values hvalues
    have hmarked : ∀ f ∈ (if distinct then markDistinct values else values), f.Balanced := by
      split
      · exact balanced_markDistinct hvalues
      · exact hvalues
    apply Rendering.NestsWith.bind (P := Fragment.Balanced)
    · exact .ofExcept fun called hcalled => ht.call hmarked hcalled
    · intro called hcalled
      split
      next c _ =>
        -- The filter opens its bracket in one word and closes it in another.
        have hopen : Leads 0 1 " filter (where " := Nesting.leads_of_read rfl
        have hclose : Leads 1 0 ")" := Nesting.leads_of_read rfl
        have hinner : Leads 1 1 c.text := Leads.deeper (hcondition c rfl)
        exact emitFragment (((Leads.append hcalled hopen).append hinner).append hclose)
      next => exact emitFragment hcalled

theorem window_nests {partition : List (Rendering Unit)} (hpartition : ∀ r ∈ partition, r.Nests 0 0)
    (horder : ∀ r ∈ order, r.Nests 0 0) : (t.window partition order).Nests 0 0 := by
  apply (word (b := 1) rfl).seq
  apply (Rendering.NestsWith.when (t.require_nests _)).seq
  apply (Rendering.NestsWith.listed rfl hpartition).deeper.seq
  apply (Rendering.NestsWith.when (word rfl)).seq
  exact (Rendering.NestsWith.listed rfl horder).deeper.seq (word rfl)

theorem caseOf_nests (hoperand : ∀ r ∈ operand?, r.Nests 0 0) (hbranches : ∀ r ∈ items, r.Nests 0 0)
    (hotherwise : ∀ r ∈ condition?, r.Nests 0 0) :
    (caseOf operand? items condition?).Nests 0 0 := by
  apply (word rfl).seq
  apply (Rendering.NestsWith.optional rfl hoperand).seq
  apply (Rendering.NestsWith.separated rfl hbranches).seq
  exact (Rendering.NestsWith.optional rfl hotherwise).seq (word rfl)

end Translator

end SqlBackend
