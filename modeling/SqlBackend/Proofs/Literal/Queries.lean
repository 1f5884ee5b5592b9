import SqlBackend.Proofs.Literal.Clauses
import SqlBackend.Proofs.Render.AppendOnly

/-! # Queries that differ in their literals

Alike queries have alike renderings. The induction follows the renderers, as the
one on disciplines does, with two queries in place of one.
-/

namespace SqlBackend

open Rendering (Alike Silent emit fail)

/-- The expression is written with a minus as its first character. -/
def Expr.StartsWithMinus (t : Translator) (e : Expr) : Prop :=
  ((e.render t).run {}).2.text.toList.head? = some '-'

instance (t : Translator) (e : Expr) : Decidable (e.StartsWithMinus t) :=
  inferInstanceAs (Decidable (_ = some '-'))

/-- The names in the node hold no quote. With `noComments` they hold no character
of a comment either, and the node is no minus before another one. -/
structure Node.Plain (t : Translator) (noComments : Bool) (n : Node) : Prop where
  names : ∀ s ∈ n.names, Script.Neutral noComments s
  minus : noComments = true → ∀ operand, n = .expr (.unary .neg operand) →
    ¬operand.StartsWithMinus t

/-- What the renderings of two queries need to be compared: the rules they are
compared by are the translator's, and the backend keeps literals apart. -/
structure Comparison.Suits (C : Comparison) (t : Translator) : Prop where
  style : C.style = t.style
  functions : t.dialect.functions.Tame
  types : ∀ target, Script.Neutral C.noComments (t.dialect.types.castSpelling target)

variable {C : Comparison} {t : Translator}

theorem Expr.starts_of_run {e : Expr} (hminus : ¬e.StartsWithMinus t) (before : Output)
    (written : String) (h : ((e.render t).run before).2.text = before.text ++ written) :
    written.toList.head? ≠ some '-' := by
  obtain ⟨outcome, output, happends, _⟩ := e.render_appends t
  have htext : before.text ++ output.text = before.text ++ written := by
    rw [← h, happends before]
    rfl
  have hwritten : output.text = written := by
    have hlist := congrArg String.toList htext
    rw [String.toList_append, String.toList_append] at hlist
    exact String.toList_inj.mp (List.append_cancel_left hlist)
  rw [← hwritten]
  rw [StartsWithMinus, happends {}, Output.empty_append] at hminus
  exact hminus

/-- A literal that is no string literal is written in the same way on both sides. -/
theorem Literal.texts {value : Literal} (h : value.isString = false) :
    C.Texts .any value.text value.text := by
  cases value with
  | integer value => exact C.texts_number (Decimal.isNumber_int value)
  | float bits => exact C.texts_number (Decimal.isNumber_bits bits)
  | string value => cases h
  | boolean value =>
      refine (Comparison.Texts.word (Script.word_of_isWord ?_)).any
      cases value <;> rfl
  | null => exact (Comparison.Texts.word (Script.word_of_isWord rfl)).any

theorem Rendering.star_alike {table : Option String}
    (h : ∀ s ∈ table, Script.Neutral C.noComments s) :
    Alike C .any (emit (qualifiedName table "*")) (emit (qualifiedName table "*")) := by
  have hstar : C.Texts .any "*" "*" := .char (c := '*') (by decide)
  cases table with
  | none => exact .emit hstar
  | some s =>
      have hpoint : Script.Word C.noComments (s ++ ".") :=
        ((h s rfl).append neutral_point).word (by simp [Script.ofText])
      exact .emit (hstar.word_append hpoint).any

namespace Comparison.Suits

variable (hC : C.Suits t)
include hC

-- The induction needs the backend's texts in few cases, and hands them to all.
set_option linter.unusedSectionVars false

mutual

theorem alike_expr : ∀ e e' : Expr, e.Alike C.related e' →
    (∀ n ∈ e.nodes, n.Plain t C.noComments) → Alike C .any (e.render t) (e'.render t)
  | .literal value, e', h, hn => by
      cases h with
      | literal h =>
          rw [Expr.render]
          exact .emit (Literal.texts h)
      | string h =>
          rw [Expr.render, Expr.render]
          exact .emit (.literal (.content _ _) (.value h))
  | .column table name, e', h, hn => by
      cases h
      rw [Expr.render]
      have hnames := (hn (.expr (.column table name)) (by simp [Expr.nodes])).names
      exact (Rendering.Alike.emit (.neutral (qualifiedName_neutral hnames))).any
  | .binary left op right, e', h, hn => by
      simp only [Expr.nodes, List.forall_mem_cons, List.forall_mem_append] at hn
      cases h with
      | @binary _ left' _ right' _ hleft hright =>
          have hl := alike_expr left left' hleft hn.2.1
          have hr := alike_expr right right' hright hn.2.2
          rw [Expr.render, Expr.render, hleft.isTuple_eq, hright.isTuple_eq]
          split
          · exact Translator.rowComparison_alike op (alike_elements left left' hleft hn.2.1)
              (alike_elements right right' hright hn.2.2)
          · exact hl.seq (hr.word_seq (by cases op <;> rfl))
  | .unary op operand, e', h, hn => by
      simp only [Expr.nodes, List.forall_mem_cons] at hn
      cases h with
      | @unary _ _ operand' h =>
          have hoperand := alike_expr operand operand' h hn.2
          rw [Expr.render, Expr.render]
          cases op with
          | neg =>
              -- Nothing stands between a minus and its operand.
              refine Rendering.minus_alike hoperand fun hc before written _ hwritten => ?_
              exact Expr.starts_of_run (hn.1.minus hc operand rfl) before written hwritten
          | not => exact (hoperand.word_seq rfl).any
  | .like predicate, e', h, hn => by
      simp only [Expr.nodes, List.forall_mem_cons] at hn
      cases h with
      | like h =>
          rw [Expr.render, Expr.render]
          exact alike_match predicate _ h hn.2
  | .call call, e', h, hn => by
      simp only [Expr.nodes, List.forall_mem_cons] at hn
      cases h with
      | call h =>
          rw [Expr.render, Expr.render]
          exact alike_function call _ h hn.2
  | .window call partition order, e', h, hn => by
      simp only [Expr.nodes, List.forall_mem_cons, List.forall_mem_append] at hn
      cases h with
      | window hcall hpartition horder =>
          rw [Expr.render, Expr.render]
          exact (alike_function call _ hcall hn.2.1.1).seq (Translator.window_alike
            (alike_exprs partition _ hpartition hn.2.1.2) (alike_orders order _ horder hn.2.2))
  | .subquery query, e', h, hn => by
      simp only [Expr.nodes, List.forall_mem_cons] at hn
      cases h with
      | subquery h =>
          rw [Expr.render, Expr.render]
          exact (((alike_select query _ h hn.2).seq (.word rfl)).word_seq rfl).any
  | .tuple items, e', h, hn => by
      simp only [Expr.nodes, List.forall_mem_cons] at hn
      cases h with
      | tuple h =>
          have hitems := Rendering.Alike.separated (w := ", ") rfl (alike_exprs items _ h hn.2)
          rw [Expr.render, Expr.render]
          exact ((hitems.seq (.word rfl)).word_seq rfl).any
  | .isNull operand negated, e', h, hn => by
      simp only [Expr.nodes, List.forall_mem_cons] at hn
      cases h with
      | isNull h =>
          rw [Expr.render, Expr.render]
          exact (alike_expr operand _ h hn.2).seq (.word (by cases negated <;> rfl))
  | .distinctFrom left right negated, e', h, hn => by
      simp only [Expr.nodes, List.forall_mem_cons, List.forall_mem_append] at hn
      cases h with
      | distinctFrom hleft hright =>
          rw [Expr.render, Expr.render]
          exact Translator.distinctFrom_alike negated (alike_expr left _ hleft hn.2.1)
            (alike_expr right _ hright hn.2.2)
  | .inList operand items negated, e', h, hn => by
      simp only [Expr.nodes, List.forall_mem_cons, List.forall_mem_append] at hn
      cases h with
      | @inList _ operand' _ items' _ hoperand hitems =>
          have hempty : items.isEmpty = items'.isEmpty := isEmpty_eq_of_forall₂ hitems
          have helements := alike_elements operand operand' hoperand hn.2.1
          have hlist := Rendering.Alike.separated (w := ", ") rfl
            (alike_exprs items items' hitems hn.2.2)
          have hrows := alike_rows (operand'.elements t).length items items' hitems hn.2.2
          rw [Expr.render, Expr.render, hempty, hoperand.isTuple_eq]
          split
          · exact (Rendering.Alike.word (by cases negated <;> rfl)).any
          · split
            · dsimp only
              -- The rows of the list are measured by the operand, which is as long on both sides.
              rw [helements.length_eq]
              exact Translator.rowMember_alike negated helements hrows
            · exact (alike_expr operand operand' hoperand hn.2.1).seq
                ((hlist.seq (.word rfl)).word_seq (by cases negated <;> rfl))
  | .inQuery operand query negated, e', h, hn => by
      simp only [Expr.nodes, List.forall_mem_cons, List.forall_mem_append] at hn
      cases h with
      | inQuery hoperand hquery =>
          have hend := (alike_select query _ hquery hn.2.2).seq (.word (w := ")") rfl)
          rw [Expr.render, Expr.render, hoperand.isTuple_eq]
          refine (Silent.when (Translator.require_silent t _)).bind_alike fun _ _ _ => ?_
          exact (alike_expr operand _ hoperand hn.2.1).seq
            (hend.word_seq (by cases negated <;> rfl))
  | .between operand low high negated, e', h, hn => by
      simp only [Expr.nodes, List.forall_mem_cons, List.forall_mem_append] at hn
      cases h with
      | between hoperand hlow hhigh =>
          have hend := (alike_expr high _ hhigh hn.2.2).word_seq (w := " and ") rfl
          rw [Expr.render, Expr.render]
          exact (alike_expr operand _ hoperand hn.2.1.1).seq
            (((alike_expr low _ hlow hn.2.1.2).seq hend).word_seq (by cases negated <;> rfl))
  | .caseOf operand branches otherwise, e', h, hn => by
      simp only [Expr.nodes, List.forall_mem_cons, List.forall_mem_append] at hn
      cases h with
      | caseOf hoperand hbranches hotherwise =>
          rw [Expr.render, Expr.render]
          exact (Translator.caseOf_alike (alike_expr? operand _ hoperand hn.2.1.1)
            (alike_branches branches _ hbranches hn.2.1.2)
            (alike_expr? otherwise _ hotherwise hn.2.2)).any
  | .cast operand target, e', h, hn => by
      simp only [Expr.nodes, List.forall_mem_cons] at hn
      cases h with
      | cast h =>
          have hend := (Rendering.Alike.emit (.neutral (hC.types target))).seq
            (.word (w := ")") rfl)
          rw [Expr.render, Expr.render]
          exact (((alike_expr operand _ h hn.2).seq (hend.word_seq rfl)).word_seq rfl).any
  | .paren inner, e', h, hn => by
      simp only [Expr.nodes, List.forall_mem_cons] at hn
      cases h with
      | paren h =>
          rw [Expr.render, Expr.render]
          exact (((alike_expr inner _ h hn.2).seq (.word rfl)).word_seq rfl).any
  | .parameter, e', h, _ => by
      cases h
      rw [Expr.render]
      exact .emitFragment (Comparison.Texts.word (Script.word_of_isWord rfl)).any
  | .star table, e', h, hn => by
      cases h
      have hnames := (hn (.expr (.star table)) (by simp [Expr.nodes])).names
      rw [Expr.render]
      exact Rendering.star_alike fun s hs => hnames s (by simpa [Node.names, Node.texts] using hs)
termination_by structural e => e

theorem alike_elements : ∀ e e' : Expr, e.Alike C.related e' →
    (∀ n ∈ e.nodes, n.Plain t C.noComments) →
    List.Forall₂ (Alike C .any) (e.elements t) (e'.elements t)
  | .tuple items, e', h, hn => by
      simp only [Expr.nodes, List.forall_mem_cons] at hn
      cases h with
      | tuple h =>
          rw [Expr.elements, Expr.elements]
          exact alike_exprs items _ h hn.2
  | .literal _, e', h, _ | .column _ _, e', h, _ | .binary _ _ _, e', h, _ | .unary _ _, e', h, _
  | .like _, e', h, _ | .call _, e', h, _ | .window _ _ _, e', h, _ | .subquery _, e', h, _
  | .isNull _ _, e', h, _ | .distinctFrom _ _ _, e', h, _ | .inList _ _ _, e', h, _
  | .inQuery _ _ _, e', h, _ | .between _ _ _ _, e', h, _ | .caseOf _ _ _, e', h, _
  | .cast _ _, e', h, _ | .paren _, e', h, _ | .parameter, e', h, _ | .star _, e', h, _ => by
      cases h <;> simp only [Expr.elements] <;> exact .nil
termination_by structural e => e

theorem alike_exprs : ∀ es es' : List Expr, List.Forall₂ (Expr.Alike C.related) es es' →
    (∀ n ∈ Expr.nodesOf es, n.Plain t C.noComments) →
    List.Forall₂ (Alike C .any) (Expr.renderings t es) (Expr.renderings t es')
  | [], es', h, _ => by
      cases h
      rw [Expr.renderings]
      exact .nil
  | e :: rest, es', h, hn => by
      simp only [Expr.nodesOf, List.forall_mem_append] at hn
      cases h with
      | cons he hrest =>
          rw [Expr.renderings, Expr.renderings]
          exact .cons (alike_expr e _ he hn.1) (alike_exprs rest _ hrest hn.2)
termination_by structural e => e

theorem alike_expr? : ∀ o o' : Option Expr, Option.Rel (Expr.Alike C.related) o o' →
    (∀ n ∈ Expr.nodes? o, n.Plain t C.noComments) →
    Option.Rel (Alike C .any) (Expr.rendering? t o) (Expr.rendering? t o')
  | none, o', h, _ => by
      cases h
      rw [Expr.rendering?]
      exact .none
  | some e, o', h, hn => by
      simp only [Expr.nodes?] at hn
      cases h with
      | some h =>
          rw [Expr.rendering?, Expr.rendering?]
          exact .some (alike_expr e _ h hn)
termination_by structural e => e

theorem alike_rows (width : Nat) : ∀ es es' : List Expr,
    List.Forall₂ (Expr.Alike C.related) es es' →
    (∀ n ∈ Expr.nodesOf es, n.Plain t C.noComments) →
    Silent (List.Forall₂ (List.Forall₂ C.Fragments)) (Expr.rows t width es) (Expr.rows t width es')
  | [], es', h, _ => by
      cases h
      rw [Expr.rows]
      exact .pure .nil
  | e :: rest, es', h, hn => by
      simp only [Expr.nodesOf, List.forall_mem_append] at hn
      cases h with
      | @cons _ e' _ rest' he hrest =>
          have helements := alike_elements e e' he hn.1
          have hrow : Silent (List.Forall₂ C.Fragments)
              (if e.isTuple then Translator.row width (e.elements t)
                else fail (.illegalArgument .itemNotTuple))
              (if e'.isTuple then Translator.row width (e'.elements t)
                else fail (.illegalArgument .itemNotTuple)) := by
            rw [he.isTuple_eq]
            split
            · exact Translator.row_alike width helements
            · exact .fail _
          rw [Expr.rows, Expr.rows]
          exact hrow.bind fun _ _ hr => (alike_rows width rest rest' hrest hn.2).bind
            fun _ _ hrs => .pure (.cons hr hrs)
termination_by structural e => e

theorem alike_branches : ∀ bs bs' : List CaseBranch,
    List.Forall₂ (CaseBranch.Alike C.related) bs bs' →
    (∀ n ∈ CaseBranch.nodesOf bs, n.Plain t C.noComments) →
    List.Forall₂ (Alike C .neutral) (CaseBranch.renderings t bs) (CaseBranch.renderings t bs')
  | [], bs', h, _ => by
      cases h
      rw [CaseBranch.renderings]
      exact .nil
  | ⟨condition, result⟩ :: rest, bs', h, hn => by
      simp only [CaseBranch.nodesOf, List.forall_mem_append] at hn
      cases h with
      | cons hb hrest =>
          cases hb with
          | intro hcondition hresult =>
              have hend := (alike_expr result _ hresult hn.1.2).word_seq (w := " then ") rfl
              rw [CaseBranch.renderings, CaseBranch.renderings]
              exact .cons (((alike_expr condition _ hcondition hn.1.1).seq hend).word_seq rfl)
                (alike_branches rest _ hrest hn.2)
termination_by structural e => e

theorem alike_match : ∀ l l' : Like, l.Alike C.related l' →
    (∀ n ∈ l.nodes, n.Plain t C.noComments) → Alike C .any (l.render t) (l'.render t)
  | ⟨subject, pattern, escape, negated, caseSensitive⟩, l', h, hn => by
      simp only [Like.nodes, List.forall_mem_append] at hn
      cases h with
      | @pattern _ _ a b _ _ hsubject h =>
          have hcontent (hs : t.style = .standard) :
              Alike C .any (emit (Text.literal a)) (emit (Text.literal b)) :=
            .emit (.literal (.content a b) (.pattern h (by simp [hC.style, hs])))
          rw [Like.render, Like.render, Expr.rendering?, Expr.render, Expr.render]
          exact Translator.like_alike negated caseSensitive
            (alike_expr subject _ hsubject hn.1.1) hcontent .none
            (Translator.likePattern_string hC.style h)
      | other hsubject hpattern hescape hstring =>
          have hrendered := alike_expr pattern _ hpattern hn.1.2
          have hescapes := alike_expr? escape _ hescape hn.2
          rw [Like.render, Like.render]
          refine Translator.like_alike negated caseSensitive
            (alike_expr subject _ hsubject hn.1.1) (fun _ => hrendered) hescapes ?_
          -- Without an escape character a pattern of this case is no string literal.
          refine Translator.likePattern_alike hpattern (fun hnone => hstring ?_) hrendered hescapes
          cases escape with
          | none => rfl
          | some e => rw [Expr.rendering?] at hnone; cases hnone
termination_by structural e => e

theorem alike_function : ∀ c c' : Call, c.Alike C.related c' →
    (∀ n ∈ c.nodes, n.Plain t C.noComments) → Alike C .any (c.render t) (c'.render t)
  | ⟨name, args, distinct, filter⟩, c', h, hn => by
      simp only [Call.nodes, List.forall_mem_append] at hn
      cases h with
      | intro hargs hfilter =>
          have hzip := forall₂_zip_zip hargs (alike_exprs args _ hargs hn.1)
          rw [Call.render, Call.render]
          exact Translator.call_alike hC.functions name distinct
            (hzip.imp fun _ _ h => ⟨h.1.isStar_eq, h.2⟩) (alike_expr? filter _ hfilter hn.2)
termination_by structural e => e

theorem alike_orders : ∀ os os' : List OrderItem, List.Forall₂ (OrderItem.Alike C.related) os os' →
    (∀ n ∈ OrderItem.nodesOf os, n.Plain t C.noComments) →
    List.Forall₂ (Alike C .any) (OrderItem.renderings t os) (OrderItem.renderings t os')
  | [], os', h, _ => by
      cases h
      rw [OrderItem.renderings]
      exact .nil
  | ⟨expr, direction⟩ :: rest, os', h, hn => by
      simp only [OrderItem.nodesOf, List.forall_mem_append] at hn
      cases h with
      | cons hitem hrest =>
          cases hitem with
          | intro h =>
              rw [OrderItem.renderings, OrderItem.renderings]
              refine .cons ((alike_expr expr _ h hn.1).seq (.when (.word ?_)))
                (alike_orders rest _ hrest hn.2)
              cases direction <;> rfl
termination_by structural e => e

theorem alike_tableRef : ∀ r r' : TableRef, r.Alike C.related r' →
    (∀ n ∈ r.nodes, n.Plain t C.noComments) → Alike C .neutral (r.render t) (r'.render t)
  | .table table, r', h, hn => by
      cases h
      rw [TableRef.render]
      exact Translator.namedTable_alike (hn (.tableRef (.table table)) (by simp [TableRef.nodes])).names
  | .query query correlation, r', h, hn => by
      simp only [TableRef.nodes, List.forall_mem_cons] at hn
      cases h with
      | query h =>
          have hname : Script.Neutral C.noComments correlation :=
            hn.1.names correlation (by simp [Node.names, Node.texts])
          have hend := (Rendering.Alike.emit (C := C) (.neutral hname)).word_seq (w := ") ") rfl
          rw [TableRef.render, TableRef.render]
          exact ((alike_select query _ h hn.2).seq hend).word_seq rfl
  | .join left kind lateral right condition, r', h, hn => by
      simp only [TableRef.nodes, List.forall_mem_cons, List.forall_mem_append] at hn
      cases h with
      | join hleft hright hcondition =>
          rw [TableRef.render, TableRef.render]
          exact Translator.join_alike kind lateral (alike_tableRef left _ hleft hn.2.1.1)
            (alike_tableRef right _ hright hn.2.1.2) (alike_expr? condition _ hcondition hn.2.2)
termination_by structural e => e

theorem alike_tableRef? : ∀ o o' : Option TableRef, Option.Rel (TableRef.Alike C.related) o o' →
    (∀ n ∈ TableRef.nodes? o, n.Plain t C.noComments) →
    Option.Rel (Alike C .neutral) (TableRef.rendering? t o) (TableRef.rendering? t o')
  | none, o', h, _ => by
      cases h
      rw [TableRef.rendering?]
      exact .none
  | some r, o', h, hn => by
      simp only [TableRef.nodes?] at hn
      cases h with
      | some h =>
          rw [TableRef.rendering?, TableRef.rendering?]
          exact .some (alike_tableRef r _ h hn)
termination_by structural e => e

theorem alike_commonTables : ∀ cs cs' : List Cte, List.Forall₂ (Cte.Alike C.related) cs cs' →
    (∀ n ∈ Cte.nodesOf cs, n.Plain t C.noComments) →
    List.Forall₂ (Alike C .neutral) (Cte.renderings t cs) (Cte.renderings t cs')
  | [], cs', h, _ => by
      cases h
      rw [Cte.renderings]
      exact .nil
  | ⟨name, columns, query, materialization⟩ :: rest, cs', h, hn => by
      simp only [Cte.nodesOf, List.forall_mem_cons, List.forall_mem_append] at hn
      cases h with
      | cons hcte hrest =>
          cases hcte with
          | intro h =>
              have hname : Script.Neutral C.noComments name :=
                hn.1.names name (by simp [Node.names, Node.texts])
              have hcolumns : ∀ s ∈ columns, Script.Neutral C.noComments s := fun s hs =>
                hn.1.names s (by simp [Node.names, Node.texts, hs])
              rw [Cte.renderings, Cte.renderings]
              exact .cons (Translator.cte_alike materialization hname hcolumns
                (alike_select query _ h hn.2.1)) (alike_commonTables rest _ hrest hn.2.2)
termination_by structural e => e

theorem alike_with (mutation : Bool) : ∀ w w' : With, w.Alike C.related w' →
    (∀ n ∈ w.nodes mutation, n.Plain t C.noComments) →
    Alike C .neutral (w.render t mutation) (w'.render t mutation)
  | ⟨recursive, ctes⟩, w', h, hn => by
      simp only [With.nodes, List.forall_mem_cons] at hn
      cases h with
      | intro h =>
          rw [With.render, With.render]
          exact Translator.ctes_alike (alike_commonTables ctes _ h hn.2)
termination_by structural e => e

theorem alike_with? (mutation : Bool) : ∀ o o' : Option With,
    Option.Rel (With.Alike C.related) o o' →
    (∀ n ∈ With.nodes? mutation o, n.Plain t C.noComments) →
    Option.Rel (Alike C .neutral) (With.rendering? t mutation o) (With.rendering? t mutation o')
  | none, o', h, _ => by
      cases h
      rw [With.rendering?]
      exact .none
  | some w, o', h, hn => by
      simp only [With.nodes?] at hn
      cases h with
      | some h =>
          rw [With.rendering?, With.rendering?]
          exact .some (alike_with mutation w _ h hn)
termination_by structural e => e

theorem alike_items : ∀ is is' : List SelectItem,
    List.Forall₂ (SelectItem.Alike C.related) is is' →
    (∀ n ∈ SelectItem.nodesOf is, n.Plain t C.noComments) →
    List.Forall₂ (Alike C .any) (SelectItem.renderings t is) (SelectItem.renderings t is')
  | [], is', h, _ => by
      cases h
      rw [SelectItem.renderings]
      exact .nil
  | ⟨expr, label⟩ :: rest, is', h, hn => by
      simp only [SelectItem.nodesOf, List.forall_mem_cons, List.forall_mem_append] at hn
      cases h with
      | cons hitem hrest =>
          cases hitem with
          | intro h =>
              have hlabel : ∀ s ∈ label, Script.Neutral C.noComments s := fun s hs =>
                hn.1.names s (by simpa [Node.names, Node.texts] using hs)
              rw [SelectItem.renderings, SelectItem.renderings]
              exact .cons ((alike_expr expr _ h hn.2.1).seq (Translator.alias_alike hlabel rfl))
                (alike_items rest _ hrest hn.2.2)
termination_by structural e => e

theorem alike_select : ∀ s s' : Select, s.Alike C.related s' →
    (∀ n ∈ s.nodes, n.Plain t C.noComments) → Alike C .neutral (s.render t) (s'.render t)
  | ⟨withClause, distinct, columns, source, condition, groupBy, having, orderBy, limit, offset,
      lock⟩, s', h, hn => by
      simp only [Select.nodes, List.forall_mem_append] at hn
      obtain ⟨⟨⟨⟨⟨⟨⟨⟨⟨nwith, ncolumns⟩, nsource⟩, ncondition⟩, ngroup⟩, nhaving⟩, norder⟩, nlimit⟩,
        noffset⟩, _⟩ := hn
      cases h with
      | @intro _ _ _ _ columns' _ _ _ _ _ _ _ _ _ _ _ _ _ _ _ hwith hcolumns hsource hcondition
          hgroup hhaving horder hlimit hoffset =>
          have hempty : columns.isEmpty = columns'.isEmpty := isEmpty_eq_of_forall₂ hcolumns
          have hlock : Option.Rel (Alike C .neutral) (lock.map t.lock) (lock.map t.lock) := by
            cases lock with
            | none => exact .none
            | some request => exact .some (Translator.lock_alike t request)
          rw [Select.render, Select.render, hempty]
          split
          · exact .fail _
          -- Each part is written behind a word, or starts with one.
          · refine (Rendering.Alike.optional_bare (alike_with? false withClause _ hwith nwith)).seq ?_
            refine Rendering.Alike.word_seq rfl (Rendering.Alike.when_word_seq rfl ?_)
            refine (Rendering.Alike.separated rfl (alike_items columns _ hcolumns ncolumns)).seq ?_
            refine (Rendering.Alike.optional rfl (alike_tableRef? source _ hsource nsource)).seq ?_
            refine (Rendering.Alike.optional rfl (alike_expr? condition _ hcondition ncondition)).seq ?_
            refine (Rendering.Alike.listed rfl (alike_exprs groupBy _ hgroup ngroup)).seq ?_
            refine (Rendering.Alike.optional rfl (alike_expr? having _ hhaving nhaving)).seq ?_
            refine (Rendering.Alike.listed rfl (alike_orders orderBy _ horder norder)).seq ?_
            refine (Rendering.Alike.optional rfl (alike_expr? limit _ hlimit nlimit)).seq ?_
            refine (Rendering.Alike.optional rfl (alike_expr? offset _ hoffset noffset)).seq ?_
            exact Rendering.Alike.optional_bare hlock
termination_by structural e => e

end

end Comparison.Suits

end SqlBackend
