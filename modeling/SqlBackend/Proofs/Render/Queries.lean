import SqlBackend.Proofs.Decimal.Characters
import SqlBackend.Proofs.Render.Clauses

/-! # Disciplines of queries

Every discipline whose texts include those of a query holds of its rendering.
The induction follows the renderers: each case hands the disciplines of the
parts to the clause that puts them together.
-/

namespace SqlBackend

open Rendering (emit fail)

namespace Discipline

variable {t : Translator} (D : Discipline t)

/-- The texts that stand in a node may be written. -/
def admits (n : Node) : Prop := ∀ s ∈ n.texts, D.text s

theorem text_number {s : String} (h : ∀ c ∈ s.toList, Decimal.isNumberChar c = true) :
    D.text s := by
  intro c hc
  apply D.char_of_ne
  rintro rfl
  exact absurd (h '?' hc) (by decide)

theorem text_value {value : Literal} (h : D.admits (.expr (.literal value))) :
    D.text value.text := by
  cases value with
  | integer value => exact D.text_number fun c hc => Decimal.isNumberChar_of_mem_int hc
  | float bits => exact D.text_number fun c hc => Decimal.isNumberChar_of_mem_bits hc
  | string value => exact D.text_literal (h value (by simp [Node.texts]))
  | boolean value => exact D.text_words (by cases value <;> rfl)
  | null => exact D.text_words rfl

theorem text_pattern {pattern : Expr} (h : ∀ n ∈ pattern.nodes, D.admits n) (value : String)
    (hpattern : pattern = .literal (.string value)) : D.text value := by
  subst hpattern
  exact h (.expr (.literal (.string value))) (by simp [Expr.nodes]) value (by simp [Node.texts])

end Discipline

namespace QueryDiscipline

variable {t : Translator} (D : QueryDiscipline t)

mutual

theorem writes_expr : ∀ e : Expr, (∀ n ∈ e.nodes, D.admits n) → D.writes (e.render t)
  | .literal value, h => D.writes_emit (D.text_value (h _ (by simp [Expr.nodes])))
  | .column table name, h =>
      D.writes_qualifiedName (h (.expr (.column table name)) (by simp [Expr.nodes]))
  | .binary left op right, h => by
      simp only [Expr.nodes, List.forall_mem_cons, List.forall_mem_append] at h
      obtain ⟨_, hleft, hright⟩ := h
      unfold Expr.render
      split
      -- Rows are taken apart: their elements are rendered, not the tuples themselves.
      · exact D.writes_rowComparison (writes_elements left hleft) (writes_elements right hright)
      · refine D.holds_seq (writes_expr left hleft) (D.holds_seq (D.writes_words ?_) ?_)
        · cases op <;> rfl
        · exact writes_expr right hright
  | .unary op operand, h => by
      simp only [Expr.nodes, List.forall_mem_cons] at h
      unfold Expr.render
      exact D.holds_seq (D.writes_words (by cases op <;> rfl)) (writes_expr operand h.2)
  | .like predicate, h => by
      simp only [Expr.nodes, List.forall_mem_cons] at h
      unfold Expr.render
      exact writes_match predicate h.2
  | .call call, h => by
      simp only [Expr.nodes, List.forall_mem_cons] at h
      unfold Expr.render
      exact writes_function call h.2
  | .window call partition order, h => by
      simp only [Expr.nodes, List.forall_mem_cons, List.forall_mem_append] at h
      obtain ⟨_, ⟨hcall, hpartition⟩, horder⟩ := h
      unfold Expr.render
      exact D.holds_seq (writes_function call hcall)
        (D.writes_window (writes_exprs partition hpartition) (writes_orders order horder))
  | .subquery query, h => by
      simp only [Expr.nodes, List.forall_mem_cons] at h
      unfold Expr.render
      exact D.holds_seq (D.writes_words rfl)
        (D.holds_seq (writes_select query h.2) (D.writes_words rfl))
  | .tuple items, h => by
      simp only [Expr.nodes, List.forall_mem_cons] at h
      unfold Expr.render
      exact D.holds_seq (D.writes_words rfl)
        (D.holds_seq (D.writes_separated rfl (writes_exprs items h.2))
          (D.writes_words rfl))
  | .isNull operand negated, h => by
      simp only [Expr.nodes, List.forall_mem_cons] at h
      unfold Expr.render
      exact D.holds_seq (writes_expr operand h.2) (D.writes_words (by cases negated <;> rfl))
  | .distinctFrom left right negated, h => by
      simp only [Expr.nodes, List.forall_mem_cons, List.forall_mem_append] at h
      unfold Expr.render
      exact D.writes_distinctFrom (writes_expr left h.2.1) (writes_expr right h.2.2)
  | .inList operand items negated, h => by
      simp only [Expr.nodes, List.forall_mem_cons, List.forall_mem_append] at h
      obtain ⟨_, hoperand, hitems⟩ := h
      have hwords : isWords (Translator.memberWords negated) = true := by cases negated <;> rfl
      unfold Expr.render
      split
      · exact D.writes_words (by cases negated <;> rfl)
      · split
        · exact D.writes_rowMember (writes_elements operand hoperand)
            (holds_rows _ items hitems)
        · refine D.holds_seq (writes_expr operand hoperand) (D.holds_seq (D.writes_words hwords) ?_)
          exact D.holds_seq (D.writes_separated rfl (writes_exprs items hitems))
            (D.writes_words rfl)
  | .inQuery operand query negated, h => by
      simp only [Expr.nodes, List.forall_mem_cons, List.forall_mem_append] at h
      obtain ⟨_, hoperand, hquery⟩ := h
      have hwords : isWords (Translator.memberWords negated) = true := by cases negated <;> rfl
      unfold Expr.render
      refine D.holds_seq (D.writes_when fun _ => D.writes_require _) ?_
      refine D.holds_seq (writes_expr operand hoperand) (D.holds_seq (D.writes_words hwords) ?_)
      exact D.holds_seq (writes_select query hquery) (D.writes_words rfl)
  | .between operand low high negated, h => by
      simp only [Expr.nodes, List.forall_mem_cons, List.forall_mem_append] at h
      obtain ⟨_, ⟨hoperand, hlow⟩, hhigh⟩ := h
      unfold Expr.render
      refine D.holds_seq (writes_expr operand hoperand) ?_
      refine D.holds_seq (D.writes_words (by cases negated <;> rfl)) ?_
      refine D.holds_seq (writes_expr low hlow) (D.holds_seq (D.writes_words rfl) ?_)
      exact writes_expr high hhigh
  | .caseOf operand branches otherwise, h => by
      simp only [Expr.nodes, List.forall_mem_cons, List.forall_mem_append] at h
      obtain ⟨_, ⟨hoperand, hbranches⟩, hotherwise⟩ := h
      unfold Expr.render
      exact D.writes_caseOf (writes_expr? operand hoperand) (writes_branches branches hbranches)
        (writes_expr? otherwise hotherwise)
  | .cast operand target, h => by
      simp only [Expr.nodes, List.forall_mem_cons] at h
      unfold Expr.render
      refine D.holds_seq (D.writes_words rfl) (D.holds_seq (writes_expr operand h.2) ?_)
      refine D.holds_seq (D.writes_words rfl) ?_
      exact D.holds_seq (D.writes_emit (D.char_type target)) (D.writes_words rfl)
  | .paren inner, h => by
      simp only [Expr.nodes, List.forall_mem_cons] at h
      unfold Expr.render
      exact D.holds_seq (D.writes_words rfl)
        (D.holds_seq (writes_expr inner h.2) (D.writes_words rfl))
  | .parameter, _ => by
      unfold Expr.render
      exact D.holds_emitFragment D.fragment_parameter
  | .star table, h => by
      unfold Expr.render
      apply D.writes_qualifiedName
      intro s hs
      rcases List.mem_append.mp hs with hs | hs
      · exact h (.expr (.star table)) (by simp [Expr.nodes]) s (by simpa [Node.texts] using hs)
      · rw [List.mem_singleton.mp hs]
        exact D.text_words rfl

theorem writes_elements : ∀ e : Expr, (∀ n ∈ e.nodes, D.admits n) →
    ∀ r ∈ e.elements t, D.writes r
  | .tuple items, h => by
      simp only [Expr.nodes, List.forall_mem_cons] at h
      unfold Expr.elements
      exact writes_exprs items h.2
  | .literal _, _ | .column _ _, _ | .binary _ _ _, _ | .unary _ _, _ | .like _, _ | .call _, _
  | .window _ _ _, _ | .subquery _, _ | .isNull _ _, _ | .distinctFrom _ _ _, _ | .inList _ _ _, _
  | .inQuery _ _ _, _ | .between _ _ _ _, _ | .caseOf _ _ _, _ | .cast _ _, _ | .paren _, _
  | .parameter, _ | .star _, _ => by simp [Expr.elements]

theorem writes_exprs : ∀ es : List Expr, (∀ n ∈ Expr.nodesOf es, D.admits n) →
    ∀ r ∈ Expr.renderings t es, D.writes r
  | [], _ => by simp [Expr.renderings]
  | e :: rest, h => by
      simp only [Expr.nodesOf, List.forall_mem_append] at h
      rw [Expr.renderings]
      exact List.forall_mem_cons.mpr ⟨writes_expr e h.1, writes_exprs rest h.2⟩

theorem writes_expr? : ∀ o : Option Expr, (∀ n ∈ Expr.nodes? o, D.admits n) →
    ∀ r ∈ Expr.rendering? t o, D.writes r
  | none, _ => by simp [Expr.rendering?]
  | some e, h => by
      simp only [Expr.nodes?] at h
      simpa [Expr.rendering?] using writes_expr e h

theorem holds_rows (width : Nat) : ∀ items : List Expr, (∀ n ∈ Expr.nodesOf items, D.admits n) →
    D.holds (fun rows => ∀ row ∈ rows, ∀ f ∈ row, D.fragment f) (Expr.rows t width items)
  | [], _ => by
      unfold Expr.rows
      exact D.holds_pure (by simp)
  | item :: rest, h => by
      simp only [Expr.nodesOf, List.forall_mem_append] at h
      have hrow : D.holds (fun row => ∀ f ∈ row, D.fragment f)
          (if item.isTuple then Translator.row width (item.elements t)
            else fail (.illegalArgument .itemNotTuple)) := by
        split
        · exact D.holds_row (writes_elements item h.1)
        · exact D.holds_fail (D.error_argument _)
      unfold Expr.rows
      refine D.holds_bind hrow fun row hr => ?_
      refine D.holds_bind (holds_rows width rest h.2) fun rows hrs => ?_
      exact D.holds_pure (List.forall_mem_cons.mpr ⟨hr, hrs⟩)

theorem writes_branches : ∀ branches : List CaseBranch,
    (∀ n ∈ CaseBranch.nodesOf branches, D.admits n) →
    ∀ r ∈ CaseBranch.renderings t branches, D.writes r
  | [], _ => by simp [CaseBranch.renderings]
  | ⟨condition, result⟩ :: rest, h => by
      simp only [CaseBranch.nodesOf, List.forall_mem_append] at h
      rw [CaseBranch.renderings]
      refine List.forall_mem_cons.mpr ⟨?_, writes_branches rest h.2⟩
      refine D.holds_seq (D.writes_words rfl) (D.holds_seq (writes_expr condition h.1.1) ?_)
      exact D.holds_seq (D.writes_words rfl) (writes_expr result h.1.2)

theorem writes_match : ∀ l : Like, (∀ n ∈ l.nodes, D.admits n) → D.writes (l.render t)
  | ⟨subject, pattern, escape, negated, caseSensitive⟩, h => by
      simp only [Like.nodes, List.forall_mem_append] at h
      unfold Like.render
      exact D.writes_like (writes_expr subject h.1.1) (D.text_pattern h.1.2)
        (writes_expr pattern h.1.2) (writes_expr? escape h.2)

theorem writes_function : ∀ c : Call, (∀ n ∈ c.nodes, D.admits n) → D.writes (c.render t)
  | ⟨name, args, distinct, filter⟩, h => by
      simp only [Call.nodes, List.forall_mem_append] at h
      have hargs := writes_exprs args h.1
      unfold Call.render
      refine D.writes_call ?_ (writes_expr? filter h.2)
      intro arg harg
      exact hargs arg.2 (List.of_mem_zip harg).2

theorem writes_orders : ∀ order : List OrderItem, (∀ n ∈ OrderItem.nodesOf order, D.admits n) →
    ∀ r ∈ OrderItem.renderings t order, D.writes r
  | [], _ => by simp [OrderItem.renderings]
  | ⟨expr, direction⟩ :: rest, h => by
      simp only [OrderItem.nodesOf, List.forall_mem_append] at h
      rw [OrderItem.renderings]
      refine List.forall_mem_cons.mpr ⟨?_, writes_orders rest h.2⟩
      refine D.holds_seq (writes_expr expr h.1) (D.writes_when fun _ => D.writes_words ?_)
      cases direction <;> rfl

theorem writes_tableRef : ∀ r : TableRef, (∀ n ∈ r.nodes, D.admits n) → D.writes (r.render t)
  | .table table, h => by
      unfold TableRef.render
      exact D.writes_namedTable (h (.tableRef (.table table)) (by simp [TableRef.nodes]))
  | .query query correlation, h => by
      simp only [TableRef.nodes, List.forall_mem_cons] at h
      have hcorrelation : D.text correlation := h.1 correlation (by simp [Node.texts])
      unfold TableRef.render
      refine D.holds_seq (D.writes_words rfl) (D.holds_seq (writes_select query h.2) ?_)
      exact D.holds_seq (D.writes_words rfl) (D.writes_emit hcorrelation)
  | .join left kind lateral right condition, h => by
      simp only [TableRef.nodes, List.forall_mem_cons, List.forall_mem_append] at h
      obtain ⟨_, ⟨hleft, hright⟩, hcondition⟩ := h
      unfold TableRef.render
      exact D.writes_join (writes_tableRef left hleft) (writes_tableRef right hright)
        (writes_expr? condition hcondition)

theorem writes_tableRef? : ∀ o : Option TableRef, (∀ n ∈ TableRef.nodes? o, D.admits n) →
    ∀ r ∈ TableRef.rendering? t o, D.writes r
  | none, _ => by simp [TableRef.rendering?]
  | some table, h => by
      simp only [TableRef.nodes?] at h
      simpa [TableRef.rendering?] using writes_tableRef table h

theorem writes_commonTables : ∀ ctes : List Cte, (∀ n ∈ Cte.nodesOf ctes, D.admits n) →
    ∀ r ∈ Cte.renderings t ctes, D.writes r
  | [], _ => by simp [Cte.renderings]
  | ⟨name, columns, query, materialization⟩ :: rest, h => by
      simp only [Cte.nodesOf, List.forall_mem_cons, List.forall_mem_append] at h
      obtain ⟨hcte, hquery, hrest⟩ := h
      have hname : D.text name := hcte name (by simp [Node.texts])
      have hcolumns : ∀ s ∈ columns, D.text s := fun s hs => hcte s (by simp [Node.texts, hs])
      rw [Cte.renderings]
      exact List.forall_mem_cons.mpr
        ⟨D.writes_cte hname hcolumns (writes_select query hquery), writes_commonTables rest hrest⟩

theorem writes_with (mutation : Bool) : ∀ w : With, (∀ n ∈ w.nodes mutation, D.admits n) →
    D.writes (w.render t mutation)
  | ⟨recursive, ctes⟩, h => by
      simp only [With.nodes, List.forall_mem_cons] at h
      unfold With.render
      exact D.writes_ctes (writes_commonTables ctes h.2)

theorem writes_with? (mutation : Bool) : ∀ o : Option With,
    (∀ n ∈ With.nodes? mutation o, D.admits n) → ∀ r ∈ With.rendering? t mutation o, D.writes r
  | none, _ => by simp [With.rendering?]
  | some w, h => by
      simp only [With.nodes?] at h
      simpa [With.rendering?] using writes_with mutation w h

theorem writes_items : ∀ items : List SelectItem, (∀ n ∈ SelectItem.nodesOf items, D.admits n) →
    ∀ r ∈ SelectItem.renderings t items, D.writes r
  | [], _ => by simp [SelectItem.renderings]
  | ⟨expr, label⟩ :: rest, h => by
      simp only [SelectItem.nodesOf, List.forall_mem_cons, List.forall_mem_append] at h
      obtain ⟨hitem, hexpr, hrest⟩ := h
      have hlabel : ∀ s ∈ label, D.text s := fun s hs =>
        hitem s (by simpa [Node.texts] using hs)
      rw [SelectItem.renderings]
      refine List.forall_mem_cons.mpr ⟨?_, writes_items rest hrest⟩
      exact D.holds_seq (writes_expr expr hexpr) (D.writes_alias rfl hlabel)

theorem writes_select : ∀ s : Select, (∀ n ∈ s.nodes, D.admits n) → D.writes (s.render t)
  | ⟨withClause, distinct, columns, source, condition, groupBy, having, orderBy, limit, offset,
      lock⟩, h => by
      simp only [Select.nodes, List.forall_mem_append] at h
      obtain ⟨⟨⟨⟨⟨⟨⟨⟨⟨hwith, hcolumns⟩, hsource⟩, hcondition⟩, hgroup⟩, hhaving⟩, horder⟩, hlimit⟩,
        hoffset⟩, _⟩ := h
      have hlock : ∀ r ∈ lock.map t.lock, D.writes r := by
        intro r hr
        obtain ⟨request, _, rfl⟩ := Option.map_eq_some_iff.mp hr
        exact D.writes_lock request
      unfold Select.render
      split
      · exact D.holds_fail (D.error_argument _)
      · refine D.holds_seq (D.writes_optional rfl (writes_with? false withClause hwith)) ?_
        refine D.holds_seq (D.writes_words rfl) ?_
        refine D.holds_seq (D.writes_when fun _ => D.writes_words rfl) ?_
        refine D.holds_seq (D.writes_separated rfl (writes_items columns hcolumns)) ?_
        refine D.holds_seq (D.writes_optional rfl (writes_tableRef? source hsource)) ?_
        refine D.holds_seq (D.writes_optional rfl (writes_expr? condition hcondition)) ?_
        refine D.holds_seq (D.writes_listed rfl (writes_exprs groupBy hgroup)) ?_
        refine D.holds_seq (D.writes_optional rfl (writes_expr? having hhaving)) ?_
        refine D.holds_seq (D.writes_listed rfl (writes_orders orderBy horder)) ?_
        refine D.holds_seq (D.writes_optional rfl (writes_expr? limit hlimit)) ?_
        refine D.holds_seq (D.writes_optional rfl (writes_expr? offset hoffset)) ?_
        exact D.writes_optional rfl hlock

end

end QueryDiscipline

end SqlBackend
