import SqlBackend.Proofs.Render.Refusal
import SqlBackend.Proofs.Render.Styles
import SqlBackend.Proofs.Render.Totality

/-! # Further features break nothing

A feature leads from one way of writing a clause to another, or from a refusal to a
text. Whatever is rendered without it is still rendered with it: both ways render
the same parts, and what the first one demands of rows the second one does not
demand or demands as well.
-/

namespace SqlBackend

open Rendering (Succeeds Total)
open Rendering.Yields (seq emit optional separated listed when)

namespace Expr

variable {t : Translator}

/-- A tuple by itself is rendered if its elements are. -/
theorem tuple_total {e : Expr} (htuple : e.isTuple = true)
    (helements : ∀ r ∈ e.elements t, r.Total) : (e.render t).Total := by
  cases e with
  | tuple items =>
      rw [elements] at helements
      rw [render]
      exact (emit "(").seq ((separated helements).seq (emit ")"))
  | _ => cases htuple

theorem length_elements (t t' : Translator) (e : Expr) :
    (e.elements t).length = (e.elements t').length := by
  cases e with
  | tuple items => simp [elements]
  | _ => simp [elements]

/-- A star or a text is written whatever the backend is. -/
theorem star_succeeds {e : Expr} (h : e.isStar = true) : (e.render t).Succeeds := by
  cases e with
  | star table => exact ⟨{}, (), _, by rw [render]; rfl⟩
  | _ => cases h

/-- The arguments of a call, each of which is rendered or a star, could all be rendered. -/
theorem succeeds_of_arguments {args : List Expr}
    (h : ∀ arg ∈ args.zip (renderings t args), arg.2.Succeeds ∨ arg.1.isStar = true) :
    ∀ r ∈ renderings t args, r.Succeeds := by
  rw [renderings_eq_map, List.zip_map_right] at h
  rw [renderings_eq_map]
  intro r hr
  obtain ⟨arg, harg, rfl⟩ := List.mem_map.mp hr
  have hpair : (arg, arg) ∈ args.zip args := by
    obtain ⟨i, hi, rfl⟩ := List.getElem_of_mem harg
    exact List.mem_iff_getElem.mpr ⟨i, by simpa using hi, by simp⟩
  rcases h _ (List.mem_map_of_mem hpair) with hrendered | hstar
  · exact hrendered
  · exact star_succeeds hstar

theorem literal_succeeds (value : Literal) : ((literal value).render t).Succeeds :=
  ⟨{}, (), _, by rw [render]; rfl⟩

end Expr

namespace Translator

/-- The translator by the same rules for a backend with these features. -/
def withCapabilities (t : Translator) (c : Capabilities) : Translator :=
  ⟨{ t.dialect with capabilities := c }, t.style⟩

/-- The features are those of the backend and possibly others. -/
def Gains (t : Translator) (more : Capabilities) : Prop :=
  ∀ f, t.supports f = true → more.supports f = true

@[simp] theorem style_withCapabilities (t : Translator) (c : Capabilities) :
    (t.withCapabilities c).style = t.style := rfl

variable {t : Translator}

theorem lengths_of_rowComparison {op : BinaryOp} {left right : List (Rendering Unit)}
    (h : (t.rowComparison op left right).Succeeds) :
    left.length = right.length ∧ left.length ≠ 0 := by
  unfold rowComparison at h
  split at h
  next => exact absurd h (Rendering.not_succeeds_fail _)
  next hlengths => simpa using hlengths

theorem length_of_row {width : Nat} {elements : List (Rendering Unit)}
    (h : (row width elements).Succeeds) : elements.length = width := by
  unfold row at h
  split at h
  next hwidth => exact hwidth
  next => exact absurd h (Rendering.not_succeeds_fail _)

theorem ne_nil_of_rowMember {elements : List (Rendering Unit)}
    {candidates : Rendering (List (List Fragment))} {negated : Bool}
    (h : (rowMember elements candidates negated).Succeeds) : elements ≠ [] := by
  unfold rowMember at h
  split at h
  next => exact absurd h (Rendering.not_succeeds_fail _)
  next hne => simpa using hne

/-- The function takes as many arguments as it was called with. -/
theorem registry_call_of_call {name : String} {args : List (Expr × Rendering Unit)}
    {distinct : Bool} {filter : Option (Rendering Unit)}
    (h : (t.call name args distinct filter).Succeeds) {values : List Fragment}
    (hlength : values.length = args.length) :
    ∃ called, t.dialect.functions.call name values = .ok called := by
  obtain ⟨condition, hcall⟩ := h.next
  obtain ⟨rendered, hrendered, hnext⟩ := hcall.next_sequence
  obtain ⟨called, hcalled⟩ := hnext.first.ofExcept
  refine registry_call_ok_of_length ?_ hcalled
  rw [List.length_map] at hrendered
  split
  · rw [length_markDistinct, hlength, hrendered]
  · rw [hlength, hrendered]

variable {more : Capabilities}

/-- What the larger set of features lacks the smaller one lacks too. -/
theorem lacks_of_lacks (hmore : t.Gains more) {f : Feature}
    (hlacks : (t.withCapabilities more).supports f = false) : t.supports f = false := by
  cases hsupports : t.supports f with
  | false => rfl
  | true => exact (hmore f hsupports).symm.trans hlacks

theorem keeps_require (hmore : t.Gains more) {f : Feature} (h : (t.require f).Succeeds) :
    ((t.withCapabilities more).require f).Total :=
  require_total (hmore f (grants_of_require h))

/-- What a lock needs beyond features does not depend on the features. -/
theorem keeps_lock (hmore : t.Gains more) (lock : Option LockRequest)
    (h : ∀ r ∈ lock.map t.lock, r.Succeeds) :
    ∀ r ∈ lock.map (t.withCapabilities more).lock, r.Total := by
  intro r hr
  obtain ⟨request, hrequest, rfl⟩ := Option.map_eq_some_iff.mp hr
  have hgrants := lock_succeeds (h (t.lock request) (by rw [hrequest]; rfl))
  refine lock_total fun need hneed => ?_
  have hneed := hgrants need hneed
  cases need with
  | feature f => exact hmore f hneed
  | lockTimeout => exact hneed

mutual

theorem keeps_expr (hmore : t.Gains more) :
    ∀ e : Expr, (e.render t).Succeeds → (e.render (t.withCapabilities more)).Total
  | .literal _, _ => by
      rw [Expr.render]
      exact emit _
  | .column _ _, _ => by
      rw [Expr.render]
      exact emit _
  | .binary left op right, h => by
      unfold Expr.render at h ⊢
      split at h
      next htuples =>
        rw [if_pos htuples]
        obtain ⟨hleft, hright⟩ := rowComparison_succeeds h
        obtain ⟨hlength, hne⟩ := lengths_of_rowComparison h
        rw [left.length_elements t (t.withCapabilities more)] at hlength hne
        rw [right.length_elements t (t.withCapabilities more)] at hlength
        exact rowComparison_total hlength hne (keeps_elements hmore left hleft)
          (keeps_elements hmore right hright)
      next htuples =>
        rw [if_neg htuples]
        exact (keeps_expr hmore left h.first).seq
          ((emit _).seq (keeps_expr hmore right h.rest.rest))
  | .unary op operand, h => by
      unfold Expr.render at h ⊢
      exact (emit _).seq (keeps_expr hmore operand h.rest)
  | .like predicate, h => by
      unfold Expr.render at h ⊢
      exact keeps_match hmore predicate h
  | .call call, h => by
      unfold Expr.render at h ⊢
      exact keeps_function hmore call h
  | .window call partition order, h => by
      unfold Expr.render at h ⊢
      obtain ⟨hpartitioned, hpartition, horder⟩ := window_succeeds h.rest
      refine (keeps_function hmore call h.first).seq (window_total ?_
        (keeps_exprs hmore partition hpartition) (keeps_orders hmore order horder))
      intro hne
      apply hmore
      apply hpartitioned
      simpa [Expr.renderings_eq_map] using hne
  | .subquery query, h => by
      unfold Expr.render at h ⊢
      exact (emit _).seq ((keeps_select hmore query h.rest.first).seq (emit _))
  | .tuple items, h => by
      unfold Expr.render at h ⊢
      exact (emit _).seq ((separated (keeps_exprs hmore items h.rest.first.separated)).seq (emit _))
  | .isNull operand negated, h => by
      unfold Expr.render at h ⊢
      exact (keeps_expr hmore operand h.first).seq (emit _)
  | .distinctFrom left right negated, h => by
      unfold Expr.render at h ⊢
      obtain ⟨hleft, hright⟩ := distinctFrom_succeeds h
      exact distinctFrom_total (keeps_expr hmore left hleft) (keeps_expr hmore right hright)
  | .inList operand items negated, h => by
      unfold Expr.render at h ⊢
      split at h
      next hempty =>
        rw [if_pos hempty]
        exact emit _
      next hitems =>
        rw [if_neg hitems]
        split at h
        next hrow =>
          rw [Bool.and_eq_true] at hrow
          obtain ⟨helements, hrows⟩ := rowMember_succeeds h
          have hne := ne_nil_of_rowMember h
          have hlength := operand.length_elements t (t.withCapabilities more)
          have htotal := keeps_elements hmore operand helements
          obtain ⟨hcandidates, hnative⟩ := keeps_rows hmore _ items hrows
          split
          · rw [hlength] at hcandidates
            refine rowMember_total ?_ htotal hcandidates
            simpa [← List.length_eq_zero_iff, hlength] using hne
          · exact (Expr.tuple_total hrow.1 htotal).seq
              ((emit _).seq ((separated hnative).seq (emit _)))
        next hrow =>
          have hnative :
              ¬(operand.isTuple && !(t.withCapabilities more).supports .rowConstructor) := by
            intro hrow'
            simp only [Bool.and_eq_true, Bool.not_eq_true'] at hrow hrow'
            exact hrow ⟨hrow'.1, lacks_of_lacks hmore hrow'.2⟩
          rw [if_neg hnative]
          refine (keeps_expr hmore operand h.first).seq ((emit _).seq ?_)
          exact (separated (keeps_exprs hmore items h.rest.rest.first.separated)).seq (emit _)
  | .inQuery operand query negated, h => by
      unfold Expr.render at h ⊢
      refine (when fun htuple => keeps_require hmore (h.first.when htuple)).seq ?_
      refine (keeps_expr hmore operand h.rest.first).seq ((emit _).seq ?_)
      exact (keeps_select hmore query h.rest.rest.rest.first).seq (emit _)
  | .between operand low high negated, h => by
      unfold Expr.render at h ⊢
      refine (keeps_expr hmore operand h.first).seq ((emit _).seq ?_)
      refine (keeps_expr hmore low h.rest.rest.first).seq ((emit _).seq ?_)
      exact keeps_expr hmore high h.rest.rest.rest.rest
  | .caseOf operand branches otherwise, h => by
      unfold Expr.render at h ⊢
      obtain ⟨hoperand, hbranches, hotherwise⟩ := caseOf_succeeds h
      exact caseOf_total (keeps_expr? hmore operand hoperand)
        (keeps_branches hmore branches hbranches) (keeps_expr? hmore otherwise hotherwise)
  | .cast operand target, h => by
      unfold Expr.render at h ⊢
      refine (emit _).seq ((keeps_expr hmore operand h.rest.first).seq ((emit _).seq ?_))
      exact (emit _).seq (emit _)
  | .paren inner, h => by
      unfold Expr.render at h ⊢
      exact (emit _).seq ((keeps_expr hmore inner h.rest.first).seq (emit _))
  | .parameter, _ => by
      rw [Expr.render]
      exact .emitFragment _
  | .star _, _ => by
      rw [Expr.render]
      exact emit _

theorem keeps_elements (hmore : t.Gains more) :
    ∀ e : Expr, (∀ r ∈ e.elements t, r.Succeeds) →
      ∀ r ∈ e.elements (t.withCapabilities more), r.Total
  | .tuple items, h => by
      unfold Expr.elements at h ⊢
      exact keeps_exprs hmore items h
  | .literal _, _ | .column _ _, _ | .binary _ _ _, _ | .unary _ _, _ | .like _, _ | .call _, _
  | .window _ _ _, _ | .subquery _, _ | .isNull _ _, _ | .distinctFrom _ _ _, _ | .inList _ _ _, _
  | .inQuery _ _ _, _ | .between _ _ _ _, _ | .caseOf _ _ _, _ | .cast _ _, _ | .paren _, _
  | .parameter, _ | .star _, _ => by simp [Expr.elements]

theorem keeps_exprs (hmore : t.Gains more) :
    ∀ es : List Expr, (∀ r ∈ Expr.renderings t es, r.Succeeds) →
      ∀ r ∈ Expr.renderings (t.withCapabilities more) es, r.Total
  | [], _ => by simp [Expr.renderings]
  | e :: rest, h => by
      rw [Expr.renderings, List.forall_mem_cons] at h
      rw [Expr.renderings, List.forall_mem_cons]
      exact ⟨keeps_expr hmore e h.1, keeps_exprs hmore rest h.2⟩

theorem keeps_expr? (hmore : t.Gains more) :
    ∀ o : Option Expr, (∀ r ∈ Expr.rendering? t o, r.Succeeds) →
      ∀ r ∈ Expr.rendering? (t.withCapabilities more) o, r.Total
  | none, _ => by simp [Expr.rendering?]
  | some e, h => by
      have he := keeps_expr hmore e (h _ rfl)
      simpa [Expr.rendering?] using he

/-- Rows that are taken apart without row constructors are written with them. -/
theorem keeps_rows (hmore : t.Gains more) (width : Nat) :
    ∀ items : List Expr, (Expr.rows t width items).Succeeds →
      (Expr.rows (t.withCapabilities more) width items).Total ∧
        ∀ r ∈ Expr.renderings (t.withCapabilities more) items, r.Total
  | [], _ => by
      rw [Expr.rows, Expr.renderings]
      exact ⟨.pure trivial, by simp⟩
  | item :: rest, h => by
      unfold Expr.rows at h
      obtain ⟨hrow, row, hnext⟩ := h.first_and_next
      obtain ⟨hrows, hrest⟩ := keeps_rows hmore width rest hnext.first
      split at hrow
      next htuple =>
        have helements := keeps_elements hmore item (row_succeeds hrow)
        have hwidth := length_of_row hrow
        rw [item.length_elements t (t.withCapabilities more)] at hwidth
        rw [Expr.rows, if_pos htuple, Expr.renderings, List.forall_mem_cons]
        refine ⟨?_, Expr.tuple_total htuple helements, hrest⟩
        exact (row_total hwidth helements).bind fun _ _ => hrows.bind fun _ _ => .pure trivial
      next => exact absurd hrow (Rendering.not_succeeds_fail _)

theorem keeps_branches (hmore : t.Gains more) :
    ∀ bs : List CaseBranch, (∀ r ∈ CaseBranch.renderings t bs, r.Succeeds) →
      ∀ r ∈ CaseBranch.renderings (t.withCapabilities more) bs, r.Total
  | [], _ => by simp [CaseBranch.renderings]
  | ⟨condition, result⟩ :: rest, h => by
      rw [CaseBranch.renderings, List.forall_mem_cons] at h
      rw [CaseBranch.renderings, List.forall_mem_cons]
      refine ⟨?_, keeps_branches hmore rest h.2⟩
      refine (emit _).seq ((keeps_expr hmore condition h.1.rest.first).seq ?_)
      exact (emit _).seq (keeps_expr hmore result h.1.rest.rest.rest)

theorem keeps_match (hmore : t.Gains more) :
    ∀ l : Like, (l.render t).Succeeds → (l.render (t.withCapabilities more)).Total
  | ⟨subject, pattern, escape, negated, caseSensitive⟩, h => by
      unfold Like.render at h ⊢
      obtain ⟨hsubject, hpattern, hescape⟩ := like_succeeds h
      have hrendered : (pattern.render t).Succeeds := by
        rcases hpattern with hpattern | ⟨value, rfl⟩
        · exact hpattern
        · exact Expr.literal_succeeds _
      exact like_total (keeps_expr hmore subject hsubject) (keeps_expr hmore pattern hrendered)
        (keeps_expr? hmore escape hescape)

theorem keeps_function (hmore : t.Gains more) :
    ∀ c : Call, (c.render t).Succeeds → (c.render (t.withCapabilities more)).Total
  | ⟨name, args, distinct, filter⟩, h => by
      unfold Call.render at h ⊢
      obtain ⟨hargs, hfilter⟩ := call_succeeds h
      have hrendered := Expr.succeeds_of_arguments hargs
      have htotal := keeps_exprs hmore args hrendered
      refine call_total ?_ (keeps_expr? hmore filter hfilter) ?_
      · exact fun arg harg => htotal arg.2 (List.of_mem_zip harg).2
      · intro values hvalues
        apply registry_call_of_call h
        simpa using hvalues

theorem keeps_orders (hmore : t.Gains more) :
    ∀ items : List OrderItem, (∀ r ∈ OrderItem.renderings t items, r.Succeeds) →
      ∀ r ∈ OrderItem.renderings (t.withCapabilities more) items, r.Total
  | [], _ => by simp [OrderItem.renderings]
  | ⟨expr, direction⟩ :: rest, h => by
      rw [OrderItem.renderings, List.forall_mem_cons] at h
      rw [OrderItem.renderings, List.forall_mem_cons]
      exact ⟨(keeps_expr hmore expr h.1.first).seq (when fun _ => emit _),
        keeps_orders hmore rest h.2⟩

theorem keeps_tableRef (hmore : t.Gains more) :
    ∀ r : TableRef, (r.render t).Succeeds → (r.render (t.withCapabilities more)).Total
  | .table table, _ => by
      rw [TableRef.render]
      exact namedTable_total table
  | .query query correlation, h => by
      unfold TableRef.render at h ⊢
      refine (emit _).seq ((keeps_select hmore query h.rest.first).seq ?_)
      exact (emit _).seq (emit _)
  | .join left kind lateral right condition, h => by
      unfold TableRef.render at h ⊢
      obtain ⟨hleft, hlateral, hright, hcondition⟩ := join_succeeds h
      exact join_total (keeps_tableRef hmore left hleft) (fun hl => hmore _ (hlateral hl))
        (keeps_tableRef hmore right hright) (keeps_expr? hmore condition hcondition)

theorem keeps_tableRef? (hmore : t.Gains more) :
    ∀ o : Option TableRef, (∀ r ∈ TableRef.rendering? t o, r.Succeeds) →
      ∀ r ∈ TableRef.rendering? (t.withCapabilities more) o, r.Total
  | none, _ => by simp [TableRef.rendering?]
  | some table, h => by
      have htable := keeps_tableRef hmore table (h _ rfl)
      simpa [TableRef.rendering?] using htable

theorem keeps_commonTables (hmore : t.Gains more) :
    ∀ ctes : List Cte, (∀ r ∈ Cte.renderings t ctes, r.Succeeds) →
      ∀ r ∈ Cte.renderings (t.withCapabilities more) ctes, r.Total
  | [], _ => by simp [Cte.renderings]
  | ⟨name, columns, query, materialization⟩ :: rest, h => by
      rw [Cte.renderings, List.forall_mem_cons] at h
      rw [Cte.renderings, List.forall_mem_cons]
      exact ⟨cte_total (keeps_select hmore query (cte_succeeds h.1)),
        keeps_commonTables hmore rest h.2⟩

theorem keeps_with (hmore : t.Gains more) (mutation : Bool) :
    ∀ w : With, (w.render t mutation).Succeeds →
      (w.render (t.withCapabilities more) mutation).Total
  | ⟨recursive, ctes⟩, h => by
      unfold With.render at h ⊢
      obtain ⟨hmutation, hrecursive, hctes⟩ := ctes_succeeds h
      exact ctes_total (fun hm => hmore _ (hmutation hm)) (fun hr => hmore _ (hrecursive hr))
        (keeps_commonTables hmore ctes hctes)

theorem keeps_with? (hmore : t.Gains more) (mutation : Bool) :
    ∀ o : Option With, (∀ r ∈ With.rendering? t mutation o, r.Succeeds) →
      ∀ r ∈ With.rendering? (t.withCapabilities more) mutation o, r.Total
  | none, _ => by simp [With.rendering?]
  | some w, h => by
      have hw := keeps_with hmore mutation w (h _ rfl)
      simpa [With.rendering?] using hw

theorem keeps_items (hmore : t.Gains more) :
    ∀ items : List SelectItem, (∀ r ∈ SelectItem.renderings t items, r.Succeeds) →
      ∀ r ∈ SelectItem.renderings (t.withCapabilities more) items, r.Total
  | [], _ => by simp [SelectItem.renderings]
  | ⟨expr, label⟩ :: rest, h => by
      rw [SelectItem.renderings, List.forall_mem_cons] at h
      rw [SelectItem.renderings, List.forall_mem_cons]
      exact ⟨(keeps_expr hmore expr h.1.first).seq (alias_total " as " label),
        keeps_items hmore rest h.2⟩

theorem keeps_select (hmore : t.Gains more) :
    ∀ s : Select, (s.render t).Succeeds → (s.render (t.withCapabilities more)).Total
  | ⟨withClause, distinct, columns, source, condition, groupBy, having, orderBy, limit, offset,
      lock⟩, h => by
      unfold Select.render at h ⊢
      split at h
      next => exact absurd h (Rendering.not_succeeds_fail _)
      next hcolumns =>
        rw [if_neg hcolumns]
        -- The clauses in the order they are written; `hbody` starts at the columns.
        have hbody := h.rest.rest.rest
        have htail := hbody.rest.rest.rest.rest
        refine (optional (keeps_with? hmore false withClause h.first.optional)).seq ?_
        refine (emit _).seq ((when fun _ => emit _).seq ?_)
        refine (separated (keeps_items hmore columns hbody.first.separated)).seq ?_
        refine (optional (keeps_tableRef? hmore source hbody.rest.first.optional)).seq ?_
        refine (optional (keeps_expr? hmore condition hbody.rest.rest.first.optional)).seq ?_
        refine (listed (keeps_exprs hmore groupBy hbody.rest.rest.rest.first.listed)).seq ?_
        refine (optional (keeps_expr? hmore having htail.first.optional)).seq ?_
        refine (listed (keeps_orders hmore orderBy htail.rest.first.listed)).seq ?_
        refine (optional (keeps_expr? hmore limit htail.rest.rest.first.optional)).seq ?_
        refine (optional (keeps_expr? hmore offset htail.rest.rest.rest.first.optional)).seq ?_
        exact optional (keeps_lock hmore lock htail.rest.rest.rest.rest.optional)

end

theorem keeps_source (hmore : t.Gains more) {source : InsertSource}
    (h : (source.render t).Succeeds) : (source.render (t.withCapabilities more)).Total := by
  unfold InsertSource.render at h ⊢
  cases source with
  | rows values =>
      dsimp only at h ⊢
      split at h
      next => exact absurd h (Rendering.not_succeeds_fail _)
      next hvalues =>
        rw [if_neg hvalues]
        refine listed ?_
        intro r hr
        obtain ⟨row, hrow, rfl⟩ := List.mem_map.mp hr
        have hitems := (h.listed _ (List.mem_map_of_mem hrow)).rest.first.separated
        exact (emit _).seq ((separated (keeps_exprs hmore row hitems)).seq (emit _))
  | query q => exact (emit _).seq (keeps_select hmore q h.rest)
  | defaults => exact emit _

theorem keeps_insert (hmore : t.Gains more) {i : Insert}
    (h : (i.render t).Succeeds) : (i.render (t.withCapabilities more)).Total := by
  unfold Insert.render at h ⊢
  refine (optional (keeps_with? hmore true _ h.first.optional)).seq ((emit _).seq ?_)
  refine (target_total i.target .insert).seq ((listed (names_total i.columns)).seq ?_)
  exact (when fun _ => emit _).seq (keeps_source hmore h.rest.rest.rest.rest.rest)

theorem keeps_sources (hmore : t.Gains more) {u : Update}
    (h : (u.renderSources t).Succeeds) : (u.renderSources (t.withCapabilities more)).Total := by
  unfold Update.renderSources at h ⊢
  rw [style_withCapabilities]
  split at h
  next => exact .pure trivial
  next =>
    refine (when fun hne => keeps_require hmore (h.first.when hne)).seq (listed ?_)
    intro r hr
    obtain ⟨table, htable, rfl⟩ := List.mem_map.mp hr
    exact keeps_tableRef hmore table (h.rest.listed _ (List.mem_map_of_mem htable))

theorem keeps_update (hmore : t.Gains more) {u : Update}
    (h : (u.render t).Succeeds) : (u.render (t.withCapabilities more)).Total := by
  unfold Update.render at h ⊢
  split at h
  next => exact absurd h (Rendering.not_succeeds_fail _)
  next hassignments =>
    rw [if_neg hassignments]
    have hbody := h.rest.rest.rest
    refine (optional (keeps_with? hmore true _ h.first.optional)).seq ((emit _).seq ?_)
    refine (target_total u.target .update).seq ((listed ?_).seq ?_)
    · intro r hr
      obtain ⟨a, ha, rfl⟩ := List.mem_map.mp hr
      have hvalue := (hbody.first.listed _ (List.mem_map_of_mem ha)).rest.rest
      exact (emit _).seq ((emit _).seq (keeps_expr hmore a.value hvalue))
    · refine (keeps_sources hmore hbody.rest.first).seq ?_
      exact optional (keeps_expr? hmore _ hbody.rest.rest.optional)

theorem keeps_delete (hmore : t.Gains more) {d : Delete}
    (h : (d.render t).Succeeds) : (d.render (t.withCapabilities more)).Total := by
  unfold Delete.render at h ⊢
  refine (optional (keeps_with? hmore true _ h.first.optional)).seq ((emit _).seq ?_)
  refine (target_total d.target .delete).seq ?_
  exact optional (keeps_expr? hmore _ h.rest.rest.rest.optional)

theorem keeps_statement (hmore : t.Gains more) {s : Statement}
    (h : (s.render t).Succeeds) : (s.render (t.withCapabilities more)).Total := by
  cases s with
  | select query => exact keeps_select hmore query h
  | insert insertion => exact keeps_insert hmore h
  | update change => exact keeps_update hmore h
  | delete deletion => exact keeps_delete hmore h

/-- A statement that a backend translates by the standard rules is translated as well
with a larger set of features, everything else about the dialect being as it was. -/
theorem features_keep_success (d : Dialect) (more : Capabilities)
    (hmore : ∀ f, d.supports f = true → more.supports f = true) (s : Statement) {o : Output}
    (h : (standard d).translate s = .ok o) :
    ∃ o', (standard { d with capabilities := more }).translate s = .ok o' := by
  have hsucceeds : (s.render (standard d)).Succeeds := ⟨{}, (), o, run_of_translate h⟩
  have htotal := keeps_statement (t := standard d) hmore hsucceeds
  obtain ⟨_, after, hrun, _⟩ := htotal {}
  refine ⟨after, ?_⟩
  rw [translate_eq]
  exact congrArg (fun result => result.1.map fun _ => result.2) hrun

/-- Rows outside a list, told without row constructors and then with them. -/
theorem features_keep_success_rows :
    let d := Dialect.spanner {}
    let outside := Expr.inList (.tuple [.column none "a", .column none "b"])
      [.tuple [.parameter, .literal .null]] true
    let s := Statement.select { Select.plain [⟨.star none, none⟩] none with condition := outside }
    (∀ f, d.supports f = true → Capabilities.postgres.supports f = true) ∧
      (standard d).translate s = .ok ⟨"select * where not ((a = ? and b = null))", 1, []⟩ ∧
      ∃ o', (standard { d with capabilities := .postgres }).translate s = .ok o' := by
  intro d outside s
  have hmore : ∀ f, d.supports f = true → Capabilities.postgres.supports f = true := by
    intro f
    cases f <;> decide
  refine ⟨hmore, rfl, ?_⟩
  exact features_keep_success d .postgres hmore s rfl

end Translator

end SqlBackend
