import SqlBackend.Proofs.Render.Clauses

/-! # What success takes

A rendering that ends well has run every step it is made of, so each of its
parts ended well too and every feature it asked for was there. Parts that are
left out are those that could not have failed.
-/

namespace SqlBackend

open Rendering (emit emitFragment ofExcept fail detached)

namespace Rendering

variable {α β : Type}

/-- Behind some output the rendering ends well. -/
def Succeeds (r : Rendering α) : Prop := ∃ before a after, r.run before = (.ok a, after)

theorem not_succeeds_fail (e : Error) : ¬(fail e : Rendering α).Succeeds := by
  rintro ⟨before, a, after, h⟩
  cases h

namespace Succeeds

variable {r : Rendering α} {f : α → Rendering β} {rs : List (Rendering Unit)}
  {o : Option (Rendering Unit)} {lead separator : String}

theorem first_and_next (h : (r >>= f).Succeeds) : r.Succeeds ∧ ∃ a, (f a).Succeeds := by
  obtain ⟨before, b, last, h⟩ := h
  obtain ⟨a, after, ha, hf⟩ := run_bind_ok h
  exact ⟨⟨before, a, after, ha⟩, a, after, b, last, hf⟩

theorem first (h : (r >>= f).Succeeds) : r.Succeeds := h.first_and_next.1

theorem next (h : (r >>= f).Succeeds) : ∃ a, (f a).Succeeds := h.first_and_next.2

theorem rest {s : Rendering β} (h : (r >>= fun _ => s).Succeeds) : s.Succeeds := by
  obtain ⟨_, hs⟩ := h.next
  exact hs

theorem ofExcept {outcome : Except Error α} (h : (ofExcept outcome).Succeeds) :
    ∃ a, outcome = .ok a := by
  obtain ⟨before, a, after, h⟩ := h
  rw [run_ofExcept] at h
  exact ⟨a, (Prod.mk.inj h).1⟩

theorem when {s : Rendering Unit} {condition : Bool} (h : (Rendering.when condition s).Succeeds)
    (hcondition : condition = true) : s.Succeeds := by
  rw [hcondition] at h
  exact h

theorem optional (h : (Rendering.optional lead o).Succeeds) : ∀ r ∈ o, r.Succeeds := by
  rintro r ⟨rfl⟩
  exact Succeeds.rest h

theorem separated (h : (Rendering.separated separator rs).Succeeds) : ∀ r ∈ rs, r.Succeeds := by
  induction rs with
  | nil => simp
  | cons r rest ih =>
      cases rest with
      | nil => simpa [Rendering.separated] using h
      | cons s rest =>
          have hr : r.Succeeds := first h
          have hrest := ih (Succeeds.rest (Succeeds.rest h))
          exact List.forall_mem_cons.mpr ⟨hr, hrest⟩

theorem listed (h : (Rendering.listed lead rs).Succeeds) : ∀ r ∈ rs, r.Succeeds := by
  unfold Rendering.listed at h
  split at h
  next hempty => simp [List.isEmpty_iff.mp hempty]
  next => exact separated (Succeeds.rest h)

theorem sequence {rs : List (Rendering α)} (h : (Rendering.sequence rs).Succeeds) :
    ∀ r ∈ rs, r.Succeeds := by
  induction rs with
  | nil => simp
  | cons r rest ih =>
      obtain ⟨hr, a, hrest⟩ := first_and_next h
      exact List.forall_mem_cons.mpr ⟨hr, ih (first hrest)⟩

theorem length_sequence {rs : List (Rendering α)} {results : List α} {before after : Output}
    (h : (Rendering.sequence rs).run before = (.ok results, after)) :
    results.length = rs.length := by
  induction rs generalizing results before after with
  | nil =>
      cases h
      rfl
  | cons r rest ih =>
      obtain ⟨a, _, _, hnext⟩ := run_bind_ok h
      obtain ⟨tail, _, hrest, hpure⟩ := run_bind_ok hnext
      cases hpure
      exact congrArg (· + 1) (ih hrest)

theorem next_sequence {rs : List (Rendering α)} {f : List α → Rendering β}
    (h : (Rendering.sequence rs >>= f).Succeeds) :
    ∃ results, results.length = rs.length ∧ (f results).Succeeds := by
  obtain ⟨before, b, last, h⟩ := h
  obtain ⟨results, after, hresults, hf⟩ := run_bind_ok h
  exact ⟨results, length_sequence hresults, after, b, last, hf⟩

theorem detached {r : Rendering Unit} (h : r.detached.Succeeds) : r.Succeeds := by
  obtain ⟨before, f, after, h⟩ := h
  obtain ⟨a, ha, _⟩ := map_eq_ok_iff.mp (congrArg Prod.fst h)
  exact ⟨_, a, _, Prod.ext ha rfl⟩

theorem detached? (h : (Rendering.detached? o).Succeeds) : ∀ r ∈ o, r.Succeeds := by
  rintro r ⟨rfl⟩
  have hmap : (r.detached >>= fun f => pure (some f)).Succeeds := h
  exact hmap.first.detached

theorem fragments (h : (Rendering.fragments rs).Succeeds) : ∀ r ∈ rs, r.Succeeds := by
  intro r hr
  exact (sequence h r.detached (List.mem_map_of_mem hr)).detached

end Succeeds

end Rendering

namespace Translator

open Rendering.Succeeds

variable {t : Translator} {left right query subject rendered : Rendering Unit}
  {items order elements : List (Rendering Unit)}
  {operand? condition? escape? : Option (Rendering Unit)}

theorem grants_of_require {feature : Feature} (h : (t.require feature).Succeeds) :
    t.dialect.grants (.feature feature) = true := by
  obtain ⟨_, hok⟩ := h.ofExcept
  rw [Dialect.require] at hok
  split at hok
  next hsupports => exact hsupports
  next => cases hok

theorem lock_succeeds {request : LockRequest} (h : (t.lock request).Succeeds) :
    ∀ need ∈ request.timeout.needs, t.dialect.grants need = true := by
  obtain ⟨words, hwords⟩ := h.first.ofExcept
  rcases t.dialect.lockClause_cases request with ⟨need, _, _, herror⟩ | ⟨hgrants, _⟩
  · rw [hwords] at herror
    cases herror
  · exact hgrants

theorem cte_succeeds {name : String} {columns : List String} {m : Option Materialization}
    (h : (t.cte name columns m query).Succeeds) : query.Succeeds :=
  h.rest.rest.rest.rest.rest.rest.first

theorem ctes_succeeds {mutation recursive : Bool} (h : (t.ctes mutation recursive items).Succeeds) :
    (mutation = true → t.dialect.grants (.feature .cteInMutation) = true) ∧
      (recursive = true → t.dialect.grants (.feature .recursiveCte) = true) ∧
      ∀ r ∈ items, r.Succeeds := by
  refine ⟨?_, ?_, h.rest.rest.rest.rest.first.separated⟩
  · intro hmutation
    exact grants_of_require (h.first.when hmutation)
  · intro hrecursive
    exact grants_of_require (h.rest.first.when hrecursive)

theorem join_succeeds {kind : JoinKind} {lateral : Bool}
    (h : (t.join left kind lateral right condition?).Succeeds) :
    left.Succeeds ∧ (lateral = true → t.dialect.grants (.feature .lateral) = true) ∧
      right.Succeeds ∧ ∀ r ∈ condition?, r.Succeeds := by
  refine ⟨h.first, ?_, h.rest.rest.rest.rest.rest.first, h.rest.rest.rest.rest.rest.rest.optional⟩
  intro hlateral
  exact grants_of_require (h.rest.rest.rest.first.when hlateral).first

theorem rowComparison_succeeds {op : BinaryOp} {left right : List (Rendering Unit)}
    (h : (t.rowComparison op left right).Succeeds) :
    (∀ r ∈ left, r.Succeeds) ∧ ∀ r ∈ right, r.Succeeds := by
  unfold rowComparison at h
  split at h
  next => exact absurd h (Rendering.not_succeeds_fail _)
  next =>
    obtain ⟨hleft, l, hnext⟩ := h.first_and_next
    exact ⟨hleft.fragments, hnext.first.fragments⟩

theorem row_succeeds {width : Nat} (h : (row width elements).Succeeds) :
    ∀ r ∈ elements, r.Succeeds := by
  unfold row at h
  split at h
  · exact h.fragments
  · exact absurd h (Rendering.not_succeeds_fail _)

theorem rowMember_succeeds {candidates : Rendering (List (List Fragment))} {negated : Bool}
    (h : (rowMember elements candidates negated).Succeeds) :
    (∀ r ∈ elements, r.Succeeds) ∧ candidates.Succeeds := by
  unfold rowMember at h
  split at h
  · exact absurd h (Rendering.not_succeeds_fail _)
  · obtain ⟨helements, row, hnext⟩ := h.first_and_next
    exact ⟨helements.fragments, hnext.first⟩

theorem distinctFrom_succeeds {negated : Bool} (h : (t.distinctFrom left right negated).Succeeds) :
    left.Succeeds ∧ right.Succeeds := by
  unfold distinctFrom at h
  split at h
  · exact ⟨h.first, h.rest.rest⟩
  · obtain ⟨hleft, l, hnext⟩ := h.first_and_next
    exact ⟨hleft.detached, hnext.first.detached⟩

theorem escapeClause_succeeds (h : (escapeClause escape?).Succeeds) :
    ∀ r ∈ escape?, r.Succeeds := by
  rintro r ⟨rfl⟩
  exact h.rest

/-- A pattern that is not rendered is a text. -/
theorem likePattern_succeeds {pattern : Expr}
    (h : (t.likePattern pattern rendered escape?).Succeeds) :
    (rendered.Succeeds ∨ ∃ value, pattern = .literal (.string value)) ∧
      ∀ r ∈ escape?, r.Succeeds := by
  unfold likePattern at h
  split at h
  next =>
    refine ⟨?_, by simp⟩
    unfold reescaped at h
    split at h
    next value => exact .inr ⟨value, rfl⟩
    next => exact .inl h
    next => exact .inl h.rest.first
  next => exact ⟨.inl h, by simp⟩
  next => exact ⟨.inl h.first, escapeClause_succeeds h.rest⟩

theorem like_succeeds {pattern : Expr} {negated caseSensitive : Bool}
    (h : (t.like subject pattern rendered escape? negated caseSensitive).Succeeds) :
    subject.Succeeds ∧ (rendered.Succeeds ∨ ∃ value, pattern = .literal (.string value)) ∧
      ∀ r ∈ escape?, r.Succeeds := by
  unfold like at h
  split at h
  · exact ⟨h.rest.first, .inl h.rest.rest.rest.first,
      escapeClause_succeeds h.rest.rest.rest.rest.rest⟩
  · exact ⟨h.first, likePattern_succeeds h.rest.rest⟩

/-- An argument that is not rendered is a star. -/
theorem call_succeeds {name : String} {args : List (Expr × Rendering Unit)} {distinct : Bool}
    {filter : Option (Rendering Unit)} (h : (t.call name args distinct filter).Succeeds) :
    (∀ arg ∈ args, arg.2.Succeeds ∨ arg.1.isStar = true) ∧ ∀ r ∈ filter, r.Succeeds := by
  obtain ⟨hfilter, condition, hnext⟩ := h.first_and_next
  refine ⟨?_, hfilter.detached?⟩
  intro arg harg
  have hvalue := hnext.first.sequence _ (List.mem_map_of_mem harg)
  split at hvalue
  next c _ =>
    unfold filteredArgument at hvalue
    cases hstar : arg.1.isStar with
    | true => exact .inr rfl
    | false =>
        rw [hstar] at hvalue
        exact .inl hvalue.first.detached
  next => exact .inl hvalue.detached

theorem window_succeeds {partition : List (Rendering Unit)}
    (h : (t.window partition order).Succeeds) :
    (partition ≠ [] → t.dialect.grants (.feature .partitionBy) = true) ∧
      (∀ r ∈ partition, r.Succeeds) ∧ ∀ r ∈ order, r.Succeeds := by
  refine ⟨?_, h.rest.rest.first.listed, h.rest.rest.rest.rest.first.listed⟩
  intro hpartition
  exact grants_of_require (h.rest.first.when (by simpa using hpartition))

theorem caseOf_succeeds (h : (caseOf operand? items condition?).Succeeds) :
    (∀ r ∈ operand?, r.Succeeds) ∧ (∀ r ∈ items, r.Succeeds) ∧ ∀ r ∈ condition?, r.Succeeds :=
  ⟨h.rest.first.optional, h.rest.rest.first.separated, h.rest.rest.rest.first.optional⟩

end Translator

end SqlBackend
