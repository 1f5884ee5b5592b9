import SqlBackend.Proofs.Function.Copies
import SqlBackend.Proofs.Render.Clauses

/-! # How many parameters a rendering places

A rendering places a number of parameters if it adds so many to the output whenever
it ends well. What is rendered apart adds none until the fragment is written. A
clause places the parameters of its parts, provided that the backend needs no
emulation for it, for those copy some of their parts and leave out others.
-/

namespace SqlBackend

open Fragment (total)

namespace Rendering

variable {α β : Type}

/-- If the rendering ends well it has added so many parameters, and what it results in
has a property. -/
def PlacesWith (n : Nat) (P : α → Prop) (r : Rendering α) : Prop :=
  ∀ before a after, r.run before = (.ok a, after) →
    after.parameters = before.parameters + n ∧ P a

/-- If the rendering ends well it has added so many parameters. -/
abbrev Places (n : Nat) (r : Rendering α) : Prop := r.PlacesWith n fun _ => True

/-- The renderings add so many parameters together. -/
inductive PlacesAll : Nat → List (Rendering Unit) → Prop where
  | nil : PlacesAll 0 []
  | cons {m n : Nat} {r : Rendering Unit} {rest : List (Rendering Unit)} (first : r.Places m)
      (others : PlacesAll n rest) : PlacesAll (m + n) (r :: rest)

namespace PlacesWith

variable {m n : Nat} {P : α → Prop} {Q : β → Prop} {r : Rendering α} {s : Rendering β}

theorem of_eq (h : r.PlacesWith m P) (hmn : m = n) : r.PlacesWith n P := hmn ▸ h

protected theorem pure {a : α} (ha : P a) : (Pure.pure a : Rendering α).PlacesWith 0 P := by
  rintro before _ _ ⟨⟩
  exact ⟨rfl, ha⟩

protected theorem bind {f : α → Rendering β} (hr : r.PlacesWith m P)
    (hf : ∀ a, P a → (f a).PlacesWith n Q) : (r >>= f).PlacesWith (m + n) Q := by
  intro before b last h
  obtain ⟨a, after, hrun, hnext⟩ := run_bind_ok h
  obtain ⟨hafter, ha⟩ := hr before a after hrun
  obtain ⟨hlast, hb⟩ := hf a ha after b last hnext
  exact ⟨by omega, hb⟩

theorem seq (hr : r.Places m) (hs : s.PlacesWith n Q) : (r >>= fun _ => s).PlacesWith (m + n) Q :=
  hr.bind fun _ _ => hs

/-- What adds no parameters only hands on its result. -/
theorem bind_quiet {f : α → Rendering β} (hr : r.PlacesWith 0 P)
    (hf : ∀ a, P a → (f a).PlacesWith n Q) : (r >>= f).PlacesWith n Q :=
  (hr.bind hf).of_eq n.zero_add

theorem quiet_seq (hr : r.Places 0) (hs : s.PlacesWith n Q) : (r >>= fun _ => s).PlacesWith n Q :=
  hr.bind_quiet fun _ _ => hs

theorem seq_quiet (hr : r.Places n) (hs : s.PlacesWith 0 Q) : (r >>= fun _ => s).PlacesWith n Q :=
  hr.seq hs

theorem ofExcept {outcome : Except Error α} (h : ∀ a, outcome = .ok a → P a) :
    (Rendering.ofExcept outcome).PlacesWith 0 P := by
  rintro before a _ hrun
  obtain ⟨houtcome, rfl⟩ := Prod.mk.inj hrun
  exact ⟨rfl, h a houtcome⟩

theorem fail (e : Error) : (Rendering.fail e : Rendering α).PlacesWith n P := by
  rintro before a after ⟨⟩

theorem emit (text : String) : (Rendering.emit text).Places 0 := by
  rintro before _ _ ⟨⟩
  exact ⟨rfl, trivial⟩

theorem emitFragment (f : Fragment) : (Rendering.emitFragment f).Places f.parameters := by
  rintro before _ _ ⟨⟩
  exact ⟨rfl, trivial⟩

theorem affect (table : String) : (Rendering.affect table).Places 0 := by
  rintro before _ _ ⟨⟩
  exact ⟨rfl, trivial⟩

theorem when {condition : Bool} {s : Rendering Unit} (h : s.Places 0) :
    (Rendering.when condition s).Places 0 := by
  cases condition with
  | false => exact .pure trivial
  | true => exact h

/-- Rendered apart, the parameters go with the fragment and not to the output. -/
theorem detached {s : Rendering Unit} (h : s.Places n) :
    s.detached.PlacesWith 0 fun f => f.parameters = n := by
  rintro before f _ hrun
  obtain ⟨houtcome, rfl⟩ := Prod.mk.inj hrun
  obtain ⟨_, hinner, rfl⟩ := map_eq_ok_iff.mp houtcome
  obtain ⟨hparameters, _⟩ := h _ _ _ (Prod.ext hinner rfl)
  exact ⟨rfl, by simpa [Output.fragment] using hparameters⟩

end PlacesWith

namespace PlacesAll

variable {m n : Nat} {rs : List (Rendering Unit)} {o : Option (Rendering Unit)}
  {lead separator : String}

theorem of_eq (h : PlacesAll m rs) (hmn : m = n) : PlacesAll n rs := hmn ▸ h

theorem singleton {r : Rendering Unit} (h : r.Places n) : PlacesAll n [r] := .cons h .nil

theorem none (h : ∀ r ∈ rs, r.Places 0) : PlacesAll 0 rs := by
  induction rs with
  | nil => exact .nil
  | cons r rest ih =>
      obtain ⟨hr, hrest⟩ := List.forall_mem_cons.mp h
      exact (PlacesAll.cons hr (ih hrest)).of_eq rfl

theorem optional (h : PlacesAll n o.toList) : (Rendering.optional lead o).Places n := by
  cases o with
  | none =>
      cases h
      exact .pure trivial
  | some r =>
      cases h with
      | cons hr hnil =>
          cases hnil
          exact (PlacesWith.emit lead).quiet_seq hr

theorem separated (h : PlacesAll n rs) : (Rendering.separated separator rs).Places n := by
  induction h with
  | nil => exact .pure trivial
  | cons hr hrest ih =>
      cases hrest with
      | nil => exact hr
      | cons => exact hr.seq ((PlacesWith.emit separator).quiet_seq ih)

theorem listed (h : PlacesAll n rs) : (Rendering.listed lead rs).Places n := by
  unfold Rendering.listed
  split
  next hempty =>
    rw [List.isEmpty_iff.mp hempty] at h
    cases h
    exact .pure trivial
  next => exact (PlacesWith.emit lead).quiet_seq h.separated

theorem fragments (h : PlacesAll n rs) :
    (Rendering.fragments rs).PlacesWith 0 fun fs => total fs = n := by
  induction h with
  | nil => exact .pure rfl
  | cons hr _ ih =>
      refine hr.detached.bind_quiet fun f hf => ih.bind_quiet fun fs hfs => ?_
      exact .pure (by rw [Fragment.total_cons, hf, hfs])

theorem detached? (h : PlacesAll n o.toList) :
    (Rendering.detached? o).PlacesWith 0 fun f => total f.toList = n := by
  cases o with
  | none =>
      cases h
      exact .pure rfl
  | some r =>
      cases h with
      | cons hr hnil =>
          cases hnil
          refine hr.detached.bind_quiet fun f hf => .pure ?_
          rw [Option.toList_some, Fragment.total_cons, hf, Fragment.total_nil]

end PlacesAll

end Rendering

namespace Translator

open Rendering (PlacesAll)
open Rendering.PlacesWith (emit emitFragment quiet_seq)

variable {t : Translator} {left right query subject rendered : Rendering Unit}
  {items order elements : List (Rendering Unit)} {k m n : Nat}
  {operand? condition? escape? : Option (Rendering Unit)}

/-- The backend writes rows, comparisons of them, null-safe equality and filters in its own
words, and every call copies each of its arguments once. -/
structure Native (t : Translator) : Prop where
  rowConstructor : t.supports .rowConstructor = true
  rowOrderComparison : t.supports .rowOrderComparison = true
  distinctFrom : t.supports .distinctFrom = true
  filterClause : t.supports .filterClause = true
  functions : t.dialect.functions.CopiesEach

theorem Native.rowFeature (h : t.Native) (op : BinaryOp) : t.supports op.rowFeature = true := by
  cases op <;> first | exact h.rowConstructor | exact h.rowOrderComparison

theorem require_places (t : Translator) (feature : Feature) : (t.require feature).Places 0 :=
  .ofExcept fun _ _ => trivial

theorem lock_places (t : Translator) (request : LockRequest) : (t.lock request).Places 0 :=
  Rendering.PlacesWith.bind_quiet (.ofExcept (P := fun _ => True) fun _ _ => trivial)
    fun words _ => emit words

theorem hint_places (t : Translator) (m : Materialization) : (t.hint m).Places 0 := by
  unfold hint
  split
  · exact .pure trivial
  · split
    · cases m with
      | materialized => exact emit _
      | notMaterialized => exact emit _
    · exact .pure trivial

theorem names_place (names : List String) : PlacesAll 0 (names.map Rendering.emit) := by
  refine .none ?_
  rw [List.forall_mem_map]
  exact fun name _ => emit name

theorem alias_places (lead : String) (name : Option String) :
    (Rendering.optional lead (name.map Rendering.emit)).Places 0 := by
  cases name with
  | none => exact .pure trivial
  | some name => exact (emit lead).seq (emit name)

theorem cte_places {name : String} {columns : List String} {hint : Option Materialization}
    (hquery : query.Places n) : (t.cte name columns hint query).Places n := by
  have hhint : (hint.elim (pure ()) t.hint).Places 0 := by
    cases hint with
    | none => exact .pure trivial
    | some m => exact t.hint_places m
  refine (emit name).quiet_seq ((names_place columns).listed.quiet_seq ?_)
  refine quiet_seq (.when (emit ")")) ((emit " as ").quiet_seq ?_)
  exact hhint.quiet_seq ((emit "(").quiet_seq (hquery.seq_quiet (emit ")")))

theorem ctes_places {mutation recursive : Bool} (hitems : PlacesAll n items) :
    (t.ctes mutation recursive items).Places n := by
  refine quiet_seq (.when (t.require_places _)) ?_
  refine quiet_seq (.when (t.require_places _)) ((emit "with ").quiet_seq ?_)
  refine quiet_seq (.when (emit _)) ?_
  exact hitems.separated.seq_quiet (emit " ")

theorem namedTable_places (table : NamedTable) : (namedTable table).Places 0 :=
  (emit table.expression).seq (alias_places " " table.correlation)

theorem target_places (t : Translator) (table : NamedTable) (kind : MutationKind) :
    (t.target table kind).Places 0 := by
  refine (emit _).quiet_seq ((Rendering.PlacesWith.affect table.expression).quiet_seq ?_)
  split
  · exact .pure trivial
  · exact alias_places " " table.correlation

theorem join_places {kind : JoinKind} {lateral : Bool} (hleft : left.Places k)
    (hright : right.Places m) (hcondition : PlacesAll n condition?.toList) :
    (t.join left kind lateral right condition?).Places (k + (m + n)) := by
  refine hleft.seq ((emit " ").quiet_seq ((emit kind.text).quiet_seq ?_))
  refine quiet_seq (.when ((t.require_places _).seq (emit _))) ?_
  exact (emit " ").quiet_seq (hright.seq hcondition.optional)

theorem rowComparison_places (ht : t.Native) {op : BinaryOp} (hleft : PlacesAll m items)
    (hright : PlacesAll n elements) : (t.rowComparison op items elements).Places (m + n) := by
  unfold rowComparison
  split
  next => exact .fail _
  next =>
    refine hleft.fragments.bind_quiet fun l hl => hright.fragments.bind_quiet fun r hr => ?_
    rw [if_pos (ht.rowFeature op)]
    refine (emitFragment _).of_eq ?_
    simp [RowPredicate.native, Fragment.parenthesized, Fragment.parameters_joined_eq_total, hl, hr]

theorem distinctFrom_places (ht : t.Native) {negated : Bool} (hleft : left.Places m)
    (hright : right.Places n) : (t.distinctFrom left right negated).Places (m + n) := by
  rw [distinctFrom, if_pos ht.distinctFrom]
  exact hleft.seq ((emit _).quiet_seq hright)

theorem escapeClause_places (hescape : PlacesAll n escape?.toList) :
    (escapeClause escape?).Places n := by
  refine (emit " escape ").quiet_seq ?_
  cases escape? with
  | none =>
      cases hescape
      exact emit "''"
  | some r =>
      cases hescape with
      | cons hr hnil =>
          cases hnil
          exact hr

/-- A pattern that is a text is not rendered in every style, and has no parameters. -/
theorem likePattern_places {pattern : Expr} (hrendered : rendered.Places m)
    (hstring : ∀ value, pattern = .literal (.string value) → m = 0)
    (hescape : PlacesAll n escape?.toList) :
    (t.likePattern pattern rendered escape?).Places (m + n) := by
  unfold likePattern
  split
  next =>
    cases hescape
    unfold reescaped
    split
    next value => exact (emit _).of_eq (hstring value rfl).symm
    next => exact hrendered
    next => exact (emit _).quiet_seq (hrendered.seq_quiet (emit _))
  next =>
    cases hescape
    exact hrendered
  next => exact hrendered.seq (escapeClause_places hescape)

theorem like_places {pattern : Expr} {negated caseSensitive : Bool} (hsubject : subject.Places k)
    (hrendered : rendered.Places m) (hstring : ∀ value, pattern = .literal (.string value) → m = 0)
    (hescape : PlacesAll n escape?.toList) :
    (t.like subject pattern rendered escape? negated caseSensitive).Places (k + (m + n)) := by
  unfold like
  split
  · refine (emit _).quiet_seq (hsubject.seq ((emit _).quiet_seq (hrendered.seq ?_)))
    exact (emit _).quiet_seq (escapeClause_places hescape)
  · exact hsubject.seq ((emit _).quiet_seq (likePattern_places hrendered hstring hescape))

theorem total_markDistinct (fs : List Fragment) : total (markDistinct fs) = total fs := by
  cases fs <;> simp [markDistinct]

theorem call_places (ht : t.Native) {name : String} {args : List (Expr × Rendering Unit)}
    {distinct : Bool} {filter : Option (Rendering Unit)} (hargs : PlacesAll m (args.map (·.2)))
    (hfilter : PlacesAll n filter.toList) : (t.call name args distinct filter).Places (m + n) := by
  unfold call
  refine hfilter.detached?.bind_quiet fun condition hcondition => ?_
  rw [ht.filterClause]
  -- With filters of its own the backend gets the arguments as they are.
  refine Rendering.PlacesWith.bind_quiet (P := fun values => total values = m) ?_
    fun values htotal => ?_
  · have hvalues := hargs.fragments
    rw [Rendering.fragments, List.map_map] at hvalues
    cases condition with
    | none => exact hvalues
    | some c => exact hvalues
  have hmarked : total (if distinct then markDistinct values else values) = m := by
    split
    · rw [total_markDistinct, htotal]
    · exact htotal
  refine Rendering.PlacesWith.bind_quiet
    (.ofExcept fun called hcalled => ht.functions.call hcalled) fun called hcalled => ?_
  rw [hmarked] at hcalled
  cases condition with
  | none =>
      refine (emitFragment called).of_eq ?_
      rw [hcalled, ← hcondition]
      rfl
  | some c =>
      refine (emitFragment _).of_eq ?_
      simp [hcalled, ← hcondition]

theorem window_places {partition : List (Rendering Unit)} (hpartition : PlacesAll m partition)
    (horder : PlacesAll n order) : (t.window partition order).Places (m + n) := by
  refine (emit _).quiet_seq (quiet_seq (.when (t.require_places _)) ?_)
  refine hpartition.listed.seq (quiet_seq (.when (emit " ")) ?_)
  exact horder.listed.seq_quiet (emit ")")

theorem caseOf_places (hoperand : PlacesAll k operand?.toList) (hbranches : PlacesAll m items)
    (hotherwise : PlacesAll n condition?.toList) :
    (caseOf operand? items condition?).Places (k + (m + n)) := by
  refine (emit "case").quiet_seq (hoperand.optional.seq (hbranches.separated.seq ?_))
  exact hotherwise.optional.seq_quiet (emit " end")

end Translator

end SqlBackend
