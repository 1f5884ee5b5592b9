import SqlBackend.Proofs.Render.Success

/-! # Renderings that end well everywhere

A rendering is total if it ends well behind every output. This is the converse of
success and what it takes: a clause is total if its parts are, if the features it
asks for are there and if its rows have the lengths they should have.
-/

namespace SqlBackend

namespace Rendering

variable {α β : Type}

/-- Behind every output the rendering ends well, with a result that has a property. -/
def Yields (P : α → Prop) (r : Rendering α) : Prop :=
  ∀ before, ∃ a after, r.run before = (.ok a, after) ∧ P a

/-- The rendering ends well behind every output. -/
abbrev Total (r : Rendering α) : Prop := r.Yields fun _ => True

namespace Yields

variable {P : α → Prop} {Q : β → Prop} {r : Rendering α} {s : Rendering Unit}
  {rs : List (Rendering Unit)} {o : Option (Rendering Unit)} {lead separator : String}

theorem mono {P' : α → Prop} (hr : r.Yields P) (h : ∀ a, P a → P' a) : r.Yields P' := by
  intro before
  obtain ⟨a, after, hrun, ha⟩ := hr before
  exact ⟨a, after, hrun, h a ha⟩

theorem total (hr : r.Yields P) : r.Total := hr.mono fun _ _ => trivial

protected theorem pure {a : α} (ha : P a) : (Pure.pure a : Rendering α).Yields P :=
  fun before => ⟨a, before, rfl, ha⟩

protected theorem bind {f : α → Rendering β} (hr : r.Yields P) (hf : ∀ a, P a → (f a).Yields Q) :
    (r >>= f).Yields Q := by
  intro before
  obtain ⟨a, after, hrun, ha⟩ := hr before
  rw [run_bind, hrun]
  exact hf a ha after

theorem seq {next : Rendering β} (hr : r.Total) (hs : next.Yields Q) :
    (r >>= fun _ => next).Yields Q :=
  hr.bind fun _ _ => hs

theorem emit (text : String) : (Rendering.emit text).Total := fun _ => ⟨(), _, rfl, trivial⟩

theorem emitFragment (f : Fragment) : (Rendering.emitFragment f).Total :=
  fun _ => ⟨(), _, rfl, trivial⟩

theorem affect (table : String) : (Rendering.affect table).Total := fun _ => ⟨(), _, rfl, trivial⟩

theorem ofExcept {outcome : Except Error α} {a : α} (h : outcome = .ok a) (ha : P a) :
    (Rendering.ofExcept outcome).Yields P :=
  fun before => ⟨a, before, by rw [run_ofExcept, h], ha⟩

theorem when {condition : Bool} (h : condition = true → s.Total) :
    (Rendering.when condition s).Total := by
  cases condition with
  | false => exact .pure trivial
  | true => exact h rfl

theorem optional (h : ∀ r ∈ o, r.Total) : (Rendering.optional lead o).Total := by
  cases o with
  | none => exact .pure trivial
  | some r => exact (emit lead).seq (h r rfl)

theorem separated (h : ∀ r ∈ rs, r.Total) : (Rendering.separated separator rs).Total := by
  induction rs with
  | nil => exact .pure trivial
  | cons r rest ih =>
      obtain ⟨hr, hrest⟩ := List.forall_mem_cons.mp h
      cases rest with
      | nil => exact hr
      | cons next rest => exact hr.seq ((emit separator).seq (ih hrest))

theorem listed (h : ∀ r ∈ rs, r.Total) : (Rendering.listed lead rs).Total := by
  unfold Rendering.listed
  split
  · exact .pure trivial
  · exact (emit lead).seq (separated h)

theorem sequence {rs : List (Rendering α)} (h : ∀ r ∈ rs, r.Total) :
    (Rendering.sequence rs).Yields fun results => results.length = rs.length := by
  induction rs with
  | nil => exact .pure rfl
  | cons r rest ih =>
      obtain ⟨hr, hrest⟩ := List.forall_mem_cons.mp h
      exact hr.bind fun _ _ => (ih hrest).bind fun _ hlength => .pure (congrArg (· + 1) hlength)

theorem detached (h : s.Total) : s.detached.Total := by
  intro before
  obtain ⟨_, after, hrun, _⟩ := h { before with text := "", parameters := 0 }
  exact ⟨after.fragment, _, by simp only [Rendering.detached, hrun]; rfl, trivial⟩

theorem detached? (h : ∀ r ∈ o, r.Total) : (Rendering.detached? o).Total := by
  cases o with
  | none => exact .pure trivial
  | some r => exact (h r rfl).detached.bind fun _ _ => .pure trivial

theorem fragments (h : ∀ r ∈ rs, r.Total) : (Rendering.fragments rs).Total := by
  refine (sequence ?_).total
  intro r hr
  obtain ⟨s, hs, rfl⟩ := List.mem_map.mp hr
  exact (h s hs).detached

end Yields

end Rendering

namespace Translator

open Rendering.Yields

variable {t : Translator} {left right query subject rendered : Rendering Unit}
  {items order elements : List (Rendering Unit)}
  {operand? condition? escape? : Option (Rendering Unit)}

theorem require_total {feature : Feature} (h : t.supports feature = true) :
    (t.require feature).Total := by
  have hok : t.dialect.require feature = .ok () := if_pos h
  exact ofExcept hok trivial

theorem lock_total {request : LockRequest}
    (h : ∀ need ∈ request.timeout.needs, t.dialect.grants need = true) :
    (t.lock request).Total := by
  rcases t.dialect.lockClause_cases request with ⟨need, hneed, hlacks, _⟩ | ⟨_, hwords⟩
  · rw [h need hneed] at hlacks
    cases hlacks
  · exact (ofExcept (P := fun _ => True) hwords trivial).bind fun words _ => emit words

theorem hint_total (m : Materialization) : (t.hint m).Total := by
  unfold hint
  split
  · exact .pure trivial
  · split
    · cases m with
      | materialized => exact emit _
      | notMaterialized => exact emit _
    · exact .pure trivial

theorem names_total (names : List String) : ∀ r ∈ names.map Rendering.emit, r.Total := by
  intro r hr
  obtain ⟨name, _, rfl⟩ := List.mem_map.mp hr
  exact emit name

theorem alias_total (lead : String) (name : Option String) :
    (Rendering.optional lead (name.map Rendering.emit)).Total := by
  cases name with
  | none => exact .pure trivial
  | some name => exact (emit lead).seq (emit name)

theorem cte_total {name : String} {columns : List String} {m : Option Materialization}
    (hquery : query.Total) : (t.cte name columns m query).Total := by
  have hhint : (m.elim (pure ()) t.hint).Total := by
    cases m with
    | none => exact .pure trivial
    | some m => exact hint_total m
  refine (emit name).seq ((listed (names_total columns)).seq ?_)
  refine (when fun _ => emit ")").seq ((emit " as ").seq (hhint.seq ?_))
  exact (emit "(").seq (hquery.seq (emit ")"))

theorem ctes_total {mutation recursive : Bool}
    (hmutation : mutation = true → t.supports .cteInMutation = true)
    (hrecursive : recursive = true → t.supports .recursiveCte = true)
    (hitems : ∀ r ∈ items, r.Total) : (t.ctes mutation recursive items).Total := by
  refine (when fun h => require_total (hmutation h)).seq ?_
  refine (when fun h => require_total (hrecursive h)).seq ((emit "with ").seq ?_)
  exact (when fun _ => emit "recursive ").seq ((separated hitems).seq (emit " "))

theorem namedTable_total (table : NamedTable) : (namedTable table).Total :=
  (emit table.expression).seq (alias_total " " table.correlation)

theorem target_total (table : NamedTable) (kind : MutationKind) : (t.target table kind).Total := by
  refine (emit table.expression).seq ((affect table.expression).seq ?_)
  split
  · exact .pure trivial
  · exact alias_total " " table.correlation

theorem join_total {kind : JoinKind} {lateral : Bool} (hleft : left.Total)
    (hlateral : lateral = true → t.supports .lateral = true) (hright : right.Total)
    (hcondition : ∀ r ∈ condition?, r.Total) :
    (t.join left kind lateral right condition?).Total := by
  refine hleft.seq ((emit " ").seq ((emit kind.text).seq ?_))
  refine (when fun h => (require_total (hlateral h)).seq (emit " lateral")).seq ?_
  exact (emit " ").seq (hright.seq (optional hcondition))

theorem rowComparison_total {op : BinaryOp} {left right : List (Rendering Unit)}
    (hlength : left.length = right.length) (hne : left.length ≠ 0) (hleft : ∀ r ∈ left, r.Total)
    (hright : ∀ r ∈ right, r.Total) : (t.rowComparison op left right).Total := by
  have hlengths : ¬(left.length ≠ right.length ∨ left.length = 0) := by simp [← hlength, hne]
  rw [rowComparison, if_neg hlengths]
  refine (fragments hleft).bind fun l _ => (fragments hright).bind fun r _ => ?_
  split
  · exact emitFragment _
  · exact emitFragment _

theorem row_total {width : Nat} (hwidth : elements.length = width)
    (helements : ∀ r ∈ elements, r.Total) : (row width elements).Total := by
  rw [row, if_pos hwidth]
  exact fragments helements

theorem rowMember_total {candidates : Rendering (List (List Fragment))} {negated : Bool}
    (hne : elements ≠ []) (helements : ∀ r ∈ elements, r.Total) (hcandidates : candidates.Total) :
    (rowMember elements candidates negated).Total := by
  rw [rowMember, if_neg (by simpa using hne)]
  exact (fragments helements).bind fun row _ => hcandidates.bind fun rows _ => emitFragment _

theorem distinctFrom_total {negated : Bool} (hleft : left.Total) (hright : right.Total) :
    (t.distinctFrom left right negated).Total := by
  unfold distinctFrom
  split
  · exact hleft.seq ((emit _).seq hright)
  · exact hleft.detached.bind fun l _ => hright.detached.bind fun r _ => emitFragment _

theorem escapeClause_total (hescape : ∀ r ∈ escape?, r.Total) : (escapeClause escape?).Total := by
  refine (emit " escape ").seq ?_
  cases escape? with
  | none => exact emit "''"
  | some r => exact hescape r rfl

theorem likePattern_total {pattern : Expr} (hrendered : rendered.Total)
    (hescape : ∀ r ∈ escape?, r.Total) : (t.likePattern pattern rendered escape?).Total := by
  unfold likePattern
  split
  next =>
    unfold reescaped
    split
    · exact emit _
    · exact hrendered
    · exact (emit _).seq (hrendered.seq (emit _))
  next => exact hrendered
  next => exact hrendered.seq (escapeClause_total hescape)

theorem like_total {pattern : Expr} {negated caseSensitive : Bool} (hsubject : subject.Total)
    (hrendered : rendered.Total) (hescape : ∀ r ∈ escape?, r.Total) :
    (t.like subject pattern rendered escape? negated caseSensitive).Total := by
  unfold like
  split
  · refine (emit _).seq (hsubject.seq ((emit _).seq (hrendered.seq ((emit _).seq ?_))))
    exact escapeClause_total hescape
  · exact hsubject.seq ((emit _).seq (likePattern_total hrendered hescape))

theorem filteredArgument_total {condition : Fragment} {arg : Expr} (hrendered : rendered.Total) :
    (filteredArgument condition arg rendered).Total := by
  have hvalue : (if arg.isStar then pure (.ofText "1") else rendered.detached :
      Rendering Fragment).Total := by
    split
    · exact .pure trivial
    · exact hrendered.detached
  exact hvalue.bind fun _ _ => .pure trivial

theorem length_markDistinct (fs : List Fragment) : (markDistinct fs).length = fs.length := by
  cases fs <;> rfl

/-- A call depends on the number of its arguments, not on what they are. -/
theorem registry_call_ok_of_length {r : Registry} {name : String} {args args' : List Fragment}
    {called : Fragment} (hlength : args'.length = args.length) (h : r.call name args = .ok called) :
    ∃ called', r.call name args' = .ok called' := by
  unfold Registry.call SqlFunction.call at h ⊢
  split at h
  next f _ =>
    rw [← hlength] at h
    split at h
    · exact ⟨_, rfl⟩
    · cases h
  next => cases h

theorem call_total {name : String} {args : List (Expr × Rendering Unit)} {distinct : Bool}
    {filter : Option (Rendering Unit)} (hargs : ∀ arg ∈ args, arg.2.Total)
    (hfilter : ∀ r ∈ filter, r.Total)
    (hcall : ∀ values : List Fragment, values.length = args.length →
      ∃ called, t.dialect.functions.call name values = .ok called) :
    (t.call name args distinct filter).Total := by
  refine (detached? hfilter).bind fun condition _ => ?_
  refine (sequence ?_).bind fun values hlength => ?_
  · intro r hr
    obtain ⟨arg, harg, rfl⟩ := List.mem_map.mp hr
    split
    · exact filteredArgument_total (hargs arg harg)
    · exact (hargs arg harg).detached
  · have hvalues : (if distinct then markDistinct values else values).length = args.length := by
      rw [List.length_map] at hlength
      split
      · rw [length_markDistinct, hlength]
      · exact hlength
    obtain ⟨called, hcalled⟩ := hcall _ hvalues
    refine (ofExcept (P := fun _ => True) hcalled trivial).bind fun called _ => ?_
    split
    · exact emitFragment _
    · exact emitFragment _

theorem window_total {partition : List (Rendering Unit)}
    (hpartitioned : partition ≠ [] → t.supports .partitionBy = true)
    (hpartition : ∀ r ∈ partition, r.Total) (horder : ∀ r ∈ order, r.Total) :
    (t.window partition order).Total := by
  refine (emit _).seq ((when fun h => require_total (hpartitioned ?_)).seq ?_)
  · simpa using h
  · refine (listed hpartition).seq ((when fun _ => emit " ").seq ?_)
    exact (listed horder).seq (emit ")")

theorem caseOf_total (hoperand : ∀ r ∈ operand?, r.Total) (hbranches : ∀ r ∈ items, r.Total)
    (hotherwise : ∀ r ∈ condition?, r.Total) : (caseOf operand? items condition?).Total := by
  refine (emit "case").seq ((optional hoperand).seq ((separated hbranches).seq ?_))
  exact (optional hotherwise).seq (emit " end")

end Translator

end SqlBackend
