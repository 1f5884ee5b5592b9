import SqlBackend.Proofs.Render.Operands
import SqlBackend.Statement.Node

/-! # Disciplines of clauses

A clause keeps a discipline if its parts do. The parts are given as renderings,
so nothing is said here about where they come from.
-/

namespace SqlBackend

open Rendering (emit emitFragment fail)

/-- What a lock clause ends with. -/
def LockTimeout.words : LockTimeout → String
  | noWait => " nowait"
  | skipLocked => " skip locked"
  | _ => ""

/-- A lock is refused for a need that the backend lacks, or written. -/
theorem Dialect.lockClause_cases (d : Dialect) (request : LockRequest) :
    (∃ need ∈ request.timeout.needs, d.grants need = false ∧
      d.lockClause request = .error (d.unsupported need)) ∨
    ((∀ need ∈ request.timeout.needs, d.grants need = true) ∧
      d.lockClause request = .ok (d.lockWords request.mode ++ request.timeout.words)) := by
  obtain ⟨mode, timeout⟩ := request
  cases timeout with
  | waitForever => simp [LockTimeout.needs, LockTimeout.words, lockClause]
  | noWait =>
      cases h : d.supports .noWait <;>
        simp [LockTimeout.needs, LockTimeout.words, lockClause, require, grants, h, Except.map]
  | skipLocked =>
      cases h : d.supports .skipLocked <;>
        simp [LockTimeout.needs, LockTimeout.words, lockClause, require, grants, h, Except.map]
  | after millis =>
      by_cases h : d.locking.connectionTimeout = .query <;>
        simp [LockTimeout.needs, LockTimeout.words, lockClause, grants, h]

/-- A call copies its arguments into a template of a registered function. -/
theorem Registry.call_ok {r : Registry} {name : String} {args : List Fragment} {called : Fragment}
    (h : r.call name args = .ok called) :
    ∃ f ∈ r.functions, ∃ p ∈ f.patterns, called = expandTemplate p.template args := by
  unfold Registry.call at h
  split at h
  next f hf =>
    unfold SqlFunction.call at h
    split at h
    next p hp =>
      cases h
      exact ⟨f, List.mem_of_find?_eq_some hf, p, List.mem_of_find?_eq_some hp, rfl⟩
    next => cases h
  next => cases h

/-- Calls fail only for their name or for the number of their arguments. -/
theorem Registry.call_error {r : Registry} {name : String} {args : List Fragment} {e : Error}
    (h : r.call name args = .error e) :
    (∃ fault, e = .illegalArgument fault) ∨ ∃ name, e = .unknownFunction name := by
  unfold Registry.call SqlFunction.call at h
  split at h
  · split at h
    · cases h
    · cases h
      exact .inl ⟨_, rfl⟩
  · cases h
    exact .inr ⟨_, rfl⟩

namespace Discipline

variable {t : Translator} (D : Discipline t)

theorem text_qualifiedName {schema : Option String} {name : String}
    (h : ∀ s ∈ schema.toList ++ [name], D.text s) : D.text (qualifiedName schema name) := by
  cases schema with
  | none => exact h name (by simp)
  | some s =>
      have hs : D.text s := h s (by simp)
      exact D.text_append (D.text_append hs (D.text_words rfl)) (h name (by simp))

theorem text_doubled {mark : Char} {s : String} (h : D.text s) : D.text (Text.doubled mark s) := by
  intro c hc
  rw [Text.toList_doubled] at hc
  refine h c ?_
  generalize s.toList = chars at hc
  induction chars with
  | nil => simp [Text.doubleMarks] at hc
  | cons d rest ih =>
      by_cases hd : d = mark
      · simp only [Text.doubleMarks, hd, if_true, List.mem_cons] at hc
        rcases hc with rfl | rfl | hc
        · simp [hd]
        · simp [hd]
        · simp [ih hc]
      · simp only [Text.doubleMarks, hd, if_false, List.mem_cons] at hc
        rcases hc with rfl | hc
        · simp
        · simp [ih hc]

theorem text_literal {s : String} (h : D.text s) : D.text (Text.literal s) :=
  D.text_append (D.text_append (D.text_words rfl) (D.text_doubled h))
    (D.text_words rfl)

variable {r left right query condition subject rendered : Rendering Unit}
  {items order : List (Rendering Unit)} {operand? condition? escape? : Option (Rendering Unit)}

/-- What a template stands for is put together from its own characters and the
arguments. -/
theorem fragment_expandTemplate {template : String} {args : List Fragment}
    (hchars : ∀ c, .char c ∈ TemplatePiece.ofChars template.toList → D.char c)
    (hargs : ∀ a ∈ args, D.fragment a) : D.fragment (expandTemplate template args) := by
  unfold expandTemplate
  -- The pieces are folded up, so the induction is on them and not on the text.
  generalize TemplatePiece.ofChars template.toList = pieces at hchars ⊢
  induction pieces with
  | nil => exact D.fragment_empty
  | cons piece rest ih =>
      have hrest := ih fun c hc => hchars c (List.mem_cons_of_mem _ hc)
      refine D.fragment_append ?_ hrest
      match piece with
      | .char c =>
          apply D.fragment_text
          simpa using hchars c (by simp)
      | .argument 0 => exact D.fragment_empty
      | .argument (n + 1) =>
          change D.fragment (args[n]?.getD {})
          cases ha : args[n]? with
          | none => exact D.fragment_empty
          | some a => exact hargs a (List.mem_of_getElem? ha)
      | .allArguments => exact D.fragment_joined rfl hargs

theorem fragment_call {name : String} {args : List Fragment} {called : Fragment}
    (hargs : ∀ a ∈ args, D.fragment a) (h : t.dialect.functions.call name args = .ok called) :
    D.fragment called := by
  obtain ⟨f, hf, p, hp, rfl⟩ := Registry.call_ok h
  exact D.fragment_expandTemplate (D.char_template f hf p hp) hargs

theorem writes_qualifiedName {schema : Option String} {name : String}
    (h : ∀ s ∈ schema.toList ++ [name], D.text s) : D.writes (emit (qualifiedName schema name)) :=
  D.writes_emit (D.text_qualifiedName h)

theorem writes_names {names : List String} (h : ∀ s ∈ names, D.text s) :
    ∀ r ∈ names.map emit, D.writes r := by
  intro r hr
  obtain ⟨s, hs, rfl⟩ := List.mem_map.mp hr
  exact D.writes_emit (h s hs)

theorem writes_alias {lead : String} {name : Option String} (hlead : isWords lead = true)
    (h : ∀ s ∈ name, D.text s) : D.writes (.optional lead (name.map emit)) := by
  apply D.writes_optional hlead
  intro r hr
  obtain ⟨s, hs, rfl⟩ := Option.map_eq_some_iff.mp hr
  exact D.writes_emit (h s hs)

theorem writes_lock (request : LockRequest) : D.writes (t.lock request) := by
  have hclause : D.holds D.text (.ofExcept (t.dialect.lockClause request)) := by
    rcases t.dialect.lockClause_cases request with ⟨need, _, hneed, h⟩ | ⟨_, h⟩
    · rw [h]
      exact D.holds_fail (D.error_need need hneed)
    · rw [h]
      refine D.holds_ofExcept ?_ (by simp)
      rintro _ ⟨rfl⟩
      refine D.text_append (D.text_words ?_) (D.text_words ?_)
      · cases hmode : request.mode <;> simp only [Dialect.lockWords]
        · split <;> decide
        · decide
      · cases request.timeout <;> rfl
  exact D.holds_bind hclause fun s hs => D.writes_emit hs

theorem writes_hint (m : Materialization) : D.writes (t.hint m) := by
  unfold Translator.hint
  split
  · exact D.writes_done
  · split
    · cases m
      · exact D.writes_words rfl
      · exact D.writes_words rfl
    · exact D.writes_done

theorem writes_cte {name : String} {columns : List String} {m : Option Materialization}
    (hname : D.text name) (hcolumns : ∀ s ∈ columns, D.text s) (hquery : D.writes query) :
    D.writes (t.cte name columns m query) := by
  have hhint : D.writes (m.elim (pure ()) t.hint) := by
    cases m with
    | none => exact D.writes_done
    | some m => exact D.writes_hint m
  refine D.holds_seq (D.writes_emit hname) ?_
  refine D.holds_seq (D.writes_listed rfl (D.writes_names hcolumns)) ?_
  refine D.holds_seq (D.writes_when fun _ => D.writes_words rfl) ?_
  refine D.holds_seq (D.writes_words rfl) (D.holds_seq hhint ?_)
  exact D.holds_seq (D.writes_words rfl)
    (D.holds_seq hquery (D.writes_words rfl))

theorem writes_ctes {mutation recursive : Bool} (hitems : ∀ r ∈ items, D.writes r) :
    D.writes (t.ctes mutation recursive items) := by
  refine D.holds_seq (D.writes_when fun _ => D.writes_require _) ?_
  refine D.holds_seq (D.writes_when fun _ => D.writes_require _) ?_
  refine D.holds_seq (D.writes_words rfl) ?_
  refine D.holds_seq (D.writes_when fun _ => D.writes_words rfl) ?_
  exact D.holds_seq (D.writes_separated rfl hitems) (D.writes_words rfl)

theorem writes_tableName {table : NamedTable} (h : ∀ s ∈ table.texts, D.text s) :
    D.writes (emit table.expression) := by
  apply D.writes_qualifiedName
  intro s hs
  apply h s
  simp only [NamedTable.texts, List.mem_append, List.mem_cons, List.not_mem_nil, or_false] at hs ⊢
  exact hs.imp_right .inl

theorem writes_correlation {table : NamedTable} (h : ∀ s ∈ table.texts, D.text s) :
    D.writes (.optional " " (table.correlation.map emit)) := by
  apply D.writes_alias rfl
  intro s hs
  apply h s
  simp [NamedTable.texts, Option.mem_def.mp hs]

theorem writes_namedTable {table : NamedTable} (h : ∀ s ∈ table.texts, D.text s) :
    D.writes (Translator.namedTable table) :=
  D.holds_seq (D.writes_tableName h) (D.writes_correlation h)

theorem writes_join {kind : JoinKind} {lateral : Bool} (hleft : D.writes left)
    (hright : D.writes right) (hcondition : ∀ r ∈ condition?, D.writes r) :
    D.writes (t.join left kind lateral right condition?) := by
  refine D.holds_seq hleft (D.holds_seq (D.writes_words rfl) ?_)
  refine D.holds_seq (D.writes_words (by cases kind <;> rfl)) ?_
  have hlateral : D.writes (t.require .lateral >>= fun _ => emit " lateral") :=
    D.holds_seq (D.writes_require _) (D.writes_words rfl)
  refine D.holds_seq (D.writes_when fun _ => hlateral) ?_
  refine D.holds_seq (D.writes_words rfl) (D.holds_seq hright ?_)
  exact D.writes_optional rfl hcondition

theorem writes_escapeClause (hescape : ∀ r ∈ escape?, D.writes r) :
    D.writes (Translator.escapeClause escape?) := by
  refine D.holds_seq (D.writes_words rfl) ?_
  cases escape? with
  | none => exact D.writes_words rfl
  | some r => exact hescape r rfl

theorem writes_reescaped {pattern : Expr}
    (hvalue : ∀ value, pattern = .literal (.string value) → D.text value)
    (hrendered : D.writes rendered) : D.writes (Translator.reescaped pattern rendered) := by
  unfold Translator.reescaped
  split
  next value => exact D.writes_emit (D.text_literal (D.text_doubled (hvalue value rfl)))
  next => exact hrendered
  next =>
    refine D.holds_seq (D.writes_words rfl) (D.holds_seq hrendered ?_)
    exact D.writes_words rfl

theorem writes_likePattern {pattern : Expr}
    (hvalue : ∀ value, pattern = .literal (.string value) → D.text value)
    (hrendered : D.writes rendered) (hescape : ∀ r ∈ escape?, D.writes r) :
    D.writes (t.likePattern pattern rendered escape?) := by
  unfold Translator.likePattern
  split
  · exact D.writes_reescaped hvalue hrendered
  · exact hrendered
  · exact D.holds_seq hrendered (D.writes_escapeClause hescape)

theorem writes_like {pattern : Expr} {negated caseSensitive : Bool} (hsubject : D.writes subject)
    (hvalue : ∀ value, pattern = .literal (.string value) → D.text value)
    (hrendered : D.writes rendered) (hescape : ∀ r ∈ escape?, D.writes r) :
    D.writes (t.like subject pattern rendered escape? negated caseSensitive) := by
  unfold Translator.like
  split
  · refine D.holds_seq (D.writes_words rfl) (D.holds_seq hsubject ?_)
    refine D.holds_seq (D.writes_words (by cases negated <;> rfl)) (D.holds_seq hrendered ?_)
    exact D.holds_seq (D.writes_words rfl) (D.writes_escapeClause hescape)
  · refine D.holds_seq hsubject ?_
    refine D.holds_seq (D.writes_words ?_) (D.writes_likePattern hvalue hrendered hescape)
    cases negated <;> cases caseSensitive <;> rfl

theorem writes_window {partition : List (Rendering Unit)} (hpartition : ∀ r ∈ partition, D.writes r)
    (horder : ∀ r ∈ order, D.writes r) : D.writes (t.window partition order) := by
  refine D.holds_seq (D.writes_words rfl) ?_
  refine D.holds_seq (D.writes_when fun _ => D.writes_require _) ?_
  refine D.holds_seq (D.writes_listed rfl hpartition) ?_
  refine D.holds_seq (D.writes_when fun _ => D.writes_words rfl) ?_
  exact D.holds_seq (D.writes_listed rfl horder) (D.writes_words rfl)

theorem writes_caseOf (hoperand : ∀ r ∈ operand?, D.writes r) (hbranches : ∀ r ∈ items, D.writes r)
    (hotherwise : ∀ r ∈ condition?, D.writes r) :
    D.writes (Translator.caseOf operand? items condition?) := by
  refine D.holds_seq (D.writes_words rfl) ?_
  refine D.holds_seq (D.writes_optional rfl hoperand) ?_
  refine D.holds_seq (D.writes_separated rfl hbranches) ?_
  exact D.holds_seq (D.writes_optional rfl hotherwise) (D.writes_words rfl)

end Discipline

namespace QueryDiscipline

variable {t : Translator} (D : QueryDiscipline t)
variable {left right : Rendering Unit} {elements : List (Rendering Unit)}

theorem writes_rowComparison {op : BinaryOp} {left right : List (Rendering Unit)}
    (hleft : ∀ r ∈ left, D.writes r) (hright : ∀ r ∈ right, D.writes r) :
    D.writes (t.rowComparison op left right) := by
  unfold Translator.rowComparison
  split
  next => exact D.holds_fail (D.error_argument _)
  next =>
    refine D.holds_bind (D.holds_fragments hleft) fun l hl => ?_
    refine D.holds_bind (D.holds_fragments hright) fun r hr => ?_
    have hnative : D.fragment (RowPredicate.native op l r) := by
      have hop : isWords (" " ++ op.text ++ " ") = true := by cases op <;> rfl
      refine D.fragment_append (D.fragment_append ?_ (D.fragment_words hop)) ?_
      · exact D.fragment_parenthesized (D.fragment_joined rfl hl)
      · exact D.fragment_parenthesized (D.fragment_joined rfl hr)
    have hcomparison : D.fragment (RowPredicate.comparison op (l.zip r)).fragment :=
      D.fragment_formula _ (RowPredicate.comparison_over (RowPredicate.zip_over hl hr))
    split
    · exact D.holds_emitFragment hnative
    · exact D.holds_emitFragment hcomparison

theorem holds_row {width : Nat} (helements : ∀ r ∈ elements, D.writes r) :
    D.holds (fun fs => ∀ f ∈ fs, D.fragment f) (Translator.row width elements) := by
  unfold Translator.row
  split
  · exact D.holds_fragments helements
  · exact D.holds_fail (D.error_argument _)

theorem writes_rowMember {candidates : Rendering (List (List Fragment))} {negated : Bool}
    (helements : ∀ r ∈ elements, D.writes r)
    (hcandidates : D.holds (fun rows => ∀ row ∈ rows, ∀ f ∈ row, D.fragment f) candidates) :
    D.writes (Translator.rowMember elements candidates negated) := by
  unfold Translator.rowMember
  split
  · exact D.holds_fail (D.error_argument _)
  · refine D.holds_bind (D.holds_fragments helements) fun row hrow => ?_
    refine D.holds_bind hcandidates fun rows hrows => ?_
    exact D.holds_emitFragment (D.fragment_formula _ (RowPredicate.member_over hrow hrows))

theorem writes_distinctFrom {negated : Bool} (hleft : D.writes left) (hright : D.writes right) :
    D.writes (t.distinctFrom left right negated) := by
  unfold Translator.distinctFrom
  split
  · refine D.holds_seq hleft (D.holds_seq (D.writes_words ?_) hright)
    cases negated <;> rfl
  · refine D.holds_bind (D.holds_detached hleft) fun l hl => ?_
    refine D.holds_bind (D.holds_detached hright) fun r hr => ?_
    exact D.holds_emitFragment (D.fragment_formula _ (RowPredicate.distinct_over hl hr))

theorem holds_filteredArgument {condition : Fragment} {arg : Expr} {rendered : Rendering Unit}
    (hcondition : D.fragment condition) (hrendered : D.writes rendered) :
    D.holds D.fragment (Translator.filteredArgument condition arg rendered) := by
  have hvalue : D.holds D.fragment
      (if arg.isStar then pure (.ofText "1") else rendered.detached) := by
    split
    · exact D.holds_pure (D.fragment_words rfl)
    · exact D.holds_detached hrendered
  refine D.holds_bind hvalue fun value hv => D.holds_pure ?_
  refine D.fragment_append (D.fragment_append ?_ hv) (D.fragment_words rfl)
  exact D.fragment_append (D.fragment_append (D.fragment_words rfl) hcondition)
    (D.fragment_words rfl)

theorem fragment_markDistinct {fs : List Fragment} (hfs : ∀ f ∈ fs, D.fragment f) :
    ∀ f ∈ Translator.markDistinct fs, D.fragment f := by
  cases fs with
  | nil => exact hfs
  | cons first rest =>
      obtain ⟨hfirst, hrest⟩ := List.forall_mem_cons.mp hfs
      exact List.forall_mem_cons.mpr
        ⟨D.fragment_append (D.fragment_words rfl) hfirst, hrest⟩

theorem holds_call {name : String} {args : List Fragment} (hargs : ∀ f ∈ args, D.fragment f) :
    D.holds D.fragment (.ofExcept (t.dialect.functions.call name args)) := by
  refine D.holds_ofExcept (fun f hf => D.fragment_call hargs hf) fun e he => ?_
  rcases Registry.call_error he with ⟨fault, rfl⟩ | ⟨name, rfl⟩
  · exact D.error_argument fault
  · exact D.error_function name

theorem writes_call {name : String} {args : List (Expr × Rendering Unit)} {distinct : Bool}
    {filter : Option (Rendering Unit)} (hargs : ∀ arg ∈ args, D.writes arg.2)
    (hfilter : ∀ r ∈ filter, D.writes r) : D.writes (t.call name args distinct filter) := by
  refine D.holds_bind (D.holds_detached? hfilter) fun condition hcondition => ?_
  refine D.holds_bind (P := fun fs => ∀ f ∈ fs, D.fragment f) (D.holds_sequence ?_)
    fun values hv => ?_
  · intro r hr
    obtain ⟨arg, harg, rfl⟩ := List.mem_map.mp hr
    split
    next c _ => exact D.holds_filteredArgument (hcondition _ rfl) (hargs arg harg)
    next => exact D.holds_detached (hargs arg harg)
  · have harguments : ∀ f ∈ if distinct then Translator.markDistinct values else values,
        D.fragment f := by
      split
      · exact D.fragment_markDistinct hv
      · exact hv
    refine D.holds_bind (D.holds_call harguments) fun called hcalled => ?_
    split
    next c _ =>
      refine D.holds_emitFragment (D.fragment_append ?_ (D.fragment_words rfl))
      exact D.fragment_append (D.fragment_append hcalled (D.fragment_words rfl))
        (hcondition c rfl)
    next => exact D.holds_emitFragment hcalled

end QueryDiscipline

end SqlBackend
