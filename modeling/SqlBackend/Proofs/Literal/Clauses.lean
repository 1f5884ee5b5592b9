import SqlBackend.Proofs.Literal.Fragments
import SqlBackend.Proofs.Render.Clauses

/-! # Clauses that differ in their literals

A clause writes words between its parts, so it is alike in two renderings if its
parts are. Only patterns without an escape character are written differently
from what they say: their backslashes may be doubled.
-/

namespace SqlBackend

open Rendering (Alike Silent emit)

variable {C : Comparison} {t : Translator} {start : Start}
  {left left' right right' query query' subject subject' rendered rendered' : Rendering Unit}
  {items items' order order' elements elements' : List (Rendering Unit)}
  {condition condition' escape escape' : Option (Rendering Unit)}

theorem neutral_point {noComments : Bool} : Script.Neutral noComments "." := by
  intro c hc
  have hc' : c = '.' := by simpa using hc
  rw [hc']
  cases noComments <;> decide

theorem qualifiedName_neutral {noComments : Bool} {schema : Option String} {name : String}
    (h : ∀ s ∈ schema.toList ++ [name], Script.Neutral noComments s) :
    Script.Neutral noComments (qualifiedName schema name) := by
  cases schema with
  | none => exact h name (by simp)
  | some s => exact ((h s (by simp)).append neutral_point).append (h name (by simp))

/-- A number may stand where only words touch it; its sign comes first. -/
theorem Comparison.texts_number {text : String} (h : Decimal.IsNumber text) :
    C.Texts .any text text := by
  obtain ⟨sign, rest, hsign, rfl, hrest⟩ := h
  have hunsigned : C.Texts .neutral rest rest :=
    .neutral fun c hc => Mark.isNeutral_of_class rfl (hrest c hc)
  have hminus : C.Texts .any "-" "-" := .char (c := '-') (by decide)
  rcases hsign with rfl | rfl
  · rw [String.empty_append]
    exact hunsigned.any
  · exact hminus.append hunsigned

/-- A minus may stand before a text that does not start with another one. -/
theorem Comparison.texts_minus {a b : String} (h : C.Texts .any a b)
    (hminus : C.noComments = true → a.toList.head? ≠ some '-') :
    C.Texts .any ("-" ++ a) ("-" ++ b) := by
  obtain ⟨script, _, hspells⟩ := h
  have hhead : ∀ m ∈ script.head?, (Mark.char '-').mayPrecede C.noComments m = true := by
    intro m hm
    cases m with
    | literal => rfl
    | char d =>
        cases hc : C.noComments with
        | false => rfl
        | true =>
            have hd : d ≠ '-' := by
              rintro rfl
              refine hminus hc ?_
              obtain ⟨rest, rfl⟩ := List.head?_eq_some_iff.mp hm
              simp [hspells.first, Script.chars, Mark.chars]
            simp [Mark.mayPrecede, Mark.startsComment, hd]
  refine ⟨.char '-' :: script, trivial, ⟨?_, ?_⟩, ?_, ?_, ?_⟩
  · intro c hc
    rcases List.mem_cons.mp hc with hc | hc
    · cases hc
      decide
    · exact hspells.clean.unquoted c hc
  · exact List.isChain_cons.mpr ⟨hhead, hspells.clean.chain⟩
  · intro source hs
    exact hspells.admitted source (by simpa using hs)
  · rw [String.toList_append, hspells.first]
    rfl
  · rw [String.toList_append, hspells.second]
    rfl

theorem Rendering.minus_alike {r r' : Rendering Unit} (h : Alike C .any r r')
    (hminus : C.noComments = true → ∀ before written, (r.run before).1 = .ok () →
      (r.run before).2.text = before.text ++ written → written.toList.head? ≠ some '-') :
    Alike C .any (emit "-" >>= fun _ => r) (emit "-" >>= fun _ => r') :=
  h.emit_seq fun before a _ hok ha htexts =>
    Comparison.texts_minus htexts fun hc => hminus hc before a hok ha

theorem Rendering.names_alike {names : List String}
    (h : ∀ s ∈ names, Script.Neutral C.noComments s) :
    List.Forall₂ (Alike C .neutral) (names.map emit) (names.map emit) := by
  rw [List.forall₂_map_left_iff, List.forall₂_map_right_iff, List.forall₂_same]
  exact fun s hs => .emit (.neutral (h s hs))

namespace Translator

theorem require_silent (t : Translator) (feature : Feature) :
    Silent Eq (t.require feature) (t.require feature) := .ofExcept_self _ fun _ _ => rfl

theorem require_alike (t : Translator) (feature : Feature) :
    Alike C start (t.require feature) (t.require feature) := .ofSilent (require_silent t feature)

theorem alias_alike {name : Option String} (h : ∀ s ∈ name, Script.Neutral C.noComments s)
    {w : String} (hw : Script.isWord w = true) :
    Alike C .neutral (.optional w (name.map emit)) (.optional w (name.map emit)) := by
  cases name with
  | none => exact .done
  | some s => exact (Alike.emit (.neutral (h s rfl))).word_seq hw

theorem isWord_lockClause {d : Dialect} {request : LockRequest} {clause : String}
    (h : d.lockClause request = .ok clause) : Script.isWord clause = true := by
  have hwords : ∀ words ∈ [Dialect.forUpdate, Dialect.forShare],
      ∀ ending ∈ ["", " nowait", " skip locked"], Script.isWord (words ++ ending) = true := by
    decide
  rcases d.lockClause_cases request with ⟨need, _, _, herror⟩ | ⟨_, hok⟩
  · cases herror.symm.trans h
  · cases hok.symm.trans h
    apply hwords
    · cases request.mode with
      | write => simp [Dialect.lockWords]
      | read => by_cases hd : d.sharedRowLocks = true <;> simp [Dialect.lockWords, hd]
    · cases request.timeout <;> simp [LockTimeout.words]

theorem lock_alike (t : Translator) (request : LockRequest) :
    Alike C .neutral (t.lock request) (t.lock request) := by
  have hclause : Silent (fun a b => a = b ∧ t.dialect.lockClause request = .ok a)
      (.ofExcept (t.dialect.lockClause request)) (.ofExcept (t.dialect.lockClause request)) :=
    .ofExcept_self _ fun _ ha => ⟨rfl, ha⟩
  refine hclause.bind_alike ?_
  rintro clause _ ⟨rfl, hok⟩
  exact .word (isWord_lockClause hok)

theorem hint_alike (t : Translator) (m : Materialization) :
    Alike C .neutral (t.hint m) (t.hint m) := by
  unfold hint
  split
  · exact .done
  · split
    · cases m
      · exact .word rfl
      · exact .word rfl
    · exact .done

theorem cte_alike {name : String} {columns : List String} (m : Option Materialization)
    (hname : Script.Neutral C.noComments name)
    (hcolumns : ∀ s ∈ columns, Script.Neutral C.noComments s) (hquery : Alike C start query query') :
    Alike C .neutral (t.cte name columns m query) (t.cte name columns m query') := by
  have hhint : Alike C .neutral (m.elim (pure ()) t.hint) (m.elim (pure ()) t.hint) := by
    cases m with
    | none => exact .done
    | some m => exact hint_alike t m
  refine (Alike.emit (.neutral hname)).seq ?_
  refine (Alike.listed rfl (Rendering.names_alike hcolumns)).seq ?_
  refine (Alike.when (.word rfl)).seq ((Alike.word rfl).seq (hhint.seq ?_))
  exact (hquery.seq (.word rfl)).word_seq rfl

theorem ctes_alike {mutation recursive : Bool} (h : List.Forall₂ (Alike C .neutral) items items') :
    Alike C .neutral (t.ctes mutation recursive items) (t.ctes mutation recursive items') := by
  refine (Alike.when (require_alike t _)).seq ((Alike.when (require_alike t _)).seq ?_)
  refine (Alike.word rfl).seq ((Alike.when (.word rfl)).seq ?_)
  exact (Alike.separated rfl h).seq (.word rfl)

theorem tableName_neutral {noComments : Bool} {table : NamedTable}
    (h : ∀ s ∈ table.texts, Script.Neutral noComments s) :
    Script.Neutral noComments table.expression := by
  apply qualifiedName_neutral
  intro s hs
  apply h s
  simp only [NamedTable.texts, List.mem_append, List.mem_cons, List.not_mem_nil, or_false] at hs ⊢
  exact hs.imp_right .inl

theorem correlation_alike {table : NamedTable}
    (h : ∀ s ∈ table.texts, Script.Neutral C.noComments s) :
    Alike C .neutral (.optional " " (table.correlation.map emit))
      (.optional " " (table.correlation.map emit)) := by
  refine alias_alike (fun s hs => h s ?_) rfl
  simp [NamedTable.texts, Option.mem_def.mp hs]

theorem namedTable_alike {table : NamedTable}
    (h : ∀ s ∈ table.texts, Script.Neutral C.noComments s) :
    Alike C .neutral (namedTable table) (namedTable table) :=
  (Alike.emit (.neutral (tableName_neutral h))).seq (correlation_alike h)

theorem target_alike (t : Translator) {table : NamedTable} (kind : MutationKind)
    (h : ∀ s ∈ table.texts, Script.Neutral C.noComments s) :
    Alike C .neutral (t.target table kind) (t.target table kind) := by
  refine (Alike.emit (.neutral (tableName_neutral h))).seq ((Alike.affect _).seq ?_)
  split
  · exact .done
  · exact correlation_alike h

theorem join_alike (kind : JoinKind) (lateral : Bool) (hleft : Alike C start left left')
    (hright : Alike C start right right') (hcondition : Option.Rel (Alike C .any) condition condition') :
    Alike C start (t.join left kind lateral right condition)
      (t.join left' kind lateral right' condition') := by
  have hlateral : Alike C .neutral (t.require .lateral >>= fun _ => emit " lateral")
      (t.require .lateral >>= fun _ => emit " lateral") := (require_alike t _).seq (.word rfl)
  refine hleft.seq ((Alike.word rfl).seq ((Alike.word (by cases kind <;> rfl)).seq ?_))
  refine (Alike.when hlateral).seq ?_
  exact (hright.seq (.optional rfl hcondition)).word_seq rfl

theorem rowComparison_alike (op : BinaryOp) (hleft : List.Forall₂ (Alike C .any) elements elements')
    (hright : List.Forall₂ (Alike C .any) items items') :
    Alike C .any (t.rowComparison op elements items) (t.rowComparison op elements' items') := by
  unfold rowComparison
  rw [hleft.length_eq, hright.length_eq]
  split
  · exact .fail _
  · refine (Alike.fragments hleft).bind_alike fun l l' hl => ?_
    refine (Alike.fragments hright).bind_alike fun r r' hr => ?_
    split
    · exact .emitFragment (RowPredicate.native_alike op hl hr)
    · exact .emitFragment (RowPredicate.comparison_alike op hl hr)

theorem row_alike (width : Nat) (h : List.Forall₂ (Alike C .any) elements elements') :
    Silent (List.Forall₂ C.Fragments) (row width elements) (row width elements') := by
  unfold row
  rw [h.length_eq]
  split
  · exact Alike.fragments h
  · exact .fail _

theorem rowMember_alike {rows rows' : Rendering (List (List Fragment))} (negated : Bool)
    (helements : List.Forall₂ (Alike C .any) elements elements')
    (hrows : Silent (List.Forall₂ (List.Forall₂ C.Fragments)) rows rows') :
    Alike C .any (rowMember elements rows negated) (rowMember elements' rows' negated) := by
  have hempty : elements.isEmpty = elements'.isEmpty := isEmpty_eq_of_forall₂ helements
  unfold rowMember
  rw [hempty]
  split
  · exact .fail _
  · refine (Alike.fragments helements).bind_alike fun r r' hr => ?_
    exact hrows.bind_alike fun rs rs' hrs => .emitFragment (RowPredicate.member_alike negated hr hrs)

theorem distinctFrom_alike (negated : Bool) (hleft : Alike C .any left left')
    (hright : Alike C .any right right') :
    Alike C .any (t.distinctFrom left right negated) (t.distinctFrom left' right' negated) := by
  unfold distinctFrom
  split
  · exact hleft.seq (hright.word_seq (by cases negated <;> rfl))
  · refine hleft.detached.bind_alike fun l l' hl => ?_
    exact hright.detached.bind_alike fun r r' hr =>
      .emitFragment (RowPredicate.distinct_alike negated hl hr)

theorem escapeClause_alike (h : Option.Rel (Alike C .any) escape escape') :
    Alike C .neutral (escapeClause escape) (escapeClause escape') := by
  have hnone : C.Texts .any "''" "''" := .literal (.fixed "") (.fixed (by simp))
  cases h with
  | none => exact (Alike.emit hnone).word_seq rfl
  | some h => exact h.word_seq rfl

/-- The end of the call that doubles backslashes: two literals with a word
between them. -/
theorem texts_replacement : C.Texts .neutral ",'\\','\\\\')" ",'\\','\\\\')" := by
  have hone : C.Texts .any "'\\'" "'\\'" := .literal (.fixed "\\") (.fixed (by simp))
  have htwo : C.Texts .any "'\\\\'" "'\\\\'" := .literal (.fixed "\\\\") (.fixed (by simp))
  have hcomma : Script.Word C.noComments "," := Script.word_of_isWord rfl
  have hclose : C.Texts .neutral ")" ")" := .word (Script.word_of_isWord rfl)
  exact ((hone.append (htwo.word_append hcomma)).append hclose).word_append hcomma

/-- Where the pattern is no string literal its value is put through a call, which
is the same on both sides. -/
theorem reescaped_alike {pattern pattern' : Expr} (hpattern : pattern.Alike C.related pattern')
    (hstring : pattern.isString = false) (h : Alike C .any rendered rendered') :
    Alike C .any (reescaped pattern rendered) (reescaped pattern' rendered') := by
  have hcall : Alike C .any
      (emit "replace(" >>= fun _ => rendered >>= fun _ => emit ",'\\','\\\\')")
      (emit "replace(" >>= fun _ => rendered' >>= fun _ => emit ",'\\','\\\\')") :=
    ((h.seq (.emit texts_replacement)).word_seq rfl).any
  -- The call is left out for a null, which is a null on both sides.
  cases hpattern with
  | string => cases hstring
  | @literal value hvalue =>
      cases value with
      | string => cases hvalue
      | null => exact h
      | integer | float | boolean => exact hcall
  | _ => exact hcall

theorem likePattern_alike {pattern pattern' : Expr} (hpattern : pattern.Alike C.related pattern')
    (hstring : escape = none → pattern.isString = false) (h : Alike C .any rendered rendered')
    (hescape : Option.Rel (Alike C .any) escape escape') :
    Alike C .any (t.likePattern pattern rendered escape)
      (t.likePattern pattern' rendered' escape') := by
  have hclause := h.seq (escapeClause_alike hescape)
  unfold likePattern
  cases hescape with
  | some => rcases t.style with _ | _ | _ <;> exact hclause
  | none =>
      split
      · exact reescaped_alike hpattern (hstring rfl) h
      · exact h
      · exact hclause

/-- A string literal that is the whole pattern keeps its content, or has its
backslashes doubled. -/
theorem likePattern_string {a b : String} (hstyle : C.style = t.style) (h : C.related .pattern a b) :
    Alike C .any (t.likePattern (.literal (.string a)) (emit (Text.literal a)) none)
      (t.likePattern (.literal (.string b)) (emit (Text.literal b)) none) := by
  have hcontent (hs : t.style ≠ .spanner .reescapeBackslash) :
      Alike C .any (emit (Text.literal a)) (emit (Text.literal b)) :=
    .emit (.literal (.content a b) (.pattern h (hstyle ▸ hs)))
  unfold likePattern
  cases hs : t.style with
  | standard => exact (hcontent (by simp [hs])).seq (escapeClause_alike .none)
  | spanner policy =>
      cases policy with
      | reescapeBackslash =>
          exact .emit (.literal (.reescaped a b) (.reescaped h (hstyle.trans hs)))
      | omitEscapeClause => exact hcontent (by simp [hs])

theorem like_alike {pattern pattern' : Expr} (negated caseSensitive : Bool)
    (hsubject : Alike C .any subject subject')
    (hlower : t.style = .standard → Alike C .any rendered rendered')
    (hescape : Option.Rel (Alike C .any) escape escape')
    (hpattern : Alike C .any (t.likePattern pattern rendered escape)
      (t.likePattern pattern' rendered' escape')) :
    Alike C .any (t.like subject pattern rendered escape negated caseSensitive)
      (t.like subject' pattern' rendered' escape' negated caseSensitive) := by
  unfold like
  split
  next h =>
    have hend := (hlower h.1).seq ((Alike.word (w := ")") rfl).seq (escapeClause_alike hescape))
    have hmiddle : Script.isWord (if negated then ") not like lower(" else ") like lower(") = true := by
      cases negated <;> rfl
    exact ((hsubject.seq (hend.word_seq hmiddle)).word_seq rfl).any
  next =>
    refine hsubject.seq (hpattern.word_seq ?_)
    cases negated <;> cases caseSensitive <;> rfl

theorem window_alike {partition partition' : List (Rendering Unit)}
    (hpartition : List.Forall₂ (Alike C .any) partition partition')
    (horder : List.Forall₂ (Alike C .any) order order') :
    Alike C .neutral (t.window partition order) (t.window partition' order') := by
  have hpartitioned : partition.isEmpty = partition'.isEmpty := isEmpty_eq_of_forall₂ hpartition
  have hordered : order.isEmpty = order'.isEmpty := isEmpty_eq_of_forall₂ horder
  unfold window
  rw [hpartitioned, hordered]
  refine (Alike.word rfl).seq ((Alike.when (require_alike t _)).seq ?_)
  refine (Alike.listed rfl hpartition).seq ((Alike.when (.word rfl)).seq ?_)
  exact (Alike.listed rfl horder).seq (.word rfl)

theorem caseOf_alike {operand operand' otherwise otherwise' : Option (Rendering Unit)}
    (hoperand : Option.Rel (Alike C .any) operand operand')
    (hbranches : List.Forall₂ (Alike C .neutral) items items')
    (hotherwise : Option.Rel (Alike C .any) otherwise otherwise') :
    Alike C .neutral (caseOf operand items otherwise) (caseOf operand' items' otherwise') := by
  refine (Alike.word rfl).seq ((Alike.optional rfl hoperand).seq ?_)
  refine (Alike.separated_bare hbranches).seq ((Alike.optional rfl hotherwise).seq ?_)
  exact .word rfl

theorem filteredArgument_alike {c c' : Fragment} {arg arg' : Expr} (hc : C.Fragments c c')
    (hstar : arg.isStar = arg'.isStar) (h : Alike C .any rendered rendered') :
    Silent C.Fragments (filteredArgument c arg rendered) (filteredArgument c' arg' rendered') := by
  have hvalue : Silent C.Fragments
      (if arg.isStar then pure (.ofText "1") else rendered.detached)
      (if arg'.isStar then pure (.ofText "1") else rendered'.detached) := by
    rw [hstar]
    split
    · exact .pure (.ofText rfl)
    · exact h.detached
  refine hvalue.bind fun v v' hv => .pure ?_
  exact ((hc.word_append rfl).infix_word rfl hv).append_word rfl

theorem markDistinct_alike {fs fs' : List Fragment} (h : List.Forall₂ C.Fragments fs fs') :
    List.Forall₂ C.Fragments (markDistinct fs) (markDistinct fs') := by
  cases h with
  | nil => exact .nil
  | cons hf hrest => exact .cons (hf.word_append rfl) hrest

/-- Which template a call takes depends on the number of its arguments only. -/
theorem registry_call_alike {r : Registry} (htame : r.Tame) {name : String}
    {fs fs' : List Fragment} (h : List.Forall₂ C.Fragments fs fs') :
    Silent C.Fragments (.ofExcept (r.call name fs)) (.ofExcept (r.call name fs')) := by
  apply Silent.ofExcept
  unfold Registry.call
  cases hf : r.find? name with
  | none => exact .error _
  | some f =>
      simp only [SqlFunction.call, h.length_eq]
      cases hp : f.patterns.find? fun p => p.arity.accepts fs'.length with
      | none => exact .error _
      | some p =>
          have htemplate := htame f (List.mem_of_find?_eq_some hf) p (List.mem_of_find?_eq_some hp)
          exact .ok (C.fragments_expandTemplate h htemplate)

theorem call_alike (htame : t.dialect.functions.Tame) (name : String) (distinct : Bool)
    {args args' : List (Expr × Rendering Unit)} {filter filter' : Option (Rendering Unit)}
    (hargs : List.Forall₂ (fun x y => x.1.isStar = y.1.isStar ∧ Alike C .any x.2 y.2) args args')
    (hfilter : Option.Rel (Alike C .any) filter filter') :
    Alike C .any (t.call name args distinct filter) (t.call name args' distinct filter') := by
  refine (Alike.detached? hfilter).bind_alike fun condition condition' hcondition => ?_
  -- The filter is put into the arguments only where the backend has no clause for it.
  refine Silent.bind_alike (R := List.Forall₂ C.Fragments) (.sequence ?_) fun values values' hv => ?_
  · rw [List.forall₂_map_left_iff, List.forall₂_map_right_iff]
    refine hargs.imp fun x y hxy => ?_
    cases hcondition with
    | none => exact hxy.2.detached
    | some hc =>
        cases t.supports .filterClause with
        | true => exact hxy.2.detached
        | false => exact filteredArgument_alike hc hxy.1 hxy.2
  have harguments : List.Forall₂ C.Fragments (if distinct then markDistinct values else values)
      (if distinct then markDistinct values' else values') := by
    split
    · exact markDistinct_alike hv
    · exact hv
  refine (registry_call_alike htame harguments).bind_alike fun called called' hcalled => ?_
  cases hcondition with
  | none => exact .emitFragment hcalled
  | some hc =>
      cases t.supports .filterClause with
      | true => exact .emitFragment ((hcalled.infix_word rfl hc).append_word rfl)
      | false => exact .emitFragment hcalled

end Translator

end SqlBackend
