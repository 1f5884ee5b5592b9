import SqlBackend.Proofs.Bracket.Writing
import SqlBackend.Proofs.Function.Unmarked

/-! # Brackets that a backend writes

Templates of functions and spellings of types bring brackets of their own. Those of
the built-in backends close what they open, whatever arguments and sizes are put
into them.
-/

namespace SqlBackend

open Nesting (isMark)

namespace TemplatePiece

/-- Reads a part of a template. An argument stands outside literals, where it closes
what it opens. -/
def nest (n : Nesting) : TemplatePiece → Option Nesting
  | char c => n.step c
  | argument _ | allArguments => if n.quoted then none else some n

/-- The template closes what it opens and holds no argument in a literal. -/
def Balanced (pieces : List TemplatePiece) : Prop :=
  pieces.foldlM nest ⟨false, 0⟩ = some ⟨false, 0⟩

instance (pieces : List TemplatePiece) : Decidable (Balanced pieces) :=
  inferInstanceAs (Decidable (_ = _))

variable {args : List Fragment}

theorem balanced_argument (h : ∀ a ∈ args, a.Balanced) (position : Nat) :
    ((argument position).expand args).Balanced := by
  cases position with
  | zero => exact .empty
  | succ n =>
      rw [expand]
      cases hn : args[n]? with
      | none => exact .empty
      | some a => exact h a (List.mem_of_getElem? hn)

/-- What a part stands for is read as the part itself. -/
theorem read_expand (h : ∀ a ∈ args, a.Balanced) {piece : TemplatePiece} {n m : Nesting}
    (hpiece : nest n piece = some m) : n.read (piece.expand args).text.toList = some m := by
  have hbalanced : ∀ f : Fragment, f.Balanced → (if n.quoted then none else some n) = some m →
      n.read f.text.toList = some m := by
    intro f hf houtside
    obtain ⟨quoted, depth⟩ := n
    cases quoted with
    | true => cases houtside
    | false =>
        cases houtside
        exact hf depth
  cases piece with
  | char c =>
      have hstep : n.step c = some m := hpiece
      have hchar : (String.singleton c).toList = [c] := by simp
      rw [expand, Fragment.text_ofText, hchar, Nesting.read_cons, hstep]
      rfl
  | argument position => exact hbalanced _ (balanced_argument h position) hpiece
  | allArguments => exact hbalanced _ (Fragment.Balanced.joined rfl h) hpiece

theorem read_expand_pieces (h : ∀ a ∈ args, a.Balanced) {pieces : List TemplatePiece}
    {n m : Nesting} (hpieces : pieces.foldlM nest n = some m) :
    n.read (pieces.foldr (fun (piece : TemplatePiece) rest => piece.expand args ++ rest)
      {}).text.toList = some m := by
  induction pieces generalizing n with
  | nil => exact hpieces
  | cons piece rest ih =>
      rw [List.foldlM_cons] at hpieces
      obtain ⟨k, hk, hrest⟩ := Option.bind_eq_some_iff.mp hpieces
      rw [List.foldr_cons, Fragment.text_append, String.toList_append, Nesting.read_append,
        read_expand h hk, Option.bind_some]
      exact ih hrest

end TemplatePiece

theorem balanced_expandTemplate {template : String} {args : List Fragment}
    (htemplate : TemplatePiece.Balanced (TemplatePiece.ofChars template.toList))
    (h : ∀ a ∈ args, a.Balanced) : (expandTemplate template args).Balanced :=
  Nesting.leads_of_read (TemplatePiece.read_expand_pieces h htemplate)

def SqlFunction.Balanced (f : SqlFunction) : Prop :=
  ∀ p ∈ f.patterns, TemplatePiece.Balanced (TemplatePiece.ofChars p.template.toList)

instance (f : SqlFunction) : Decidable f.Balanced :=
  inferInstanceAs (Decidable (∀ p ∈ f.patterns, _))

/-- All templates close what they open. -/
def Registry.Balanced (r : Registry) : Prop := ∀ f ∈ r.functions, f.Balanced

/-- All spellings of types close what they open. -/
def TypeMapping.Balanced (m : TypeMapping) : Prop :=
  ∀ target, Nesting.Balanced (m.castSpelling target)

namespace SqlFunction

theorem postgres_balanced : ∀ f ∈ postgres, f.Balanced := by decide +kernel

theorem spanner_balanced : ∀ f ∈ spanner, f.Balanced := by decide +kernel

end SqlFunction

namespace Registry

theorem postgres_balanced : postgres.Balanced := forall_postgres SqlFunction.postgres_balanced

theorem spanner_balanced : spanner.Balanced :=
  forall_spanner SqlFunction.postgres_balanced SqlFunction.spanner_balanced

theorem Balanced.call {r : Registry} (hr : r.Balanced) {name : String} {args : List Fragment}
    {called : Fragment} (hargs : ∀ a ∈ args, a.Balanced) (h : r.call name args = .ok called) :
    called.Balanced := by
  unfold Registry.call SqlFunction.call at h
  split at h
  next f hf =>
    split at h
    next p hp =>
      cases h
      have htemplate := hr f (List.mem_of_find?_eq_some hf) p (List.mem_of_find?_eq_some hp)
      exact balanced_expandTemplate htemplate hargs
    next => cases h
  next => cases h

end Registry

namespace Text

variable {p : Char → Bool}

/-- Replacing one text without marks by another leaves all marks in their places. The
characters still covered by an occurrence are among those that are replaced. -/
theorem filter_replaceFrom {pattern replacement : List Char} (hnonempty : pattern ≠ [])
    (hpattern : ∀ c ∈ pattern, p c = false) (hreplacement : ∀ c ∈ replacement, p c = false)
    {covered : Nat} {chars : List Char} (hcovered : ∀ c ∈ chars.take covered, p c = false) :
    (replaceFrom pattern replacement covered chars).filter p = chars.filter p := by
  induction chars generalizing covered with
  | nil => rfl
  | cons c rest ih =>
      cases covered with
      | zero =>
          rw [replaceFrom]
          split
          next hoccurs =>
            have hnone : replacement.filter p = [] :=
              List.filter_eq_nil_iff.mpr fun c hc => by simp [hreplacement c hc]
            obtain ⟨after, hafter⟩ := List.isPrefixOf_iff_prefix.mp hoccurs
            cases pattern with
            | nil => exact absurd rfl hnonempty
            | cons d pattern =>
                obtain ⟨rfl, rfl⟩ := List.cons.inj hafter
                obtain ⟨hd, hinner⟩ := List.forall_mem_cons.mp hpattern
                rw [List.filter_append, hnone, List.nil_append, List.filter_cons_of_neg (by simp [hd])]
                apply ih
                simpa using hinner
          next => rw [List.filter_cons, List.filter_cons, ih (by simp)]
      | succ covered =>
          obtain ⟨hc, hrest⟩ := List.forall_mem_cons.mp hcovered
          rw [replaceFrom, List.filter_cons_of_neg (by simp [hc]), ih hrest]

theorem filter_replace {text pattern replacement : String} (hnonempty : pattern.toList ≠ [])
    (hpattern : pattern.toList.filter p = [])
    (hreplacement : ∀ c ∈ replacement.toList, p c = false) :
    (replace text pattern replacement).toList.filter p = text.toList.filter p := by
  have hnone : ∀ c ∈ pattern.toList, p c = false := by
    simpa only [Bool.not_eq_true] using List.filter_eq_nil_iff.mp hpattern
  rw [toList_replace, replaceChars, if_neg (by simpa using hnonempty)]
  exact filter_replaceFrom hnonempty hnone hreplacement (by simp)

end Text

/-- Sizes bring no marks into the spelling of a type. -/
theorem filter_expandTypeTemplate (template : String) (size : Size) :
    (expandTypeTemplate template size).toList.filter isMark = template.toList.filter isMark := by
  have hnumber : ∀ n : Nat, ∀ c ∈ (toString n).toList, isMark c = false := by
    intro n c hc
    have hdigit := Decimal.isDigit_of_mem_toString hc
    apply Nesting.isMark_eq_false
    all_goals
      rintro rfl
      exact absurd hdigit (by decide)
  rw [expandTypeTemplate, Text.filter_replace (by decide) rfl (hnumber _),
    Text.filter_replace (by decide) rfl (hnumber _),
    Text.filter_replace (by decide) rfl (hnumber _)]

namespace TypeMapping

variable {m : TypeMapping}

/-- A type is spelled with the brackets of its template. -/
theorem balanced_of_templates (htemplate : ∀ type, Nesting.Balanced (m.template type))
    (hfloat : ∀ spellings ∈ m.floatByPrecision, ∀ precision,
      Nesting.Balanced (spellings.templateFor precision)) : m.Balanced := by
  intro target
  have hsized : Nesting.Balanced (m.sizedTemplate target.type target.size) := by
    unfold sizedTemplate
    split
    next spellings _ hspellings => exact hfloat spellings hspellings _
    next =>
      split
      · exact htemplate _
      · exact htemplate _
  intro around
  rw [castSpelling, spelling, ← Nesting.read_filter, filter_expandTypeTemplate,
    Nesting.read_filter]
  exact hsized around

theorem postgres_balanced : postgres.Balanced := by
  apply balanced_of_templates
  · intro type
    apply Nesting.leads_of_read
    cases type <;> rfl
  · intro spellings hspellings
    cases hspellings

theorem spanner_balanced (timestamptzForTime : Bool) : (spanner timestamptzForTime).Balanced := by
  apply balanced_of_templates
  · intro type
    apply Nesting.leads_of_read
    cases timestamptzForTime <;> cases type <;> rfl
  · have hbounds : ∀ entry ∈ spannerFloats.bounds,
        Nesting.read ⟨false, 0⟩ entry.2.toList = some ⟨false, 0⟩ := by decide
    have hfallback : Nesting.read ⟨false, 0⟩ spannerFloats.fallback.toList = some ⟨false, 0⟩ := rfl
    rintro _ ⟨rfl⟩ precision
    apply Nesting.leads_of_read
    unfold ByCapacity.templateFor
    split
    · exact hfallback
    · split
      next entry hentry => exact hbounds entry (List.mem_of_find?_eq_some hentry)
      next => exact hfallback

end TypeMapping

end SqlBackend
