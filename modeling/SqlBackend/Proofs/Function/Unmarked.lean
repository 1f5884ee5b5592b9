import SqlBackend.Dialect.Basic
import SqlBackend.Proofs.Decimal.Characters

/-! # Texts of a backend without question marks

A question mark in a statement has to be a placeholder, so neither the names of
types nor the templates of functions may write one of their own. Those of the
built-in backends do not.
-/

namespace SqlBackend

/-- No template of the function writes a question mark of its own. -/
def SqlFunction.Unmarked (f : SqlFunction) : Prop :=
  ∀ p ∈ f.patterns, .char '?' ∉ TemplatePiece.ofChars p.template.toList

instance (f : SqlFunction) : Decidable f.Unmarked :=
  inferInstanceAs (Decidable (∀ p ∈ f.patterns, _))

def Registry.Unmarked (r : Registry) : Prop := ∀ f ∈ r.functions, f.Unmarked

/-- No type is spelled with a question mark. -/
def TypeMapping.Unmarked (m : TypeMapping) : Prop := ∀ target, '?' ∉ (m.castSpelling target).toList

namespace SqlFunction

theorem named_unmarked {name : String} (h : '?' ∉ name.toList) : (named name).Unmarked := by
  intro p hp
  rw [named, List.mem_singleton] at hp
  subst hp
  rw [String.toList_append, TemplatePiece.ofChars_append_of_not_mem h, List.mem_append, not_or]
  refine ⟨?_, by decide⟩
  intro hmark
  obtain ⟨c, hc, heq⟩ := List.mem_map.mp hmark
  cases heq
  exact h hc

theorem postgres_unmarked : ∀ f ∈ postgres, f.Unmarked := by
  have haggregates : ∀ f ∈ postgresAggregates, f.Unmarked := by
    rw [postgresAggregates, List.forall_mem_map]
    intro name hname
    apply named_unmarked
    revert name
    decide
  have hscalars : ∀ f ∈ postgresScalars, f.Unmarked := by
    rw [postgresScalars, List.forall_mem_map]
    intro name hname
    apply named_unmarked
    revert name
    decide
  have hcollections : ∀ f ∈ postgresCollections, f.Unmarked := by
    rw [postgresCollections, List.forall_mem_map]
    intro name hname
    apply named_unmarked
    revert name
    decide
  have htemplated : ∀ f ∈ postgresTemplated, f.Unmarked := by decide
  have hconstants : ∀ f ∈ postgresConstants, f.Unmarked := by decide
  simp only [postgres, List.forall_mem_append]
  exact ⟨⟨⟨⟨haggregates, hscalars⟩, htemplated⟩, hcollections⟩, hconstants⟩

theorem spanner_unmarked : ∀ f ∈ spanner, f.Unmarked := by decide

end SqlFunction

namespace Registry

theorem mem_registerAll {r : Registry} {fs : List SqlFunction} {f : SqlFunction}
    (h : f ∈ (r.registerAll fs).functions) : f ∈ r.functions ∨ f ∈ fs := by
  induction fs generalizing r with
  | nil => exact .inl h
  | cons g rest ih =>
      rcases ih (r := r.register g) h with h | h
      · rcases List.mem_cons.mp h with rfl | h
        · exact .inr List.mem_cons_self
        · exact .inl (List.mem_filter.mp h).1
      · exact .inr (List.mem_cons_of_mem g h)

theorem mem_foldl_erase {r : Registry} {names : List String} {f : SqlFunction}
    (h : f ∈ (names.foldl erase r).functions) : f ∈ r.functions := by
  induction names generalizing r with
  | nil => exact h
  | cons name rest ih => exact (List.mem_filter.mp (ih (r := r.erase name) h)).1

/-- The functions of PostgreSQL's registry are all among those it is made from. -/
theorem forall_postgres {p : SqlFunction → Prop} (h : ∀ f ∈ SqlFunction.postgres, p f) :
    ∀ f ∈ postgres.functions, p f := by
  intro f hf
  rcases mem_registerAll hf with hf | hf
  · cases hf
  · exact h f hf

theorem forall_spanner {p : SqlFunction → Prop} (hpostgres : ∀ f ∈ SqlFunction.postgres, p f)
    (hspanner : ∀ f ∈ SqlFunction.spanner, p f) : ∀ f ∈ spanner.functions, p f := by
  intro f hf
  rcases mem_registerAll (mem_foldl_erase hf) with hf | hf
  · exact forall_postgres hpostgres f hf
  · exact hspanner f hf

theorem postgres_unmarked : postgres.Unmarked := forall_postgres SqlFunction.postgres_unmarked

theorem spanner_unmarked : spanner.Unmarked :=
  forall_spanner SqlFunction.postgres_unmarked SqlFunction.spanner_unmarked

end Registry

/-- Sizes are written with digits, so all other characters are the template's. -/
theorem forall_mem_expandTypeTemplate {p : Char → Prop} {template : String} {size : Size}
    (hdigit : ∀ c, c.isDigit = true → p c) (h : ∀ c ∈ template.toList, p c) :
    ∀ c ∈ (expandTypeTemplate template size).toList, p c := by
  have hnumber : ∀ n : Nat, ∀ c ∈ (toString n).toList, p c := fun n c hc =>
    hdigit c (Decimal.isDigit_of_mem_toString hc)
  -- Length, precision and scale are put in one after the other; the last comes off first.
  intro c hmem
  unfold expandTypeTemplate at hmem
  rcases Text.mem_of_mem_replace hmem with hmem | hmem
  · rcases Text.mem_of_mem_replace hmem with hmem | hmem
    · rcases Text.mem_of_mem_replace hmem with hmem | hmem
      · exact h c hmem
      · exact hnumber _ c hmem
    · exact hnumber _ c hmem
  · exact hnumber _ c hmem

namespace TypeMapping

theorem forall_mem_castSpelling {m : TypeMapping} {p : Char → Prop}
    (hdigit : ∀ c, c.isDigit = true → p c) (htemplate : ∀ type, ∀ c ∈ (m.template type).toList, p c)
    (hfloat : ∀ spellings ∈ m.floatByPrecision, ∀ precision,
      ∀ c ∈ (spellings.templateFor precision).toList, p c) (target : DataType) :
    ∀ c ∈ (m.castSpelling target).toList, p c := by
  apply forall_mem_expandTypeTemplate hdigit
  unfold sizedTemplate
  split
  next spellings _ hspellings => exact hfloat spellings hspellings _
  next =>
    split
    · exact htemplate _
    · exact htemplate _

/-- The characters that the built-in backends spell types with. -/
def isSpellingChar (c : Char) : Bool :=
  c.isAlphanum || c = ' ' || c = '(' || c = ')' || c = ',' || c = '$'

theorem isSpellingChar_of_isDigit {c : Char} (h : c.isDigit = true) : isSpellingChar c = true := by
  simp [isSpellingChar, Char.isAlphanum, h]

theorem isSpellingChar_postgres (target : DataType) :
    ∀ c ∈ (postgres.castSpelling target).toList, isSpellingChar c = true := by
  refine forall_mem_castSpelling (fun _ => isSpellingChar_of_isDigit) ?_ ?_ target
  · intro type
    have hall : (postgres.template type).toList.all isSpellingChar = true := by
      cases type <;> decide
    exact List.all_eq_true.mp hall
  · intro spellings hspellings
    cases hspellings

theorem isSpellingChar_spanner (timestamptzForTime : Bool) (target : DataType) :
    ∀ c ∈ ((spanner timestamptzForTime).castSpelling target).toList, isSpellingChar c = true := by
  refine forall_mem_castSpelling (fun _ => isSpellingChar_of_isDigit) ?_ ?_ target
  · intro type
    have hall : ((spanner timestamptzForTime).template type).toList.all isSpellingChar = true := by
      cases timestamptzForTime <;> cases type <;> decide
    exact List.all_eq_true.mp hall
  · have hbounds : ∀ entry ∈ spannerFloats.bounds, entry.2.toList.all isSpellingChar = true := by
      decide
    have hfallback : spannerFloats.fallback.toList.all isSpellingChar = true := by decide
    rintro _ ⟨rfl⟩ precision
    unfold ByCapacity.templateFor
    split
    · exact List.all_eq_true.mp hfallback
    · split
      next entry hentry =>
          exact List.all_eq_true.mp (hbounds entry (List.mem_of_find?_eq_some hentry))
      next => exact List.all_eq_true.mp hfallback

theorem postgres_unmarked : postgres.Unmarked := by
  intro target hmark
  exact absurd (isSpellingChar_postgres target '?' hmark) (by decide)

theorem spanner_unmarked (timestamptzForTime : Bool) : (spanner timestamptzForTime).Unmarked := by
  intro target hmark
  exact absurd (isSpellingChar_spanner timestamptzForTime target '?' hmark) (by decide)

end TypeMapping

end SqlBackend
