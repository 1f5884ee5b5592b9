import Mathlib.Data.List.Infix
import SqlBackend.Violation.Spanner

/-! # Which phrase decides

A failure on Spanner is classified by its code, or else by the first phrase that its
message matches. Matching is a matter of contained texts, so a message that contains a
classified one is classified as well, and by a phrase that is at least as specific.
-/

namespace SqlBackend

namespace Phrase

/-- The message contains the required text and, if there are any, a qualifier. -/
def Matches (p : Phrase) (message : String) : Prop :=
  p.required.toList <:+: message.toList ∧
    (p.qualifiers = [] ∨ ∃ q ∈ p.qualifiers, q.toList <:+: message.toList)

theorem occursIn_iff {p : Phrase} {message : String} :
    p.occursIn message = true ↔ p.Matches message := by
  simp [occursIn, Matches, Text.contains, Text.occurs_iff]

theorem Matches.mono {p : Phrase} {part whole : String} (h : p.Matches part)
    (hpart : part.toList <:+: whole.toList) : p.Matches whole := by
  obtain ⟨hrequired, hqualified⟩ := h
  refine ⟨hrequired.trans hpart, hqualified.imp_right ?_⟩
  rintro ⟨q, hq, hcontained⟩
  exact ⟨q, hq, hcontained.trans hpart⟩

theorem kind_ne_unknown {p : Phrase} (h : p ∈ specific) : p.kind ≠ .unknown := by
  have hall : ∀ p ∈ specific, p.kind ≠ .unknown := by simp [specific]
  exact hall p h

theorem mem_all {p : Phrase} : p ∈ all ↔ p ∈ specific ∨ p = generic := by
  simp [all]

theorem kind?_eq_none_iff {message : String} :
    kind? message = none ↔ ∀ p ∈ all, ¬p.Matches message := by
  simp [kind?, List.find?_eq_none, ← occursIn_iff]

/-- The kind is that of the first phrase that matches. -/
theorem kind?_eq_some_iff {message : String} {kind : ConstraintKind} :
    kind? message = some kind ↔
      ∃ before p after, all = before ++ p :: after ∧ p.kind = kind ∧ p.Matches message ∧
        ∀ q ∈ before, ¬q.Matches message := by
  simp only [kind?, Option.map_eq_some_iff, List.find?_eq_some_iff_append, ← occursIn_iff]
  constructor
  · rintro ⟨p, ⟨hmatches, before, after, hall, hbefore⟩, hkind⟩
    exact ⟨before, p, after, hall, hkind, hmatches, by simpa using hbefore⟩
  · rintro ⟨before, p, after, hall, hkind, hmatches, hbefore⟩
    exact ⟨p, ⟨hmatches, before, after, hall, by simpa using hbefore⟩, hkind⟩

/-- A kind that is told was told by one of its own phrases. -/
theorem exists_specific_of_kind? {message : String} {kind : ConstraintKind}
    (h : kind? message = some kind) (hkind : kind ≠ .unknown) :
    ∃ p ∈ specific, p.kind = kind ∧ p.Matches message := by
  obtain ⟨before, p, after, hall, rfl, hmatches, _⟩ := kind?_eq_some_iff.mp h
  have hmem : p ∈ all := by simp [hall]
  rcases mem_all.mp hmem with hspecific | rfl
  · exact ⟨p, hspecific, rfl, hmatches⟩
  · exact absurd rfl hkind

/-- The generic phrase decides where it is the only one that matches. -/
theorem kind?_eq_unknown_iff {message : String} :
    kind? message = some .unknown ↔
      generic.Matches message ∧ ∀ p ∈ specific, ¬p.Matches message := by
  constructor
  · intro h
    rw [kind?, all, List.find?_append] at h
    cases hfound : specific.find? fun p => p.occursIn message with
    | some p =>
        simp only [hfound, Option.some_or, Option.map_some, Option.some.injEq] at h
        exact absurd h (kind_ne_unknown (List.mem_of_find?_eq_some hfound))
    | none =>
        simp only [hfound, Option.none_or] at h
        refine ⟨?_, by simpa [← occursIn_iff] using hfound⟩
        rw [← occursIn_iff]
        by_contra hgeneric
        simp [hgeneric] at h
  · rintro ⟨hgeneric, hspecific⟩
    exact kind?_eq_some_iff.mpr ⟨specific, generic, [], rfl, rfl, hgeneric, hspecific⟩

/-- A message around a classified one is classified, and it is of an unknown kind only
if the message in it was. -/
theorem kind?_mono {part whole : String} (hpart : part.toList <:+: whole.toList)
    (h : kind? part ≠ none) :
    kind? whole ≠ none ∧ (kind? whole = some .unknown → kind? part = some .unknown) := by
  obtain ⟨p, hmem, hmatches⟩ : ∃ p ∈ all, p.Matches part := by
    simpa [kind?_eq_none_iff] using h
  refine ⟨fun hnone => kind?_eq_none_iff.mp hnone p hmem (hmatches.mono hpart), ?_⟩
  intro hunknown
  have hspecific : ∀ q ∈ specific, ¬q.Matches part := fun q hq hpartial =>
    (kind?_eq_unknown_iff.mp hunknown).2 q hq (hpartial.mono hpart)
  rcases mem_all.mp hmem with hother | rfl
  · exact absurd hmatches (hspecific p hother)
  · exact kind?_eq_unknown_iff.mpr ⟨hmatches, hspecific⟩

end Phrase

namespace Failure

/-- The kind of constraint that the failure is classified as a violation of. -/
def spannerKind? (f : Failure) : Option ConstraintKind := f.classifyBySpanner.map (·.kind)

theorem classifyBySpanner_eq (f : Failure) :
    f.classifyBySpanner = f.spannerKind?.map f.violation := by
  unfold spannerKind? classifyBySpanner
  cases (SpannerStatus.kind? f.code).or (Phrase.kind? f.messageText) <;> rfl

theorem spannerKind?_eq (f : Failure) :
    f.spannerKind? = (SpannerStatus.kind? f.code).or (Phrase.kind? f.messageText) := by
  unfold spannerKind? classifyBySpanner
  cases (SpannerStatus.kind? f.code).or (Phrase.kind? f.messageText) <;> rfl

theorem spannerKind?_of_message {f : Failure} (hexists : f.code ≠ SpannerStatus.alreadyExists)
    (hrange : f.code ≠ SpannerStatus.outOfRange) :
    f.spannerKind? = Phrase.kind? f.messageText := by
  rw [spannerKind?_eq, SpannerStatus.kind?, if_neg hexists, if_neg hrange, Option.none_or]

/-- Two codes decide whatever the message is. With any other code the first phrase that
the message matches decides: none of them leaves the failure as it is, the generic one
decides only where no other matches, and a kind is told by a phrase of that kind. A
failure whose message contains that of a classified failure with the same code is
classified too, and of an unknown kind only if the other is. The SQLSTATE changes
nothing, and the violation reports what the failure did. -/
theorem spanner_classification_by_priority (f : Failure) :
    (f.code = 6 → f.spannerKind? = some .unique) ∧
    (f.code = 11 → f.spannerKind? = some .check) ∧
    (f.code ≠ 6 → f.code ≠ 11 →
      (∀ kind, f.spannerKind? = some kind ↔
        ∃ before p after, Phrase.all = before ++ p :: after ∧ p.kind = kind ∧
          p.Matches f.messageText ∧ ∀ q ∈ before, ¬q.Matches f.messageText) ∧
      (f.spannerKind? = none ↔ ∀ p ∈ Phrase.all, ¬p.Matches f.messageText) ∧
      (f.spannerKind? = some .unknown ↔
        Phrase.generic.Matches f.messageText ∧ ∀ p ∈ Phrase.specific, ¬p.Matches f.messageText) ∧
      (∀ kind, kind ≠ .unknown → f.spannerKind? = some kind →
        ∃ p ∈ Phrase.specific, p.kind = kind ∧ p.Matches f.messageText) ∧
      ∀ g : Failure, g.code = f.code → f.messageText.toList <:+: g.messageText.toList →
        f.spannerKind? ≠ none →
          g.spannerKind? ≠ none ∧ (g.spannerKind? = some .unknown → f.spannerKind? = some .unknown)) ∧
    (∀ state, ({ f with sqlState := state } : Failure).classifyBySpanner = f.classifyBySpanner) ∧
    ∀ v, f.classifyBySpanner = some v →
      v.message = f.message.getD "" ∧ v.code = f.code ∧ v.sql = f.sql := by
  refine ⟨?_, ?_, ?_, fun _ => rfl, ?_⟩
  · intro hcode
    rw [spannerKind?_eq, hcode]
    rfl
  · intro hcode
    rw [spannerKind?_eq, hcode]
    rfl
  · intro hexists hrange
    rw [spannerKind?_of_message hexists hrange]
    refine ⟨fun _ => Phrase.kind?_eq_some_iff, Phrase.kind?_eq_none_iff,
      Phrase.kind?_eq_unknown_iff,
      fun _ hkind h => Phrase.exists_specific_of_kind? h hkind, ?_⟩
    intro g hcode hpart hclassified
    rw [spannerKind?_of_message (hcode ▸ hexists) (hcode ▸ hrange)]
    exact Phrase.kind?_mono hpart hclassified
  · intro v hv
    rw [classifyBySpanner_eq] at hv
    obtain ⟨kind, _, rfl⟩ := Option.map_eq_some_iff.mp hv
    exact ⟨rfl, rfl, rfl⟩

/-- A foreign key that is named in a check constraint's message: the generic phrase alone,
then inside a message that two specific phrases match, of which the earlier one decides. -/
theorem spanner_classification_by_priority_overlap :
    let part : Failure := { code := 9, message := some "Some constraint violation" }
    let whole : Failure := {
      code := 9
      message := some ("Check constraint ck: Foreign key fk. Some constraint violation on table t")
      sqlState := some "23505", sql := some "insert into t" }
    part.spannerKind? = some .unknown ∧ whole.spannerKind? = some .check ∧
      part.messageText.toList <:+: whole.messageText.toList ∧ whole.spannerKind? ≠ none ∧
      ({ whole with code := 6 } : Failure).spannerKind? = some .unique ∧
      ({ whole with code := 11 } : Failure).spannerKind? = some .check ∧
      (∃ p ∈ Phrase.specific, p.kind = .check ∧ p.Matches whole.messageText) ∧
      whole.classifyBySpanner = some (whole.violation .check) ∧
      (whole.violation .check).sql = whole.sql := by
  intro part whole
  have hpart : part.spannerKind? = some .unknown := by decide +kernel
  have hwhole : whole.spannerKind? = some .check := by decide +kernel
  have hcontained : part.messageText.toList <:+: whole.messageText.toList := by decide +kernel
  have hviolation : whole.classifyBySpanner = some (whole.violation .check) := by
    rw [classifyBySpanner_eq, hwhole]
    rfl
  obtain ⟨_, _, hother, _, _⟩ := spanner_classification_by_priority part
  obtain ⟨_, _, _, _, hmono⟩ := hother (by decide) (by decide)
  obtain ⟨hunique, _⟩ := spanner_classification_by_priority { whole with code := 6 }
  obtain ⟨_, hcheck, _⟩ := spanner_classification_by_priority { whole with code := 11 }
  obtain ⟨_, _, hphrases, _, hkept⟩ := spanner_classification_by_priority whole
  obtain ⟨_, _, _, hspecific, _⟩ := hphrases (by decide) (by decide)
  refine ⟨hpart, hwhole, hcontained, ?_, hunique rfl, hcheck rfl, ?_, hviolation, ?_⟩
  · exact (hmono whole rfl hcontained (by simp [hpart])).1
  · exact hspecific .check (by decide) hwhole
  · exact (hkept _ hviolation).2.2

end Failure

end SqlBackend
