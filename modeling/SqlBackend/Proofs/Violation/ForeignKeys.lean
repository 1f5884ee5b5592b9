import SqlBackend.Proofs.Violation.Priority

/-! # Foreign keys among the violations

A message about a foreign key tells its violation only in one of two wordings. In any
other wording a later phrase decides, and where the message speaks of some constraint
violation at all there is always one: the generic phrase, or that of a unique index.
-/

namespace SqlBackend

/-- The text contains one text and behind it another one. -/
def Text.ContainsInOrder (first second text : String) : Prop :=
  ∃ before between after, text = before ++ first ++ between ++ second ++ after

theorem Text.ContainsInOrder.second_infix {first second text : String}
    (h : ContainsInOrder first second text) : second.toList <:+: text.toList := by
  obtain ⟨before, between, after, rfl⟩ := h
  exact ⟨(before ++ first ++ between).toList, after.toList, by simp⟩

theorem Text.ContainsInOrder.first_infix {first second text : String}
    (h : ContainsInOrder first second text) : first.toList <:+: text.toList := by
  obtain ⟨before, between, after, rfl⟩ := h
  exact ⟨before.toList, (between ++ second ++ after).toList, by simp⟩

namespace Phrase

/-- The wordings of a violated foreign key. -/
def foreignKeyQualifiers : List String :=
  [" constraint violation on table",
    "constraint violation when deleting or updating referenced key"]

def foreignKey : Phrase :=
  { required := "Foreign key", qualifiers := foreignKeyQualifiers, kind := .foreignKey }

def uniqueIndex : Phrase := { required := "Unique index violation", kind := .unique }

/-- The phrases of null values and of checks come before all others. -/
theorem exists_specific_eq : ∃ earlier, specific = earlier ++ [foreignKey, uniqueIndex] ∧
    ∀ p ∈ earlier, p ∈ specific ∧ (p.kind = .notNull ∨ p.kind = .check) :=
  ⟨specific.take 3, rfl, by simp [specific]⟩

variable {message : String}

/-- Where those phrases do not decide there are three left. -/
theorem kind?_of_later
    (h : ∀ p ∈ specific, p.kind = .notNull ∨ p.kind = .check → ¬p.Matches message) :
    kind? message =
      ([foreignKey, uniqueIndex, generic].find? fun p => p.occursIn message).map (·.kind) := by
  obtain ⟨earlier, hspecific, hearlier⟩ := exists_specific_eq
  have hnone : earlier.find? (fun p => p.occursIn message) = none := by
    rw [List.find?_eq_none]
    intro p hp hoccurs
    obtain ⟨hmem, hkind⟩ := hearlier p hp
    exact h p hmem hkind (occursIn_iff.mp hoccurs)
  rw [kind?, all, hspecific, List.append_assoc, List.find?_append, hnone, Option.none_or]
  rfl

theorem foreignKey_matches_iff (h : foreignKey.required.toList <:+: message.toList) :
    foreignKey.Matches message ↔ ∃ q ∈ foreignKeyQualifiers, q.toList <:+: message.toList := by
  refine ⟨fun hmatches => hmatches.2.resolve_left (by decide), fun hqualified => ⟨h, .inr hqualified⟩⟩

theorem uniqueIndex_matches_iff :
    uniqueIndex.Matches message ↔ "Unique index violation".toList <:+: message.toList :=
  and_iff_left (.inl rfl)

end Phrase

namespace Failure

open Phrase

/-- A message that speaks of a foreign key and then of a constraint violation, but neither
of a null value nor of a check. It is told as the violation of a foreign key exactly if it
has one of the two wordings for it. Otherwise it is that of a unique index if there is the
phrase for one, and of some constraint if not, so the failure is always classified. -/
theorem foreign_key_told_by_wording (f : Failure) (hexists : f.code ≠ 6) (hrange : f.code ≠ 11)
    (hphrases : Text.ContainsInOrder "Foreign key" "constraint violation" f.messageText)
    (hother : ∀ p ∈ Phrase.specific, p.kind = .notNull ∨ p.kind = .check →
      ¬p.Matches f.messageText) :
    let contains (text : String) := text.toList <:+: f.messageText.toList
    let worded := contains " constraint violation on table" ∨
      contains "constraint violation when deleting or updating referenced key"
    f.spannerKind? ≠ none ∧
      (f.spannerKind? = some .foreignKey ↔ worded) ∧
      (f.spannerKind? = some .unique ↔ ¬worded ∧ contains "Unique index violation") ∧
      (f.spannerKind? = some .unknown ↔ ¬worded ∧ ¬contains "Unique index violation") := by
  intro contains worded
  have hgeneric : generic.occursIn f.messageText = true :=
    occursIn_iff.mpr ⟨hphrases.second_infix, .inl rfl⟩
  have hworded : foreignKey.occursIn f.messageText = true ↔ worded := by
    rw [occursIn_iff, foreignKey_matches_iff hphrases.first_infix]
    simp [foreignKeyQualifiers, worded, contains]
  have hunique : uniqueIndex.occursIn f.messageText = true ↔ contains "Unique index violation" :=
    occursIn_iff.trans uniqueIndex_matches_iff
  rw [spannerKind?_of_message hexists hrange, kind?_of_later hother, ← hworded, ← hunique]
  -- The generic phrase occurs and comes last, so it decides where the other two do not.
  simp only [List.find?_cons, hgeneric]
  cases foreignKey.occursIn f.messageText with
  | true => simp [foreignKey]
  | false =>
      cases uniqueIndex.occursIn f.messageText with
      | true => simp [uniqueIndex]
      | false => simp [generic]

/-- A wording in front of the foreign key, and an index in place of one. -/
theorem foreign_key_told_by_wording_order :
    let worded : Failure := {
      code := 9
      message := some "A constraint violation on table t: Foreign key fk, a constraint violation" }
    let index : Failure := {
      code := 9
      message := some "Foreign key fk: a constraint violation. Unique index violation on uk" }
    (∀ f ∈ [worded, index],
      Text.ContainsInOrder "Foreign key" "constraint violation" f.messageText ∧
        ∀ p ∈ Phrase.specific, p.kind = .notNull ∨ p.kind = .check → ¬p.Matches f.messageText) ∧
      worded.spannerKind? = some .foreignKey ∧ index.spannerKind? = some .unique := by
  intro worded index
  have hworded : Text.ContainsInOrder "Foreign key" "constraint violation" worded.messageText :=
    ⟨"A constraint violation on table t: ", " fk, a ", "", by decide +kernel⟩
  have hindex : Text.ContainsInOrder "Foreign key" "constraint violation" index.messageText :=
    ⟨"", " fk: a ", ". Unique index violation on uk", by decide +kernel⟩
  have hother : ∀ f ∈ [worded, index], ∀ p ∈ Phrase.specific,
      p.kind = .notNull ∨ p.kind = .check → ¬p.Matches f.messageText := by
    simp only [← occursIn_iff]
    decide +kernel
  obtain ⟨_, htold, _, _⟩ := foreign_key_told_by_wording worded (by decide) (by decide) hworded
    (hother _ List.mem_cons_self)
  obtain ⟨_, _, hunique, _⟩ := foreign_key_told_by_wording index (by decide) (by decide) hindex
    (hother _ (List.mem_cons_of_mem _ List.mem_cons_self))
  refine ⟨?_, htold.mpr (.inl (by decide +kernel)), hunique.mpr (by decide +kernel)⟩
  simp only [List.forall_mem_cons, List.not_mem_nil, false_imp_iff, implies_true, and_true]
  exact ⟨⟨hworded, hother _ List.mem_cons_self⟩,
    hindex, hother _ (List.mem_cons_of_mem _ List.mem_cons_self)⟩

/-- In another wording the violation of a foreign key is of an unknown kind. -/
theorem foreign_key_untold_without_wording :
    let f : Failure := {
      code := 9, message := some "Foreign key fk_orders_users constraint violation" }
    f.code ≠ 6 ∧ f.code ≠ 11 ∧
      Text.ContainsInOrder "Foreign key" "constraint violation" f.messageText ∧
      (∀ p ∈ Phrase.specific, p.kind = .notNull ∨ p.kind = .check → ¬p.Matches f.messageText) ∧
      f.spannerKind? = some .unknown := by
  intro f
  refine ⟨by decide, by decide, ⟨"", " fk_orders_users ", "", by decide +kernel⟩, ?_,
    by decide +kernel⟩
  simp only [← occursIn_iff]
  decide +kernel

end Failure

end SqlBackend
