import SqlBackend.Proofs.Function.Unmarked
import SqlBackend.Proofs.Literal.Script

/-! # Texts of a backend that keep literals apart

What a backend writes of its own may neither touch a quote nor bring two
literals together. The names of types are written without quotes and signs, and
so are the templates of functions, which put a character between any two
arguments.
-/

namespace SqlBackend

namespace TemplatePiece

def isChar : TemplatePiece → Bool
  | char _ => true
  | _ => false

/-- A character may stand next to anything. -/
def isNeutral : TemplatePiece → Bool
  | char c => (Mark.char c).isNeutral true
  | _ => true

/-- Two arguments never touch, and nothing else needs to be kept apart. -/
structure Tame (pieces : List TemplatePiece) : Prop where
  neutral : ∀ p ∈ pieces, p.isNeutral = true
  apart : pieces.IsChain fun p q => (p.isChar || q.isChar) = true

instance (pieces : List TemplatePiece) : Decidable (Tame pieces) :=
  decidable_of_iff (_ ∧ _) ⟨fun h => ⟨h.1, h.2⟩, fun h => ⟨h.neutral, h.apart⟩⟩

end TemplatePiece

def SqlFunction.Tame (f : SqlFunction) : Prop :=
  ∀ p ∈ f.patterns, TemplatePiece.Tame (TemplatePiece.ofChars p.template.toList)

instance (f : SqlFunction) : Decidable f.Tame :=
  inferInstanceAs (Decidable (∀ p ∈ f.patterns, _))

def Registry.Tame (r : Registry) : Prop := ∀ f ∈ r.functions, f.Tame

/-- No type is spelled with a quote. -/
def TypeMapping.Unquoted (m : TypeMapping) : Prop :=
  ∀ target, Text.singleQuote ∉ (m.castSpelling target).toList

/-- No type is spelled with a quote or with a character of a comment. -/
def TypeMapping.Tame (m : TypeMapping) : Prop :=
  ∀ target, Script.Neutral true (m.castSpelling target)

namespace SqlFunction

theorem postgres_tame : ∀ f ∈ postgres, f.Tame := by decide +kernel

theorem spanner_tame : ∀ f ∈ spanner, f.Tame := by decide +kernel

end SqlFunction

namespace Registry

theorem postgres_tame : postgres.Tame := forall_postgres SqlFunction.postgres_tame

theorem spanner_tame : spanner.Tame :=
  forall_spanner SqlFunction.postgres_tame SqlFunction.spanner_tame

end Registry

namespace TypeMapping

theorem Tame.unquoted {m : TypeMapping} (h : m.Tame) : m.Unquoted := fun target =>
  (h target).not_mem

theorem postgres_tame : postgres.Tame := fun target c hc =>
  Mark.isNeutral_of_class rfl (isSpellingChar_postgres target c hc)

theorem spanner_tame (timestamptzForTime : Bool) : (spanner timestamptzForTime).Tame :=
  fun target c hc =>
    Mark.isNeutral_of_class rfl (isSpellingChar_spanner timestamptzForTime target c hc)

end TypeMapping

end SqlBackend
