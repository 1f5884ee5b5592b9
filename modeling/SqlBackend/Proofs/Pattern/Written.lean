import SqlBackend.Proofs.Literal.Alike
import SqlBackend.Proofs.Literal.Scan
import SqlBackend.Proofs.Pattern.Matching
import SqlBackend.Render.Query

/-! # Patterns as they are written

By default the backslash escapes in a pattern. A pattern in which it is an ordinary
character is written with an empty escape character behind it, or with its backslashes
doubled: by the writer where it is a literal, and by a call where it is not.
-/

namespace SqlBackend

namespace Pattern

/-- The escape character of a pattern, by what stands behind it: a clause that names
one, or names none, and the backslash where there is no clause. -/
def escapeOf (behind : List Piece) : Option (Option Char) :=
  if behind.isEmpty then some (some '\\')
  else if behind.dropLast = " escape ".toList.map .char then
    match behind.getLast? with
    | some (.literal []) => some none
    | some (.literal [c]) => some (some c)
    | _ => none
  else none

/-- Whether a text matches what is written for a pattern: a literal, and perhaps an
escape character behind it. -/
def matchesWritten? (written text : String) : Option Bool :=
  match Piece.scan written with
  | some (.literal pattern :: behind) =>
      (escapeOf behind).bind fun escape => matches? escape (.ofList pattern) text
  | _ => none

/-- What a call of replace results in, by the value of its first argument and what is
written behind it: the text that is searched for and the one that is put in its place. -/
def replaced? (value written : String) : Option String :=
  match Piece.scan written with
  | some [.char ',', .literal old, .char ',', .literal new, .char ')'] =>
      some (Text.replace value (.ofList old) (.ofList new))
  | _ => none

end Pattern

namespace Piece

theorem scan_literal_append (text : String) {rest : String} {pieces : List Piece}
    (hquote : rest.toList.head? ≠ some Text.singleQuote) (h : scan rest = some pieces) :
    scan (Text.literal text ++ rest) = some (literal text.toList :: pieces) := by
  rw [scan] at h
  rw [scan, String.toList_append, scanFrom_literal text hquote, h, Option.map_some]

theorem scan_literal (text : String) : scan (Text.literal text) = some [literal text.toList] := by
  have hscan : scan (Text.literal text ++ "") = some [literal text.toList] :=
    scan_literal_append text nofun rfl
  rwa [String.append_empty] at hscan

/-- Characters that are no quotes are read one by one. -/
theorem scan_word_append {word rest : String} {pieces : List Piece}
    (hword : word.toList.all (· ≠ Text.singleQuote) = true) (h : scan rest = some pieces) :
    scan (word ++ rest) = some (word.toList.map char ++ pieces) := by
  rw [scan] at h
  rw [scan, String.toList_append]
  generalize word.toList = chars at hword
  induction chars with
  | nil => exact h
  | cons c chars ih =>
      rw [List.all_cons, Bool.and_eq_true, decide_eq_true_eq] at hword
      rw [List.cons_append, scanFrom, if_neg hword.1, ih hword.2]
      rfl

end Piece

namespace Pattern

/-- Behind a literal without a clause the backslash escapes. -/
theorem matchesWritten?_literal (pattern text : String) :
    matchesWritten? (Text.literal pattern) text = matches? (some '\\') pattern text := by
  rw [matchesWritten?, Piece.scan_literal]
  dsimp only
  rw [String.ofList_toList]
  rfl

/-- An empty escape character is none. -/
theorem matchesWritten?_escape (pattern text : String) :
    matchesWritten? (Text.literal pattern ++ " escape ''") text = matches? none pattern text := by
  have hscan : Piece.scan (Text.literal pattern ++ " escape ''") =
      some (.literal pattern.toList :: (" escape ".toList.map .char ++ [.literal []])) :=
    Piece.scan_literal_append pattern (by decide) rfl
  rw [matchesWritten?, hscan]
  dsimp only
  rw [String.ofList_toList]
  rfl

/-- A pattern without an escape character matches or does not, and so does the doubled
one where the backslash escapes. -/
theorem exists_matches (pattern text : String) :
    ∃ matched, matches? none pattern text = some matched ∧
      matches? (some '\\') (Text.doubled '\\' pattern) text = some matched := by
  have hread : matches? none pattern text =
      some (fits (pattern.toList.map .ofChar) text.toList) := by
    rw [matches?, read_none, Option.map_some]
  exact ⟨_, hread, (matches?_doubled rfl pattern text).trans hread⟩

end Pattern

namespace Rendering

/-- Two texts that are written one after the other are one text. -/
theorem emit_seq (a b : String) : (emit a >>= fun _ => emit b) = emit (a ++ b) := by
  ext1 before
  have houtput : before ++ Output.ofText a ++ Output.ofText b = before ++ Output.ofText (a ++ b) :=
    Output.append_assoc _ _ _
  exact congrArg (Prod.mk (Except.ok ())) houtput

end Rendering

open Rendering (emit)

namespace Like

variable {t : Translator} {l : Like}

theorem renderPattern_standard (ht : t.style = .standard) (hescape : l.escape = none) :
    l.renderPattern t = (do l.pattern.render t; emit " escape ''") := by
  have hclause : Translator.escapeClause none = emit " escape ''" :=
    Rendering.emit_seq " escape " "''"
  unfold renderPattern Translator.likePattern
  rw [ht, hescape, Expr.rendering?, hclause]

theorem renderPattern_reescaped (ht : t.style = .spanner .reescapeBackslash)
    (hescape : l.escape = none) :
    l.renderPattern t = Translator.reescaped l.pattern (l.pattern.render t) := by
  unfold renderPattern Translator.likePattern
  rw [ht, hescape, Expr.rendering?]

/-- Without an escape character a pattern means the same in both styles. For a literal
one style writes it as it is and switches escaping off behind it, while the other
doubles its backslashes, so that none escapes anything and none is left at the end. Any
other pattern goes through a call that doubles the backslashes of its value. A text
matches a pattern if it can be cut into what the characters of the pattern stand for. -/
theorem styles_match_alike (t t' : Translator) (ht : t.style = .spanner .reescapeBackslash)
    (ht' : t'.style = .standard) (l : Like) (hescape : l.escape = none) :
    (∀ pattern, l.pattern = .literal (.string pattern) →
      ∃ written written', l.renderPattern t = emit written ∧ l.renderPattern t' = emit written' ∧
        Piece.scan written = some [.literal (Text.doubled '\\' pattern).toList] ∧
        ∀ text, ∃ matched, Pattern.matches? none pattern text = some matched ∧
          Pattern.matchesWritten? written text = some matched ∧
          Pattern.matchesWritten? written' text = some matched) ∧
    (l.pattern.isString = false → l.pattern ≠ .literal .null →
      ∃ behind clause,
        l.renderPattern t = (do emit "replace("; l.pattern.render t; emit behind) ∧
        l.renderPattern t' = (do l.pattern.render t'; emit clause) ∧
        (Piece.scan clause).bind Pattern.escapeOf = some none ∧
        ∀ value, Pattern.replaced? value behind = some (Text.doubled '\\' value) ∧
          ∀ text, ∃ matched, Pattern.matches? none value text = some matched ∧
            Pattern.matches? (some '\\') (Text.doubled '\\' value) text = some matched) ∧
    ∀ pattern text, Pattern.matches? none pattern text = some true ↔
      ∃ pieces, List.Forall₂ Pattern.Part.StandsFor (pattern.toList.map .ofChar) pieces ∧
        pieces.flatten = text.toList := by
  refine ⟨?_, ?_, Pattern.matches?_none_iff⟩
  · intro pattern hpattern
    refine ⟨Text.literal (Text.doubled '\\' pattern), Text.literal pattern ++ " escape ''",
      ?_, ?_, Piece.scan_literal _, ?_⟩
    · rw [renderPattern_reescaped ht hescape, hpattern]
      rfl
    · rw [renderPattern_standard ht' hescape, hpattern, Expr.render]
      exact Rendering.emit_seq _ _
    · intro text
      rw [Pattern.matchesWritten?_literal, Pattern.matchesWritten?_escape]
      obtain ⟨matched, hnone, hdoubled⟩ := Pattern.exists_matches pattern text
      exact ⟨matched, hnone, hdoubled, hnone⟩
  · intro hstring hnull
    refine ⟨",'\\','\\\\')", " escape ''", ?_, renderPattern_standard ht' hescape, rfl, ?_⟩
    · rw [renderPattern_reescaped ht hescape]
      unfold Translator.reescaped
      split
      next value heq =>
        rw [heq] at hstring
        cases hstring
      next heq => exact absurd heq hnull
      next => rfl
    · intro value
      exact ⟨congrArg some (Text.replace_singleton '\\' value), Pattern.exists_matches value⟩

/-- A pattern with a quote and with backslashes, one of them before a wildcard, and a
pattern that is a parameter. -/
theorem styles_match_alike_backslash :
    let t := (Dialect.spanner {}).translator
    let t' := Dialect.postgres.translator
    let pattern := "c:\\d'ir\\%"
    let l : Like := ⟨.column none "a", .literal (.string pattern), none, false, true⟩
    let l' : Like := ⟨.column none "a", .parameter, none, false, true⟩
    t.style = .spanner .reescapeBackslash ∧ t'.style = .standard ∧
      l.pattern = .literal (.string pattern) ∧ l.escape = none ∧
      (∃ written written', l.renderPattern t = emit written ∧ l.renderPattern t' = emit written' ∧
        Piece.scan written = some [.literal (Text.doubled '\\' pattern).toList] ∧
        ∀ text, ∃ matched, Pattern.matches? none pattern text = some matched ∧
          Pattern.matchesWritten? written text = some matched ∧
          Pattern.matchesWritten? written' text = some matched) ∧
      l'.pattern.isString = false ∧ l'.pattern ≠ .literal .null ∧ l'.escape = none ∧
      ∃ behind clause,
        l'.renderPattern t = (do emit "replace("; l'.pattern.render t; emit behind) ∧
        l'.renderPattern t' = (do l'.pattern.render t'; emit clause) ∧
        (Piece.scan clause).bind Pattern.escapeOf = some none ∧
        ∀ value, Pattern.replaced? value behind = some (Text.doubled '\\' value) ∧
          ∀ text, ∃ matched, Pattern.matches? none value text = some matched ∧
            Pattern.matches? (some '\\') (Text.doubled '\\' value) text = some matched := by
  intro t t' pattern l l'
  refine ⟨rfl, rfl, rfl, rfl, ?_, rfl, nofun, rfl, ?_⟩
  · exact (styles_match_alike t t' rfl rfl l rfl).1 pattern rfl
  · exact (styles_match_alike t t' rfl rfl l' rfl).2.1 rfl nofun

end Like

end SqlBackend
