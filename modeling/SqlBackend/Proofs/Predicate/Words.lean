import SqlBackend.Proofs.Predicate.Reading
import SqlBackend.Render.RowPredicate

/-! # Words of formulas

A formula over rendered operands is put into text in one go. The same text comes
out when the formula is first put into words, whose operands may be anything
that has a text. The conditions on rows do not look at their operands, so they
are the same condition over any kind of them.
-/

namespace SqlBackend

namespace Formula

variable {ι κ : Type}

mutual

/-- The words of a formula. -/
def tokens : Formula ι → List (Token ι)
  | comparison op left right => [.operand left, .comparison op, .operand right]
  | isNull operand => [.operand operand, .isNull]
  | negation inner => .negation :: tokens inner
  | all parts => Token.joined .and (tokensOf parts)
  | any parts => Token.joined .or (tokensOf parts)
  | group inner => .opening :: (tokens inner ++ [.closing])
  | isTrue condition negated =>
      .caseWhen :: (tokens condition ++ [.caseThen, .number 0, .caseElse, .number 1, .caseEnd,
        .comparison .eq, .number (if negated then 1 else 0)])

def tokensOf : List (Formula ι) → List (List (Token ι))
  | [] => []
  | part :: rest => tokens part :: tokensOf rest

end

mutual

/-- The formula over other operands. -/
def map (g : ι → κ) : Formula ι → Formula κ
  | comparison op left right => comparison op (g left) (g right)
  | isNull operand => isNull (g operand)
  | negation inner => negation (map g inner)
  | all parts => all (mapAll g parts)
  | any parts => any (mapAll g parts)
  | group inner => group (map g inner)
  | isTrue condition negated => isTrue (map g condition) negated

def mapAll (g : ι → κ) : List (Formula ι) → List (Formula κ)
  | [] => []
  | part :: rest => map g part :: mapAll g rest

end

theorem tokensOf_eq_map (parts : List (Formula ι)) : tokensOf parts = parts.map tokens := by
  induction parts with
  | nil => rfl
  | cons part rest ih => rw [tokensOf, ih, List.map_cons]

theorem mapAll_eq_map (g : ι → κ) (parts : List (Formula ι)) :
    mapAll g parts = parts.map (map g) := by
  induction parts with
  | nil => rfl
  | cons part rest ih => rw [mapAll, ih, List.map_cons]

/-- A connective between parts is a separator between their texts. -/
theorem texts_joined (text : ι → Fragment) {c : Connective} {separator : String}
    (hc : (Token.connective c : Token ι).text text = .ofText separator)
    (parts : List (List (Token ι))) :
    Token.texts text (Token.joined c parts) =
      Fragment.joined separator (parts.map (Token.texts text)) := by
  induction parts with
  | nil => rfl
  | cons part rest ih =>
      cases rest with
      | nil => rfl
      | cons next rest =>
          rw [Token.joined, Token.texts_append, Token.texts_cons, ih, hc, ← Fragment.append_assoc]
          rfl

mutual

/-- The text of a formula is that of its words. -/
theorem fragment_map (text : ι → Fragment) :
    ∀ f : Formula ι, (f.map text).fragment = Token.texts text f.tokens
  | comparison op left right => by
      simp [map, fragment, tokens, Token.texts, Token.text, Fragment.append_assoc]
  | isNull operand => by simp [map, fragment, tokens, Token.texts, Token.text]
  | negation inner => by
      rw [map, fragment, fragment_map text inner, tokens, Token.texts_cons]
      rfl
  | all parts => by
      rw [map, fragment, fragments_mapAll text parts, tokens, texts_joined text rfl]
  | any parts => by
      rw [map, fragment, fragments_mapAll text parts, tokens, texts_joined text rfl]
  | group inner => by
      rw [map, fragment, fragment_map text inner, tokens, Token.texts_cons, Token.texts_append,
        ← Fragment.append_assoc]
      rfl
  | isTrue condition negated => by
      rw [map, fragment, fragment_map text condition, tokens, Token.texts_cons,
        Token.texts_append, ← Fragment.append_assoc]
      cases negated <;> rfl

theorem fragments_mapAll (text : ι → Fragment) :
    ∀ parts : List (Formula ι),
      fragments (mapAll text parts) = (tokensOf parts).map (Token.texts text)
  | [] => rfl
  | part :: rest => by
      rw [mapAll, fragments, fragment_map text part, fragments_mapAll text rest, tokensOf,
        List.map_cons]

end

end Formula

namespace RowPredicate

variable {ι κ : Type} (g : ι → κ) {pairs : List (ι × ι)}

theorem map_equal : (equal pairs).map g = equal (pairs.map (Prod.map g g)) := by
  simp [equal, Formula.map, Formula.mapAll_eq_map, Function.comp_def]

theorem map_different : (different pairs).map g = different (pairs.map (Prod.map g g)) := by
  simp [different, Formula.map, Formula.mapAll_eq_map, Function.comp_def]

theorem map_lexicographic (op : BinaryOp) :
    (lexicographic op pairs).map g = lexicographic op (pairs.map (Prod.map g g)) := by
  induction pairs with
  | nil => rfl
  | cons p rest ih =>
      cases rest with
      | nil => rfl
      | cons q rest =>
          -- Whether parentheses are written depends on the number of pairs only.
          rw [List.map_cons] at ih
          rw [lexicographic, List.map_cons, List.map_cons, lexicographic, ← ih]
          cases rest <;> rfl

theorem map_comparison (op : BinaryOp) :
    (comparison op pairs).map g = comparison op (pairs.map (Prod.map g g)) := by
  unfold comparison
  split
  · exact map_equal g
  · exact map_different g
  · rw [Formula.map, map_lexicographic]

theorem map_member (row : List ι) (candidates : List (List ι)) (negated : Bool) :
    (member row candidates negated).map g =
      member (row.map g) (candidates.map (List.map g)) negated := by
  have hfound : ∀ c : List ι, (equal (row.zip c)).map g = equal ((row.map g).zip (c.map g)) := by
    intro c
    rw [map_equal, List.zip_map]
  cases negated <;>
    simp [member, Formula.map, Formula.mapAll_eq_map, Function.comp_def, hfound]

theorem map_distinct (left right : ι) (negated : Bool) :
    (distinct left right negated).map g = distinct (g left) (g right) negated := rfl

end RowPredicate

end SqlBackend
