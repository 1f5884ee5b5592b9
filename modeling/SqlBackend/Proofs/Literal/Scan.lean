import SqlBackend.Text.Quoted

/-! # Scanning for literals

How a backend finds the string literals in a text. A quote opens a literal, two
quotes inside it stand for one, and a single one closes it. A literal is read
back as it was written, unless another quote follows it.
-/

namespace SqlBackend

/-- A character outside literals, or a whole literal by its content. -/
inductive Piece where
  | char (c : Char)
  | literal (content : List Char)
deriving DecidableEq, Repr

namespace Piece

/-- Where a reader stands in a text. -/
inductive Place where
  | outside
  | inside (content : List Char)
  /-- Behind a quote in a literal, which closes it unless another one follows. -/
  | atQuote (content : List Char)

def scanFrom : Place → List Char → Option (List Piece)
  | .outside, [] => some []
  | .outside, c :: rest =>
      if c = Text.singleQuote then scanFrom (.inside []) rest
      else (scanFrom .outside rest).map (char c :: ·)
  | .inside _, [] => none
  | .inside content, c :: rest =>
      if c = Text.singleQuote then scanFrom (.atQuote content) rest
      else scanFrom (.inside (content ++ [c])) rest
  | .atQuote content, [] => some [literal content]
  | .atQuote content, c :: rest =>
      if c = Text.singleQuote then scanFrom (.inside (content ++ [c])) rest
      else (scanFrom .outside rest).map (literal content :: char c :: ·)

/-- The pieces of a text, unless it leaves a literal open. -/
def scan (text : String) : Option (List Piece) := scanFrom .outside text.toList

theorem scanFrom_doubleMarks (content text rest : List Char) :
    scanFrom (.inside content) (Text.doubleMarks Text.singleQuote text ++ rest) =
      scanFrom (.inside (content ++ text)) rest := by
  induction text generalizing content with
  | nil => simp [Text.doubleMarks]
  | cons c text ih =>
      by_cases hc : c = Text.singleQuote
      · simp [Text.doubleMarks, scanFrom, hc, ih]
      · simp [Text.doubleMarks, scanFrom, hc, ih]

/-- A literal ends where it was meant to if no other quote follows. -/
theorem scanFrom_atQuote (content : List Char) {rest : List Char}
    (h : rest.head? ≠ some Text.singleQuote) :
    scanFrom (.atQuote content) rest = (scanFrom .outside rest).map (literal content :: ·) := by
  cases rest with
  | nil => rfl
  | cons c rest =>
      have hc : c ≠ Text.singleQuote := by simpa using h
      simp only [scanFrom, if_neg hc, Option.map_map]
      rfl

theorem scanFrom_literal (text : String) {rest : List Char}
    (h : rest.head? ≠ some Text.singleQuote) :
    scanFrom .outside ((Text.literal text).toList ++ rest) =
      (scanFrom .outside rest).map (literal text.toList :: ·) := by
  have hquoted : (Text.literal text).toList ++ rest = Text.singleQuote ::
      (Text.doubleMarks Text.singleQuote text.toList ++ Text.singleQuote :: rest) := by
    have hquote : "'".toList = [Text.singleQuote] := rfl
    simp only [Text.literal, String.toList_append, Text.toList_doubled, hquote, List.append_assoc,
      List.cons_append, List.nil_append]
  rw [hquoted, scanFrom, if_pos rfl, scanFrom_doubleMarks, List.nil_append, scanFrom, if_pos rfl,
    scanFrom_atQuote _ h]

end Piece

end SqlBackend
