/-! # Quoted text

A quoted text stands between two marks, and a mark inside it is written twice.
Reading one back gives the text and what follows the closing mark, so no text
between the marks can end the quotation early.
-/

namespace SqlBackend.Text

/-- The mark around string literals. -/
def singleQuote : Char := Char.ofNat 0x27

/-- The mark around identifiers. -/
def doubleQuote : Char := Char.ofNat 0x22

/-- Writes every `mark` twice and all other characters once. -/
def doubleMarks (mark : Char) : List Char → List Char
  | [] => []
  | c :: rest => if c = mark then mark :: mark :: doubleMarks mark rest
      else c :: doubleMarks mark rest

/-- The text with every `mark` written twice. -/
def doubled (mark : Char) (text : String) : String :=
  String.ofList (doubleMarks mark text.toList)

/-- The text as an SQL string literal. -/
def literal (text : String) : String :=
  "'" ++ doubled singleQuote text ++ "'"

/-- Reads on in a quotation. With `atMark` the character before was a mark, which
closes the quotation unless a second one follows. -/
def readQuotedFrom (mark : Char) : (atMark : Bool) → List Char → Option (List Char × List Char)
  | false, [] => none
  | true, [] => some ([], [])
  | false, c :: rest =>
      if c = mark then readQuotedFrom mark true rest
      else (readQuotedFrom mark false rest).map fun read => (c :: read.1, read.2)
  | true, c :: rest =>
      if c = mark then (readQuotedFrom mark false rest).map fun read => (mark :: read.1, read.2)
      else some ([], c :: rest)

/-- Reads up to the mark that closes a quotation: the text before it, with
doubled marks read as one, and what follows. Fails if no mark closes it. -/
def readQuoted (mark : Char) (chars : List Char) : Option (List Char × List Char) :=
  readQuotedFrom mark false chars

theorem toList_doubled (mark : Char) (text : String) :
    (doubled mark text).toList = doubleMarks mark text.toList := by
  simp [doubled]

/-- Whatever the text, reading stops at the mark that was put behind it, unless
the text that follows starts with another mark. -/
theorem readQuoted_doubleMarks (mark : Char) (text rest : List Char)
    (hrest : rest.head? ≠ some mark) :
    readQuoted mark (doubleMarks mark text ++ mark :: rest) = some (text, rest) := by
  rw [readQuoted]
  induction text with
  | nil =>
    cases rest with
    | nil => simp [doubleMarks, readQuotedFrom]
    | cons d after =>
      have hd : d ≠ mark := by simpa using hrest
      simp [doubleMarks, readQuotedFrom, hd]
  | cons c text ih => by_cases h : c = mark <;> simp [doubleMarks, readQuotedFrom, h, ih]

end SqlBackend.Text
