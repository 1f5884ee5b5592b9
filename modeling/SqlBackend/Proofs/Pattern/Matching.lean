import Mathlib.Data.List.Forall2
import Mathlib.Data.List.Infix
import SqlBackend.Text.Quoted
import SqlBackend.Text.Replace

/-! # What a pattern matches

In a pattern a percent sign stands for any characters and an underscore for one.
A backend may have an escape character, behind which every character stands for
itself. Where that is the backslash, a pattern keeps its meaning if its backslashes
are doubled.
-/

namespace SqlBackend

namespace Pattern

/-- A part of a pattern. -/
inductive Part where
  | char (c : Char)
  /-- Any one character. -/
  | one
  /-- Any characters, or none. -/
  | any
deriving DecidableEq, Repr

/-- What a character stands for that is not escaped. -/
def Part.ofChar (c : Char) : Part :=
  if c = '%' then any else if c = '_' then one else char c

/-- Reads a pattern. Fails where it ends in an escape character that escapes nothing. -/
def read (escape : Option Char) : List Char → Option (List Part)
  | [] => some []
  | [c] => if escape = some c then none else some [.ofChar c]
  | c :: d :: rest =>
      if escape = some c then (read escape rest).map (.char d :: ·)
      else (read escape (d :: rest)).map (.ofChar c :: ·)

/-- Whether a text is made of what the parts stand for. -/
def fits : List Part → List Char → Bool
  | [], text => text.isEmpty
  | .char c :: parts, text => text.head? = some c && fits parts text.tail
  | .one :: parts, text => !text.isEmpty && fits parts text.tail
  | .any :: parts, text => text.tails.any (fits parts)

/-- Whether a text matches a pattern, if the pattern can be read. -/
def matches? (escape : Option Char) (pattern text : String) : Option Bool :=
  (read escape pattern.toList).map fun parts => fits parts text.toList

example : matches? none "_\\%" "c:\\dir" = some false := by decide

example : matches? (some '\\') "_\\%" "c%" = some true := by decide

example : matches? (some '\\') "c:\\" "c:" = none := by decide

/-- What a part of a pattern stands for. -/
def Part.StandsFor : Part → List Char → Prop
  | char c, text => text = [c]
  | one, text => text.length = 1
  | any, _ => True

/-- The first part takes a front of the text, and the others fit the rest. -/
theorem fits_cons_iff {part : Part} {parts : List Part} {text : List Char} :
    fits (part :: parts) text = true ↔
      ∃ front rest, front ++ rest = text ∧ part.StandsFor front ∧ fits parts rest = true := by
  cases part with
  | char c =>
      simp only [fits, Part.StandsFor, Bool.and_eq_true, decide_eq_true_eq]
      constructor
      · rintro ⟨hhead, hrest⟩
        obtain ⟨rest, rfl⟩ := List.head?_eq_some_iff.mp hhead
        exact ⟨[c], rest, rfl, rfl, hrest⟩
      · rintro ⟨_, rest, rfl, rfl, hrest⟩
        exact ⟨rfl, hrest⟩
  | one =>
      simp only [fits, Part.StandsFor, Bool.and_eq_true]
      constructor
      · rintro ⟨hnonempty, hrest⟩
        cases text with
        | nil => cases hnonempty
        | cons c rest => exact ⟨[c], rest, rfl, rfl, hrest⟩
      · rintro ⟨front, rest, rfl, hlength, hrest⟩
        obtain ⟨c, rfl⟩ := List.length_eq_one_iff.mp hlength
        exact ⟨rfl, hrest⟩
  | any =>
      simp only [fits, Part.StandsFor, List.any_eq_true, List.mem_tails]
      constructor
      · rintro ⟨rest, ⟨front, rfl⟩, hrest⟩
        exact ⟨front, rest, rfl, trivial, hrest⟩
      · rintro ⟨front, rest, rfl, _, hrest⟩
        exact ⟨rest, ⟨front, rfl⟩, hrest⟩

/-- A text fits exactly if it can be cut into what the parts stand for. -/
theorem fits_iff {parts : List Part} {text : List Char} :
    fits parts text = true ↔
      ∃ pieces, List.Forall₂ Part.StandsFor parts pieces ∧ pieces.flatten = text := by
  induction parts generalizing text with
  | nil =>
      rw [fits, List.isEmpty_iff]
      constructor
      · rintro rfl
        exact ⟨[], .nil, rfl⟩
      · rintro ⟨pieces, hpieces, rfl⟩
        cases hpieces
        rfl
  | cons part parts ih =>
      rw [fits_cons_iff]
      constructor
      · rintro ⟨front, rest, rfl, hstands, hrest⟩
        obtain ⟨pieces, hpieces, rfl⟩ := ih.mp hrest
        exact ⟨front :: pieces, .cons hstands hpieces, rfl⟩
      · rintro ⟨pieces, hpieces, rfl⟩
        cases hpieces with
        | cons hstands hpieces => exact ⟨_, _, rfl, hstands, ih.mpr ⟨_, hpieces, rfl⟩⟩

/-- Without an escape character every pattern can be read. -/
theorem read_none (chars : List Char) : read none chars = some (chars.map .ofChar) := by
  induction chars with
  | nil => rfl
  | cons c rest ih =>
      cases rest with
      | nil => rfl
      | cons d rest =>
          rw [read, if_neg nofun, ih]
          rfl

theorem matches?_none_iff (pattern text : String) :
    matches? none pattern text = some true ↔
      ∃ pieces, List.Forall₂ Part.StandsFor (pattern.toList.map .ofChar) pieces ∧
        pieces.flatten = text.toList := by
  rw [matches?, read_none, Option.map_some, Option.some_inj, fits_iff]

theorem read_escaped (e d : Char) (rest : List Char) :
    read (some e) (e :: d :: rest) = (read (some e) rest).map (.char d :: ·) := by
  rw [read, if_pos rfl]

theorem read_cons_of_ne {e c : Char} (h : c ≠ e) (rest : List Char) :
    read (some e) (c :: rest) = (read (some e) rest).map (.ofChar c :: ·) := by
  have hne : some e ≠ some c := fun heq => h (Option.some.inj heq).symm
  cases rest with
  | nil => simp [read, hne]
  | cons d rest => rw [read, if_neg hne]

/-- A doubled escape character stands for itself, and no other character is escaped. -/
theorem read_doubleMarks {e : Char} (he : Part.ofChar e = .char e) (chars : List Char) :
    read (some e) (Text.doubleMarks e chars) = some (chars.map .ofChar) := by
  induction chars with
  | nil => rfl
  | cons c rest ih =>
      by_cases hc : c = e
      · rw [Text.doubleMarks, if_pos hc, read_escaped, ih, Option.map_some, List.map_cons, hc, he]
      · rw [Text.doubleMarks, if_neg hc, read_cons_of_ne hc, ih, Option.map_some, List.map_cons]

/-- Doubling the escape character takes its effect away. -/
theorem matches?_doubled {e : Char} (he : Part.ofChar e = .char e) (pattern text : String) :
    matches? (some e) (Text.doubled e pattern) text = matches? none pattern text := by
  rw [matches?, matches?, Text.toList_doubled, read_doubleMarks he, read_none]

end Pattern

namespace Text

theorem replaceFrom_singleton (c : Char) (chars : List Char) :
    replaceFrom [c] [c, c] 0 chars = doubleMarks c chars := by
  induction chars with
  | nil => rfl
  | cons d rest ih =>
      by_cases hd : d = c
      · have hoccurs : [c].isPrefixOf (d :: rest) = true := by simp [hd]
        rw [replaceFrom, if_pos hoccurs, doubleMarks, if_pos hd, ← ih]
        rfl
      · have hother : ¬[c].isPrefixOf (d :: rest) = true := by simpa using fun h => hd h.symm
        rw [replaceFrom, if_neg hother, doubleMarks, if_neg hd, ih]

/-- Replacing a character by two of it doubles it. -/
theorem replace_singleton (c : Char) (value : String) :
    replace value (.ofList [c]) (.ofList [c, c]) = doubled c value := by
  have hnonempty : ¬[c].isEmpty = true := by simp
  rw [replace, String.toList_ofList, String.toList_ofList, replaceChars, if_neg hnonempty,
    replaceFrom_singleton, doubled]

end Text

end SqlBackend
