/-! # Blank characters

The blanks are the characters with the Unicode property `White_Space`. Settings
and version components are read after removing them from both ends.
-/

namespace SqlBackend.Text

/-- The code points with the Unicode property `White_Space`, as closed ranges. -/
def blankRanges : List (Nat × Nat) :=
  [(0x09, 0x0D), (0x20, 0x20), (0x85, 0x85), (0xA0, 0xA0), (0x1680, 0x1680), (0x2000, 0x200A),
   (0x2028, 0x2029), (0x202F, 0x202F), (0x205F, 0x205F), (0x3000, 0x3000)]

def isBlank (c : Char) : Bool :=
  blankRanges.any fun range => range.1 ≤ c.toNat && c.toNat ≤ range.2

/-- Drops the blanks at both ends of a list of characters. -/
def trimChars (chars : List Char) : List Char :=
  ((chars.dropWhile isBlank).reverse.dropWhile isBlank).reverse

/-- Drops the blanks at both ends. -/
def trim (text : String) : String :=
  String.ofList (trimChars text.toList)

theorem toList_trim (text : String) : (trim text).toList = trimChars text.toList := by
  simp [trim]

/-- A text between non-blank ends is already trimmed. -/
theorem trimChars_of_ends {chars : List Char} (hfirst : ∀ c ∈ chars.head?, isBlank c = false)
    (hlast : ∀ c ∈ chars.getLast?, isBlank c = false) : trimChars chars = chars := by
  have hdrop : chars.dropWhile isBlank = chars := by
    cases chars with
    | nil => rfl
    | cons c rest => simp [hfirst c (by simp)]
  have hreverse : chars.reverse.dropWhile isBlank = chars.reverse := by
    cases h : chars.reverse with
    | nil => rfl
    | cons c rest =>
      have hc : isBlank c = false := hlast c (by simp [← List.head?_reverse, h])
      simp [hc]
  rw [trimChars, hdrop, hreverse, List.reverse_reverse]

end SqlBackend.Text
