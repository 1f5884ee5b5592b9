/-! # Splitting at a separator

A text with `n` separators has `n + 1` parts, of which some may be empty.
-/

namespace SqlBackend.Text

/-- The parts between the separators. -/
def split (separator : Char) : List Char → List (List Char)
  | [] => [[]]
  | c :: rest =>
      if c = separator then [] :: split separator rest
      else match split separator rest with
        | [] => [[c]]
        | first :: others => (c :: first) :: others

theorem split_ne_nil (separator : Char) (chars : List Char) : split separator chars ≠ [] := by
  cases chars with
  | nil => simp [split]
  | cons c rest =>
    simp only [split]
    split
    · simp
    · split <;> simp

end SqlBackend.Text
