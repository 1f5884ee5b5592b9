import SqlBackend.Text.Replace

/-! # What a replacement leaves

The occurrences of a pattern cut a text into pieces, whatever is put in their place: the
text is its pieces with the pattern between them, and replacing puts something else there.
There is no pattern left in a piece.
-/

namespace SqlBackend.Text

/-- The pieces around the occurrences of a non-empty pattern. The number counts the
characters still covered by the occurrence found last. -/
def piecesFrom (pattern : List Char) : Nat → List Char → List (List Char)
  | _, [] => [[]]
  | 0, c :: rest =>
      if pattern.isPrefixOf (c :: rest) then [] :: piecesFrom pattern (pattern.length - 1) rest
      else (piecesFrom pattern 0 rest).modifyHead (c :: ·)
  | covered + 1, _ :: rest => piecesFrom pattern covered rest

/-- The pieces around the occurrences of a pattern. -/
def pieces (pattern chars : List Char) : List (List Char) :=
  if pattern.isEmpty then [] :: (chars.map ([·]) ++ [[]]) else piecesFrom pattern 0 chars

variable {pattern chars piece : List Char}

theorem piecesFrom_ne_nil (pattern : List Char) (covered : Nat) (chars : List Char) :
    piecesFrom pattern covered chars ≠ [] := by
  induction chars generalizing covered with
  | nil => exact List.cons_ne_nil _ _
  | cons c rest ih =>
      cases covered with
      | zero =>
          rw [piecesFrom]
          split
          · exact List.cons_ne_nil _ _
          · exact mt List.modifyHead_eq_nil_iff.mp (ih 0)
      | succ covered => exact ih covered

theorem intercalate_nil_cons (replacement : List Char) {parts : List (List Char)}
    (h : parts ≠ []) :
    replacement.intercalate ([] :: parts) = replacement ++ replacement.intercalate parts := by
  obtain ⟨part, rest, rfl⟩ := List.exists_cons_of_ne_nil h
  rw [List.intercalate_cons_cons, List.nil_append]

theorem intercalate_modifyHead (replacement : List Char) (c : Char) {parts : List (List Char)}
    (h : parts ≠ []) :
    replacement.intercalate (parts.modifyHead (c :: ·)) = c :: replacement.intercalate parts := by
  obtain ⟨part, rest, rfl⟩ := List.exists_cons_of_ne_nil h
  cases rest with
  | nil => simp
  | cons next others => simp [List.intercalate_cons_cons]

theorem replaceFrom_eq_intercalate (replacement : List Char) (covered : Nat) :
    replaceFrom pattern replacement covered chars =
      replacement.intercalate (piecesFrom pattern covered chars) := by
  induction chars generalizing covered with
  | nil => simp [replaceFrom, piecesFrom]
  | cons c rest ih =>
      cases covered with
      | zero =>
          rw [replaceFrom, piecesFrom]
          split
          · rw [ih, intercalate_nil_cons replacement (piecesFrom_ne_nil _ _ _)]
          · rw [ih, intercalate_modifyHead replacement c (piecesFrom_ne_nil _ _ _)]
      | succ covered => exact ih covered

/-- Replacing puts the replacement between the pieces. -/
theorem replaceChars_eq_intercalate (pattern replacement chars : List Char) :
    replaceChars pattern replacement chars = replacement.intercalate (pieces pattern chars) := by
  unfold replaceChars pieces
  split
  · rw [intercalate_nil_cons replacement (by simp)]
    induction chars with
    | nil => simp
    | cons c rest ih =>
        have hrest : rest.map ([·]) ++ [[]] ≠ [] := by simp
        obtain ⟨part, others, hcons⟩ := List.exists_cons_of_ne_nil hrest
        rw [List.flatMap_cons, List.map_cons, List.cons_append, hcons, List.intercalate_cons_cons,
          ← hcons, List.append_assoc, ih]
        simp
  · exact replaceFrom_eq_intercalate replacement 0

theorem replaceFrom_self (pattern : List Char) (hpattern : pattern ≠ []) (covered : Nat) :
    replaceFrom pattern pattern covered chars = chars.drop covered := by
  induction chars generalizing covered with
  | nil => simp [replaceFrom]
  | cons c rest ih =>
      cases covered with
      | zero =>
          rw [replaceFrom]
          split
          next hprefix =>
            -- What is put here is what the covered characters were.
            obtain ⟨after, hafter⟩ := List.isPrefixOf_iff_prefix.mp hprefix
            obtain ⟨p, others, rfl⟩ := List.exists_cons_of_ne_nil hpattern
            obtain ⟨rfl, rfl⟩ := List.cons.inj hafter
            rw [ih]
            simp
          next => rw [ih, List.drop_zero, List.drop_zero]
      | succ covered => exact ih covered

/-- The pieces with the pattern between them are the text itself. -/
theorem intercalate_pieces (pattern chars : List Char) :
    pattern.intercalate (pieces pattern chars) = chars := by
  rw [← replaceChars_eq_intercalate, replaceChars]
  split
  next hempty =>
    rw [List.isEmpty_iff.mp hempty]
    simp
  next hempty => exact replaceFrom_self pattern (mt List.isEmpty_iff.mpr hempty) 0

/-- A character where the pattern does not occur belongs to the first piece behind it. -/
theorem exists_piecesFrom_cons {c : Char} {rest : List Char}
    (h : ¬pattern.isPrefixOf (c :: rest) = true) :
    ∃ first others, piecesFrom pattern 0 rest = first :: others ∧
      piecesFrom pattern 0 (c :: rest) = (c :: first) :: others := by
  obtain ⟨first, others, hrest⟩ := List.exists_cons_of_ne_nil (piecesFrom_ne_nil pattern 0 rest)
  exact ⟨first, others, hrest, by rw [piecesFrom, if_neg h, hrest, List.modifyHead_cons]⟩

theorem prefix_of_head?_piecesFrom (covered : Nat)
    (h : (piecesFrom pattern covered chars).head? = some piece) : piece <+: chars.drop covered := by
  induction chars generalizing covered piece with
  | nil =>
      cases h
      exact List.nil_prefix
  | cons c rest ih =>
      cases covered with
      | zero =>
          by_cases hprefix : pattern.isPrefixOf (c :: rest) = true
          · rw [piecesFrom, if_pos hprefix] at h
            cases h
            exact List.nil_prefix
          · obtain ⟨first, others, hrest, hcons⟩ := exists_piecesFrom_cons hprefix
            rw [hcons] at h
            cases h
            exact List.cons_prefix_cons.mpr ⟨rfl, ih 0 (by rw [hrest, List.head?_cons])⟩
      | succ covered => exact ih covered h

theorem not_infix_of_mem_piecesFrom (hpattern : pattern ≠ []) {covered : Nat}
    (h : piece ∈ piecesFrom pattern covered chars) : ¬pattern <:+: piece := by
  induction chars generalizing covered piece with
  | nil =>
      rw [List.mem_singleton.mp h, List.infix_nil]
      exact hpattern
  | cons c rest ih =>
      cases covered with
      | zero =>
          by_cases hprefix : pattern.isPrefixOf (c :: rest) = true
          · rw [piecesFrom, if_pos hprefix] at h
            rcases List.mem_cons.mp h with rfl | h
            · rwa [List.infix_nil]
            · exact ih h
          · obtain ⟨first, others, hrest, hcons⟩ := exists_piecesFrom_cons hprefix
            have hfirst : first <+: rest :=
              prefix_of_head?_piecesFrom 0 (by rw [hrest, List.head?_cons])
            rw [hcons] at h
            rcases List.mem_cons.mp h with rfl | h
            · -- A pattern at the front of the piece would have been found in the text.
              rw [List.infix_cons_iff, not_or]
              refine ⟨fun hfront => hprefix (List.isPrefixOf_iff_prefix.mpr ?_), ?_⟩
              · exact hfront.trans (List.cons_prefix_cons.mpr ⟨rfl, hfirst⟩)
              · exact ih (hrest ▸ List.mem_cons_self)
            · exact ih (hrest ▸ List.mem_cons_of_mem first h)
      | succ covered => exact ih h

/-- No piece has the pattern in it. -/
theorem not_infix_of_mem_pieces (hpattern : pattern ≠ []) (h : piece ∈ pieces pattern chars) :
    ¬pattern <:+: piece := by
  rw [pieces, if_neg (mt List.isEmpty_iff.mp hpattern)] at h
  exact not_infix_of_mem_piecesFrom hpattern h

end SqlBackend.Text
