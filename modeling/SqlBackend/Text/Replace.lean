/-! # Searching and replacing

Occurrences are found from left to right and do not overlap. The text that is
put in their place is not searched again. An empty pattern occurs before every
character and once more at the end.
-/

namespace SqlBackend.Text

/-- Whether `part` occurs somewhere in the characters. -/
def occurs (part : List Char) : List Char → Bool
  | [] => part.isEmpty
  | c :: rest => part.isPrefixOf (c :: rest) || occurs part rest

/-- Whether `part` occurs somewhere in `text`. -/
def contains (text part : String) : Bool :=
  occurs part.toList text.toList

/-- Replaces a non-empty pattern. The number counts the characters still
covered by the occurrence found last. -/
def replaceFrom (pattern replacement : List Char) : Nat → List Char → List Char
  | _, [] => []
  | 0, c :: rest =>
      if pattern.isPrefixOf (c :: rest) then
        replacement ++ replaceFrom pattern replacement (pattern.length - 1) rest
      else
        c :: replaceFrom pattern replacement 0 rest
  | covered + 1, _ :: rest => replaceFrom pattern replacement covered rest

/-- Replaces every occurrence of `pattern` in a list of characters. -/
def replaceChars (pattern replacement chars : List Char) : List Char :=
  if pattern.isEmpty then
    chars.flatMap (fun c => replacement ++ [c]) ++ replacement
  else
    replaceFrom pattern replacement 0 chars

/-- Replaces every occurrence of `pattern` in `text`. -/
def replace (text pattern replacement : String) : String :=
  String.ofList (replaceChars pattern.toList replacement.toList text.toList)

theorem toList_replace (text pattern replacement : String) :
    (replace text pattern replacement).toList =
      replaceChars pattern.toList replacement.toList text.toList := by
  simp [replace]

/-- The search finds exactly the contiguous parts. -/
theorem occurs_iff {part chars : List Char} : occurs part chars = true ↔ part <:+: chars := by
  induction chars with
  | nil => simp [occurs]
  | cons c rest ih => simp [occurs, ih, List.infix_cons_iff]

theorem mem_of_mem_replaceFrom {pattern replacement chars : List Char} {covered : Nat} {c : Char}
    (h : c ∈ replaceFrom pattern replacement covered chars) : c ∈ chars ∨ c ∈ replacement := by
  induction chars generalizing covered with
  | nil => simp [replaceFrom] at h
  | cons d rest ih =>
    cases covered with
    | zero =>
      simp only [replaceFrom] at h
      split at h
      · rcases List.mem_append.mp h with h | h
        · exact .inr h
        · exact (ih h).imp_left (List.mem_cons_of_mem d)
      · rcases List.mem_cons.mp h with rfl | h
        · exact .inl List.mem_cons_self
        · exact (ih h).imp_left (List.mem_cons_of_mem d)
    | succ covered => exact (ih h).imp_left (List.mem_cons_of_mem d)

/-- Replacing brings in nothing but the replacement. -/
theorem mem_of_mem_replace {text pattern replacement : String} {c : Char}
    (h : c ∈ (replace text pattern replacement).toList) :
    c ∈ text.toList ∨ c ∈ replacement.toList := by
  rw [toList_replace, replaceChars] at h
  split at h
  · rcases List.mem_append.mp h with h | h
    · obtain ⟨d, hd, hc⟩ := List.mem_flatMap.mp h
      rcases List.mem_append.mp hc with hc | hc
      · exact .inr hc
      · rw [List.mem_singleton.mp hc]
        exact .inl hd
    · exact .inr h
  · exact mem_of_mem_replaceFrom h

end SqlBackend.Text
