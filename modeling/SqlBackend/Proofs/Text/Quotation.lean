import SqlBackend.Text.Quoted

/-! # What a quotation says

Reading a quotation undoes the doubling of its marks and nothing else: a text is read off
exactly the quotation that has its marks doubled. Put between two marks as it is, a text is
read back if there is no mark in it, and only then.
-/

namespace SqlBackend.Text

variable {mark : Char} {chars text rest : List Char}

/-- Reads a quotation from its opening mark on. -/
def readQuotation (mark : Char) : List Char → Option (List Char × List Char)
  | [] => none
  | c :: rest => if c = mark then readQuoted mark rest else none

/-- A text without the mark has nothing to double. -/
theorem doubleMarks_eq_self (h : ∀ c ∈ chars, c ≠ mark) : doubleMarks mark chars = chars := by
  induction chars with
  | nil => rfl
  | cons c rest ih =>
      obtain ⟨hc, hrest⟩ := List.forall_mem_cons.mp h
      rw [doubleMarks, if_neg hc, ih hrest]

theorem length_doubleMarks (mark : Char) (chars : List Char) :
    (doubleMarks mark chars).length = chars.length + chars.count mark := by
  induction chars with
  | nil => rfl
  | cons c rest ih =>
      by_cases h : c = mark
      · simp [doubleMarks, h, ih]
        omega
      · simp [doubleMarks, h, ih]
        omega

/-- With a mark in it the text gets longer. -/
theorem doubleMarks_eq_self_iff : doubleMarks mark chars = chars ↔ mark ∉ chars := by
  constructor
  · intro h
    have hlength := congrArg List.length h
    rw [length_doubleMarks] at hlength
    exact List.count_eq_zero.mp (by omega)
  · exact fun h => doubleMarks_eq_self fun c hc heq => h (heq ▸ hc)

/-- The reader stops behind a text with its marks doubled. Where it has met a mark that it
has not yet read, that mark is in front of what is left. -/
theorem eq_of_readQuotedFrom {atMark : Bool}
    (h : readQuotedFrom mark atMark chars = some (text, rest)) :
    (if atMark then mark :: chars else chars) = doubleMarks mark text ++ mark :: rest ∧
      rest.head? ≠ some mark := by
  induction chars generalizing atMark text with
  | nil =>
      cases atMark with
      | false => cases h
      | true =>
          cases h
          exact ⟨rfl, nofun⟩
  | cons c chars ih =>
      cases atMark with
      | false =>
          by_cases hc : c = mark
          · rw [readQuotedFrom, if_pos hc] at h
            rw [hc]
            exact ih h
          · rw [readQuotedFrom, if_neg hc] at h
            obtain ⟨⟨read, left⟩, hread, heq⟩ := Option.map_eq_some_iff.mp h
            cases heq
            obtain ⟨hchars, hrest⟩ := ih hread
            refine ⟨?_, hrest⟩
            change c :: chars = doubleMarks mark (c :: read) ++ mark :: left
            rw [doubleMarks, if_neg hc]
            exact congrArg (c :: ·) hchars
      | true =>
          -- Another mark is the second half of a doubled one, and anything else makes the mark
          -- that has been met the closing one.
          by_cases hc : c = mark
          · rw [readQuotedFrom, if_pos hc] at h
            obtain ⟨⟨read, left⟩, hread, heq⟩ := Option.map_eq_some_iff.mp h
            cases heq
            obtain ⟨hchars, hrest⟩ := ih hread
            refine ⟨?_, hrest⟩
            change mark :: c :: chars = doubleMarks mark (mark :: read) ++ mark :: left
            rw [doubleMarks, if_pos rfl, hc]
            exact congrArg (mark :: mark :: ·) hchars
          · rw [readQuotedFrom, if_neg hc] at h
            cases h
            exact ⟨rfl, by simpa using hc⟩

theorem readQuoted_eq_some_iff :
    readQuoted mark chars = some (text, rest) ↔
      chars = doubleMarks mark text ++ mark :: rest ∧ rest.head? ≠ some mark := by
  constructor
  · exact fun h => eq_of_readQuotedFrom h
  · rintro ⟨rfl, hrest⟩
    exact readQuoted_doubleMarks mark text rest hrest

/-- Between two marks a text is read back as it is only if no mark is in it. -/
theorem readQuotation_iff (hrest : rest.head? ≠ some mark) :
    readQuotation mark (mark :: text ++ mark :: rest) = some (text, rest) ↔ mark ∉ text := by
  rw [List.cons_append, readQuotation, if_pos rfl, readQuoted_eq_some_iff, and_iff_left hrest,
    List.append_cancel_right_eq, eq_comm, doubleMarks_eq_self_iff]

end SqlBackend.Text
