import Mathlib.Data.List.TakeWhile
import SqlBackend.Text.Blank
import SqlBackend.Text.Split

/-! # Parts of a text and blanks around them

A text is cut at a separator into parts without one, which make the text again with a
separator between each two of them. Blanks around a text do not matter where it is trimmed,
and where it is cut they are blanks around its first and its last part.
-/

namespace SqlBackend.Text

variable {separator : Char} {core chars : List Char} {parts : List (List Char)}

theorem split_eq_splitOn (separator : Char) (chars : List Char) :
    split separator chars = chars.splitOn separator := by
  induction chars with
  | nil => rfl
  | cons c rest ih =>
      rw [split, List.splitOn_cons_eq_if_modifyHead, ih]
      obtain ⟨first, others, hparts⟩ :=
        List.exists_cons_of_ne_nil (List.splitOn_ne_nil separator rest)
      simp [hparts]

/-- Text without separators in front of another text belongs to its first part. -/
theorem split_append {word : List Char} (hword : separator ∉ word) (rest : List Char) :
    split separator (word ++ rest) = (split separator rest).modifyHead (word ++ ·) := by
  obtain ⟨first, others, hparts⟩ := List.exists_cons_of_ne_nil (split_ne_nil separator rest)
  rw [hparts, List.modifyHead_cons]
  induction word with
  | nil => exact hparts
  | cons c word ih =>
      obtain ⟨hc, hword⟩ := not_or.mp (mt List.mem_cons.mpr hword)
      rw [List.cons_append, split, if_neg (Ne.symm hc), ih hword]
      rfl

/-- Text without separators behind another text belongs to its last part. -/
theorem exists_split_append (chars : List Char) {word : List Char} (hword : separator ∉ word) :
    ∃ init last, split separator chars = init ++ [last] ∧
      split separator (chars ++ word) = init ++ [last ++ word] := by
  induction chars with
  | nil =>
      refine ⟨[], [], rfl, ?_⟩
      rw [split_eq_splitOn]
      exact List.splitOn_eq_singleton hword
  | cons c rest ih =>
      obtain ⟨init, last, hrest, happend⟩ := ih
      by_cases hc : c = separator
      · exact ⟨[] :: init, last, by simp [split, hc, hrest], by simp [split, hc, happend]⟩
      · cases init with
        | nil => exact ⟨[], c :: last, by simp [split, hc, hrest], by simp [split, hc, happend]⟩
        | cons first others =>
            exact ⟨(c :: first) :: others, last, by simp [split, hc, hrest],
              by simp [split, hc, happend]⟩

theorem not_mem_of_mem_split {part : List Char} (h : part ∈ split separator chars) :
    separator ∉ part := by
  induction chars generalizing part with
  | nil => simp_all [split]
  | cons c rest ih =>
      obtain ⟨first, others, hparts⟩ := List.exists_cons_of_ne_nil (split_ne_nil separator rest)
      rw [hparts] at ih
      obtain ⟨hfirst, hothers⟩ := List.forall_mem_cons.mp fun part hpart => @ih part hpart
      rw [split, hparts] at h
      split at h
      next =>
        rcases List.mem_cons.mp h with rfl | h
        · exact List.not_mem_nil
        · exact ih h
      next hc =>
        rcases List.mem_cons.mp h with rfl | h
        · exact mt List.mem_cons.mp (not_or.mpr ⟨Ne.symm hc, hfirst⟩)
        · exact hothers part h

/-- The parts are the texts without separators that make the text with a separator between
each two of them. -/
theorem split_eq_iff :
    split separator chars = parts ↔
      parts ≠ [] ∧ (∀ part ∈ parts, separator ∉ part) ∧ chars = [separator].intercalate parts := by
  constructor
  · rintro rfl
    refine ⟨split_ne_nil separator chars, fun part => not_mem_of_mem_split, ?_⟩
    rw [split_eq_splitOn, List.intercalate_splitOn]
  · rintro ⟨hparts, hseparator, rfl⟩
    rw [split_eq_splitOn, List.splitOn_intercalate separator hseparator hparts]

/-- The characters are those of `core` with nothing but blanks around them. -/
def Padded (core chars : List Char) : Prop :=
  ∃ before after, chars = before ++ core ++ after ∧
    (∀ c ∈ before, isBlank c = true) ∧ ∀ c ∈ after, isBlank c = true

theorem padded_self (core : List Char) : Padded core core :=
  ⟨[], [], by simp, nofun, nofun⟩

/-- Trimming drops blanks only. -/
theorem padded_trimChars (chars : List Char) : Padded (trimChars chars) chars := by
  let rest := chars.dropWhile isBlank
  refine ⟨chars.takeWhile isBlank, (rest.reverse.takeWhile isBlank).reverse, ?_,
    fun c hc => List.mem_takeWhile_imp hc, fun c hc => List.mem_takeWhile_imp (List.mem_reverse.mp hc)⟩
  have hrest : trimChars chars ++ (rest.reverse.takeWhile isBlank).reverse = rest := by
    rw [trimChars, ← List.reverse_append, List.takeWhile_append_dropWhile, List.reverse_reverse]
  rw [List.append_assoc, hrest, List.takeWhile_append_dropWhile]

theorem padded_trim (text : String) : Padded (trim text).toList text.toList := by
  rw [toList_trim]
  exact padded_trimChars text.toList

/-- Blanks around a text do not matter where it is trimmed. -/
theorem Padded.trimChars_eq (h : Padded core chars) : trimChars chars = trimChars core := by
  obtain ⟨before, after, rfl, hbefore, hafter⟩ := h
  have hfront : (before ++ (core ++ after)).dropWhile isBlank = (core ++ after).dropWhile isBlank :=
    List.dropWhile_append_of_pos hbefore
  rw [trimChars, trimChars, List.append_assoc, hfront, List.dropWhile_append]
  split
  next hcore =>
    rw [List.isEmpty_iff.mp hcore, List.dropWhile_eq_nil_iff.mpr hafter]
  next =>
    rw [List.reverse_append,
      List.dropWhile_append_of_pos fun c hc => hafter c (List.mem_reverse.mp hc)]

/-- A text without blanks is what is left when the blanks around it are dropped. -/
theorem Padded.trimChars_eq_self (h : Padded core chars) (hcore : ∀ c ∈ core, isBlank c = false) :
    trimChars chars = core :=
  h.trimChars_eq.trans <| trimChars_of_ends
    (fun c hc => hcore c (List.mem_of_head? hc)) fun c hc => hcore c (List.mem_of_getLast? hc)

/-- Blanks around a text are blanks around its first and its last part. -/
theorem Padded.map_trimChars_split (h : Padded core chars) (hseparator : isBlank separator = false) :
    (split separator chars).map trimChars = (split separator core).map trimChars := by
  obtain ⟨before, after, rfl, hbefore, hafter⟩ := h
  have hnot : ∀ blanks : List Char, (∀ c ∈ blanks, isBlank c = true) → separator ∉ blanks := by
    intro blanks hblanks hmem
    exact Bool.false_ne_true (hseparator.symm.trans (hblanks separator hmem))
  obtain ⟨init, last, hcore, hchars⟩ := exists_split_append (before ++ core) (hnot after hafter)
  obtain ⟨first, others, hparts⟩ := List.exists_cons_of_ne_nil (split_ne_nil separator core)
  have hlast : trimChars (last ++ after) = trimChars last :=
    Padded.trimChars_eq ⟨[], after, rfl, nofun, hafter⟩
  have hfirst : trimChars (before ++ first) = trimChars first :=
    Padded.trimChars_eq ⟨before, [], (List.append_nil _).symm, hbefore, nofun⟩
  calc
    (split separator (before ++ core ++ after)).map trimChars =
        (split separator (before ++ core)).map trimChars := by
      rw [hchars, hcore, List.map_append, List.map_append, List.map_singleton, hlast,
        List.map_singleton]
    _ = (split separator core).map trimChars := by
      rw [split_append (hnot before hbefore), hparts, List.modifyHead_cons, List.map_cons, hfirst,
        List.map_cons]

end SqlBackend.Text
