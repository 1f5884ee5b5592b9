import SqlBackend.Decimal.Numeral
import SqlBackend.Proofs.Decimal.Characters
import SqlBackend.Text.Blank

/-! # What a numeral says

A numeral is digits behind an optional plus sign, and it says their value. Exactly the
numerals of values below `2 ^ 32` are read: further digits never make a value smaller, so one
that gets too large on the way is too large in the end.
-/

namespace SqlBackend.Decimal

variable {chars : List Char} {n value : Nat}

/-- The characters are digits of value `n`, of which there is one at least, behind an optional
plus sign. -/
def IsNumeral (chars : List Char) (n : Nat) : Prop :=
  ∃ sign digits, (sign = [] ∨ sign = ['+']) ∧ chars = sign ++ digits ∧ digits ≠ [] ∧
    (∀ c ∈ digits, c.isDigit = true) ∧ n = Nat.ofDigitChars 10 digits 0

theorem le_ofDigitChars (chars : List Char) (value : Nat) :
    value ≤ Nat.ofDigitChars 10 chars value := by
  rw [Nat.ofDigitChars_eq_ofDigitChars_zero]
  have hpower : 0 < 10 ^ chars.length := Nat.pow_pos (by decide)
  exact Nat.le_add_right_of_le (Nat.le_mul_of_pos_left value hpower)

theorem readDigits_eq_ok_iff (hvalue : value < UInt32.size) :
    readDigits value chars = .ok n ↔
      (∀ c ∈ chars, c.isDigit = true) ∧ n = Nat.ofDigitChars 10 chars value ∧ n < UInt32.size := by
  induction chars generalizing value with
  | nil =>
      simp only [readDigits, Except.ok.injEq, Nat.ofDigitChars_nil]
      constructor
      · rintro rfl
        exact ⟨List.forall_mem_nil _, rfl, hvalue⟩
      · exact fun h => h.2.1.symm
  | cons c rest ih =>
      have hnext : Nat.ofDigitChars 10 (c :: rest) value =
          Nat.ofDigitChars 10 rest (10 * value + digitValue c) := Nat.ofDigitChars_cons
      simp only [readDigits, List.forall_mem_cons, hnext]
      by_cases hc : c.isDigit = true
      · rw [if_pos hc]
        split
        next hlt => rw [ih hlt, and_iff_right hc]
        next hlarge =>
          refine iff_of_false (by simp) ?_
          rintro ⟨_, rfl, hn⟩
          exact hlarge (Nat.lt_of_le_of_lt (le_ofDigitChars rest _) hn)
      · rw [if_neg hc]
        exact iff_of_false (by simp) fun h => hc h.1.1

theorem isNumeral_plus_iff {digits : List Char} :
    IsNumeral ('+' :: digits) n ↔
      digits ≠ [] ∧ (∀ c ∈ digits, c.isDigit = true) ∧ n = Nat.ofDigitChars 10 digits 0 := by
  constructor
  · rintro ⟨sign, rest, rfl | rfl, hchars, hne, hdigits, hn⟩
    · rw [List.nil_append] at hchars
      rw [← hchars] at hdigits
      exact absurd (hdigits '+' List.mem_cons_self) (by decide)
    · cases hchars
      exact ⟨hne, hdigits, hn⟩
  · exact fun h => ⟨['+'], digits, .inr rfl, rfl, h⟩

theorem isNumeral_unsigned_iff {c : Char} {rest : List Char} (hc : c ≠ '+') :
    IsNumeral (c :: rest) n ↔
      (∀ d ∈ c :: rest, d.isDigit = true) ∧ n = Nat.ofDigitChars 10 (c :: rest) 0 := by
  constructor
  · rintro ⟨sign, digits, rfl | rfl, hchars, _, hdigits, hn⟩
    · rw [List.nil_append] at hchars
      rw [hchars]
      exact ⟨hdigits, hn⟩
    · exact absurd (List.cons.inj hchars).1 hc
  · exact fun h => ⟨[], c :: rest, .inl rfl, rfl, List.cons_ne_nil c rest, h⟩

/-- Exactly the numerals below `2 ^ 32` are read. -/
theorem readNumeral_eq_ok_iff :
    readNumeral chars = .ok n ↔ IsNumeral chars n ∧ n < UInt32.size := by
  have hzero : 0 < UInt32.size := by decide
  unfold readNumeral
  split
  next =>
    refine iff_of_false nofun ?_
    rintro ⟨⟨sign, digits, _, hchars, hne, _⟩, _⟩
    exact hne (List.append_eq_nil_iff.mp hchars.symm).2
  next =>
    refine iff_of_false nofun ?_
    rw [isNumeral_plus_iff]
    exact fun h => h.1.1 rfl
  next digits hne =>
    have hdigits : digits ≠ [] := hne
    rw [readDigits_eq_ok_iff hzero, isNumeral_plus_iff, and_iff_right hdigits, and_assoc]
  next hempty hplus hsigned =>
    obtain ⟨c, rest, rfl⟩ := List.exists_cons_of_ne_nil hempty
    have hc : c ≠ '+' := fun h => hsigned rest (congrArg (· :: rest) h)
    rw [readDigits_eq_ok_iff hzero, isNumeral_unsigned_iff hc, and_assoc]

/-- A number is written as a numeral. -/
theorem isNumeral_toString (n : Nat) : IsNumeral (toString n).toList n := by
  refine ⟨[], (toString n).toList, .inl rfl, rfl, ?_, fun c hc => isDigit_of_mem_toString hc, ?_⟩
  · rw [Nat.toString_eq_repr, Nat.toList_repr]
    exact Nat.toDigits_ne_nil
  · rw [Nat.toString_eq_repr, Nat.toList_repr, Nat.ofDigitChars_ten_toDigits]

theorem IsNumeral.isDigit_or_plus (h : IsNumeral chars n) :
    ∀ c ∈ chars, c.isDigit = true ∨ c = '+' := by
  obtain ⟨sign, digits, hsign, rfl, _, hdigits, _⟩ := h
  intro c hc
  rcases List.mem_append.mp hc with hc | hc
  · rcases hsign with rfl | rfl
    · exact absurd hc List.not_mem_nil
    · exact .inr (List.mem_singleton.mp hc)
  · exact .inl (hdigits c hc)

theorem isBlank_of_isDigit {c : Char} (h : c.isDigit = true) : Text.isBlank c = false := by
  have hrange : 48 ≤ c.toNat ∧ c.toNat ≤ 57 := by
    simpa [Char.isDigit, UInt32.le_iff_toNat_le] using h
  simp only [Text.isBlank, Text.blankRanges, List.any_cons, List.any_nil, Bool.or_false,
    Bool.or_eq_false_iff, Bool.and_eq_false_imp, decide_eq_true_eq, decide_eq_false_iff_not]
  omega

/-- There are no blanks in a numeral. -/
theorem IsNumeral.isBlank (h : IsNumeral chars n) : ∀ c ∈ chars, Text.isBlank c = false := by
  intro c hc
  rcases h.isDigit_or_plus c hc with hdigit | rfl
  · exact isBlank_of_isDigit hdigit
  · decide

end SqlBackend.Decimal
