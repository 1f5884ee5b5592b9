import SqlBackend.Decimal.Layout

/-! # Characters of numbers

Numbers in statements are written with digits, letters and a point, behind a sign
if they are negative.
-/

namespace SqlBackend.Decimal

/-- The characters that numbers in statements are made of. -/
def isNumberChar (c : Char) : Bool := c.isAlphanum || c = '.' || c = '-'

/-- The characters that stand behind the sign. -/
def isUnsignedChar (c : Char) : Bool := c.isAlphanum || c = '.'

/-- The only sign of a number is its first character. -/
def IsNumber (text : String) : Prop :=
  ∃ sign rest, (sign = "" ∨ sign = "-") ∧ text = sign ++ rest ∧
    ∀ c ∈ rest.toList, isUnsignedChar c = true

theorem IsNumber.isNumberChar {text : String} (h : IsNumber text) {c : Char}
    (hc : c ∈ text.toList) : isNumberChar c = true := by
  obtain ⟨sign, rest, hsign, rfl, hrest⟩ := h
  rw [String.toList_append, List.mem_append] at hc
  rcases hc with hc | hc
  · rcases hsign with rfl | rfl
    · simp at hc
    · have hminus : c = '-' := by simpa using hc
      rw [hminus]
      decide
  · have hunsigned := hrest c hc
    simp only [isUnsignedChar, Bool.or_eq_true] at hunsigned
    simp only [Decimal.isNumberChar, Bool.or_eq_true]
    exact .inl hunsigned

theorem isDigit_of_mem_toString {n : Nat} {c : Char} (h : c ∈ (toString n).toList) :
    c.isDigit = true := by
  rw [Nat.toString_eq_repr, Nat.toList_repr] at h
  exact Nat.isDigit_of_mem_toDigits (by decide) (by decide) h

theorem isUnsignedChar_of_mem_toString {n : Nat} {c : Char} (h : c ∈ (toString n).toList) :
    isUnsignedChar c = true := by
  simp [isUnsignedChar, Char.isAlphanum, isDigit_of_mem_toString h]

theorem isNumber_int (value : Int) : IsNumber (toString value) := by
  cases value with
  | ofNat n =>
      refine ⟨"", toString n, .inl rfl, (String.empty_append).symm, ?_⟩
      exact fun c hc => isUnsignedChar_of_mem_toString hc
  | negSucc n =>
      exact ⟨"-", toString (n + 1), .inr rfl, rfl, fun c hc => isUnsignedChar_of_mem_toString hc⟩

theorem isNumberChar_of_mem_int {value : Int} {c : Char} (h : c ∈ (toString value).toList) :
    isNumberChar c = true :=
  (isNumber_int value).isNumberChar h

theorem isUnsignedChar_of_mem_inPlace {digits : String} {exponent : Int} {c : Char}
    (hdigits : ∀ d ∈ digits.toList, isUnsignedChar d = true)
    (h : c ∈ (inPlace "" digits exponent).toList) : isUnsignedChar c = true := by
  have hzero : isUnsignedChar '0' = true := by decide
  have hpoint : isUnsignedChar '.' = true := by decide
  unfold inPlace at h
  dsimp only at h
  split at h
  · simp only [String.toList_append, String.toList_ofList, List.mem_append, List.mem_replicate] at h
    rcases h with (h | ⟨_, rfl⟩) | h
    · exact hdigits c h
    · exact hzero
    · simp at h
  · split at h
    · simp only [String.toList_append, String.toList_ofList, List.mem_append] at h
      rcases h with (h | h) | h
      · exact hdigits c (List.mem_of_mem_take h)
      · have hc : c = '.' := by simpa using h
        rw [hc]
        exact hpoint
      · exact hdigits c (List.mem_of_mem_drop h)
    · simp only [String.toList_append, String.toList_ofList, List.mem_append,
        List.mem_replicate] at h
      rcases h with (h | ⟨_, rfl⟩) | h
      · have hc : c = '0' ∨ c = '.' := by simpa using h
        rcases hc with rfl | rfl
        · exact hzero
        · exact hpoint
      · exact hzero
      · exact hdigits c h

theorem isNumber_text (d : Decimal) : IsNumber (d.text .statement) := by
  refine ⟨if d.negative then "-" else "", inPlace "" (toString d.digits) d.exponent, ?_, ?_, ?_⟩
  · cases d.negative <;> simp
  · simp [text, Layout.statement]
  · intro c hc
    exact isUnsignedChar_of_mem_inPlace (fun d hd => isUnsignedChar_of_mem_toString hd) hc

/-- Floating numbers in statements are numbers, infinite ones included. -/
theorem isNumber_bits (bits : UInt64) : IsNumber (textOfBits .statement bits) := by
  have hword : ∀ word ∈ ["NaN", "inf"], word.toList.all isUnsignedChar = true := by decide
  unfold textOfBits
  split
  · exact ⟨"", "NaN", .inl rfl, rfl, List.all_eq_true.mp (hword "NaN" (by simp))⟩
  next negative _ =>
    refine ⟨if negative then "-" else "", "inf", ?_, ?_, List.all_eq_true.mp (hword "inf" (by simp))⟩
    · cases negative <;> simp
    · cases negative <;> rfl
  · exact isNumber_text _

theorem isNumberChar_of_mem_bits {bits : UInt64} {c : Char}
    (h : c ∈ (textOfBits .statement bits).toList) : isNumberChar c = true :=
  (isNumber_bits bits).isNumberChar h

end SqlBackend.Decimal
