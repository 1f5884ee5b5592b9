import SqlBackend.Proofs.Decimal.Characters
import SqlBackend.TypeTemplate

/-! # Sizes in the spelling of a type

A placeholder is a dollar sign with a letter behind it. The three of them are replaced one after
the other, but a numeral neither begins nor completes a placeholder, so it is as if all were
replaced at once, and none is left.
-/

namespace SqlBackend.TypeTemplate

/-- Puts the values in, in one pass from left to right. A letter without a value stands for
itself, and so does the dollar sign in front of it. -/
def substitute (value? : Char → Option (List Char)) : List Char → List Char
  | [] => []
  | [c] => [c]
  | c :: d :: rest =>
      if c = '$' then
        match value? d with
        | some value => value ++ substitute value? rest
        | none => c :: substitute value? (d :: rest)
      else c :: substitute value? (d :: rest)

/-- A value for one letter. -/
def single (letter : Char) (value : List Char) (c : Char) : Option (List Char) :=
  if c = letter then some value else none

/-- The numerals of the length, the precision and the scale, or of their defaults. -/
def sizeValue? (size : Size) : Char → Option (List Char)
  | 'l' => some (toString (size.length.getD defaultLength)).toList
  | 'p' => some (toString (size.precision.getD defaultPrecision)).toList
  | 's' => some (toString (size.scale.getD defaultScale)).toList
  | _ => none

/-- The values are numerals, and neither a digit nor the dollar sign has one. -/
structure Numeral (value? : Char → Option (List Char)) : Prop where
  dollar : value? '$' = none
  digit : ∀ c, c.isDigit = true → value? c = none
  ne_nil : ∀ c value, value? c = some value → value ≠ []
  isDigit : ∀ c value, value? c = some value → ∀ d ∈ value, d.isDigit = true

variable {value? first second : Char → Option (List Char)} {chars value : List Char}

theorem single_eq_some_iff {letter c : Char} {put : List Char} :
    single letter value c = some put ↔ c = letter ∧ value = put := by
  simp [single]

theorem substitute_cons_of_ne {c : Char} (hc : c ≠ '$') (rest : List Char) :
    substitute value? (c :: rest) = c :: substitute value? rest := by
  cases rest with
  | nil => rfl
  | cons d rest => simp [substitute, hc]

theorem substitute_of_value {c : Char} (h : value? c = some value) (rest : List Char) :
    substitute value? ('$' :: c :: rest) = value ++ substitute value? rest := by
  simp [substitute, h]

theorem substitute_of_head? (h : ∀ c ∈ chars.head?, value? c = none) :
    substitute value? ('$' :: chars) = '$' :: substitute value? chars := by
  cases chars with
  | nil => rfl
  | cons d rest => simp [substitute, h d rfl]

theorem substitute_append (h : '$' ∉ value) (rest : List Char) :
    substitute value? (value ++ rest) = value ++ substitute value? rest := by
  induction value with
  | nil => rfl
  | cons c value ih =>
      rw [List.mem_cons, not_or] at h
      rw [List.cons_append, substitute_cons_of_ne (Ne.symm h.1), ih h.2, List.cons_append]

theorem not_infix_append {letter : Char} (h : '$' ∉ value) (hchars : ¬['$', letter] <:+: chars) :
    ¬['$', letter] <:+: value ++ chars := by
  induction value with
  | nil => exact hchars
  | cons c value ih =>
      rw [List.mem_cons, not_or] at h
      rw [List.cons_append, List.infix_cons_iff, not_or]
      exact ⟨fun hprefix => h.1 (List.cons_prefix_cons.mp hprefix).1, ih h.2⟩

/-- Replacing the dollar sign with a letter behind it is a pass with one value. -/
theorem replaceChars_eq_substitute (letter : Char) (value chars : List Char) :
    Text.replaceChars ['$', letter] value chars = substitute (single letter value) chars := by
  have hpattern : ['$', letter].isEmpty = false := rfl
  rw [Text.replaceChars, hpattern, if_neg Bool.false_ne_true]
  induction chars using substitute.induct (single letter value) with
  | case1 => rfl
  | case2 c => simp [Text.replaceFrom, substitute]
  | case3 d rest put hput ih =>
      obtain ⟨rfl, rfl⟩ := single_eq_some_iff.mp hput
      simp [Text.replaceFrom, substitute, single, ih]
  | case4 d rest hnone ih =>
      have hd : ¬d = letter := by simpa [single] using hnone
      simp [Text.replaceFrom, substitute, single, hd, Ne.symm hd, ← ih]
  | case5 c d rest hc ih =>
      simp [Text.replaceFrom, substitute, hc, Ne.symm hc, ← ih]

namespace Numeral

theorem dollar_not_mem (h : Numeral value?) {c : Char} (hc : value? c = some value) :
    '$' ∉ value := fun hmem => absurd (h.isDigit c value hc '$' hmem) (by decide)

protected theorem single {letter : Char} (hdollar : letter ≠ '$') (hdigit : letter.isDigit = false)
    (n : Nat) : Numeral (single letter (toString n).toList) where
  dollar := if_neg (Ne.symm hdollar)
  digit c hc := by
    refine if_neg ?_
    rintro rfl
    exact absurd hc (by simp [hdigit])
  ne_nil c value hvalue := by
    obtain ⟨-, rfl⟩ := single_eq_some_iff.mp hvalue
    rw [Nat.toString_eq_repr, Nat.toList_repr]
    exact Nat.toDigits_ne_nil
  isDigit c value hvalue := by
    obtain ⟨-, rfl⟩ := single_eq_some_iff.mp hvalue
    exact fun d hd => Decimal.isDigit_of_mem_toString hd

protected theorem or (hfirst : Numeral first) (hsecond : Numeral second) :
    Numeral fun c => (first c).or (second c) where
  dollar := by rw [hfirst.dollar, hsecond.dollar]; rfl
  digit c hc := by rw [hfirst.digit c hc, hsecond.digit c hc]; rfl
  ne_nil c value hvalue := by
    rcases Option.or_eq_some_iff.mp hvalue with hvalue | ⟨-, hvalue⟩
    · exact hfirst.ne_nil c value hvalue
    · exact hsecond.ne_nil c value hvalue
  isDigit c value hvalue := by
    rcases Option.or_eq_some_iff.mp hvalue with hvalue | ⟨-, hvalue⟩
    · exact hfirst.isDigit c value hvalue
    · exact hsecond.isDigit c value hvalue

/-- What is put in begins with a digit, so it completes no placeholder. -/
theorem head?_substitute (h : Numeral value?) (c : Char) (rest : List Char) :
    ∀ d ∈ (substitute value? (c :: rest)).head?, d = c ∨ d.isDigit = true := by
  intro d hd
  by_cases hc : c = '$'
  · subst hc
    cases rest with
    | nil => exact .inl (Option.some.inj hd).symm
    | cons e rest =>
        cases hvalue : value? e with
        | none =>
            simp only [substitute, hvalue, if_pos] at hd
            exact .inl (Option.some.inj hd).symm
        | some value =>
            obtain ⟨first, others, rfl⟩ := List.exists_cons_of_ne_nil (h.ne_nil e value hvalue)
            simp only [substitute, hvalue, if_pos] at hd
            obtain rfl : first = d := Option.some.inj hd
            exact .inr (h.isDigit e _ hvalue first List.mem_cons_self)
  · rw [substitute_cons_of_ne hc] at hd
    exact .inl (Option.some.inj hd).symm

/-- Two passes are one. -/
theorem substitute_substitute (hfirst : Numeral first) (hsecond : Numeral second)
    (chars : List Char) :
    substitute second (substitute first chars) =
      substitute (fun c => (first c).or (second c)) chars := by
  induction chars using substitute.induct first with
  | case1 => rfl
  | case2 c => rfl
  | case3 d rest value hvalue ih =>
      have hboth : (fun c => (first c).or (second c)) d = some value := by simp [hvalue]
      rw [substitute_of_value hvalue, substitute_append (hfirst.dollar_not_mem hvalue), ih,
        substitute_of_value hboth]
  | case4 d rest hnone ih =>
      rw [substitute_of_head? (by simpa using hnone)]
      cases hvalue : second d with
      | none =>
          have hhead : ∀ c ∈ (substitute first (d :: rest)).head?, second c = none := by
            intro c hc
            rcases hfirst.head?_substitute d rest c hc with rfl | hdigit
            · exact hvalue
            · exact hsecond.digit c hdigit
          rw [substitute_of_head? hhead, ih, substitute_of_head? (by simp [hnone, hvalue])]
      | some value =>
          -- The letter is not the dollar sign, so the first pass leaves it where it is.
          have hd : d ≠ '$' := by
            rintro rfl
            rw [hsecond.dollar] at hvalue
            cases hvalue
          have hboth : (fun c => (first c).or (second c)) d = some value := by simp [hnone, hvalue]
          rw [substitute_cons_of_ne hd, substitute_cons_of_ne hd, substitute_cons_of_ne hd] at ih
          rw [substitute_cons_of_ne hd, substitute_of_value hvalue, substitute_of_value hboth,
            (List.cons.inj ih).2]
  | case5 c d rest hc ih =>
      rw [substitute_cons_of_ne hc, substitute_cons_of_ne hc, substitute_cons_of_ne hc, ih]

/-- No placeholder is left. -/
theorem not_infix_substitute (h : Numeral value?) {letter : Char} (hletter : value? letter ≠ none)
    (chars : List Char) : ¬['$', letter] <:+: substitute value? chars := by
  induction chars using substitute.induct value? with
  | case1 => simp [substitute]
  | case2 c => simp [substitute, List.infix_cons_iff]
  | case3 d rest value hvalue ih =>
      rw [substitute_of_value hvalue]
      exact not_infix_append (h.dollar_not_mem hvalue) ih
  | case4 d rest hnone ih =>
      rw [substitute_of_head? (by simpa using hnone), List.infix_cons_iff, not_or]
      refine ⟨fun hprefix => hletter ?_, ih⟩
      have hhead : letter ∈ (substitute value? (d :: rest)).head? := by
        obtain ⟨after, hafter⟩ := hprefix
        rw [← (List.cons.inj hafter).2]
        rfl
      rcases h.head?_substitute d rest letter hhead with rfl | hdigit
      · exact hnone
      · exact h.digit letter hdigit
  | case5 c d rest hc ih =>
      rw [substitute_cons_of_ne hc, List.infix_cons_iff, not_or]
      exact ⟨fun hprefix => hc (List.cons_prefix_cons.mp hprefix).1.symm, ih⟩

end Numeral

theorem sizeValue?_eq (size : Size) :
    sizeValue? size = fun c =>
      ((single 'l' (toString (size.length.getD defaultLength)).toList c).or
        (single 'p' (toString (size.precision.getD defaultPrecision)).toList c)).or
        (single 's' (toString (size.scale.getD defaultScale)).toList c) := by
  funext c
  unfold sizeValue?
  split <;> simp_all [single]

theorem numeral_sizeValue? (size : Size) : Numeral (sizeValue? size) := by
  have hlength (n : Nat) := Numeral.single (show 'l' ≠ '$' by decide) rfl n
  have hprecision (n : Nat) := Numeral.single (show 'p' ≠ '$' by decide) rfl n
  have hscale (n : Nat) := Numeral.single (show 's' ≠ '$' by decide) rfl n
  rw [sizeValue?_eq]
  exact ((hlength _).or (hprecision _)).or (hscale _)

/-- The three replacements are one pass with all values. -/
theorem toList_expandTypeTemplate (template : String) (size : Size) :
    (expandTypeTemplate template size).toList =
      substitute (sizeValue? size) template.toList := by
  have hl : "$l".toList = ['$', 'l'] := rfl
  have hp : "$p".toList = ['$', 'p'] := rfl
  have hs : "$s".toList = ['$', 's'] := rfl
  have hlength (n : Nat) := Numeral.single (show 'l' ≠ '$' by decide) rfl n
  have hprecision (n : Nat) := Numeral.single (show 'p' ≠ '$' by decide) rfl n
  have hscale (n : Nat) := Numeral.single (show 's' ≠ '$' by decide) rfl n
  rw [expandTypeTemplate, Text.toList_replace, Text.toList_replace, Text.toList_replace, hl, hp, hs]
  simp only [replaceChars_eq_substitute]
  rw [(hlength _).substitute_substitute (hprecision _),
    ((hlength _).or (hprecision _)).substitute_substitute (hscale _), sizeValue?_eq]

/-- Putting in the length, then the precision and then the scale is putting them in at once,
and no placeholder is left. -/
theorem sizes_put_in_at_once (template : String) (size : Size) :
    expandTypeTemplate template size =
        String.ofList (substitute (sizeValue? size) template.toList) ∧
      Text.contains (expandTypeTemplate template size) "$l" = false ∧
      Text.contains (expandTypeTemplate template size) "$p" = false ∧
      Text.contains (expandTypeTemplate template size) "$s" = false := by
  have hleft (letter : Char) (hletter : sizeValue? size letter ≠ none) {placeholder : String}
      (hplaceholder : placeholder.toList = ['$', letter]) :
      Text.contains (expandTypeTemplate template size) placeholder = false := by
    rw [Text.contains, hplaceholder, toList_expandTypeTemplate, Bool.eq_false_iff, ne_eq,
      Text.occurs_iff]
    exact (numeral_sizeValue? size).not_infix_substitute hletter template.toList
  refine ⟨?_, hleft 'l' nofun rfl, hleft 'p' nofun rfl, hleft 's' nofun rfl⟩
  rw [← toList_expandTypeTemplate, String.ofList_toList]

example : expandTypeTemplate "$$l$x($p,$s)" { precision := some 10 } = "$255$x(10,2)" := by cbv

end SqlBackend.TypeTemplate
