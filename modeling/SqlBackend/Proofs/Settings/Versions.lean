import Mathlib.Data.List.Forall2
import Mathlib.Data.List.GetD
import SqlBackend.Outcome
import SqlBackend.Proofs.Decimal.Numerals
import SqlBackend.Proofs.Text.Parts
import SqlBackend.Settings.Version

/-! # What a text says of a version

The text of a version says one to three numbers, with points between them and perhaps blanks
around each. Exactly such texts are read, and a version is told by its numbers: a number that
is missing and a zero are the same.
-/

namespace SqlBackend

namespace Version

variable {text other : String} {part : List Char} {parts : List (List Char)} {n : UInt32}
  {numbers others : List UInt32} {v : Version}

/-- A part says a number of thirty-two bits if it is a numeral with nothing but blanks around
it. -/
def PartSays (part : List Char) (n : UInt32) : Prop :=
  ∃ numeral, Text.Padded numeral part ∧ Decimal.IsNumeral numeral n.toNat

/-- The parts of the text between its points say the numbers, of which there are one to
three. -/
def Says (text : String) (numbers : List UInt32) : Prop :=
  numbers.length ≤ 3 ∧ ∃ parts, parts ≠ [] ∧ text.toList = ['.'].intercalate parts ∧
    List.Forall₂ PartSays parts numbers

/-- The version of some numbers, with a zero for each that is missing. -/
def ofNumbers (numbers : List UInt32) : Version :=
  ⟨numbers.getD 0 0, numbers.getD 1 0, numbers.getD 2 0⟩

theorem PartSays.point_not_mem (h : PartSays part n) : '.' ∉ part := by
  obtain ⟨numeral, ⟨before, after, rfl, hbefore, hafter⟩, hnumeral⟩ := h
  have hblank : ∀ c : Char, Text.isBlank c = true → c ≠ '.' := by
    rintro _ hc rfl
    exact absurd hc (by decide)
  intro hpoint
  rcases List.mem_append.mp hpoint with hpoint | hpoint
  · rcases List.mem_append.mp hpoint with hpoint | hpoint
    · exact hblank '.' (hbefore '.' hpoint) rfl
    · exact absurd (hnumeral.isDigit_or_plus '.' hpoint) (by decide)
  · exact hblank '.' (hafter '.' hpoint) rfl

theorem says_iff :
    Says text numbers ↔
      numbers.length ≤ 3 ∧ List.Forall₂ PartSays (Text.split '.' text.toList) numbers := by
  refine and_congr_right fun _ => ⟨?_, ?_⟩
  · rintro ⟨parts, hparts, htext, hsaid⟩
    have hpoint : ∀ part ∈ parts, '.' ∉ part := by
      intro part hpart
      obtain ⟨i, hi, rfl⟩ := List.getElem_of_mem hpart
      exact (List.Forall₂.get hsaid hi (hsaid.length_eq ▸ hi)).point_not_mem
    rwa [Text.split_eq_iff.mpr ⟨hparts, hpoint, htext⟩]
  · intro hsaid
    obtain ⟨hparts, _, htext⟩ := Text.split_eq_iff.mp (Eq.refl (Text.split '.' text.toList))
    exact ⟨_, hparts, htext, hsaid⟩

theorem partSays_iff :
    PartSays part n ↔ Decimal.IsNumeral (Text.trimChars part) n.toNat := by
  constructor
  · rintro ⟨numeral, hpadded, hnumeral⟩
    rwa [hpadded.trimChars_eq_self hnumeral.isBlank]
  · exact fun hnumeral => ⟨Text.trimChars part, Text.padded_trimChars part, hnumeral⟩

/-- Blanks around a text are around its first and its last number. -/
theorem says_iff_of_padded (h : Text.Padded other.toList text.toList) :
    Says text numbers ↔ Says other numbers := by
  have hnumerals : ∀ text : String, Says text numbers ↔ numbers.length ≤ 3 ∧
      List.Forall₂ (fun numeral n => Decimal.IsNumeral numeral n.toNat)
        ((Text.split '.' text.toList).map Text.trimChars) numbers := by
    intro text
    have hparts : PartSays = fun part n => Decimal.IsNumeral (Text.trimChars part) n.toNat := by
      ext part n
      exact partSays_iff
    rw [says_iff, List.forall₂_map_left_iff, hparts]
  rw [hnumerals, hnumerals, h.map_trimChars_split (by decide)]

theorem readComponent_eq_ok_iff : readComponent part = .ok n ↔ PartSays part n := by
  rw [partSays_iff, readComponent]
  constructor
  · intro h
    split at h
    next m hread =>
      obtain ⟨hnumeral, hm⟩ := Decimal.readNumeral_eq_ok_iff.mp hread
      cases h
      rwa [UInt32.toNat_ofNat_of_lt' hm]
    next => cases h
  · intro hnumeral
    rw [Decimal.readNumeral_eq_ok_iff.mpr ⟨hnumeral, n.toNat_lt⟩]
    exact congrArg Except.ok UInt32.ofNat_toNat

theorem componentAt_of_forall₂ (h : List.Forall₂ PartSays parts numbers) (position : Nat) :
    componentAt parts position = .ok (numbers.getD position 0) := by
  induction h generalizing position with
  | nil => rfl
  | cons hpart _ ih =>
      cases position with
      | zero => exact readComponent_eq_ok_iff.mpr hpart
      | succ position => exact ih position

/-- The numbers are read at their positions, and there is nothing behind the third one. -/
theorem parse_eq_ok_iff_components :
    parse text = .ok v ↔
      componentAt (Text.split '.' text.toList) 0 = .ok v.major ∧
        componentAt (Text.split '.' text.toList) 1 = .ok v.minor ∧
        componentAt (Text.split '.' text.toList) 2 = .ok v.micro ∧
        (Text.split '.' text.toList).length ≤ 3 := by
  have hlast : ∀ major minor micro : UInt32,
      (if (Text.split '.' text.toList).length ≤ 3 then pure ⟨major, minor, micro⟩
        else throw (VersionFault.tooManyComponents text) : Except VersionFault Version) = .ok v ↔
      (Text.split '.' text.toList).length ≤ 3 ∧ ⟨major, minor, micro⟩ = v := by
    intro major minor micro
    split
    next hlength => simp [hlength, pure, Except.pure]
    next hlength => simp [hlength, throw, throwThe, MonadExceptOf.throw]
  simp only [parse, bind_eq_ok_iff, hlast]
  constructor
  · rintro ⟨major, hmajor, minor, hminor, micro, hmicro, hlength, rfl⟩
    exact ⟨hmajor, hminor, hmicro, hlength⟩
  · rintro ⟨hmajor, hminor, hmicro, hlength⟩
    exact ⟨_, hmajor, _, hminor, _, hmicro, hlength, rfl⟩

/-- Exactly the texts that say numbers are read, as the version of those numbers. -/
theorem parse_eq_ok_iff :
    parse text = .ok v ↔ ∃ numbers, Says text numbers ∧ v = ofNumbers numbers := by
  rw [parse_eq_ok_iff_components]
  constructor
  · rintro ⟨hmajor, hminor, hmicro, hlength⟩
    simp only [says_iff]
    obtain ⟨major, minor, micro⟩ := v
    -- A position behind the last part gives zero, so only the parts that are there are said.
    match hparts : Text.split '.' text.toList with
    | [] => exact absurd hparts (Text.split_ne_nil '.' text.toList)
    | [_] =>
        rw [hparts] at hmajor hminor hmicro
        cases hminor
        cases hmicro
        exact ⟨[major], ⟨by simp, .cons (readComponent_eq_ok_iff.mp hmajor) .nil⟩, rfl⟩
    | [_, _] =>
        rw [hparts] at hmajor hminor hmicro
        cases hmicro
        exact ⟨[major, minor], ⟨by simp, .cons (readComponent_eq_ok_iff.mp hmajor)
          (.cons (readComponent_eq_ok_iff.mp hminor) .nil)⟩, rfl⟩
    | [_, _, _] =>
        rw [hparts] at hmajor hminor hmicro
        exact ⟨[major, minor, micro], ⟨by simp, .cons (readComponent_eq_ok_iff.mp hmajor)
          (.cons (readComponent_eq_ok_iff.mp hminor)
            (.cons (readComponent_eq_ok_iff.mp hmicro) .nil))⟩, rfl⟩
    | _ :: _ :: _ :: _ :: rest =>
        rw [hparts] at hlength
        simp only [List.length_cons] at hlength
        omega
  · rintro ⟨numbers, hsaid, rfl⟩
    obtain ⟨hlength, hparts⟩ := says_iff.mp hsaid
    have hcomponent := componentAt_of_forall₂ hparts
    exact ⟨hcomponent 0, hcomponent 1, hcomponent 2, hparts.length_eq ▸ hlength⟩

/-- A version is written with its three numbers. -/
theorem says_text (v : Version) : Says v.text [v.major, v.minor, v.micro] := by
  have hpart : ∀ n : UInt32, PartSays (toString n.toNat).toList n := fun n =>
    ⟨_, Text.padded_self _, Decimal.isNumeral_toString n.toNat⟩
  refine ⟨by simp, [(toString v.major.toNat).toList, (toString v.minor.toNat).toList,
    (toString v.micro.toNat).toList], by simp, ?_,
    .cons (hpart v.major) (.cons (hpart v.minor) (.cons (hpart v.micro) .nil))⟩
  simp [Version.text, List.intercalate_cons_cons]

/-- The version of some numbers tells which they are but for zeros behind them. -/
theorem ofNumbers_eq_iff (hnumbers : numbers.length ≤ 3) (hothers : others.length ≤ 3) :
    ofNumbers numbers = ofNumbers others ↔ ∀ i, numbers.getD i 0 = others.getD i 0 := by
  simp only [ofNumbers, Version.mk.injEq]
  constructor
  · rintro ⟨hmajor, hminor, hmicro⟩ i
    match i with
    | 0 => exact hmajor
    | 1 => exact hminor
    | 2 => exact hmicro
    | i + 3 =>
        rw [List.getD_eq_default numbers 0 (hnumbers.trans (Nat.le_add_left 3 i)),
          List.getD_eq_default others 0 (hothers.trans (Nat.le_add_left 3 i))]
  · exact fun h => ⟨h 0, h 1, h 2⟩

/-- The text of a version is read back. A text is read exactly if it says one to three numbers,
as the version of those numbers; and two such texts give the same version exactly if their
numbers are the same but for zeros behind them. -/
theorem versions_read_by_numbers (v : Version) (text other : String) :
    parse v.text = .ok v ∧
      (parse text = .ok v ↔ ∃ numbers, Says text numbers ∧ v = ofNumbers numbers) ∧
      ∀ numbers others, Says text numbers → Says other others →
        (parse text = parse other ↔ ∀ i, numbers.getD i 0 = others.getD i 0) := by
  refine ⟨parse_eq_ok_iff.mpr ⟨_, says_text v, rfl⟩, parse_eq_ok_iff, ?_⟩
  intro numbers others htext hother
  rw [parse_eq_ok_iff.mpr ⟨numbers, htext, rfl⟩, parse_eq_ok_iff.mpr ⟨others, hother, rfl⟩,
    Except.ok.injEq, ofNumbers_eq_iff htext.1 hother.1]

/-- Blanks, a sign and zeros in front of a number and behind the others make no difference. -/
theorem versions_read_by_numbers_spelled :
    Says " +01 .2" [1, 2] ∧ Says "1.2.0" [1, 2, 0] ∧ parse " +01 .2" = parse "1.2.0" ∧
      parse " +01 .2" = .ok ⟨1, 2, 0⟩ := by
  have hfirst : PartSays [' ', '+', '0', '1', ' '] 1 :=
    ⟨['+', '0', '1'],
      ⟨[' '], [' '], rfl, List.all_eq_true.mp (by decide), List.all_eq_true.mp (by decide)⟩,
      ⟨['+'], ['0', '1'], .inr rfl, rfl, by decide, List.all_eq_true.mp (by decide), by decide⟩⟩
  have hsecond : PartSays ['2'] 2 :=
    ⟨['2'], Text.padded_self _,
      ⟨[], ['2'], .inl rfl, rfl, by decide, List.all_eq_true.mp (by decide), by decide⟩⟩
  have htext : Says " +01 .2" [1, 2] :=
    ⟨by decide, [[' ', '+', '0', '1', ' '], ['2']], by decide, by decide,
      .cons hfirst (.cons hsecond .nil)⟩
  have hother : Says "1.2.0" [1, 2, 0] := says_text ⟨1, 2, 0⟩
  have hzeros : ∀ i, [1, 2].getD i (0 : UInt32) = [1, 2, 0].getD i 0
    | 0 | 1 | 2 | _ + 3 => rfl
  obtain ⟨hread, _, halike⟩ := versions_read_by_numbers ⟨1, 2, 0⟩ " +01 .2" "1.2.0"
  have hsame := (halike [1, 2] [1, 2, 0] htext hother).mpr hzeros
  exact ⟨htext, hother, hsame, hsame.trans hread⟩

end Version

end SqlBackend
