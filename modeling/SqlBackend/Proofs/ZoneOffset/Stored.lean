import Mathlib.Algebra.Ring.Int.Defs
import SqlBackend.ZoneOffset

/-! # Stored zone offsets

The numbers that an offset is not read from are of two kinds: those that a calendar cannot be
asked about, and those that it knows no offset for. Between them lie the offsets, which are
read back from what they are stored as.
-/

namespace SqlBackend

namespace OffsetCalendar

variable {α : Type} {k : OffsetCalendar α} {value : Int} {offset : α}

/-- The offsets of the calendar are those of less than a day, and one that is made of some
seconds has as many. -/
structure Daily (k : OffsetCalendar α) : Prop where
  isSome_iff : ∀ seconds, (k.east? seconds).isSome ↔
    -86400 < seconds.toInt ∧ seconds.toInt < 86400
  seconds_eq : ∀ seconds offset, k.east? seconds = some offset → k.seconds offset = seconds

/-- The calendar is asked about every number of thirty-two bits. -/
theorem read_toInt (k : OffsetCalendar α) (seconds : Int32) :
    k.read seconds.toInt =
      (k.east? seconds).elim (.error (.invalid seconds.toInt)) fun offset => .ok offset := by
  rw [read, dif_pos ⟨seconds.minValue_le_toInt, seconds.toInt_le⟩, Int32.ofIntLE_toInt]
  dsimp only
  cases k.east? seconds <;> rfl

theorem read_of_not_fits (k : OffsetCalendar α) (h : ¬(-2 ^ 31 ≤ value ∧ value < 2 ^ 31)) :
    k.read value = .error (.outOfRange value) := by
  rw [read, dif_neg]
  intro hfits
  have hlowest : Int32.minValue.toInt = -2 ^ 31 := by decide
  have hhighest : Int32.maxValue.toInt = 2 ^ 31 - 1 := by decide
  omega

/-- A number fits thirty-two bits if it is that of a number of thirty-two bits. -/
theorem fits_iff : (-2 ^ 31 ≤ value ∧ value < 2 ^ 31) ↔ ∃ seconds : Int32, seconds.toInt = value := by
  constructor
  · exact fun h => ⟨.ofInt value, Int32.toInt_ofInt_of_le h.1 h.2⟩
  · rintro ⟨seconds, rfl⟩
    exact ⟨seconds.le_toInt, seconds.toInt_lt⟩

/-- What becomes of a stored number: the calendar has an offset for it or none, or it is not
asked. -/
theorem read_cases (k : OffsetCalendar α) (value : Int) :
    (∃ seconds offset, seconds.toInt = value ∧ k.east? seconds = some offset ∧
        k.read value = .ok offset) ∨
      (∃ seconds, seconds.toInt = value ∧ k.east? seconds = none ∧
        k.read value = .error (.invalid value)) ∨
      ¬(-2 ^ 31 ≤ value ∧ value < 2 ^ 31) ∧ k.read value = .error (.outOfRange value) := by
  by_cases hfits : -2 ^ 31 ≤ value ∧ value < 2 ^ 31
  · obtain ⟨seconds, rfl⟩ := fits_iff.mp hfits
    cases heast : k.east? seconds with
    | some offset => exact .inl ⟨seconds, offset, rfl, heast, by rw [read_toInt, heast]; rfl⟩
    | none => exact .inr (.inl ⟨seconds, rfl, heast, by rw [read_toInt, heast]; rfl⟩)
  · exact .inr (.inr ⟨hfits, read_of_not_fits k hfits⟩)

/-- An offset is read from the stored numbers of less than a day, and it is stored as the same
number again. A number that does not fit thirty-two bits is out of range, and every other one
is no valid offset. What an offset of the calendar is stored as is read back as that offset. -/
theorem zone_offsets_read_back (k : OffsetCalendar α) (hk : k.Daily) (value : Int) :
    ((∃ offset, k.read value = .ok offset) ↔ -86400 < value ∧ value < 86400) ∧
      (∀ offset, k.read value = .ok offset → k.stored offset = value) ∧
      (k.read value = .error (.outOfRange value) ↔ ¬(-2 ^ 31 ≤ value ∧ value < 2 ^ 31)) ∧
      (k.read value = .error (.invalid value) ↔
        (-2 ^ 31 ≤ value ∧ value < 2 ^ 31) ∧ ¬(-86400 < value ∧ value < 86400)) ∧
      ∀ seconds offset, k.east? seconds = some offset →
        k.read (k.stored offset) = .ok offset := by
  have hback : ∀ seconds offset, k.east? seconds = some offset →
      k.read (k.stored offset) = .ok offset := by
    intro seconds offset heast
    rw [stored, hk.seconds_eq seconds offset heast, read_toInt, heast, Option.elim_some]
  rcases k.read_cases value with ⟨seconds, offset, rfl, heast, hread⟩ |
    ⟨seconds, rfl, heast, hread⟩ | ⟨hfits, hread⟩
  · have hday := (hk.isSome_iff seconds).mp (Option.isSome_of_eq_some heast)
    have hfits := fits_iff.mpr ⟨seconds, rfl⟩
    have hstored : k.stored offset = seconds.toInt := by
      rw [stored, hk.seconds_eq seconds offset heast]
    rw [hread]
    refine ⟨iff_of_true ⟨offset, rfl⟩ hday, ?_, iff_of_false nofun (not_not_intro hfits),
      iff_of_false nofun fun h => h.2 hday, hback⟩
    rintro _ ⟨rfl⟩
    exact hstored
  · have hday : ¬(-86400 < seconds.toInt ∧ seconds.toInt < 86400) := by
      rw [← hk.isSome_iff, heast]
      exact Bool.false_ne_true
    have hfits := fits_iff.mpr ⟨seconds, rfl⟩
    rw [hread]
    exact ⟨iff_of_false nofun hday, nofun, iff_of_false nofun (not_not_intro hfits),
      iff_of_true rfl ⟨hfits, hday⟩, hback⟩
  · have hday : ¬(-86400 < value ∧ value < 86400) := by omega
    rw [hread]
    exact ⟨iff_of_false nofun hday, nofun, iff_of_true rfl hfits,
      iff_of_false nofun fun h => hfits h.1, hback⟩

end OffsetCalendar

theorem ZoneOffset.calendar_daily : ZoneOffset.calendar.Daily where
  isSome_iff seconds := by
    unfold calendar
    dsimp only
    split
    next h => exact iff_of_true rfl h
    next h => exact iff_of_false nofun h
  seconds_eq seconds offset heast := by
    unfold calendar at heast ⊢
    dsimp only at heast ⊢
    split at heast
    · cases heast
      exact Int32.ofInt_toInt seconds
    · cases heast

/-- The last offset before a day, a whole day and the first number that does not fit. -/
theorem OffsetCalendar.zone_offsets_read_back_daily :
    ZoneOffset.calendar.Daily ∧ (∃ offset, ZoneOffset.ofSeconds (-86399) = .ok offset) ∧
      ZoneOffset.ofSeconds 86400 = .error (.invalid 86400) ∧
      ZoneOffset.ofSeconds 2147483648 = .error (.outOfRange 2147483648) := by
  have hk := ZoneOffset.calendar_daily
  obtain ⟨hok, _⟩ := zone_offsets_read_back ZoneOffset.calendar hk (-86399)
  obtain ⟨_, _, _, hinvalid, _⟩ := zone_offsets_read_back ZoneOffset.calendar hk 86400
  obtain ⟨_, _, hrange, _⟩ := zone_offsets_read_back ZoneOffset.calendar hk 2147483648
  exact ⟨hk, hok.mpr (by decide), hinvalid.mpr (by decide), hrange.mpr (by decide)⟩

end SqlBackend
