/-! # Zone offsets

An offset from UTC is stored as a number of seconds. Which numbers of seconds make an offset
is known to a calendar, which takes numbers of thirty-two bits; a stored number beyond them is
not even put to it. Here only offsets of less than a day are valid.
-/

namespace SqlBackend

/-- What a calendar knows of offsets from UTC. -/
structure OffsetCalendar (α : Type) where
  /-- The offset of some seconds to the east, if there is one. -/
  east? : Int32 → Option α
  /-- How many seconds to the east an offset is. -/
  seconds : α → Int32

/-- Why a stored number is no zone offset. -/
inductive ZoneOffsetFault where
  | outOfRange (value : Int)
  | invalid (seconds : Int)
deriving DecidableEq, Repr

def ZoneOffsetFault.message : ZoneOffsetFault → String
  | outOfRange value => "Zone offset value " ++ toString value ++ " is out of range"
  | invalid seconds => "Zone offset of " ++ toString seconds ++ " seconds is not a valid offset"

namespace OffsetCalendar

variable {α : Type}

/-- The number that an offset is stored as. -/
def stored (k : OffsetCalendar α) (offset : α) : Int := (k.seconds offset).toInt

/-- Reads an offset back from its stored number. -/
def read (k : OffsetCalendar α) (value : Int) : Except ZoneOffsetFault α :=
  if h : Int32.minValue.toInt ≤ value ∧ value ≤ Int32.maxValue.toInt then
    let seconds := Int32.ofIntLE value h.1 h.2
    match k.east? seconds with
    | some offset => .ok offset
    | none => .error (.invalid seconds.toInt)
  else .error (.outOfRange value)

end OffsetCalendar

/-- An offset from UTC of less than a day. -/
structure ZoneOffset where
  seconds : Int
  above : -86400 < seconds
  below : seconds < 86400
deriving DecidableEq

namespace ZoneOffset

/-- The calendar whose offsets are those of less than a day. -/
def calendar : OffsetCalendar ZoneOffset where
  east? seconds :=
    if h : -86400 < seconds.toInt ∧ seconds.toInt < 86400 then some ⟨seconds.toInt, h.1, h.2⟩
    else none
  seconds offset := .ofInt offset.seconds

/-- Reads an offset back from its stored number. -/
def ofSeconds (value : Int) : Except ZoneOffsetFault ZoneOffset := calendar.read value

end ZoneOffset

end SqlBackend
