import SqlBackend.Decimal.Numeral
import SqlBackend.Text.Blank
import SqlBackend.Text.Split

/-! # Database versions

A version has three numbers and is written with points between them. Of a
version that is read the second and third may be missing, and blanks around a
number do not matter.
-/

namespace SqlBackend

structure Version where
  major : UInt32
  minor : UInt32 := 0
  micro : UInt32 := 0
deriving DecidableEq, Repr

/-- Why a text is not a version. -/
inductive VersionFault where
  | component (text : String) (fault : Decimal.NumeralFault)
  | tooManyComponents (text : String)
deriving DecidableEq, Repr

def VersionFault.message : VersionFault → String
  | component text fault => "invalid version component '" ++ text ++ "': " ++ fault.message
  | tooManyComponents text => "too many version components in '" ++ text ++ "'"

namespace Version

def zero : Version := ⟨0, 0, 0⟩

def text (v : Version) : String :=
  toString v.major.toNat ++ "." ++ toString v.minor.toNat ++ "." ++ toString v.micro.toNat

/-- Whether `v` is `w` or a later version. -/
def isSameOrAfter (v w : Version) : Bool :=
  w.major < v.major || (v.major = w.major &&
    (w.minor < v.minor || (v.minor = w.minor && w.micro ≤ v.micro)))

/-- Reads one number of a version. -/
def readComponent (chars : List Char) : Except VersionFault UInt32 :=
  match Decimal.readNumeral (Text.trimChars chars) with
  | .ok n => .ok (UInt32.ofNat n)
  | .error fault => .error (.component (String.ofList chars) fault)

/-- Reads the number at a position, or zero where the text has ended. -/
def componentAt (parts : List (List Char)) (position : Nat) : Except VersionFault UInt32 :=
  match parts[position]? with
  | some chars => readComponent chars
  | none => .ok 0

/-- Reads a version. The numbers are read in order, and a fourth one is refused
only after three good ones. -/
def parse (text : String) : Except VersionFault Version := do
  let parts := Text.split '.' text.toList
  let major ← componentAt parts 0
  let minor ← componentAt parts 1
  let micro ← componentAt parts 2
  if parts.length ≤ 3 then
    return ⟨major, minor, micro⟩
  else
    throw (.tooManyComponents text)

end Version

end SqlBackend
