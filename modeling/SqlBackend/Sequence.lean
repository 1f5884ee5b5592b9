import SqlBackend.Error

/-! # Sequences

The statements that create, change and drop a sequence and the expressions that
read it. A bit-reversed sequence counts with a counter of its own, to which the
start value belongs, and takes no increment.
-/

namespace SqlBackend

/-- How a backend spells sequences. -/
structure SequenceSyntax where
  /-- Sequences are bit-reversed. -/
  bitReversed : Bool
  /-- A start value beyond the bounds that a sequence has by itself has to be
  made its bound. -/
  bindsStart : Bool
deriving DecidableEq, Repr

namespace SequenceSyntax

def postgres : SequenceSyntax := { bitReversed := false, bindsStart := false }

def spanner : SequenceSyntax := { bitReversed := true, bindsStart := true }

/-- The statement that creates a sequence of default start and increment. -/
def create (s : SequenceSyntax) (name : String) : String :=
  "create sequence " ++ name ++ if s.bitReversed then " bit_reversed_positive" else ""

/-- The bound that a start value needs: an ascending sequence starts from one
by itself, a descending one from minus one. -/
def bound (s : SequenceSyntax) (start increment : Int) : String :=
  if !s.bindsStart then ""
  else if 0 < increment ∧ start ≤ 0 then " minvalue " ++ toString start
  else if increment < 0 ∧ 0 ≤ start then " maxvalue " ++ toString start
  else ""

/-- The statement that creates a sequence from a start value. An increment of
zero is refused, also where increments are not written. -/
def createFrom (s : SequenceSyntax) (name : String) (start increment : Int) :
    Except Error String :=
  if increment = 0 then .error (.mapping (.zeroIncrement name))
  else
    let head := s.create name ++ s.bound start increment
    .ok (if s.bitReversed then head ++ " start counter with " ++ toString start
      else head ++ " start with " ++ toString start ++ " increment by " ++ toString increment)

def restart (s : SequenceSyntax) (name : String) (start : Int) : String :=
  "alter sequence " ++ name ++ " restart " ++ (if s.bitReversed then "counter with " else "with ") ++
    toString start

/-- The expression for the next value. -/
def next (name : String) : String := "nextval('" ++ name ++ "')"

/-- The expression for the value read last. -/
def previous (name : String) : String := "currval('" ++ name ++ "')"

def drop (name : String) : String := "drop sequence if exists " ++ name

end SequenceSyntax

end SqlBackend
