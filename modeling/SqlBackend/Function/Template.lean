import SqlBackend.Decimal.Numeral
import SqlBackend.Fragment

/-! # Call templates

The text of a function call comes from a template. In it `?1` to `?9` stand for
single arguments and `?*` for all of them, separated by commas. A placeholder
for an argument that is not there stands for nothing, and any other question
mark for itself. Arguments are put in as they are and not searched for
placeholders again.
-/

namespace SqlBackend

/-- A part of a template. -/
inductive TemplatePiece where
  | char (c : Char)
  /-- One argument, counted from one. -/
  | argument (position : Nat)
  | allArguments
deriving DecidableEq, Repr

namespace TemplatePiece

/-- Reads a template. -/
def ofChars : List Char → List TemplatePiece
  | [] => []
  | [c] => [.char c]
  | c :: d :: rest =>
      if c = '?' then
        if d = '*' then .allArguments :: ofChars rest
        else if d.isDigit then .argument (Decimal.digitValue d) :: ofChars rest
        else .char c :: ofChars (d :: rest)
      else .char c :: ofChars (d :: rest)

theorem ofChars_cons_of_ne {c : Char} (hc : c ≠ '?') (rest : List Char) :
    ofChars (c :: rest) = .char c :: ofChars rest := by
  cases rest with
  | nil => rfl
  | cons d rest => simp [ofChars, hc]

/-- Up to the first question mark a template stands for itself. -/
theorem ofChars_append_of_not_mem {chars : List Char} (h : '?' ∉ chars) (rest : List Char) :
    ofChars (chars ++ rest) = chars.map .char ++ ofChars rest := by
  induction chars with
  | nil => rfl
  | cons c chars ih =>
    have hc : c ≠ '?' := fun same => h (by simp [same])
    have hchars : '?' ∉ chars := fun inside => h (List.mem_cons_of_mem _ inside)
    rw [List.cons_append, ofChars_cons_of_ne hc, ih hchars, List.map_cons, List.cons_append]

/-- What a part of a template stands for. -/
def expand (args : List Fragment) : TemplatePiece → Fragment
  | char c => .ofText (String.singleton c)
  | argument 0 => {}
  | argument (n + 1) => args[n]?.getD {}
  | allArguments => .joined ", " args

end TemplatePiece

/-- The call that a template makes of its arguments. -/
def expandTemplate (template : String) (args : List Fragment) : Fragment :=
  (TemplatePiece.ofChars template.toList).foldr (fun piece rest => piece.expand args ++ rest) {}

end SqlBackend
