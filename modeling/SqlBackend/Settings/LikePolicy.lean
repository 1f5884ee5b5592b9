import SqlBackend.Text.Ascii
import SqlBackend.Text.Blank

/-! # Policies for patterns without an escape character

Where the backslash escapes by default, a pattern without an escape character
either has its backslashes doubled or is left to the default.
-/

namespace SqlBackend

inductive LikePolicy where
  | reescapeBackslash
  | omitEscapeClause
deriving DecidableEq, Repr

namespace LikePolicy

/-- The policy that is used unless another one is set. -/
def preset : LikePolicy := reescapeBackslash

def name : LikePolicy → String
  | reescapeBackslash => "reescape_backslash"
  | omitEscapeClause => "omit_escape_clause"

def all : List LikePolicy := [reescapeBackslash, omitEscapeClause]

/-- The policy of exactly this name. -/
def ofName? (name : String) : Option LikePolicy := all.find? fun p => p.name = name

/-- Reads a name without regard to its case and to blanks around it. An unknown
name comes back as it was compared. -/
def parse (text : String) : Except String LikePolicy :=
  let name := Text.lower (Text.trim text)
  match ofName? name with
  | some p => .ok p
  | none => .error name

/-- The message for a name that is no policy's. -/
def unknownMessage (name : String) : String := "unknown like escape policy '" ++ name ++ "'"

end LikePolicy

end SqlBackend
