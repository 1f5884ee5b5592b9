/-! # Case folding for keys

Function names, policy names and boolean settings are compared without regard
to the case of ASCII letters. Letters outside ASCII keep their case, so two
such names are never confused.
-/

namespace SqlBackend.Text

/-- The text with ASCII capitals in lower case and everything else unchanged. -/
def lower (text : String) : String :=
  String.ofList (text.toList.map Char.toLower)

theorem toList_lower (text : String) : (lower text).toList = text.toList.map Char.toLower := by
  simp [lower]

end SqlBackend.Text
