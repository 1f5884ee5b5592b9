import SqlBackend.Error
import SqlBackend.Settings.LikePolicy
import SqlBackend.Settings.Version

/-! # Settings

A configuration gives texts to names. A setting that is absent takes its
default; one that is present but cannot be read is refused with its text as it
was given. Nothing asks for a setting after a dialect has been made from it.
-/

namespace SqlBackend

/-- The texts of settings by name. -/
structure Configuration where
  lookup : String → Option String

namespace Configuration

/-- The configuration of some entries, of which the last one for a name counts. -/
def ofList (entries : List (String × String)) : Configuration :=
  ⟨fun name => (entries.reverse.find? fun e => e.1 = name).map (·.2)⟩

/-- Reads a setting by `read`, if it is present. -/
def read? {α ε : Type} (c : Configuration) (read : String → Except ε α) (name : String) :
    Except Error (Option α) :=
  match c.lookup name with
  | none => .ok none
  | some raw =>
      match read (Text.trim raw) with
      | .ok value => .ok (some value)
      | .error _ => .error (.invalidSetting name raw)

/-- Reads `true` or `false` in any case. -/
def readBoolean (text : String) : Except Unit Bool :=
  let word := Text.lower text
  if word = "true" then .ok true
  else if word = "false" then .ok false
  else .error ()

def boolean (c : Configuration) (name : String) (default : Bool) : Except Error Bool :=
  (c.read? readBoolean name).map (·.getD default)

def version? (c : Configuration) (name : String) : Except Error (Option Version) :=
  c.read? Version.parse name

def likePolicy? (c : Configuration) (name : String) : Except Error (Option LikePolicy) :=
  c.read? LikePolicy.parse name

end Configuration

end SqlBackend
