import SqlBackend.Json.Printer
import SqlBackend.Settings.Spanner

/-! # Settings in documents

A configuration may be a JSON object, and the settings of the Spanner dialect
may be written as a document of their own. In such a document a record is an
object, or an array of its fields in order. Fields that are not known are
skipped, fields that are missing take their defaults, and a known field that is
repeated is refused.
-/

namespace SqlBackend

/-- The text of a setting given by a document. Null counts as absent. -/
def Json.setting? : Json → Option String
  | .null => none
  | .string value => some value.text
  | value => some value.sorted.compact

/-- The configuration that a document makes. -/
def Configuration.ofJson (j : Json) : Configuration :=
  ⟨fun name => (j.field? name).bind Json.setting?⟩

namespace Json

/-- The value of a field of an object, if it is there. Fails if it is there
twice. -/
def uniqueField? (fields : List (JsonText × Json)) (name : String) : Option (Option Json) :=
  match fields.filter fun f => f.1.text = name with
  | [] => some none
  | [f] => some (some f.2)
  | _ => none

/-- The fields of a record by their names, each of them perhaps missing. Fails
for what is no record, for a name that is no text, and for an array with too
many items. -/
def record? (j : Json) (names : List String) : Option (List (Option Json)) :=
  match j with
  | object fields =>
      if fields.all fun f => f.1.wellFormed then names.mapM (uniqueField? fields) else none
  | array items =>
      if items.length ≤ names.length then
        some (items.map some ++ List.replicate (names.length - items.length) none)
      else none
  | _ => none

def boolean? : Json → Option Bool
  | boolean value => some value
  | _ => none

/-- A whole number of thirty-two bits without a sign. -/
def word? : Json → Option UInt32
  | number value =>
      match value.whole? with
      | some (.ofNat n) => if n < UInt32.size then some (UInt32.ofNat n) else none
      | _ => none
  | _ => none

/-- A policy by its name, which may also be the only field of an object with
nothing in it. -/
def likePolicy? : Json → Option LikePolicy
  | string name => name.text?.bind LikePolicy.ofName?
  | object [(name, null)] => name.text?.bind LikePolicy.ofName?
  | _ => none

/-- A version, whose first number must be there. -/
def version? (j : Json) : Option Version := do
  match ← j.record? ["major", "minor", "micro"] with
  | [some major, minor, micro] =>
      return ⟨← major.word?, ← (minor.elim (some 0) word?), ← (micro.elim (some 0) word?)⟩
  | _ => none

/-- A version or null. -/
def versionOrNull? : Json → Option (Option Version)
  | null => some none
  | j => j.version?.map some

end Json

namespace SpannerSettings

/-- The names of the settings in a document of their own. -/
def documentNames : List String :=
  ["use_timestamptz_for_time_type", "like_escape_policy", "version"]

def ofJson? (j : Json) : Option SpannerSettings := do
  match ← j.record? documentNames with
  | [timestamptz, policy, version] =>
      return {
        timestamptzForTime := ← timestamptz.elim (some false) Json.boolean?
        likePolicy := ← policy.elim (some .preset) Json.likePolicy?
        version := ← version.elim (some none) Json.versionOrNull? }
  | _ => none

/-- Reads the settings of a document. -/
def read? (text : String) : Option SpannerSettings := (Json.read? text).bind ofJson?

/-- The document of a version. -/
def versionJson (v : Version) : Json :=
  .ofFields [("major", .ofNat v.major.toNat), ("minor", .ofNat v.minor.toNat),
    ("micro", .ofNat v.micro.toNat)]

/-- The document of the settings. -/
def toJson (s : SpannerSettings) : Json :=
  .ofFields (documentNames.zip
    [.boolean s.timestamptzForTime, .ofString s.likePolicy.name, s.version.elim .null versionJson])

end SpannerSettings

end SqlBackend
