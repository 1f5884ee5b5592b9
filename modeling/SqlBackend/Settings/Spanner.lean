import SqlBackend.Settings.Configuration

/-! # Settings of the Spanner dialect

Three settings shape the dialect. They are read in a fixed order, so of several
unreadable ones the first in that order is reported.
-/

namespace SqlBackend

structure SpannerSettings where
  /-- Times and timestamps are stored with their time zone. -/
  timestamptzForTime : Bool := false
  likePolicy : LikePolicy := .preset
  version : Option Version := none
deriving DecidableEq, Repr

namespace SpannerSettings

/-- What the names of all settings begin with. -/
def namespaceName : String := "dialect.spanner_pg"

def timestamptzName : String := "dialect.spanner_pg.use_timestamptz_for_time_type"

def likePolicyName : String := "dialect.spanner_pg.like_escape_policy"

def versionName : String := "dialect.spanner_pg.version"

/-- Reads the settings of a configuration. -/
def ofConfiguration (c : Configuration) : Except Error SpannerSettings := do
  let timestamptzForTime ← c.boolean timestamptzName false
  let likePolicy ← c.likePolicy? likePolicyName
  let version ← c.version? versionName
  return { timestamptzForTime, likePolicy := likePolicy.getD .preset, version }

end SpannerSettings

end SqlBackend
