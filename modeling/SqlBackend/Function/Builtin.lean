import SqlBackend.Function.Registry

/-! # Built-in functions

The functions of PostgreSQL, and those of Spanner: a part of the former with
other templates where Spanner calls a function differently.
-/

namespace SqlBackend

namespace SqlFunction

def postgresAggregates : List SqlFunction :=
  ["count", "sum", "avg", "min", "max", "string_agg", "array_agg", "json_arrayagg",
    "json_objectagg", "xmlagg"].map namedAggregate

def postgresScalars : List SqlFunction :=
  ["lower", "upper", "trim", "coalesce", "nullif", "abs", "mod", "sqrt", "ceil", "floor", "concat",
    "replace", "substr", "left", "right", "lpad", "rpad", "greatest", "least", "trunc", "sign",
    "exp", "ln", "power"].map named

/-- Rounds to whole numbers or to a number of decimal places. -/
def round : SqlFunction :=
  ({ name := "round" } : SqlFunction)
    |>.withPattern (.exactly 1) "round(?1)" |>.withPattern (.exactly 2) "round(?1, ?2)"

def postgresTemplated : List SqlFunction :=
  [round,
    templated "length" 1 "length(?1)",
    templated "character_length" 1 "character_length(?1)",
    templated "position" 2 "position(?1 in ?2)",
    templated "locate" 2 "position(?1 in ?2)",
    templated "array_length" 1 "cardinality(?1)"]

def postgresCollections : List SqlFunction :=
  ["array_append", "array_fill", "array_fill_list", "array_trim", "array_set", "array_replace",
    "array_remove", "array_remove_index", "array_prepend", "array_position", "array_positions",
    "json_query", "json_table", "json_value", "json_exists", "json_object", "json_array_append",
    "json_mergepatch", "xmlelement", "xmlcomment", "xmlforest", "xmlconcat", "xmlpi",
    "xmlquery_postgresql", "xmlexists", "xmlquery", "xmltable", "generate_series"].map named

def postgresConstants : List SqlFunction :=
  ["current_date", "current_time", "current_timestamp", "localtime", "localtimestamp"].map
    fun name => constant name name

def postgres : List SqlFunction :=
  postgresAggregates ++ postgresScalars ++ postgresTemplated ++ postgresCollections ++
    postgresConstants

/-- The functions that Spanner calls in its own way. -/
def spanner : List SqlFunction :=
  [round,
    templated "length" 1 "length(?1)",
    templated "character_length" 1 "length(?1)",
    templated "array_length" 1 "array_length(?1, 1)",
    templated "position" 2 "strpos(?2, ?1)",
    templated "locate" 2 "strpos(?2, ?1)",
    (templated "json_arrayagg" 1 "jsonb_agg(?1)").asAggregate,
    constant "localtime" "current_timestamp",
    constant "localtimestamp" "current_timestamp"]

/-- The functions of PostgreSQL that Spanner lacks. -/
def spannerLacks : List String :=
  ["array_append", "array_fill", "array_fill_list", "array_trim", "array_set", "array_replace",
    "array_remove", "array_remove_index", "array_prepend", "array_position", "array_positions",
    "json_query", "json_table", "json_value", "json_exists", "json_object", "json_objectagg",
    "json_array_append", "json_mergepatch", "xmlagg", "xmlelement", "xmlcomment", "xmlforest",
    "xmlconcat", "xmlpi", "xmlquery_postgresql", "xmlexists", "xmlquery", "xmltable",
    "generate_series"]

end SqlFunction

namespace Registry

def postgres : Registry := empty.registerAll SqlFunction.postgres

def spanner : Registry :=
  SqlFunction.spannerLacks.foldl erase (postgres.registerAll SqlFunction.spanner)

end Registry

end SqlBackend
