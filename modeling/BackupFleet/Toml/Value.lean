import BackupFleet.Number.Binary64
import BackupFleet.Order

/-!
# `BackupFleet.Toml.Value` — the values of configuration files

Configuration files are written in TOML. Their values are texts, numbers, flags, dates and times, arrays,
and tables of named values. A date or time is kept as its normal written form, because that is all the
configuration makes of it.

## Contents

* `Value` — the values;
* `Value.get?` — a field of a table;
* `Value.fields?` — all fields, where a table is asked for.
-/

namespace BackupFleet.Toml

/-- A value. The fields of a table are in ascending order of names. -/
inductive Value where
  | text (s : String)
  | integer (n : Int)
  | float (x : Binary64)
  | boolean (b : Bool)
  | time (written : String)
  | array (items : List Value)
  | table (fields : List (String × Value))

namespace Value

/-- A table of fields in any order. -/
def ofFields (fields : List (String × Value)) : Value := table (sortOn (·.1) fields)

/-- A field of a table. -/
def get? (name : String) : Value → Option Value
  | table fields => fields.lookup name
  | _ => none

/-- The name under which a date or time is found where a table is asked for. -/
def timeField : String := "$__toml_private_datetime"

/-- The fields of a value where a table is asked for. A date or time counts as a table with one field. -/
def fields? : Value → Option (List (String × Value))
  | table fields => some fields
  | time written => some [(timeField, text written)]
  | _ => none

end Value

end BackupFleet.Toml
