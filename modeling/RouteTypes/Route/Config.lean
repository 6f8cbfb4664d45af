-- The names that are looked for and the names that are written. A TOML document may set them in two
-- tables, `registry` and `meta`; what it does not set stays as it is, and what else it says does not
-- matter.
import RouteTypes.Toml.Reader

namespace RouteTypes

structure Config where
  /-- The class that the default export is an instance of. -/
  type : String
  /-- The method of the class that registers a route. -/
  method : String
  /-- The field for the number of the schema of the parameter. -/
  paramsField : String
  /-- The field for the number of the schema of what the handler returns. -/
  returnField : String
deriving DecidableEq, Repr

namespace Config

/-- The names that are used if nothing is said about them. -/
def standard : Config := ⟨"RouteMap", "route", "paramsTypeId", "returnTypeId"⟩

/-! ## Reading -/

/-- A name that may be set to a string. -/
def named (standard : String) : Option Toml → Option String
  | none => some standard
  | some (.string text) => some text
  | some _ => none

/-- Two names that a table sets by their keys. An array sets them by their places. A time sets
nothing. -/
def pair (first second : String × String) : Option Toml → Option (String × String)
  | none | some (.dateTime _) => some (first.2, second.2)
  | some (.table _ entries) => do
    return (← named first.2 (Toml.Entries.get? first.1 entries),
      ← named second.2 (Toml.Entries.get? second.1 entries))
  | some (.array items) | some (.tables items) => do
    return (← named first.2 items[0]?, ← named second.2 items[1]?)
  | some _ => none

/-- The names that the entries of a document set. -/
def ofEntries? (entries : Toml.Entries) : Option Config := do
  let (type, method) ← pair ("type", standard.type) ("method", standard.method)
    (entries.get? "registry")
  let (params, returned) ← pair ("params-field", standard.paramsField)
    ("return-field", standard.returnField) (entries.get? "meta")
  return ⟨type, method, params, returned⟩

/-- The names that the text of a document sets. -/
def ofToml? (text : String) : Option Config := do ofEntries? (← Toml.parse? text)

end Config

end RouteTypes
