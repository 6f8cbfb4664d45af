-- Diagnostics: what is reported about a place in a program, and the JSON in which it is sent.
import RouteTypes.Json.Value
import RouteTypes.Text.Span

namespace RouteTypes

open Text

inductive Severity where
  | warning
  | error
deriving DecidableEq, Repr

def Severity.name : Severity → String
  | .warning => "warning"
  | .error => "error"

/-- A range of bytes and what is to be said about it. -/
structure Mark where
  span : Span
  label : String
deriving DecidableEq, Repr

structure Diagnostic where
  code : String
  severity : Severity
  message : String
  file : String
  marks : List Mark
deriving Repr

namespace Mark

def toJson (mark : Mark) : Json :=
  .object [("start", .ofNat mark.span.start), ("end", .ofNat mark.span.stop),
    ("label", .string mark.label)]

end Mark

namespace Diagnostic

/-- The diagnostic as JSON. There is never a proposal how to mend the program. -/
def toJson (d : Diagnostic) : Json :=
  .object [("code", .string d.code), ("severity", .string d.severity.name),
    ("message", .string d.message), ("file", .string d.file),
    ("spans", .array (d.marks.map Mark.toJson)), ("fix", .null)]

end Diagnostic

end RouteTypes
