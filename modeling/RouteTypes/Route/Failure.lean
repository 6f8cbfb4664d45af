-- Why a program cannot be annotated. A failure ends the work on the program: nothing is written then.
-- It may know the place that it is about.
import RouteTypes.Diagnostic

namespace RouteTypes

open Text

/-- What is wrong. -/
inductive Cause where
  /-- Not exactly one default export. -/
  | exportCount (found : Nat)
  | malformedExport (reason : String)
  | unresolvedExport (name : String)
  | wrongExportType (expected found : String)
  | missingMethod (type method : String)
  /-- A number of things that is not the one expected. -/
  | arity (what : String) (expected found : Nat)
  | ambiguousSignature (found : Nat)
  | handlerShape (found : String)
  | typeShape (type reason : String)
  | malformedNode (node expected : String)
deriving DecidableEq, Repr

structure Failure where
  cause : Cause
  span : Option Span
deriving DecidableEq, Repr

namespace Cause

def code : Cause → String
  | .exportCount _ => "R0001"
  | .malformedExport _ => "R0002"
  | .unresolvedExport _ => "R0003"
  | .wrongExportType _ _ => "R0004"
  | .missingMethod _ _ => "R0005"
  | .arity _ _ _ => "R0006"
  | .ambiguousSignature _ => "R0007"
  | .handlerShape _ => "R0008"
  | .typeShape _ _ => "R0009"
  | .malformedNode _ _ => "R0010"

def message : Cause → String
  | .exportCount found => s!"expected exactly one `export default` statement, found {found}"
  | .malformedExport reason => s!"malformed default export: {reason}"
  | .unresolvedExport name => s!"default export `{name}` does not resolve to a value declaration"
  | .wrongExportType expected found =>
    s!"default export must be an instance of class `{expected}`, found `{found}`"
  | .missingMethod type method => s!"type `{type}` has no registration method `{method}`"
  | .arity what expected found => s!"expected {expected} {what}, found {found}"
  | .ambiguousSignature found => s!"handler must have exactly one call signature, found {found}"
  | .handlerShape found => s!"handler must be an inline function literal, found {found}"
  | .typeShape type reason => s!"cannot describe type `{type}` as a schema: {reason}"
  | .malformedNode node expected => s!"malformed {node}: expected {expected}"

/-- What is said about the place of the failure. -/
def label : Cause → String
  | .exportCount _ => "another default export"
  | .malformedExport _ => "expected `export default <name>`"
  | .unresolvedExport _ => "no value declaration"
  | .wrongExportType _ found => s!"this has type `{found}`"
  | .missingMethod _ method => s!"no `{method}` on this value"
  | .arity _ expected found => s!"expected {expected}, found {found}"
  | .ambiguousSignature _ => "handler defined here"
  | .handlerShape _ => "not an inline function"
  | .typeShape type _ => s!"this has type `{type}`"
  | .malformedNode _ _ => "unexpected shape"

end Cause

namespace Failure

def code (failure : Failure) : String := failure.cause.code

def message (failure : Failure) : String := failure.cause.message

/-- The failure at that place, unless it knows its place already. -/
def placedAt (span : Span) (failure : Failure) : Failure :=
  { failure with span := some (failure.span.getD span) }

theorem placedAt_placedAt (s t : Span) (failure : Failure) :
    (failure.placedAt s).placedAt t = failure.placedAt s := rfl

/-- The diagnostic about a source of `length` bytes. -/
def diagnostic (file : String) (length : Nat) (failure : Failure) : Diagnostic where
  code := failure.code
  severity := .error
  message := failure.message
  file := file
  marks := failure.span.toList.map fun span => ⟨span.clamp length, failure.cause.label⟩

end Failure

end RouteTypes
