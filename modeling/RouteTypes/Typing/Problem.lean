-- What can be wrong with the types of a program. Checking goes on behind a problem with the type `any`,
-- and a program with problems can still be annotated, so they are only warned of.
import RouteTypes.Diagnostic

namespace RouteTypes

open Text

/-- A problem, in which types are given as `τ`. -/
inductive Problem (τ : Type) where
  /-- A name in an expression that nothing declares. -/
  | unresolvedName (name : String)
  /-- A name in a type that nothing declares. -/
  | unresolvedType (name : String)
  | unknownProperty (type : τ) (name : String)
  /-- A call of something that cannot be called. -/
  | notCallable (type : τ)
  /-- A `new` of something that has none. -/
  | notConstructable (type : τ)
  | typeArgumentCount (name : String) (expected found : Nat)
deriving DecidableEq, Repr

/-- Something at a place. -/
structure At (α : Type) where
  span : Span
  what : α
deriving DecidableEq, Repr

namespace Problem

/-- The same problem with the types given in another way. -/
def map {τ σ : Type} (f : τ → σ) : Problem τ → Problem σ
  | .unresolvedName name => .unresolvedName name
  | .unresolvedType name => .unresolvedType name
  | .unknownProperty type name => .unknownProperty (f type) name
  | .notCallable type => .notCallable (f type)
  | .notConstructable type => .notConstructable (f type)
  | .typeArgumentCount name expected found => .typeArgumentCount name expected found

def code {τ : Type} : Problem τ → String
  | .unresolvedName _ => "T0001"
  | .unresolvedType _ => "T0002"
  | .unknownProperty _ _ => "T0003"
  | .notCallable _ => "T0004"
  | .notConstructable _ => "T0005"
  | .typeArgumentCount _ _ _ => "T0006"

def message : Problem String → String
  | .unresolvedName name => s!"cannot find name `{name}`"
  | .unresolvedType name => s!"cannot find type `{name}`"
  | .unknownProperty type name => s!"property `{name}` does not exist on type `{type}`"
  | .notCallable type => s!"type `{type}` has no call signatures"
  | .notConstructable type => s!"type `{type}` is not constructable"
  | .typeArgumentCount name expected found =>
    s!"generic type `{name}` expects {expected} type arguments, found {found}"

/-- What is said about the place of the problem. -/
def label : Problem String → String
  | .unresolvedName _ => "not found in this scope"
  | .unresolvedType _ => "no type with this name"
  | .unknownProperty type _ => s!"not a member of `{type}`"
  | .notCallable type | .notConstructable type => s!"this has type `{type}`"
  | .typeArgumentCount _ expected _ => s!"expected {expected} type arguments"

/-- The diagnostic about a source of `length` bytes. -/
def diagnostic (file : String) (length : Nat) (problem : At (Problem String)) : Diagnostic where
  code := problem.what.code
  severity := .warning
  message := problem.what.message
  file := file
  marks := [⟨problem.span.clamp length, problem.what.label⟩]

end Problem

end RouteTypes
