-- The registry of schemas. Each is filed under the number of those before it, the same schema again
-- under another number; what is filed stays as it is. The manifest lists all of them.
import RouteTypes.Route.Schema

namespace RouteTypes

/-- All schemas filed so far. The number of a schema is its place. -/
structure Registry where
  schemas : List Schema
deriving Repr, Inhabited

namespace Registry

/-- Nothing is filed. -/
def empty : Registry := ⟨[]⟩

def size (registry : Registry) : Nat := registry.schemas.length

/-- Files a schema. The answer is its number. -/
def register (schema : Schema) (registry : Registry) : Nat × Registry :=
  (registry.size, ⟨registry.schemas ++ [schema]⟩)

/-- The schema with that number. -/
def get? (registry : Registry) (id : Nat) : Option Schema := registry.schemas[id]?

/-- Whether two numbers stand for the same. -/
def same (registry : Registry) (id other : Nat) : Bool :=
  match registry.get? id, registry.get? other with
  | some schema, some otherSchema => schema.same otherSchema
  | none, none => true
  | _, _ => false

/-- The members of the manifest, if the first schema has that number. -/
def entriesFrom : Nat → List Schema → List (String × Json)
  | _, [] => []
  | id, schema :: rest => (toString id, schema.toJson) :: entriesFrom (id + 1) rest

/-- A JSON object with the schemas by their numbers. -/
def toJson (registry : Registry) : Json := .object (entriesFrom 0 registry.schemas)

/-- The text of the manifest. -/
def manifest (registry : Registry) : String := registry.toJson.pretty 0

end Registry

end RouteTypes
