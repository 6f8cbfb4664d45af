-- From types to schemas. A schema says what a value looks like when it is sent, so only plain data has
-- one: no unions, functions or generic types, and no type that contains itself.
import RouteTypes.Route.Schema
import RouteTypes.Route.Failure
import RouteTypes.Typing.Display

namespace RouteTypes

/-! ## Types as they are lowered -/

inductive ObjectSort where
  /-- A class or an interface. -/
  | declared
  /-- An object that cannot be called. -/
  | anonymous
  | array
  | other
deriving DecidableEq, Repr

inductive TypeSort where
  | undefined
  | string
  | number
  | boolean
  | object (sort : ObjectSort)
  | other
deriving DecidableEq, Repr

/-- What has to be known about types to lower them. -/
structure TypeTable where
  /-- How many types there are. -/
  size : Nat
  sort : TypeId → TypeSort
  /-- The name that a type is declared with. -/
  name? : TypeId → Option String
  /-- Names and types of the properties in the order of their declarations. -/
  properties : TypeId → List (String × TypeId)
  /-- Whether there is a property of that name. -/
  hasProperty : TypeId → String → Bool := fun type name => (properties type).any (·.1 == name)
  typeArguments : TypeId → List TypeId
  display : TypeId → String

namespace Checked

/-- The sort of a type of a program. -/
def sortOf (checked : Checked) (type : TypeId) : TypeSort :=
  match checked.typeData type with
  | .undefined => .undefined
  | .string => .string
  | .number => .number
  | .boolean => .boolean
  | .object object => .object <|
    match object.kind with
    | .classType | .interface => .declared
    | .anonymous => if object.calls.isEmpty then .anonymous else .other
    | .reference => if checked.isArray type then .array else .other
    | .constructor => .other
  | _ => .other

/-- The types of a program. -/
def typeTable (checked : Checked) : TypeTable where
  size := checked.facts.types.size
  sort := checked.sortOf
  name? := checked.typeName?
  properties type := (checked.members type).map fun id =>
    ((checked.symbol id).name, checked.typeOfSymbol id)
  typeArguments := checked.typeArguments
  display := checked.display

end Checked

/-! ## Lowering -/

namespace TypeTable

variable (types : TypeTable)

def unsupported (type : TypeId) (reason : String) : Cause := .typeShape (types.display type) reason

/-- A type with that name and that member is taken for the one that every program sees. -/
def isBuiltin (type : TypeId) (name member : String) : Bool :=
  types.name? type == some name && types.hasProperty type member

/-- The fields of an object. Of several properties of one name the last counts, in the place of the
first. -/
def lowerFields (lower : TypeId → Except Cause Schema) :
    List (String × TypeId) → List (String × Schema) → Except Cause (List (String × Schema))
  | [], fields => .ok fields
  | (name, type) :: rest, fields => do
    let schema ← lower type
    lowerFields lower rest (Schema.setField name schema fields)

/-- The schema of an object type, in terms of those of other types. -/
def lowerObject (lower : TypeId → Except Cause Schema) (type : TypeId) (sort : ObjectSort) :
    Except Cause Schema :=
  if sort = .array then
    match types.typeArguments type with
    | [element] => .array <$> lower element
    | args =>
      .error (.arity s!"type arguments on array type `{types.display type}`" 1 args.length)
  else if types.isBuiltin type "Date" "getTime" then .ok .date
  else if types.isBuiltin type "ArrayBuffer" "byteLength" then .ok .arrayBuffer
  else match sort, types.name? type with
    | .declared, some name => .namedObject name <$> lowerFields lower (types.properties type) []
    | .anonymous, _ => .anonymousObject <$> lowerFields lower (types.properties type) []
    | _, _ =>
      .error (types.unsupported type
        "only classes, interfaces and plain object types have a schema")

/-- The schema of a type within those object types, in terms of no more than so many types around. As
they are all different, there cannot be more of them than there are types. -/
def lowerWithin : Nat → List TypeId → TypeId → Except Cause Schema
  | depth, around, type =>
    match types.sort type with
    | .undefined => .ok .undefined
    | .string => .ok .string
    | .number => .ok .number
    | .boolean => .ok .boolean
    | .other => .error (types.unsupported type "no schema for this kind of type")
    | .object sort =>
      match depth with
      | 0 => .error (types.unsupported type "recursive type")
      | depth + 1 =>
        if around.contains type then .error (types.unsupported type "recursive type")
        else types.lowerObject (lowerWithin depth (type :: around)) type sort

/-- The schema of a type. -/
def lower (type : TypeId) : Except Cause Schema := types.lowerWithin (types.size + 1) [] type

end TypeTable

end RouteTypes
