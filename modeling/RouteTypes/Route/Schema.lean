-- Schemas: what is said about the values of a type. They are sent as JSON objects whose `name` says
-- which sort of schema they are. The fields of an object keep their order, but two objects whose fields
-- differ in nothing but their order are the same.
import RouteTypes.Json.Value

namespace RouteTypes

inductive Schema where
  | undefined
  | string
  | number
  | boolean
  | date
  | arrayBuffer
  | array (element : Schema)
  /-- Objects of a class or an interface. -/
  | namedObject (typeName : String) (fields : List (String × Schema))
  | anonymousObject (fields : List (String × Schema))
deriving Repr, Inhabited

namespace Schema

/-! ## Fields -/

/-- Gives a field a schema: in its place, if there is a field of that name, or else at the end. -/
def setField (name : String) (schema : Schema) : List (String × Schema) → List (String × Schema)
  | [] => [(name, schema)]
  | field :: rest =>
    if field.1 = name then (name, schema) :: rest else field :: setField name schema rest

mutual

/-- Whether two schemas say the same. -/
def same : Schema → Schema → Bool
  | .undefined, .undefined | .string, .string | .number, .number | .boolean, .boolean
  | .date, .date | .arrayBuffer, .arrayBuffer => true
  | .array element, .array other => same element other
  | .namedObject typeName fields, .namedObject otherName others =>
    typeName == otherName && fields.length == others.length && sameFields fields others
  | .anonymousObject fields, .anonymousObject others =>
    fields.length == others.length && sameFields fields others
  | _, _ => false

/-- Whether each field says the same as the one of that name among others. -/
def sameFields : List (String × Schema) → List (String × Schema) → Bool
  | [], _ => true
  | (name, schema) :: rest, others =>
    (match others.lookup name with
      | some other => same schema other
      | none => false) && sameFields rest others

end

/-! ## Writing -/

mutual

def toJson : Schema → Json
  | .undefined => .object [("name", .string "undefined")]
  | .string => .object [("name", .string "string")]
  | .number => .object [("name", .string "number")]
  | .boolean => .object [("name", .string "boolean")]
  | .date => .object [("name", .string "date")]
  | .arrayBuffer => .object [("name", .string "arrayBuffer")]
  | .array element => .object [("name", .string "array"), ("elementType", toJson element)]
  | .namedObject typeName fields =>
    .object [("name", .string "namedObject"), ("typeName", .string typeName),
      ("fields", .object (fieldsToJson fields))]
  | .anonymousObject fields =>
    .object [("name", .string "anonymousObject"), ("fields", .object (fieldsToJson fields))]

def fieldsToJson : List (String × Schema) → List (String × Json)
  | [] => []
  | (name, schema) :: rest => (name, toJson schema) :: fieldsToJson rest

end

/-! ## Reading -/

/-- The names of the sorts of schemas. -/
def names : List String :=
  ["undefined", "string", "number", "boolean", "date", "arrayBuffer", "array", "namedObject",
    "anonymousObject"]

/-- The sort that a JSON value names. Inside another schema its place among the names will do. -/
def nameOf? (isInner : Bool) : Json → Option String
  | .string name => some name
  | value => if isInner then value.nat?.bind (names[·]?) else none

/-- The members of a JSON object that schemas are made of, as far as they can be read. -/
structure Parts where
  name : Option String
  typeName : Option String
  element : Option Schema
  fields : Option (List (String × Schema))

namespace Parts

def empty : Parts := ⟨none, none, none, none⟩

/-- The schema that the parts make. Parts that it does not need do not matter. -/
def schema? (parts : Parts) : Option Schema :=
  match parts.name with
  | some "undefined" => some .undefined
  | some "string" => some .string
  | some "number" => some .number
  | some "boolean" => some .boolean
  | some "date" => some .date
  | some "arrayBuffer" => some .arrayBuffer
  | some "array" => parts.element.map .array
  | some "namedObject" => do return .namedObject (← parts.typeName) (← parts.fields)
  | some "anonymousObject" => parts.fields.map .anonymousObject
  | _ => none

end Parts

mutual

/-- The schema that a JSON value stands for, on its own or inside another one. -/
def read? (isInner : Bool) : Json → Option Schema
  | .object members => (partsOf isInner members).schema?
  | _ => none

/-- The parts among the members of a JSON object. -/
def partsOf (isInner : Bool) : List (String × Json) → Parts
  | [] => .empty
  | (key, value) :: rest =>
    let parts := partsOf isInner rest
    if key = "name" then { parts with name := nameOf? isInner value }
    else if key = "typeName" then { parts with typeName := value.string? }
    else if key = "elementType" then { parts with element := read? true value }
    else if key = "fields" then
      { parts with
        fields := match value with
          | .object members => fieldsOf? members
          | _ => none }
    else parts

/-- The members of a JSON object as fields. -/
def fieldsOf? : List (String × Json) → Option (List (String × Schema))
  | [] => some []
  | (name, value) :: rest => do
    let schema ← read? true value
    let fields ← fieldsOf? rest
    return (name, schema) :: fields

end

/-- The schema that a JSON value stands for. -/
def ofJson? (value : Json) : Option Schema := read? false value

end Schema

end RouteTypes
