-- How types are written in messages: as in a program, but what is nested too deeply is left out.
import RouteTypes.Typing.Checked
import RouteTypes.Text.Quoted

namespace RouteTypes.Checked

/-! ## Functions -/

/-- A type that is nothing but a function. -/
def asFunction? (checked : Checked) (type : TypeId) : Option SignatureId :=
  match checked.object? type with
  | some object =>
    match object.calls with
    | [call] => if object.kind = .anonymous ∧ object.members = [] then some call else none
    | _ => none
  | none => none

/-- The element type of an array needs parentheses. -/
def needsParens (checked : Checked) (type : TypeId) : Bool :=
  match checked.typeData type with
  | .union _ => true
  | _ => (checked.asFunction? type).isSome

/-- `name?: Type` -/
def memberText (checked : Checked) (display : TypeId → String) (id : SymbolId) : String :=
  let symbol := checked.symbol id
  symbol.name ++ (if symbol.isOptional then "?" else "") ++ ": "
    ++ display (checked.typeOfSymbol id)

/-- A parameter, with dots in front if it takes all further arguments. -/
def paramText (checked : Checked) (display : TypeId → String) (id : SymbolId) : String :=
  let isRest := (checked.symbol id).declarations.head?.any (·.isRest)
  (if isRest then "..." else "") ++ checked.memberText display id

/-! ## Types -/

/-- The text of a type without members of its own sort. -/
def anonymousText (checked : Checked) (display : TypeId → String) (type : TypeId)
    (object : ObjectType) : String :=
  match checked.asFunction? type with
  | some call =>
    let params := (checked.signature call).params.map (checked.paramText display)
    "(" ++ ", ".intercalate params ++ ") => " ++ display (checked.returnType call)
  | none =>
    let index := object.stringIndex.toList.map fun type => "[key: string]: " ++ display type
    match index ++ object.members.map (checked.memberText display) with
    | [] => "\x7b\x7d"
    | members => "\x7b " ++ "; ".intercalate members ++ " \x7d"

/-- `<A, B>`, or nothing. -/
def angled (texts : List String) : String :=
  if texts.isEmpty then "" else "<" ++ ", ".intercalate texts ++ ">"

/-- The text of an object type. -/
def objectText (checked : Checked) (display : TypeId → String) (type : TypeId)
    (object : ObjectType) : String :=
  let name := (object.symbol.map fun id => (checked.symbol id).name).getD "?"
  match object.kind with
  | .reference =>
    if checked.isArray type then
      let element := object.typeArguments.headD .any
      if checked.needsParens element then "(" ++ display element ++ ")[]"
      else display element ++ "[]"
    else name ++ angled (object.typeArguments.map display)
  | .classType | .interface =>
    name ++ angled (object.typeParams.map fun param => (checked.symbol param).name)
  | .constructor => "typeof " ++ name
  | .anonymous => checked.anonymousText display type object

/-- The text of a type, nested at most that deep. -/
def displayUpTo (checked : Checked) : Nat → TypeId → String
  | 0, _ => "..."
  | depth + 1, type =>
    match checked.typeData type with
    | .any => "any"
    | .unknown => "unknown"
    | .never => "never"
    | .void => "void"
    | .undefined => "undefined"
    | .null => "null"
    | .string => "string"
    | .number => "number"
    | .boolean => "boolean"
    | .literal value => value.written
    | .union members => " | ".intercalate (members.map (displayUpTo checked depth))
    | .param param => (checked.symbol param).name
    | .object object => checked.objectText (displayUpTo checked depth) type object

/-- The text of a type. -/
def display (checked : Checked) (type : TypeId) : String := checked.displayUpTo 4 type

/-! ## Problems -/

/-- The problems of the program, in the order in which they were found. -/
def problems (checked : Checked) : List (At (Problem String)) :=
  checked.facts.problems.reverse.map fun found => ⟨found.span, found.what.map checked.display⟩

end RouteTypes.Checked
