-- JSON values and how they are written: on one line, or spread over lines with two spaces for each
-- level. The members of an object keep their order.

namespace RouteTypes

/-- A JSON value. A number is kept as it is written. -/
inductive Json where
  | null
  | bool (value : Bool)
  | number (literal : String)
  | string (text : String)
  | array (items : List Json)
  | object (members : List (String × Json))
deriving Inhabited, Repr

namespace Json

def ofNat (n : Nat) : Json := .number (toString n)

def ofOption : Option Json → Json
  | none => .null
  | some value => value

/-! ## Writing -/

/-- A digit of a `\u` escape. -/
def hexDigit (n : Nat) : Char := (Nat.toDigits 16 (n % 16)).headD '0'

/-- One character inside a string: quotes, backslashes and controls are escaped, nothing else is. -/
def writeChar (c : Char) : List Char :=
  if c = '"' then ['\\', '"']
  else if c = '\\' then ['\\', '\\']
  else if c = '\n' then ['\\', 'n']
  else if c = '\r' then ['\\', 'r']
  else if c = '\t' then ['\\', 't']
  else if c = '\x08' then ['\\', 'b']
  else if c = '\x0c' then ['\\', 'f']
  else if c.toNat < 0x20 then
    ['\\', 'u', '0', '0', hexDigit (c.toNat / 16), hexDigit c.toNat]
  else [c]

def writeString (text : String) : String :=
  String.ofList ('"' :: text.toList.flatMap writeChar ++ ['"'])

mutual

/-- The value on one line, without blanks. -/
def compact : Json → String
  | .null => "null"
  | .bool value => if value then "true" else "false"
  | .number literal => literal
  | .string text => writeString text
  | .array items => "[" ++ String.intercalate "," (compactItems items) ++ "]"
  | .object members => "\x7b" ++ String.intercalate "," (compactMembers members) ++ "\x7d"

def compactItems : List Json → List String
  | [] => []
  | value :: rest => compact value :: compactItems rest

def compactMembers : List (String × Json) → List String
  | [] => []
  | (key, value) :: rest => (writeString key ++ ":" ++ compact value) :: compactMembers rest

end

/-- The start of a line at a level: two spaces for each. -/
def margin (level : Nat) : String := String.ofList (List.replicate (2 * level) ' ')

/-- Parts between two brackets, each on a line of its own one level further in; nothing between the
brackets if there are no parts. -/
def bracketed (level : Nat) (opening closing : String) : List String → String
  | [] => opening ++ closing
  | parts =>
    let inner := "\n" ++ margin (level + 1)
    opening ++ inner ++ String.intercalate ("," ++ inner) parts ++ "\n" ++ margin level ++ closing

mutual

/-- The value over several lines, with its first line at `level`. -/
def pretty (level : Nat) : Json → String
  | .null => "null"
  | .bool value => if value then "true" else "false"
  | .number literal => literal
  | .string text => writeString text
  | .array items => bracketed level "[" "]" (prettyItems (level + 1) items)
  | .object members => bracketed level "\x7b" "\x7d" (prettyMembers (level + 1) members)

def prettyItems (level : Nat) : List Json → List String
  | [] => []
  | value :: rest => pretty level value :: prettyItems level rest

def prettyMembers (level : Nat) : List (String × Json) → List String
  | [] => []
  | (key, value) :: rest => (writeString key ++ ": " ++ pretty level value) :: prettyMembers level rest

end

/-! ## Looking into a value -/

/-- The member of that name: the last one, if there are several. -/
def member? (name : String) : Json → Option Json
  | .object members => (members.reverse.find? (·.1 == name)).map (·.2)
  | _ => none

def string? : Json → Option String
  | .string text => some text
  | _ => none

def bool? : Json → Option Bool
  | .bool value => some value
  | _ => none

/-- The number, if it is written with digits only. -/
def nat? : Json → Option Nat
  | .number literal => if literal.toList.all Char.isDigit then literal.toNat? else none
  | _ => none

def items? : Json → Option (List Json)
  | .array items => some items
  | _ => none

def members? : Json → Option (List (String × Json))
  | .object members => some members
  | _ => none

end Json

end RouteTypes
