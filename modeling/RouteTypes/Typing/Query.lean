-- Questions about types. Most are answered with the help of the answers of others, so each rule takes
-- what answers them as an argument, `ask`; they are tied together once all rules are there. A question
-- that comes up again while it is being answered has the answer `any`.
import RouteTypes.Typing.Combine
import RouteTypes.Typing.Member

namespace RouteTypes

/-- What can be asked. The answer is a type. -/
inductive Query where
  /-- The type of the value that a symbol stands for. -/
  | valueOf (symbol : SymbolId)
  /-- The type that a class, an interface, an alias or a type parameter names. -/
  | declared (symbol : SymbolId)
  /-- The type that a type expression writes. -/
  | written (node : Node)
  /-- The type of an expression. -/
  | expression (node : Node)
  /-- What a call gives. -/
  | returnOf (signature : SignatureId)
  /-- The type with types put for type parameters. -/
  | substituted (type : TypeId) (substitution : SubstitutionId)
  /-- The type itself, with its members known from now on. -/
  | members (type : TypeId)

/-- What is being worked out around a question. -/
structure Pending where
  values : List SymbolId
  aliases : List SymbolId
  returns : List SignatureId

/-- Nothing is being worked out yet. -/
def Pending.empty : Pending := ⟨[], [], []⟩

/-- Something that is worked out by noting facts. There is no result if questions lead to questions
more deeply than allowed. -/
abbrev Check := ReaderT Pending (StateT Facts Option)

abbrev Ask := Query → Check TypeId

namespace Check

/-- No result. -/
def tooDeep {α : Type} : Check α := fun _ _ => none

/-- Does something if a node is there; otherwise the type is not known. -/
def ifThere (node : Option Node) (type : Node → Check TypeId) : Check TypeId :=
  match node with
  | some node => type node
  | none => pure .any

/-- The type of an expression that may be missing. -/
def expressionType (ask : Ask) (node : Option Node) : Check TypeId :=
  ifThere node fun node => ask (.expression node)

/-- The type that a type expression writes, which may be missing. -/
def writtenType (ask : Ask) (node : Option Node) : Check TypeId :=
  ifThere node fun node => ask (.written node)

/-- The type that is written behind a colon right below the node, if one is. -/
def ascribedOr (ask : Ask) (node : Node) (other : Check TypeId) : Check TypeId :=
  match node.ascribed? with
  | some type => ask (.written type)
  | none => other

/-- The type that a declaration names. -/
def typeNamedBy (ask : Ask) (declaration : Option Node) : Check TypeId := do
  match declaration.bind (← get).declared? with
  | some symbol => ask (.declared symbol)
  | none => pure .any

/-- The members of a type. -/
def membersOf (ask : Ask) (type : TypeId) : Check (List SymbolId) := do
  let type ← ask (.members type)
  return (← get).membersOf type

/-- The ways to call a value of the type. -/
def callsOf (ask : Ask) (type : TypeId) : Check (List SignatureId) := do
  let type ← ask (.members type)
  return (((← get).object? type).map (·.calls)).getD []

/-- A generic type that every program sees, with one type argument. -/
def applied (ask : Ask) (generic : Option SymbolId) (arg : TypeId) : Check TypeId := do
  match generic with
  | some symbol => modifyGet (Facts.reference (← ask (.declared symbol)) [arg])
  | none => pure .any

/-- `T[]` -/
def arrayOf (ask : Ask) (element : TypeId) : Check TypeId := do
  applied ask (← get).arraySymbol element

/-- `Promise<T>` -/
def promiseOf (ask : Ask) (type : TypeId) : Check TypeId := do
  applied ask (← get).promiseSymbol type

/-- The type of a function with these declarations. -/
def functionType (declarations : List Node) : Check TypeId := do
  let calls ← modifyGet (Facts.each Facts.signatureOf declarations)
  modifyGet (Facts.addType (.object { ObjectType.bare .anonymous none with calls }))

/-- Notes a problem of the program. -/
def report (node : Node) (span : Text.Span) (problem : Problem TypeId) : Check Unit :=
  modify (Facts.report node span problem)

end Check

end RouteTypes
