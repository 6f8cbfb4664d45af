-- The types that type expressions write. A reference to a generic type has as many type arguments as
-- the type has parameters: those behind the last parameter are left out, and for missing ones stand
-- the defaults of their parameters.
import RouteTypes.Typing.Substituted

namespace RouteTypes.Check

/-! ## Object types -/

/-- Adds `[key: string]: Type` to a table. -/
def indexMember (ask : Ask) (node : Node) (table : MemberTable) : Check MemberTable :=
  match node.ascribed? with
  | some type => do
    let index ← ask (.written type)
    return { table with stringIndex := some index }
  | none => pure table

/-- Adds a member of an object type to a table. -/
def typeMember (ask : Ask) (table : MemberTable) (node : Node) : Check MemberTable :=
  match node.kind with
  | .propertySignature => modifyGet (Facts.declareMember .property node.isOptional node table)
  | .methodSignature => modifyGet (Facts.declareMember .method node.isOptional node table)
  | .indexSignature => indexMember ask node table
  | _ => pure table

/-- `{ … }` -/
def objectType (ask : Ask) (node : Node) : Check TypeId := do
  let table ← node.typeMembers.foldlM (typeMember ask) .empty
  modifyGet (Facts.addType (.object
    { ObjectType.bare .anonymous none with
      members := table.members
      stringIndex := table.stringIndex }))

/-! ## References -/

/-- A type parameter that has no default. -/
def isRequired (facts : Facts) (param : SymbolId) : Bool :=
  match (facts.symbol param).declarations.head? with
  | some node => !node.hasToken .eq
  | none => true

/-- Reports a reference that has too many or too few type arguments. -/
def checkArgCount (node : Node) (name : String) (span : Text.Span) (params : List SymbolId)
    (found : Nat) : Check Unit := do
  let required := params.countP (isRequired (← get))
  if found > params.length || found < required then
    report node span (.typeArgumentCount name params.length found)

/-- The default of a type parameter. -/
def defaultOf (ask : Ask) (param : SymbolId) : Check TypeId := do
  let node := ((← get).symbol param).declarations.head?
  writtenType ask (node.bind (·.defaultType?))

/-- The type arguments without those behind the last parameter, and with the missing ones. -/
def fillArgs (ask : Ask) (params : List SymbolId) (args : List TypeId) : Check (List TypeId) := do
  let defaults ← (params.drop args.length).mapM (defaultOf ask)
  return args.take params.length ++ defaults

/-- What a generic alias gives for type arguments. -/
def aliasWith (ask : Ask) (symbol : SymbolId) (params : List SymbolId) (args : List TypeId) :
    Check TypeId := do
  match (← get).aliasInstances.get? (symbol, args) with
  | some known => return known
  | none =>
    let generic ← ask (.declared symbol)
    let substitution ← modifyGet (Facts.shareSubstitution params args)
    let type ← ask (.substituted generic substitution)
    modify fun facts =>
      { facts with aliasInstances := facts.aliasInstances.insert (symbol, args) type }
    return type

/-- What a name stands for as a type. The types are the arguments behind it. -/
def namedType (ask : Ask) (node : Node) (name : String) (span : Text.Span) (symbol : SymbolId)
    (args : List TypeId) : Check TypeId := do
  match ((← get).symbol symbol).kind with
  | .typeParam => ask (.declared symbol)
  | .classDecl | .interface =>
    let generic ← ask (.declared symbol)
    let params := (← get).declaredTypeParams symbol
    checkArgCount node name span params args.length
    if params.isEmpty then return generic
    else modifyGet (Facts.reference generic (← fillArgs ask params args))
  | .alias =>
    let params := (← get).declaredTypeParams symbol
    checkArgCount node name span params args.length
    if params.isEmpty then ask (.declared symbol)
    else aliasWith ask symbol params (← fillArgs ask params args)
  | _ => return .any

/-- The type that a reference refers to. The words for primitive types cannot be declared anew. -/
def referredType (ask : Ask) (node : Node) : Check TypeId := do
  let name := (node.nameRef?.map (·.refText)).getD ""
  match if node.typeArgs.isEmpty then TypeId.ofWord? name else none with
  | some primitive => return primitive
  | none =>
    let span := (node.nameRef?.getD node).span
    match (← get).lookup node .type name with
    | none =>
      report node span (.unresolvedType name)
      return .any
    | some symbol =>
      let args ← node.typeArgs.mapM fun arg => ask (.written arg)
      namedType ask node name span symbol args

/-! ## Type expressions -/

/-- A string, a number or a truth value as a type. -/
def constantType (node : Node) : Check TypeId :=
  match node.firstToken? with
  | none => pure .any
  | some found =>
    match found.token.kind with
    | .stringLiteral => modifyGet (Facts.literalType (.string (unquote found.token.text)))
    | .numberLiteral => modifyGet (Facts.literalType (.number found.token.text))
    | .trueKw => modifyGet (Facts.literalType (.boolean true))
    | .falseKw => modifyGet (Facts.literalType (.boolean false))
    | _ => pure .any

/-- The type that a type expression writes. -/
def readType (ask : Ask) (node : Node) : Check TypeId := do
  match node.kind with
  | .typeRef => referredType ask node
  | .arrayType => arrayOf ask (← writtenType ask node.type?)
  | .unionType =>
    let members ← node.types.mapM fun member => ask (.written member)
    modifyGet (Facts.union members)
  | .typeLiteral => objectType ask node
  | .functionType => functionType [node]
  | .parenType => writtenType ask node.type?
  | .thisType =>
    typeNamedBy ask (node.outwards.find? fun around =>
      around.kind == .classDecl || around.kind == .interfaceDecl)
  | .literalType => constantType node
  | .predefinedType =>
    match node.keyword? with
    | some .voidKw => return .void
    | some .nullKw => return .null
    | _ => return .any
  | _ => return .any

/-- The type that a type expression writes, worked out once. -/
def written (ask : Ask) (node : Node) : Check TypeId := do
  match (← get).writtenTypes.get? node.id with
  | some known => return known
  | none =>
    let type ← readType ask node
    modify fun facts => { facts with writtenTypes := facts.writtenTypes.insert node.id type }
    return type

end RouteTypes.Check
