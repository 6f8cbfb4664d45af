-- The types of expressions. Constants have the primitive type of their value. A call puts its type
-- arguments for the type parameters of the first signature, `any` for missing ones, and functions among
-- its arguments take the types of their parameters from the parameters of the signature.
import RouteTypes.Typing.Value
import RouteTypes.Typing.Substituted

namespace RouteTypes

namespace Check

/-! ## Items -/

/-- An item of a list of arguments, without the dots of a spread. -/
def spreadOrItem? (item : Node) : Option Node :=
  if item.kind == .spreadElement then item.expression? else some item

/-- The type that an item adds to those of an array. A spread array adds the type of its elements. -/
def elementType (ask : Ask) (item : Node) : Check TypeId := do
  if item.kind == .spreadElement then
    let type ← expressionType ask item.expression?
    return ((← get).arrayElement? type).getD .any
  else ask (.expression item)

/-- `[…]` -/
def arrayLiteral (ask : Ask) (node : Node) : Check TypeId := do
  let types ← node.elements.mapM (elementType ask)
  let element ← if types.isEmpty then pure .any else modifyGet (Facts.union types)
  arrayOf ask element

/-- Adds a member of an object literal to a list of members. A spread object adds all it has. -/
def literalMember (ask : Ask) (members : List SymbolId) (node : Node) : Check (List SymbolId) := do
  match node.kind with
  | .spreadElement =>
    let type ← expressionType ask node.expression?
    let added ← membersOf ask type
    return added.foldl (← get).setMember members
  | .shorthandProperty =>
    let name := (node.nameRef?.map (·.refText)).getD ""
    let symbol ← modifyGet (Facts.addNamedMember name .property false node)
    return (← get).setMember members symbol
  | _ =>
    let symbol ← modifyGet (Facts.addMember .property false node)
    return (← get).setMember members symbol

/-- `{ … }` -/
def objectLiteral (ask : Ask) (node : Node) : Check TypeId := do
  let members ← node.objectMembers.foldlM (literalMember ask) []
  modifyGet (Facts.addType (.object { ObjectType.bare .anonymous none with members }))

/-! ## Names -/

/-- Notes what a name or a member access refers to. -/
def resolveTo (node : Node) (symbol : SymbolId) : Check Unit :=
  modify fun facts => { facts with resolutions := facts.resolutions.insert node.id symbol }

/-- The type of a name. Three names need no declaration. -/
def nameType (ask : Ask) (node : Node) : Check TypeId := do
  match (← get).lookup node .value node.refText with
  | some symbol =>
    resolveTo node symbol
    ask (.valueOf symbol)
  | none =>
    match node.refText with
    | "undefined" => return .undefined
    | "NaN" | "Infinity" => return .number
    | name =>
      report node node.span (.unresolvedName name)
      return .any

/-- The class whose instance `this` is: the one around, unless a function that is no arrow function
and no method comes first. -/
def thisOwner? (node : Node) : Option Node :=
  (node.around.find? fun outer =>
    outer.kind == .functionExpr || outer.kind == .functionDecl || outer.kind == .classDecl).filter
    (·.kind == .classDecl)

/-- The type of a member access. -/
def propertyType (ask : Ask) (node : Node) : Check TypeId := do
  let receiver ← expressionType ask node.expression?
  match node.memberName? with
  | none => return .any
  | some name =>
    let span := (node.memberToken?.map (·.span)).getD node.span
    accessedType ask node span receiver name (resolveTo node)

/-- The type of an element: a string of a string, an element of an array, or what an index gives. -/
def indexedType (ask : Ask) (node : Node) : Check TypeId := do
  let receiver ← expressionType ask (node.expressionAt? 0)
  let _ ← expressionType ask (node.expressionAt? 1)
  if receiver == .string then return .string
  match (← get).arrayElement? receiver with
  | some element => return element
  | none =>
    let receiver ← ask (.members receiver)
    return ((← get).stringIndexOf receiver).getD .any

/-! ## Calls -/

/-- Works out the types of arguments. -/
def checkArgs (ask : Ask) (args : List Node) : Check Unit :=
  args.forM fun arg => do
    let _ ← expressionType ask (spreadOrItem? arg)

/-- A list of the length, cut off or filled up with `any`. -/
def padded (types : List TypeId) (length : Nat) : List TypeId :=
  types.take length ++ List.replicate (length - types.length) .any

/-- The signature with type arguments put for its type parameters. -/
def withTypeArgs (ask : Ask) (signature : SignatureId) (args : List Node) : Check SignatureId := do
  let params := ((← get).signature signature).typeParams
  if params.isEmpty then return signature
  let types ← args.mapM fun arg => ask (.written arg)
  let substitution ← modifyGet (Facts.shareSubstitution params (padded types params.length))
  modifyGet (Facts.copySignature substitution signature)

/-- Gives a parameter of a function the type of the parameter that is expected there, unless it has a
type, a default, or a type from elsewhere. -/
def giveType (ask : Ask) (param : Node) (expected : SymbolId) : Check Unit := do
  if param.ascription?.isSome || param.expression?.isSome then return
  if (← get).contextual.contains param.id then return
  let type ← ask (.valueOf expected)
  modify fun facts => { facts with contextual := facts.contextual.insert param.id type }

/-- Gives the parameters of an argument that is a function their types, from the type of the parameter
that it is given for. -/
def giveTypes (ask : Ask) (arg : Node) (param : SymbolId) : Check Unit := do
  let function := arg.withoutParens
  if function.kind == .arrowFunction || function.kind == .functionExpr then
    let expected ← ask (.valueOf param)
    match ← callsOf ask expected with
    | [] => return
    | callback :: _ =>
      let params := (function.childrenOf (· == .paramList)).flatMap (·.paramsOf)
      let expected := ((← get).signature callback).params
      (params.zip expected).forM fun (param, expected) => giveType ask param expected

/-- What a call with the signature gives, once its arguments are looked at. -/
def callWith (ask : Ask) (signature : SignatureId) (typeArgs args : List Node) :
    Check TypeId := do
  let signature ← withTypeArgs ask signature typeArgs
  let params := ((← get).signature signature).params
  (args.zip params).forM fun (arg, param) => giveTypes ask arg param
  checkArgs ask args
  ask (.returnOf signature)

/-- The type of a call. -/
def callType (ask : Ask) (node : Node) : Check TypeId := do
  let callee ← expressionType ask node.expression?
  match ← callsOf ask callee with
  | signature :: _ => callWith ask signature node.typeArgs node.args
  | [] =>
    checkArgs ask node.args
    match (← get).typeData callee with
    | .any | .unknown | .param _ => return .any
    | _ =>
      report node (node.expression?.getD node).span (.notCallable callee)
      return .any

/-- The class or interface of a name, which `new` can make instances of though no value has that
type. -/
def constructedByName? (facts : Facts) (callee : Option Node) : Option SymbolId := do
  let ref ← callee.filter (·.kind == .nameRef)
  let symbol ← facts.lookup ref .type ref.refText
  let kind := (facts.symbol symbol).kind
  if kind = .classDecl ∨ kind = .interface then some symbol else none

/-- The type of `new`. -/
def newType (ask : Ask) (node : Node) : Check TypeId := do
  let callee ← expressionType ask node.expression?
  match (((← get).object? callee).map (·.constructs)).getD [] with
  | signature :: _ => callWith ask signature node.typeArgs node.args
  | [] =>
    checkArgs ask node.args
    match constructedByName? (← get) node.expression? with
    | some symbol =>
      let generic ← ask (.declared symbol)
      let params := (← get).declaredTypeParams symbol
      let types ← node.typeArgs.mapM fun arg => ask (.written arg)
      modifyGet (Facts.reference generic (padded types params.length))
    | none =>
      if callee != .any then
        report node (node.expression?.getD node).span (.notConstructable callee)
      return .any

/-! ## Operators -/

/-- The type of a sum. -/
def sumType (left right : TypeId) : TypeId :=
  if left == .string || right == .string then .string
  else if left == .number && right == .number then .number
  else .any

/-- The type of an expression with an operator between two others. -/
def binaryType (operator : Option TokenKind) (left right : TypeId) : Check TypeId :=
  match operator with
  | some .plus => pure (sumType left right)
  | some .minus | some .star | some .slash | some .percent => pure .number
  | some .eqEq | some .eqEqEq | some .notEq | some .notEqEq
  | some .lt | some .gt | some .ltEq | some .gtEq => pure .boolean
  | some .ampAmp => pure right
  | some .pipePipe | some .questionQuestion => modifyGet (Facts.union [left, right])
  | _ => pure .any

/-- The type of an expression with an operator in front. -/
def unaryType : Option TokenKind → TypeId
  | some .bang => .boolean
  | some .minus | some .plus => .number
  | some .typeofKw => .string
  | some .voidKw => .undefined
  | _ => .any

/-! ## Expressions -/

/-- The type of a constant. -/
def constantValueType (node : Node) : TypeId :=
  match node.constant? with
  | some .number => .number
  | some .string => .string
  | some .true | some .false => .boolean
  | some .null => .null
  | none => .any

/-- The type of an expression. -/
def readExpression (ask : Ask) (node : Node) : Check TypeId := do
  match node.kind with
  | .literal => return constantValueType node
  | .nameRef => nameType ask node
  | .thisExpr => typeNamedBy ask (thisOwner? node)
  | .parenExpr => expressionType ask node.expression?
  | .objectLiteral => objectLiteral ask node
  | .arrayLiteral => arrayLiteral ask node
  | .arrowFunction | .functionExpr => functionType [node]
  | .callExpr => callType ask node
  | .newExpr => newType ask node
  | .propertyAccess => propertyType ask node
  | .indexExpr => indexedType ask node
  | .prefixExpr =>
    let _ ← expressionType ask node.expression?
    return unaryType node.operator?
  | .binaryExpr =>
    let left ← expressionType ask (node.expressionAt? 0)
    let right ← expressionType ask (node.expressionAt? 1)
    binaryType node.operator? left right
  | .conditionalExpr =>
    let _ ← expressionType ask (node.expressionAt? 0)
    let yes ← expressionType ask (node.expressionAt? 1)
    let no ← expressionType ask (node.expressionAt? 2)
    modifyGet (Facts.union [yes, no])
  | .assignExpr =>
    let _ ← expressionType ask (node.expressionAt? 0)
    expressionType ask (node.expressionAt? 1)
  | .asExpr =>
    let _ ← expressionType ask node.expression?
    writtenType ask node.type?
  | _ => return .any

/-- The type of an expression, worked out once. -/
def expression (ask : Ask) (node : Node) : Check TypeId := do
  match (← get).expressionTypes.get? node.id with
  | some known => return known
  | none =>
    let type ← readExpression ask node
    modifyGet fun facts =>
      let (type, expressionTypes) := facts.expressionTypes.keepFirst node.id type
      (type, { facts with expressionTypes })

end Check

end RouteTypes
