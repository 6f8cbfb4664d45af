-- The types of the values that symbols stand for, and what calls give. A type that is written down is
-- taken as it is; otherwise the type follows from an initial value or from the body of a function.
import RouteTypes.Typing.Access

namespace RouteTypes

/-! ## Return statements -/

namespace Node

mutual

/-- The return statements of a part of a body, without those of functions and classes within it. -/
def returnsIn (source : Source) (parent : Option Node) : Part → List Node
  | .leaf .. => []
  | .node span kind parts =>
    let here : Node := ⟨source, kind, span, parts, parent⟩
    match kind with
    | .returnStmt => [here]
    | .arrowFunction | .functionExpr | .functionDecl | .classDecl => []
    | _ => returnsInAll source (some here) parts

def returnsInAll (source : Source) (parent : Option Node) : List Part → List Node
  | [] => []
  | part :: rest => returnsIn source parent part ++ returnsInAll source parent rest

end

/-- The return statements of a function with that body, in the order of the source. -/
def returns (body : Node) : List Node := returnsInAll body.source (some body) body.parts

end Node

namespace Check

/-! ## Variables and parameters -/

/-- The type that is written down, or else that of the initial value. -/
def initializedType (ask : Ask) (node : Node) : Check TypeId :=
  ascribedOr ask node (expressionType ask node.expression?)

/-- The type of a parameter. One without a type and a default has the type that follows from what the
function is given to. -/
def paramValueType (ask : Ask) (node : Node) : Check TypeId :=
  ascribedOr ask node do
    match node.expression? with
    | some default => ask (.expression default)
    | none =>
      match (← get).contextual.get? node.id with
      | some type => return type
      | none => if node.isRest then arrayOf ask .any else return .any

/-- `const { key: name } = value`: the type of the member. It is remembered as what the name stands
for. -/
def boundType (ask : Ask) (symbol : SymbolId) (node : Node) : Check TypeId := do
  match (node.parentOf? .objectBindingPattern).bind (·.parentOf? .varDeclarator) with
  | none => return .any
  | some declarator =>
    if declarator.ascribed?.isNone && declarator.expression?.isNone then return .any
    let type ← initializedType ask declarator
    let span := (node.bindingKey?.map (·.span)).getD node.span
    accessedType ask node span type node.boundProperty fun member =>
      modify fun facts =>
        { facts with boundMembers := facts.boundMembers.insert symbol member }

/-! ## Classes as values -/

/-- Adds a static member to a list of members. -/
def staticMember (members : List SymbolId) (node : Node) : Check (List SymbolId) := do
  let add (kind : SymbolKind) (isOptional : Bool) : Check (List SymbolId) := do
    let symbol ← modifyGet (Facts.addMember kind isOptional node)
    modifyGet (Facts.pushMember members symbol)
  match node.kind with
  | .propertyDecl => if node.isStatic then add .property node.isOptional else return members
  | .methodDecl => if node.isStatic then add .method false else return members
  | _ => return members

/-- A class as a value: its static members, and `new`, which makes instances of the class. -/
def classValueType (ask : Ask) (symbol : SymbolId) (node : Node) : Check TypeId := do
  let instances ← ask (.declared symbol)
  let typeParams := (((← get).object? instances).map (·.typeParams)).getD []
  let members ← node.classMembers.foldlM staticMember []
  let construct ← match node.classMembers.find? (·.kind == .constructorDecl) with
    | some constructor => modifyGet (Facts.signatureOf constructor)
    | none => modifyGet (Facts.addSignature default)
  modify (Facts.modifySignature construct fun known =>
    { known with typeParams, instanceOf := some symbol })
  modifyGet (Facts.addType (.object
    { ObjectType.bare .constructor (some symbol) with members, constructs := [construct] }))

/-! ## Symbols -/

/-- The type of the value that a declared symbol stands for. -/
def declaredValueType (ask : Ask) (id : SymbolId) (symbol : Symbol) (node : Node) :
    Check TypeId :=
  match symbol.kind with
  | .variable _ =>
    if node.kind == .bindingElement then boundType ask id node else initializedType ask node
  | .param => paramValueType ask node
  | .function | .method => functionType symbol.declarations
  | .classDecl => classValueType ask id node
  | .property =>
    match node.kind with
    | .propertyAssignment | .shorthandProperty => expressionType ask node.expression?
    | .param => paramValueType ask node
    | _ => initializedType ask node
  | .interface | .alias | .typeParam => pure .any

/-- The type of the value that a symbol stands for. -/
def valueType (ask : Ask) (id : SymbolId) : Check TypeId := do
  let symbol := (← get).symbol id
  match symbol.origin with
  | some (origin, substitution) =>
    let generic ← ask (.valueOf origin)
    ask (.substituted generic substitution)
  | none => ifThere symbol.declarations.head? (declaredValueType ask id symbol)

/-- The type of the value that a symbol stands for, worked out once; `any`, if that is being done. -/
def valueOf (ask : Ask) (symbol : SymbolId) : Check TypeId := do
  match (← get).symbolTypes.get? symbol with
  | some known => return known
  | none =>
    if (← read).values.contains symbol then return .any
    let type ← withReader (fun pending => { pending with values := symbol :: pending.values })
      (valueType ask symbol)
    modifyGet fun facts =>
      let (type, symbolTypes) := facts.symbolTypes.keepFirst symbol type
      (type, { facts with symbolTypes })

/-! ## Calls -/

/-- What a return statement gives. -/
def returnedType (ask : Ask) (node : Node) : Check TypeId :=
  match node.expression? with
  | some value => ask (.expression value)
  | none => pure .undefined

/-- What a function gives that does not say it: what its return statements give, or the expression
that an arrow function is. -/
def inferredReturn (ask : Ask) (node : Node) : Check TypeId :=
  match node.block? with
  | some body =>
    if body.returns.isEmpty then pure .void
    else do modifyGet (Facts.union (← body.returns.mapM (returnedType ask)))
  | none =>
    if node.kind == .arrowFunction then expressionType ask node.arrowBody?
    else pure .any

/-- What a call of a declared function gives. -/
def declaredReturn (ask : Ask) (node : Node) : Check TypeId :=
  match node.kind with
  | .functionType => writtenType ask node.type?
  | .constructorDecl => pure .void
  | _ => ascribedOr ask node do
    let type ← inferredReturn ask node
    if node.isAsync then promiseOf ask type else return type

/-- What a call with the signature gives. -/
def returnType (ask : Ask) (id : SignatureId) : Check TypeId := do
  let signature := (← get).signature id
  match signature.origin, signature.instanceOf with
  | some (origin, substitution), _ =>
    let generic ← ask (.returnOf origin)
    ask (.substituted generic substitution)
  | none, some made => ask (.declared made)
  | none, none => ifThere signature.declaration (declaredReturn ask)

/-- What a call with the signature gives, worked out once; `any`, if that is being done. -/
def returnOf (ask : Ask) (id : SignatureId) : Check TypeId := do
  match ((← get).signature id).returns with
  | some known => return known
  | none =>
    if (← read).returns.contains id then return .any
    let type ← withReader (fun pending => { pending with returns := id :: pending.returns })
      (returnType ask id)
    modifyGet fun facts =>
      let type := ((facts.signature id).returns).getD type
      (type, facts.modifySignature id ({ · with returns := some type }))

end Check

end RouteTypes
