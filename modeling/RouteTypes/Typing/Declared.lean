-- The types that classes, interfaces and aliases name. The type of a class or an interface is known
-- before its body is read, so the body may mention it. It has its own members first, then those of its
-- bases that it does not have itself.
import RouteTypes.Typing.Written

namespace RouteTypes.Check

/-! ## Bodies -/

/-- Adds what a member of a class means for its instances to a table. Parameters of the constructor
can be properties. -/
def instanceMember (ask : Ask) (table : MemberTable) (node : Node) : Check MemberTable :=
  match node.kind with
  | .propertyDecl =>
    if node.isStatic then pure table
    else modifyGet (Facts.declareMember .property node.isOptional node table)
  | .methodDecl =>
    if node.isStatic then pure table
    else modifyGet (Facts.declareMember .method false node table)
  | .constructorDecl =>
    (node.params.filter (·.isParameterProperty)).foldlM (fun table param =>
      modifyGet (Facts.declareMember .property param.isOptional param table)) table
  | .indexSignature => indexMember ask node table
  | _ => pure table

/-- Adds the body of an interface to a table. -/
def interfaceBody (ask : Ask) (table : MemberTable) (node : Node) : Check MemberTable := do
  match node.typeLiteral? with
  | none => return table
  | some body =>
    let type ← ask (.written body)
    let added ← membersOf ask type
    let members ← modifyGet (Facts.pushMembers table.members added)
    let index := (← get).stringIndexOf type
    return ⟨members, table.stringIndex.or index⟩

/-- Adds what a base has. -/
def inheritFrom (ask : Ask) (table : MemberTable) (base : Node) : Check MemberTable := do
  let type ← ask (.written base)
  let inherited ← membersOf ask type
  let facts ← get
  return ⟨facts.inheritMembers inherited table.members,
    table.stringIndex.or (facts.stringIndexOf type)⟩

/-- The table of a class. The first base of the first declaration that has one is its base. -/
def classTable (ask : Ask) (declarations : List Node) : Check MemberTable := do
  let table ← (declarations.flatMap (·.classMembers)).foldlM (instanceMember ask) .empty
  match declarations.findSome? (·.extended.head?) with
  | some base => inheritFrom ask table base
  | none => return table

/-- The table of an interface. -/
def interfaceTable (ask : Ask) (declarations : List Node) : Check MemberTable := do
  let table ← declarations.foldlM (interfaceBody ask) .empty
  (declarations.flatMap (·.extended)).foldlM (inheritFrom ask) table

/-! ## Declarations -/

/-- Notes which type a symbol names. -/
def setDeclaredType (symbol : SymbolId) (type : TypeId) : Check Unit :=
  modify fun facts => { facts with declaredTypes := facts.declaredTypes.insert symbol type }

/-- The type of a class or an interface with the members that the table says. -/
def declareObject (symbol : SymbolId) (kind : ObjectKind)
    (table : List Node → Check MemberTable) : Check TypeId := do
  let typeParams := (← get).declaredTypeParams symbol
  let type ← modifyGet (Facts.addType (.object
    { ObjectType.bare kind (some symbol) with typeParams }))
  setDeclaredType symbol type
  let table ← table ((← get).symbol symbol).declarations
  modify (Facts.modifyObject type fun known =>
    { known with members := table.members, stringIndex := table.stringIndex })
  return type

/-- What an alias stands for; `any`, if that is being worked out. -/
def aliasType (ask : Ask) (symbol : SymbolId) : Check TypeId := do
  if (← read).aliases.contains symbol then return .any
  let node := ((← get).symbol symbol).declarations.head?
  let type ← withReader (fun pending => { pending with aliases := symbol :: pending.aliases })
    (writtenType ask (node.bind (·.type?)))
  modifyGet fun facts =>
    let (type, declaredTypes) := facts.declaredTypes.keepFirst symbol type
    (type, { facts with declaredTypes })

/-- The type that a symbol names, worked out once. -/
def declared (ask : Ask) (symbol : SymbolId) : Check TypeId := do
  match (← get).declaredTypes.get? symbol with
  | some known => return known
  | none =>
    match ((← get).symbol symbol).kind with
    | .typeParam =>
      let type ← modifyGet (Facts.paramType symbol)
      setDeclaredType symbol type
      return type
    | .classDecl => declareObject symbol .classType (classTable ask)
    | .interface => declareObject symbol .interface (interfaceTable ask)
    | .alias => aliasType ask symbol
    | _ => return .any

end RouteTypes.Check
