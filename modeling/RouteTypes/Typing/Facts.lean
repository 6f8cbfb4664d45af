-- What is known about a program while it is checked: its symbols, types and signatures, the scopes, and
-- what has been asked already, so that every question is answered once. Facts are only ever added.
import RouteTypes.Typing.Scope
import RouteTypes.Typing.Problem

namespace RouteTypes

structure Facts where
  symbols : Array Symbol
  types : Array TypeData
  signatures : Array Signature
  substitutions : Array Substitution
  scopes : ScopeTree
  /-- The symbol that a node declares. -/
  declarations : Table NodeId SymbolId
  /-- The signature that a function declares. -/
  declaredSignatures : Table NodeId SignatureId
  /-- The types of literals, of unions by their members, and of type parameters. -/
  literals : Table Literal TypeId
  unions : Table (List TypeId) TypeId
  paramTypes : Table SymbolId TypeId
  substitutionIds : Table Substitution SubstitutionId
  /-- The references to a generic type, by their type arguments. -/
  references : Table (TypeId × List TypeId) TypeId
  /-- The types that a generic alias gives, by its type arguments. -/
  aliasInstances : Table (SymbolId × List TypeId) TypeId
  /-- What a substitution makes of types, symbols and signatures. -/
  substitutedTypes : Table (TypeId × SubstitutionId) TypeId
  substitutedSymbols : Table (SymbolId × SubstitutionId) SymbolId
  substitutedSignatures : Table (SignatureId × SubstitutionId) SignatureId
  /-- The types of the values that symbols stand for. -/
  symbolTypes : Table SymbolId TypeId
  /-- The types that classes, interfaces, aliases and type parameters name. -/
  declaredTypes : Table SymbolId TypeId
  /-- The types of expressions. -/
  expressionTypes : Table NodeId TypeId
  /-- The types that type expressions write. -/
  writtenTypes : Table NodeId TypeId
  /-- What names and member accesses refer to. -/
  resolutions : Table NodeId SymbolId
  /-- The types of parameters that follow from what a function is given to. -/
  contextual : Table NodeId TypeId
  /-- The members that the elements of binding patterns read. -/
  boundMembers : Table SymbolId SymbolId
  /-- The declarations of `Array`, `String` and `Promise` that every program sees. -/
  arraySymbol : Option SymbolId
  stringSymbol : Option SymbolId
  promiseSymbol : Option SymbolId
  /-- The problems found so far, last first. -/
  problems : List (At (Problem TypeId))
deriving Inhabited

namespace Facts

/-! ## Looking up -/

def symbol (facts : Facts) (id : SymbolId) : Symbol := facts.symbols.getD id.index default

def typeData (facts : Facts) (id : TypeId) : TypeData := facts.types.getD id.index .any

def object? (facts : Facts) (id : TypeId) : Option ObjectType := (facts.typeData id).object?

def signature (facts : Facts) (id : SignatureId) : Signature :=
  facts.signatures.getD id.index default

def substitution (facts : Facts) (id : SubstitutionId) : Substitution :=
  facts.substitutions.getD id.index default

def declared? (facts : Facts) (node : Node) : Option SymbolId := facts.declarations.get? node.id

/-- What the name stands for where the node is: the scope is that of the innermost node around that
has one. -/
def lookup (facts : Facts) (node : Node) (sort : NameSort) (name : String) : Option SymbolId :=
  match node.outwards.findSome? fun around => facts.scopes.ownedBy around.id with
  | none => none
  | some scope => facts.scopes.lookup scope sort name

/-- The first member of that name in a list of members. -/
def memberNamed? (facts : Facts) (members : List SymbolId) (name : String) : Option SymbolId :=
  members.find? fun member => (facts.symbol member).name == name

/-- The symbols of the type parameters of a generic declaration. -/
def declaredTypeParams (facts : Facts) (id : SymbolId) : List SymbolId :=
  match (facts.symbol id).declarations.head? with
  | none => []
  | some node =>
    (node.childrenOf (· == .typeParamList)).flatMap fun list => list.children.filterMap facts.declared?

/-! ## Adding -/

def addSymbol (symbol : Symbol) (facts : Facts) : SymbolId × Facts :=
  (⟨facts.symbols.size⟩, { facts with symbols := facts.symbols.push symbol })

/-- A type that is only the same as itself. -/
def addType (data : TypeData) (facts : Facts) : TypeId × Facts :=
  (⟨facts.types.size⟩, { facts with types := facts.types.push data })

/-- The type of a literal. There is one for each. -/
def literalType (value : Literal) (facts : Facts) : TypeId × Facts :=
  match facts.literals.get? value with
  | some id => (id, facts)
  | none =>
    let (id, facts) := facts.addType (.literal value)
    (id, { facts with literals := facts.literals.insert value id })

/-- The union type with these members. There is one for each list of members. -/
def unionType (members : List TypeId) (facts : Facts) : TypeId × Facts :=
  match facts.unions.get? members with
  | some id => (id, facts)
  | none =>
    let (id, facts) := facts.addType (.union members)
    (id, { facts with unions := facts.unions.insert members id })

/-- The type that a type parameter stands for. There is one for each. -/
def paramType (param : SymbolId) (facts : Facts) : TypeId × Facts :=
  match facts.paramTypes.get? param with
  | some id => (id, facts)
  | none =>
    let (id, facts) := facts.addType (.param param)
    (id, { facts with paramTypes := facts.paramTypes.insert param id })

def addSignature (signature : Signature) (facts : Facts) : SignatureId × Facts :=
  (⟨facts.signatures.size⟩, { facts with signatures := facts.signatures.push signature })

/-- The substitution of the type parameters by the types. -/
def shareSubstitution (params : List SymbolId) (types : List TypeId) (facts : Facts) :
    SubstitutionId × Facts :=
  let substitution : Substitution := ⟨params, types⟩
  match facts.substitutionIds.get? substitution with
  | some id => (id, facts)
  | none =>
    let id : SubstitutionId := ⟨facts.substitutions.size⟩
    (id, { facts with
      substitutions := facts.substitutions.push substitution
      substitutionIds := facts.substitutionIds.insert substitution id })

def addDeclaration (symbol : SymbolId) (nodes : List Node) (facts : Facts) : Facts :=
  { facts with symbols := facts.symbols.modify symbol.index fun known =>
      { known with declarations := known.declarations ++ nodes } }

def modifyObject (id : TypeId) (change : ObjectType → ObjectType) (facts : Facts) : Facts :=
  { facts with types := facts.types.modify id.index fun
      | .object type => .object (change type)
      | data => data }

def modifySignature (id : SignatureId) (change : Signature → Signature) (facts : Facts) : Facts :=
  { facts with signatures := facts.signatures.modify id.index change }

/-- Notes a problem of the program. Those of the declarations that it can see are not its own. -/
def report (node : Node) (span : Text.Span) (problem : Problem TypeId) (facts : Facts) : Facts :=
  match node.source with
  | .program => { facts with problems := ⟨span, problem⟩ :: facts.problems }
  | .prelude => facts

/-- Nothing but the primitive types. -/
def initial : Facts :=
  { (default : Facts) with
    types := TypeData.primitives.toArray
    scopes := ScopeTree.new }

end Facts

end RouteTypes
