-- Members of object types and the signatures of functions. A method that is declared several times is
-- one member; in an object literal a later member takes the place of an earlier one of that name.
import RouteTypes.Typing.Facts
import RouteTypes.Tree.Parts

namespace RouteTypes

/-- What the body of a class, an interface or an object type says. -/
structure MemberTable where
  members : List SymbolId
  stringIndex : Option TypeId
deriving Repr, Inhabited

namespace MemberTable

def empty : MemberTable := ⟨[], none⟩

end MemberTable

namespace Facts

/-! ## Members -/

/-- The members of an object type, as far as they are known. -/
def membersOf (facts : Facts) (type : TypeId) : List SymbolId :=
  ((facts.object? type).map (·.members)).getD []

def stringIndexOf (facts : Facts) (type : TypeId) : Option TypeId :=
  (facts.object? type).bind (·.stringIndex)

/-- A symbol for a member of that name that a node declares. If the node declares a symbol already, it
goes on to do so. -/
def addNamedMember (name : String) (kind : SymbolKind) (isOptional : Bool) (node : Node)
    (facts : Facts) : SymbolId × Facts :=
  let (id, facts) := facts.addSymbol ⟨name, kind, [node], isOptional, none⟩
  (id, { facts with declarations := facts.declarations.insertIfNew node.id id })

/-- A symbol for a member that a node declares by its name. -/
def addMember (kind : SymbolKind) (isOptional : Bool) (node : Node) (facts : Facts) :
    SymbolId × Facts :=
  facts.addNamedMember (node.declaredName?.getD "") kind isOptional node

/-- The method in a list of members that a method of that name is another declaration of. -/
def overloaded? (facts : Facts) (members : List SymbolId) (id : SymbolId) : Option SymbolId :=
  members.find? fun member =>
    (facts.symbol member).name == (facts.symbol id).name
      && (facts.symbol member).kind == .method && (facts.symbol id).kind == .method

/-- Adds a member at the end. A method that is there already gains its declarations instead. -/
def pushMember (members : List SymbolId) (id : SymbolId) (facts : Facts) : List SymbolId × Facts :=
  match facts.overloaded? members id with
  | some method => (members, facts.addDeclaration method (facts.symbol id).declarations)
  | none => (members ++ [id], facts)

/-- Adds several members at the end. -/
def pushMembers (members : List SymbolId) : List SymbolId → Facts → List SymbolId × Facts
  | [], facts => (members, facts)
  | id :: rest, facts =>
    let (members, facts) := facts.pushMember members id
    pushMembers members rest facts

/-- Adds the member that a node declares to a table. -/
def declareMember (kind : SymbolKind) (isOptional : Bool) (node : Node) (table : MemberTable)
    (facts : Facts) : MemberTable × Facts :=
  let (id, facts) := facts.addMember kind isOptional node
  let (members, facts) := facts.pushMember table.members id
  ({ table with members }, facts)

/-- Puts a member in the place of the one of that name, or else at the end. -/
def setMember (facts : Facts) (members : List SymbolId) (id : SymbolId) : List SymbolId :=
  let name := (facts.symbol id).name
  match members.findIdx? fun member => (facts.symbol member).name == name with
  | some place => members.set place id
  | none => members ++ [id]

/-- Adds the members of a base whose names the table does not have. -/
def inheritMembers (facts : Facts) (inherited members : List SymbolId) : List SymbolId :=
  inherited.foldl (fun members id =>
    if (facts.memberNamed? members (facts.symbol id).name).isSome then members
    else members ++ [id]) members

/-! ## Signatures -/

/-- The symbols that the parts of a list declare. -/
def declaredIn (facts : Facts) (node : Node) (kind : NodeKind) : List SymbolId :=
  (node.childrenOf (· == kind)).flatMap fun list => list.children.filterMap facts.declared?

/-- The signature of a function, a method or a function type. There is one for each node. -/
def signatureOf (node : Node) (facts : Facts) : SignatureId × Facts :=
  match facts.declaredSignatures.get? node.id with
  | some id => (id, facts)
  | none =>
    let (id, facts) := facts.addSignature
      { typeParams := facts.declaredIn node .typeParamList
        params := facts.declaredIn node .paramList
        declaration := some node
        returns := none
        origin := none
        instanceOf := none }
    (id, { facts with declaredSignatures := facts.declaredSignatures.insert node.id id })

end Facts

end RouteTypes
