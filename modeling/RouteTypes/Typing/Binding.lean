-- The names that a program declares. One walk over the tree gives every declaration its symbol and
-- every node that has names of its own its scope. A name that is declared again in the same way belongs
-- to the same symbol; one that is declared in another way keeps its first meaning.
import RouteTypes.Typing.Facts
import RouteTypes.Tree.Parts

namespace RouteTypes.Facts

/-! ## Declarations -/

/-- Whether the variable is declared by `const`. -/
def isConstVariable (node : Node) : Bool :=
  match node.outwards.find? (·.kind == .varStmt) with
  | none => false
  | some stmt =>
    let words := stmt.tokens.map (·.token.kind)
    (words.find? fun word => word == .constKw || word == .letKw || word == .varKw) == some .constKw

/-- Binds a name, unless the scope binds it already. -/
def bindName (scope : ScopeId) (sort : NameSort) (name : String) (symbol : SymbolId)
    (facts : Facts) : Facts :=
  match facts.scopes.declare scope sort name symbol with
  | .ok scopes => { facts with scopes }
  | .error _ => facts

/-- Notes which symbol a node declares. -/
def setDeclared (node : Node) (symbol : SymbolId) (facts : Facts) : Facts :=
  { facts with declarations := facts.declarations.insert node.id symbol }

/-- Gives a declaration its symbol. The answer is the symbol, if it is the first of that name in the
scope. -/
def declare (node : Node) (scope : ScopeId) (sort : NameSort) (kind : SymbolKind) (facts : Facts) :
    Option SymbolId × Facts :=
  match node.declaredName? with
  | none => (none, facts)
  | some name =>
    let fresh : Symbol := ⟨name, kind, [node], node.isOptional, none⟩
    match facts.scopes.getLocal scope sort name with
    | some existing =>
      if (facts.symbol existing).kind = kind then
        (none, (facts.addDeclaration existing [node]).setDeclared node existing)
      else
        let (symbol, facts) := facts.addSymbol fresh
        (none, facts.setDeclared node symbol)
    | none =>
      let (symbol, facts) := facts.addSymbol fresh
      (some symbol, (facts.bindName scope sort name symbol).setDeclared node symbol)

/-- A scope for the node within another one. -/
def openScope (node : Node) (scope : ScopeId) (facts : Facts) : ScopeId × Facts :=
  let (inner, scopes) := facts.scopes.add scope node.id
  (inner, { facts with scopes })

/-! ## The walk -/

/-- The parameter says what `this` is, and binds no name. -/
def isThisParam (node : Node) : Bool :=
  (node.name?.bind (·.firstToken?)).any (·.token.kind == .thisKw)

/-- Declares what the node declares. The answer is the scope of the nodes below. -/
def enter (node : Node) (scope : ScopeId) (facts : Facts) : ScopeId × Facts :=
  match node.kind with
  | .varDeclarator | .bindingElement =>
    (scope, (facts.declare node scope .value (.variable (isConstVariable node))).2)
  | .functionDecl => (facts.declare node scope .value .function).2.openScope node scope
  | .functionExpr =>
    let (inner, facts) := facts.openScope node scope
    (inner, (facts.declare node inner .value .function).2)
  | .classDecl =>
    match facts.declare node scope .type .classDecl with
    | (none, facts) => facts.openScope node scope
    | (some symbol, facts) =>
      -- A class is a value too.
      (facts.bindName scope .value (node.declaredName?.getD "") symbol).openScope node scope
  | .interfaceDecl => (facts.declare node scope .type .interface).2.openScope node scope
  | .typeAliasDecl => (facts.declare node scope .type .alias).2.openScope node scope
  | .typeParam => (scope, (facts.declare node scope .type .typeParam).2)
  | .param =>
    if (node.parentOf? .indexSignature).isSome || isThisParam node then (scope, facts)
    else (scope, (facts.declare node scope .value .param).2)
  | .arrowFunction | .methodDecl | .constructorDecl | .methodSignature | .functionType | .block =>
    facts.openScope node scope
  | _ => (scope, facts)

mutual

/-- Declares everything in a part of a tree. -/
def bindPart (source : Source) (parent : Option Node) (scope : ScopeId) : Part → Facts → Facts
  | .leaf .., facts => facts
  | .node span kind parts, facts =>
    let here : Node := ⟨source, kind, span, parts, parent⟩
    let (inner, facts) := facts.enter here scope
    bindParts source (some here) inner parts facts

def bindParts (source : Source) (parent : Option Node) (scope : ScopeId) : List Part → Facts → Facts
  | [], facts => facts
  | part :: rest, facts =>
    bindParts source parent scope rest (bindPart source parent scope part facts)

end

/-- Declares everything in a tree. What every program sees is in the global scope, a program has a
scope of its own within that. -/
def bindTree (root : Node) (facts : Facts) : Facts :=
  let (scope, facts) := match root.source with
    | .prelude =>
      (ScopeTree.global, { facts with scopes := facts.scopes.setOwner root.id ScopeTree.global })
    | .program => facts.openScope root ScopeTree.global
  bindParts root.source (some root) scope root.parts facts

end RouteTypes.Facts
