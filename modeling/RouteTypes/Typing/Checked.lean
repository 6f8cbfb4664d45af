-- Checked programs. First every name is declared, then every expression and every written type of the
-- program is looked at from the outside in and from left to right, and in the end everything else is
-- worked out that can be asked. What may go on for ever is stopped after a few rounds.
import RouteTypes.Typing.Binding
import RouteTypes.Typing.Declared
import RouteTypes.Typing.Expression
import RouteTypes.Typing.Prelude

namespace RouteTypes

namespace Check

/-! ## All rules together -/

/-- The rule for each question. -/
def answerWith (ask : Ask) : Query → Check TypeId
  | .valueOf symbol => valueOf ask symbol
  | .declared symbol => declared ask symbol
  | .written node => written ask node
  | .expression node => expression ask node
  | .returnOf signature => returnOf ask signature
  | .substituted type substitution => substituted ask type substitution
  | .members type => fillMembers ask type

/-- Answers questions that lead to questions at most that deep. -/
def answer : Nat → Ask
  | 0, _ => tooDeep
  | depth + 1, query => answerWith (answer depth) query

/-! ## Looking at a program -/

mutual

/-- Looks at the types and expressions in a part of a tree. A written type is looked at as a whole. -/
def lookAt (ask : Ask) (source : Source) (parent : Option Node) : Part → Check Unit
  | .leaf .. => pure ()
  | .node span kind parts => do
    let here : Node := ⟨source, kind, span, parts, parent⟩
    if kind.isType then
      let _ ← ask (.written here)
    else
      if kind.isExpression then
        let _ ← ask (.expression here)
      lookAtAll ask source (some here) parts

def lookAtAll (ask : Ask) (source : Source) (parent : Option Node) : List Part → Check Unit
  | [] => pure ()
  | part :: rest => do
    lookAt ask source parent part
    lookAtAll ask source parent rest

end

/-- How much there is of what can be asked for. -/
def extent (facts : Facts) : Nat × Nat × Nat :=
  (facts.symbols.size, facts.types.size, facts.signatures.size)

/-- Asks a question about each of the numbers below the bound. -/
def forAll (ask : Ask) (bound : Nat) (query : Facts → Nat → Query) : Check Unit :=
  (List.range bound).forM fun index => do
    let _ ← ask (query (← get) index)

/-- Works out everything there is to ask for. -/
def round (ask : Ask) : Check Unit := do
  forAll ask (← get).symbols.size fun facts index =>
    if (facts.symbol ⟨index⟩).kind.isValue then .valueOf ⟨index⟩ else .declared ⟨index⟩
  forAll ask (← get).types.size fun _ index => .members ⟨index⟩
  forAll ask (← get).signatures.size fun _ index => .returnOf ⟨index⟩

/-- Works out everything there is to ask for, and then what has come up by that, for at most so many
rounds. -/
def rounds (ask : Ask) : Nat → Check Unit
  | 0 => pure ()
  | more + 1 => do
    let before := extent (← get)
    round ask
    if extent (← get) ≠ before then rounds ask more

/-- Looks at a whole program. -/
def program (ask : Ask) (root : Node) : Check Unit := do
  lookAtAll ask root.source (some root) root.parts
  rounds ask 16

end Check

/-! ## Constants that stand for others -/

namespace Facts

/-- The facts before anything is asked: what the prelude and the program declare. -/
def bound (prelude root : Node) : Facts :=
  let facts := (Facts.initial.bindTree prelude).bindTree root
  let seen (name : String) := facts.scopes.getLocal ScopeTree.global .type name
  { facts with
    arraySymbol := seen "Array"
    stringSymbol := seen "String"
    promiseSymbol := seen "Promise" }

/-- What the symbol stands for, if it is a constant whose value is written as a name or a member
access: what that refers to. -/
def aliased? (facts : Facts) (id : SymbolId) : Option SymbolId :=
  let symbol := facts.symbol id
  if symbol.kind = .variable true then
    (facts.boundMembers.get? id).or do
      let value ← (← symbol.declarations.head?).expression?
      let value := value.withoutParens
      if value.kind == .nameRef || value.kind == .propertyAccess then
        facts.resolutions.get? value.id
      else none
  else none

end Facts

/-! ## Checked programs -/

/-- What is known about a program in the end. -/
structure Checked where
  facts : Facts

namespace Checked

/-- What is known of the program with that root if questions may lead to questions that deep. The
prelude holds the declarations that the program can see besides its own. -/
def upTo (depth : Nat) (prelude root : Node) : Option Checked :=
  (((Check.program (Check.answer depth) root).run .empty).run (Facts.bound prelude root)).map
    fun (_, facts) => ⟨facts⟩

/-- A depth that is enough, unless a question leads to itself without end. -/
def depthFor (root : Node) : Nat := 1000 * (root.descendants.length + 1000)

/-- Checks the program with that root. -/
def ofRoot? (root : Node) : Option Checked := upTo (depthFor root) preludeRoot root

/-! ### Symbols -/

def symbol (checked : Checked) (id : SymbolId) : Symbol := checked.facts.symbol id

def signature (checked : Checked) (id : SignatureId) : Signature := checked.facts.signature id

/-- What a name or a member access refers to. -/
def resolve (checked : Checked) (node : Node) : Option SymbolId :=
  checked.facts.resolutions.get? node.id

/-- The symbol that the constant stands for, followed for so many steps. -/
def followFor (checked : Checked) : Nat → SymbolId → SymbolId
  | 0, id => id
  | steps + 1, id =>
    match checked.facts.aliased? id with
    | some next => if next = id then id else followFor checked steps next
    | none => id

/-- The symbol that a constant stands for in the end. Longer ways than this lead in a circle. -/
def follow (checked : Checked) (id : SymbolId) : SymbolId := checked.followFor 64 id

/-- What a name or a member access refers to in the end. -/
def resolveAliased (checked : Checked) (node : Node) : Option SymbolId :=
  (checked.resolve node).map checked.follow

/-- The symbol that a node declares. -/
def declared? (checked : Checked) (node : Node) : Option SymbolId := checked.facts.declared? node

/-- The symbol that a copy is made from in the end. A copy has a higher number than its origin. -/
def originOf (checked : Checked) (id : SymbolId) : SymbolId :=
  match (checked.symbol id).origin with
  | none => id
  | some (origin, _) =>
    if origin.index < id.index then originOf checked origin else origin
termination_by id.index

/-- The first declaration of a value. -/
def valueDeclaration? (checked : Checked) (id : SymbolId) : Option Node :=
  let symbol := checked.symbol (checked.originOf id)
  if symbol.kind.isValue then symbol.declarations.head? else none

/-! ### Types -/

def typeData (checked : Checked) (id : TypeId) : TypeData := checked.facts.typeData id

def object? (checked : Checked) (id : TypeId) : Option ObjectType := checked.facts.object? id

/-- The type of the value that a symbol stands for. -/
def typeOfSymbol (checked : Checked) (id : SymbolId) : TypeId :=
  (checked.facts.symbolTypes.get? id).getD .any

/-- The type of an expression, or of what a node declares. -/
def typeOfNode (checked : Checked) (node : Node) : TypeId :=
  match checked.facts.expressionTypes.get? node.id with
  | some type => type
  | none => ((checked.declared? node).map checked.typeOfSymbol).getD .any

/-- Properties and methods in the order of their declarations. -/
def members (checked : Checked) (type : TypeId) : List SymbolId := checked.facts.membersOf type

def property? (checked : Checked) (type : TypeId) (name : String) : Option SymbolId :=
  checked.facts.memberNamed? (checked.members type) name

def calls (checked : Checked) (type : TypeId) : List SignatureId :=
  ((checked.object? type).map (·.calls)).getD []

def typeArguments (checked : Checked) (type : TypeId) : List TypeId :=
  ((checked.object? type).map (·.typeArguments)).getD []

/-- What a call with the signature gives. -/
def returnType (checked : Checked) (id : SignatureId) : TypeId :=
  (checked.signature id).returns.getD .any

/-- The name of the class or interface that an object type comes from. -/
def typeName? (checked : Checked) (type : TypeId) : Option String :=
  match checked.object? type with
  | none => none
  | some object =>
    if object.kind = .anonymous then none else object.symbol.map fun id => (checked.symbol id).name

/-- Whether the type is `T[]`. -/
def isArray (checked : Checked) (type : TypeId) : Bool :=
  match checked.object? type with
  | none => false
  | some object =>
    object.kind == .reference && object.symbol.isSome && object.symbol == checked.facts.arraySymbol

/-- Whether the type is that of the instances of a class. -/
def isClass (checked : Checked) (type : TypeId) : Bool :=
  (checked.object? type).any (·.kind == .classType)

end Checked

end RouteTypes
