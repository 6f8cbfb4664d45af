-- The named parts of a node. A part is the first node right below that has the kind of the part; in a
-- program without misfits that is the part meant, in others it may be a neighbour.
import RouteTypes.Tree.Node

namespace RouteTypes

/-! ## Names -/

/-- The text between two quotes of the same sort, if it stands between such. -/
def unquote (text : String) : String :=
  match text.toList with
  | [] | [_] => text
  | first :: rest =>
    if rest.getLast? == some first && (first = '"' || first = '\x27' || first = '\x60') then
      String.ofList rest.dropLast
    else text

namespace Node

/-- The first token right below that is neither blank nor comment. -/
def firstToken? (node : Node) : Option Placed := node.tokens.find? (!·.token.isTrivia)

/-- What a declared name says: a string without its quotes, every other token as it is. -/
def nameText (name : Node) : String :=
  match name.firstToken? with
  | none => ""
  | some found =>
    if found.token.kind == .stringLiteral then unquote found.token.text else found.token.text

/-- What a reference says. -/
def refText (ref : Node) : String := ((ref.token? .ident).map (·.token.text)).getD ""

/-- The node that names a declaration. -/
def name? (node : Node) : Option Node := node.child? (· == .name)

/-- The name of a declaration. -/
def declaredName? (node : Node) : Option String := node.name?.map (·.nameText)

/-- A reference right below. -/
def nameRef? (node : Node) : Option Node := node.child? (· == .nameRef)

/-! ## Expressions and types -/

def expression? (node : Node) : Option Node := node.child? NodeKind.isExpression

def expressions (node : Node) : List Node := node.childrenOf NodeKind.isExpression

/-- The `n`th expression right below, counted from zero. -/
def expressionAt? (node : Node) (n : Nat) : Option Node := node.expressions[n]?

def type? (node : Node) : Option Node := node.child? NodeKind.isType

def types (node : Node) : List Node := node.childrenOf NodeKind.isType

/-- `: Type` -/
def ascription? (node : Node) : Option Node := node.child? (· == .typeAscription)

/-- The type in `: Type`. -/
def ascribed? (node : Node) : Option Node := node.ascription?.bind type?

mutual

/-- An expression without the parentheses around it; nothing for another part. -/
def peel (source : Source) (parent : Option Node) : Part → Option Node
  | .leaf .. => none
  | .node span kind parts =>
    let here : Node := ⟨source, kind, span, parts, parent⟩
    if kind == .parenExpr then some ((peelFirst source (some here) parts).getD here)
    else if kind.isExpression then some here
    else none

/-- The first expression among the parts, without the parentheses around it. -/
def peelFirst (source : Source) (parent : Option Node) : List Part → Option Node
  | [] => none
  | part :: rest =>
    match peel source parent part with
    | some inner => some inner
    | none => peelFirst source parent rest

end

/-- The expression without the parentheses around it. Parentheses around nothing stay. -/
def withoutParens (node : Node) : Node := (peel node.source node.parent node.part).getD node

/-! ## Functions -/

def typeParamList? (node : Node) : Option Node := node.child? (· == .typeParamList)

/-- The type parameters of a declaration, or of a list of them. -/
def typeParamsOf (list : Node) : List Node := list.childrenOf (· == .typeParam)

def paramList? (node : Node) : Option Node := node.child? (· == .paramList)

def paramsOf (list : Node) : List Node := list.childrenOf (· == .param)

/-- The parameters of a function. -/
def params (node : Node) : List Node := (node.paramList?.map paramsOf).getD []

/-- The type parameters of a declaration. -/
def typeParams (node : Node) : List Node := (node.typeParamList?.map typeParamsOf).getD []

/-- The block of a function. -/
def block? (node : Node) : Option Node := node.child? (· == .block)

/-- The body of an arrow function, its last node: a block or an expression. -/
def arrowBody? (node : Node) : Option Node :=
  node.children.getLast?.filter fun last => last.kind == .block || last.kind.isExpression

/-! ## Words and signs -/

/-- Whether a list of modifiers right below holds the word. -/
def hasModifier (node : Node) (word : TokenKind) : Bool :=
  (node.childrenOf (· == .modifierList)).any (·.hasToken word)

/-- Whether the function is marked `async`. -/
def isAsync (node : Node) : Bool :=
  (node.childrenOf (· == .modifierList)).any fun list =>
    list.tokens.any fun placed => placed.token == ⟨.ident, "async"⟩

def isStatic (node : Node) : Bool := node.hasModifier .staticKw

def isDeclared (node : Node) : Bool := node.hasModifier .declareKw

def isReadonly (node : Node) : Bool := node.hasModifier .readonlyKw

/-- Marked with a question mark. -/
def isOptional (node : Node) : Bool := node.hasToken .question

/-- A parameter that takes all further arguments. -/
def isRest (node : Node) : Bool := node.hasToken .dotDotDot

/-- A parameter of a constructor that is a property too. -/
def isParameterProperty (node : Node) : Bool :=
  [.publicKw, .privateKw, .protectedKw, .readonlyKw].any node.hasModifier

def isConst (node : Node) : Bool := node.hasToken .constKw

/-! ## Calls and member access -/

def typeArgList? (node : Node) : Option Node := node.child? (· == .typeArgList)

/-- The type arguments of a reference or a call. -/
def typeArgs (node : Node) : List Node := (node.typeArgList?.map types).getD []

def argList? (node : Node) : Option Node := node.child? (· == .argList)

/-- The items of an array or of a list of arguments. -/
def elements (node : Node) : List Node := node.childrenOf NodeKind.isElement

/-- The arguments of a call. -/
def args (node : Node) : List Node := (node.argList?.map elements).getD []

/-- The name behind the point of a member access: the last word. -/
def memberToken? (node : Node) : Option Placed :=
  (node.tokens.filter fun placed =>
    placed.token.kind == .ident || placed.token.kind.isKeyword).getLast?

def memberName? (node : Node) : Option String := node.memberToken?.map (·.token.text)

/-- The first token's kind: the operator of a prefix or binary expression, the sort of a literal. -/
def operator? (node : Node) : Option TokenKind := node.firstToken?.map (·.token.kind)

/-! ## Literals -/

/-- What sort of constant a literal is. -/
inductive Constant where
  | number | string | true | false | null
deriving DecidableEq, Repr

/-- The sort of the constant that a literal expression writes. -/
def constant? (node : Node) : Option Constant :=
  match node.operator? with
  | some .numberLiteral => some .number
  | some .stringLiteral => some .string
  | some .trueKw => some .true
  | some .falseKw => some .false
  | some .nullKw => some .null
  | _ => none

/-- The first reserved word right below: `void` or `null` in a type. -/
def keyword? (node : Node) : Option TokenKind :=
  (node.tokens.find? (·.token.kind.isKeyword)).map (·.token.kind)

/-! ## Declarations -/

/-- The statements of a program. -/
def programStatements (root : Node) : List Node :=
  (root.childrenOf (· == .stmtList)).flatMap (·.childrenOf NodeKind.isStatement)

/-- The statements of a block, or the branches of a conditional statement. -/
def statements (node : Node) : List Node := node.childrenOf NodeKind.isStatement

/-- The clause that names what a class or interface extends. -/
def extendsClause? (node : Node) : Option Node := node.child? (· == .extendsClause)

/-- The types that a class or interface extends. -/
def extended (node : Node) : List Node := (node.extendsClause?.map types).getD []

/-- The members of a class. -/
def classMembers (node : Node) : List Node :=
  ((node.child? (· == .classBody)).map (·.childrenOf NodeKind.isClassMember)).getD []

/-- The body of an interface. -/
def typeLiteral? (node : Node) : Option Node := node.child? (· == .typeLiteral)

/-- The members of an object type. -/
def typeMembers (node : Node) : List Node := node.childrenOf NodeKind.isTypeMember

/-- The members of an object literal. -/
def objectMembers (node : Node) : List Node := node.childrenOf NodeKind.isObjectMember

def declarators (node : Node) : List Node := node.childrenOf (· == .varDeclarator)

def pattern? (node : Node) : Option Node := node.child? (· == .objectBindingPattern)

/-- The elements of a binding pattern. -/
def bindingElements (node : Node) : List Node := node.childrenOf (· == .bindingElement)

/-- The node around, if it is of that kind. -/
def parentOf? (node : Node) (kind : NodeKind) : Option Node :=
  node.parent.filter (·.kind == kind)

/-- The key of a binding element that has one besides its name. -/
def bindingKey? (node : Node) : Option Placed :=
  node.tokens.find? fun placed => !placed.token.isTrivia && placed.token.kind != .colon

/-- The property that a binding element reads. -/
def boundProperty (node : Node) : String :=
  match node.bindingKey? with
  | some key => key.token.text
  | none => node.declaredName?.getD ""

/-- The default of a type parameter: the last type, behind an equals sign. -/
def defaultType? (node : Node) : Option Node :=
  if node.hasToken .eq then node.types.getLast? else none

end Node

end RouteTypes
