-- Kinds of node in the tree of a program, and the kinds of its parts: a part is a token or a node. One
-- kind more can be asked for, and is never found.
import RouteTypes.Token.Kind

namespace RouteTypes

/-- The kinds of node. -/
inductive NodeKind where
  -- what could not be placed
  | errorNode
  -- structure
  | sourceFile | stmtList | modifierList
  -- declarations
  | typeAliasDecl | interfaceDecl | classDecl | classBody | functionDecl | varStmt
  | varDeclarator | objectBindingPattern | bindingElement | exportDefault | extendsClause
  | implementsClause
  -- statements
  | exprStmt | returnStmt | ifStmt | block | emptyStmt
  -- members
  | propertyDecl | methodDecl | constructorDecl | propertySignature | methodSignature
  | indexSignature
  -- names, parameters, type arguments
  | name | nameRef | paramList | param | typeAscription | typeParamList | typeParam | typeArgList
  -- expressions
  | literal | thisExpr | parenExpr | objectLiteral | propertyAssignment | shorthandProperty
  | spreadElement | arrayLiteral | arrowFunction | functionExpr | callExpr | argList | newExpr
  | propertyAccess | indexExpr | prefixExpr | binaryExpr | conditionalExpr | assignExpr | asExpr
  -- types
  | typeRef | arrayType | unionType | typeLiteral | functionType | parenType | thisType
  | literalType | predefinedType
deriving DecidableEq, Repr, Inhabited

namespace NodeKind

/-- The name of a kind in the outline of a tree. -/
def label : NodeKind → String
  | .errorNode => "ERROR_NODE"
  | .sourceFile => "SOURCE_FILE"
  | .stmtList => "STMT_LIST"
  | .modifierList => "MODIFIER_LIST"
  | .typeAliasDecl => "TYPE_ALIAS_DECL"
  | .interfaceDecl => "INTERFACE_DECL"
  | .classDecl => "CLASS_DECL"
  | .classBody => "CLASS_BODY"
  | .functionDecl => "FUNCTION_DECL"
  | .varStmt => "VAR_STMT"
  | .varDeclarator => "VAR_DECLARATOR"
  | .objectBindingPattern => "OBJECT_BINDING_PATTERN"
  | .bindingElement => "BINDING_ELEMENT"
  | .exportDefault => "EXPORT_DEFAULT"
  | .extendsClause => "EXTENDS_CLAUSE"
  | .implementsClause => "IMPLEMENTS_CLAUSE"
  | .exprStmt => "EXPR_STMT"
  | .returnStmt => "RETURN_STMT"
  | .ifStmt => "IF_STMT"
  | .block => "BLOCK"
  | .emptyStmt => "EMPTY_STMT"
  | .propertyDecl => "PROPERTY_DECL"
  | .methodDecl => "METHOD_DECL"
  | .constructorDecl => "CONSTRUCTOR_DECL"
  | .propertySignature => "PROPERTY_SIGNATURE"
  | .methodSignature => "METHOD_SIGNATURE"
  | .indexSignature => "INDEX_SIGNATURE"
  | .name => "NAME"
  | .nameRef => "NAME_REF"
  | .paramList => "PARAM_LIST"
  | .param => "PARAM"
  | .typeAscription => "TYPE_ANNOTATION"
  | .typeParamList => "TYPE_PARAM_LIST"
  | .typeParam => "TYPE_PARAM"
  | .typeArgList => "TYPE_ARG_LIST"
  | .literal => "LITERAL"
  | .thisExpr => "THIS_EXPR"
  | .parenExpr => "PAREN_EXPR"
  | .objectLiteral => "OBJECT_LITERAL"
  | .propertyAssignment => "PROPERTY_ASSIGNMENT"
  | .shorthandProperty => "SHORTHAND_PROPERTY"
  | .spreadElement => "SPREAD_ELEMENT"
  | .arrayLiteral => "ARRAY_LITERAL"
  | .arrowFunction => "ARROW_FUNCTION"
  | .functionExpr => "FUNCTION_EXPR"
  | .callExpr => "CALL_EXPR"
  | .argList => "ARG_LIST"
  | .newExpr => "NEW_EXPR"
  | .propertyAccess => "PROPERTY_ACCESS"
  | .indexExpr => "INDEX_EXPR"
  | .prefixExpr => "PREFIX_EXPR"
  | .binaryExpr => "BINARY_EXPR"
  | .conditionalExpr => "CONDITIONAL_EXPR"
  | .assignExpr => "ASSIGN_EXPR"
  | .asExpr => "AS_EXPR"
  | .typeRef => "TYPE_REF"
  | .arrayType => "ARRAY_TYPE"
  | .unionType => "UNION_TYPE"
  | .typeLiteral => "TYPE_LITERAL"
  | .functionType => "FUNCTION_TYPE"
  | .parenType => "PAREN_TYPE"
  | .thisType => "THIS_TYPE"
  | .literalType => "LITERAL_TYPE"
  | .predefinedType => "PREDEFINED_TYPE"

/-- Every kind, in the order of the declaration. -/
def all : List NodeKind := [
  .errorNode, .sourceFile, .stmtList, .modifierList, .typeAliasDecl, .interfaceDecl, .classDecl,
  .classBody, .functionDecl, .varStmt, .varDeclarator, .objectBindingPattern, .bindingElement,
  .exportDefault, .extendsClause, .implementsClause, .exprStmt, .returnStmt, .ifStmt, .block,
  .emptyStmt, .propertyDecl, .methodDecl, .constructorDecl, .propertySignature, .methodSignature,
  .indexSignature, .name, .nameRef, .paramList, .param, .typeAscription, .typeParamList,
  .typeParam, .typeArgList, .literal, .thisExpr, .parenExpr, .objectLiteral, .propertyAssignment,
  .shorthandProperty, .spreadElement, .arrayLiteral, .arrowFunction, .functionExpr, .callExpr,
  .argList, .newExpr, .propertyAccess, .indexExpr, .prefixExpr, .binaryExpr, .conditionalExpr,
  .assignExpr, .asExpr, .typeRef, .arrayType, .unionType, .typeLiteral, .functionType,
  .parenType, .thisType, .literalType, .predefinedType]

/-- Every kind is listed. -/
theorem mem_all (kind : NodeKind) : kind ∈ all := by
  cases kind <;> decide

/-- The kind of that label. -/
def ofLabel? (label : String) : Option NodeKind := all.find? (·.label == label)

/-! ## Classes of kinds -/

/-- The expressions. A name in a type is an expression too, by its kind. -/
def isExpression : NodeKind → Bool
  | .literal | .nameRef | .thisExpr | .parenExpr | .objectLiteral | .arrayLiteral | .arrowFunction
  | .functionExpr | .callExpr | .newExpr | .propertyAccess | .indexExpr | .prefixExpr | .binaryExpr
  | .conditionalExpr | .assignExpr | .asExpr => true
  | _ => false

def isType : NodeKind → Bool
  | .typeRef | .arrayType | .unionType | .typeLiteral | .functionType | .parenType | .thisType
  | .literalType | .predefinedType => true
  | _ => false

def isStatement : NodeKind → Bool
  | .typeAliasDecl | .interfaceDecl | .classDecl | .functionDecl | .varStmt | .exportDefault
  | .exprStmt | .returnStmt | .ifStmt | .block | .emptyStmt => true
  | _ => false

def isClassMember : NodeKind → Bool
  | .propertyDecl | .methodDecl | .constructorDecl | .indexSignature => true
  | _ => false

def isTypeMember : NodeKind → Bool
  | .propertySignature | .methodSignature | .indexSignature => true
  | _ => false

def isObjectMember : NodeKind → Bool
  | .propertyAssignment | .shorthandProperty | .spreadElement => true
  | _ => false

/-- An item of an array or an argument. -/
def isElement (kind : NodeKind) : Bool := kind == .spreadElement || kind.isExpression

end NodeKind

/-- The kind of a part of a tree. -/
inductive Kind where
  | token (kind : TokenKind)
  | node (kind : NodeKind)
  /-- A part that was begun and given up. A finished tree holds none. -/
  | tombstone
deriving DecidableEq, Repr

namespace Kind

def label : Kind → String
  | .token kind => kind.label
  | .node kind => kind.label
  | .tombstone => "TOMBSTONE"

/-- The kind of that label. -/
def ofLabel? (label : String) : Option Kind :=
  if label = Kind.tombstone.label then some .tombstone
  else match TokenKind.ofLabel? label with
    | some kind => some (.token kind)
    | none => (NodeKind.ofLabel? label).map .node

def isTrivia : Kind → Bool
  | .token kind => kind.isTrivia
  | .node _ | .tombstone => false

end Kind

end RouteTypes
