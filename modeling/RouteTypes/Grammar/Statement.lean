-- Statements and declarations. A semicolon may be left out wherever a statement ends.
import RouteTypes.Grammar.Expression

namespace RouteTypes.Grammar

/-! ## Classes and interfaces -/

/-- `extends A, B` or `implements A` -/
def heritageClause (word : TokenKind) (kind : NodeKind) : Steps :=
  .given (.next [word]) (.emit kind [.expect word, .listed (.call .type)])

def classModifiers : List TokenKind :=
  [.publicKw, .privateKw, .protectedKw, .staticKw, .readonlyKw, .declareKw]

/-- A property or method of a class, behind its modifiers. -/
def namedClassMember : Body :=
  .seq (.all [propertyName, .branch (.next [.question]) (.expect .question) (.skip .bang)])
    (.branch (.next [.lParen, .lt])
      (.ofSteps .methodDecl [typeParamListIfAny, paramList, typeAscriptionIfAny, bodyOrSemicolon])
      (.ofSteps .propertyDecl
        [typeAscriptionIfAny, .behind .eq (.call .expression), .skip .semicolon]))

def constructorDecl : Body := .ofSteps .constructorDecl [.expect .ident, paramList, bodyOrSemicolon]

def classMember : Steps :=
  .part (.node (.seq (memberModifiers classModifiers)
    (.branch (.both (.word "constructor") (.second [.lParen])) constructorDecl
      (.branch (.next [.lBracket]) indexSignature namedClassMember))))

def classBody : Steps :=
  .emit .classBody
    [.braced .classBody (.branch (.next [.semicolon]) (.expect .semicolon) classMember)]

/-! ## Declarations

Each is read behind its modifiers. -/

/-- `type Name<T> = Type;` -/
def typeAlias : Body :=
  .ofSteps .typeAliasDecl
    [.expect .typeKw,
      name,
      typeParamListIfAny,
      .expect .eq,
      .unlessMisfit (.call .type),
      .skip .semicolon]

/-- `interface Name<T> extends A, B { members }` -/
def interface : Body :=
  .ofSteps .interfaceDecl
    [.expect .interfaceKw,
      name,
      typeParamListIfAny,
      heritageClause .extendsKw .extendsClause,
      .unlessMisfit (.part typeLiteral)]

/-- `class Name<T> extends Base implements I { members }` -/
def classDecl : Body :=
  .ofSteps .classDecl
    [.expect .classKw,
      name,
      typeParamListIfAny,
      heritageClause .extendsKw .extendsClause,
      heritageClause .implementsKw .implementsClause,
      .unlessMisfit classBody]

/-- `function name<T>(params): R { body }` -/
def functionDecl : Body :=
  .ofSteps .functionDecl
    [.expect .functionKw,
      name,
      typeParamListIfAny,
      paramList,
      typeAscriptionIfAny,
      bodyOrSemicolon]

/-- `a` or `key: a`. Only the name that is bound is a node. -/
def bindingElement : Steps :=
  .emit .bindingElement
    [.given (.both (.second [.colon]) (.next memberTokens))
        (.all [.take memberTokens, .expect .colon]),
      name]

/-- `{ a, key: b }` in place of a name. -/
def objectBindingPattern : Steps :=
  .emit .objectBindingPattern
    [.enclosed .bindingPattern (.seq (.expect .lBrace) (.separated .rBrace bindingElement))]

/-- `a: T = init` -/
def varDeclarator : Steps :=
  .emit .varDeclarator
    [.branch (.next [.lBrace]) objectBindingPattern name,
      typeAscriptionIfAny,
      .behind .eq (.call .expression)]

def varWords : List TokenKind := [.constKw, .letKw, .varKw]

/-- `const a: T = init, b = init;` -/
def varStmt : Body :=
  .ofSteps .varStmt [.take varWords, .listed varDeclarator, .skip .semicolon]

def declaration : Body :=
  .branch (.next [.typeKw]) typeAlias
    (.branch (.next [.interfaceKw]) interface
      (.branch (.next [.classKw]) classDecl
        (.branch (.next [.functionKw]) functionDecl
          (.branch (.next varWords) varStmt (.ofSteps .errorNode [.refuse .declaration])))))

/-! ## Statements -/

/-- `export default expression;` -/
def exportDefault : Phrase :=
  .nodeOf .exportDefault
    [.expect .exportKw, .expect .defaultKw, .call .expression, .skip .semicolon]

def exprStmt : Phrase := .nodeOf .exprStmt [.call .expression, .skip .semicolon]

def returnStmt : Phrase :=
  .nodeOf .returnStmt
    [.expect .returnKw,
      .given (.not (.next [.semicolon, .rBrace, .eof])) (.call .expression),
      .skip .semicolon]

def ifStmt : Phrase :=
  .nodeOf .ifStmt
    [.expect .ifKw,
      .expect .lParen,
      .call .expression,
      .expect .rParen,
      .unlessMisfit (.call .statement),
      .unlessMisfit (.behind .elseKw (.call .statement))]

def declarationWords : List TokenKind := [.exportKw, .declareKw]

def statement : Phrase :=
  .firstOf exprStmt
    [(.both (.next [.exportKw]) (.second [.defaultKw]), exportDefault),
      (.next declarationWords, .node (.seq (modifiers declarationWords) declaration)),
      (.next ([.typeKw, .interfaceKw, .classKw] ++ varWords), .node declaration),
      (.both (.next [.functionKw]) (.second [.ident]), .node declaration),
      (.next [.returnKw], returnStmt),
      (.next [.ifKw], ifStmt),
      (.next [.lBrace], block),
      single .emptyStmt [.semicolon]]

end RouteTypes.Grammar
