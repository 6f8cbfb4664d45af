-- Expressions. Binary operators have powers: one of a higher power takes its operands first, and of two
-- with the same power the left one does. Calls, member access and indexing bind tighter than every
-- operator; assignments, conditionals and arrow functions bind looser.
import RouteTypes.Grammar.Type

namespace RouteTypes.Grammar

/-! ## Powers of operators -/

/-- The binary operators by their powers. The right operand needs operators of a higher one. -/
def binaryPowers : List (Nat × List TokenKind) :=
  [(1, [.questionQuestion]),
    (2, [.pipePipe]),
    (3, [.ampAmp]),
    (4, [.eqEq, .eqEqEq, .notEq, .notEqEq]),
    (5, [.lt, .gt, .ltEq, .gtEq]),
    (6, [.plus, .minus]),
    (7, [.star, .slash, .percent])]

/-- `expression as Type` has the power of a comparison. -/
def asPower : Nat := 5

/-- A power above that of every binary operator: the operand of a prefix operator has none. -/
def prefixPower : Nat := 8

def prefixOperators : List TokenKind := [.bang, .minus, .plus, .typeofKw, .voidKw]

/-! ## Lists -/

/-- An item of an array or an argument: an expression or `...expression`. -/
def element : Steps :=
  .branch (.next [.dotDotDot]) (.emit .spreadElement [.expect .dotDotDot, .call .expression])
    (.call .expression)

/-- `(a, b, ...rest)` -/
def argList : Steps :=
  .emit .argList [.expect .lParen, .separated .rParen element, .expect .rParen]

/-- `[a, ...rest, b,]` -/
def arrayLiteral : Phrase :=
  .nodeOf .arrayLiteral [.expect .lBracket, .separated .rBracket element, .expect .rBracket]

def shorthandProperty : Steps := .emit .shorthandProperty [.emit .nameRef [.expect .ident]]

/-- `key: value` -/
def propertyAssignment : Steps :=
  .emit .propertyAssignment [propertyName, .expect .colon, .unlessMisfit (.call .expression)]

def objectMember : Steps :=
  .branch (.next [.dotDotDot]) element
    (.branch (.both (.next [.ident]) (.second [.comma, .rBrace])) shorthandProperty propertyAssignment)

/-- `{ key: value, short, ...spread }` -/
def objectLiteral : Phrase :=
  .nodeOf .objectLiteral
    [.enclosed .objectLiteral (.seq (.expect .lBrace) (.separated .rBrace objectMember))]

/-! ## Behind an expression -/

/-- What can be the name of a member behind a point. -/
def memberTokens : List TokenKind := .ident :: words

/-- `.name` or `?.name`; a reserved word may be the name. -/
def propertyAccess : Suffix :=
  .around (.ofSteps .propertyAccess
    [.take [.dot, .questionDot],
      .branch (.next memberTokens) (.take memberTokens) (.refuse .propertyNameAfterDot)])

/-- A binary operator and its right operand, if the power is high enough. -/
def binarySuffix (least : Nat) (operators : Nat × List TokenKind) : Question × Suffix :=
  (.both (.sure (least ≤ operators.1)) (.next operators.2),
    .around (.ofSteps .binaryExpr [.take operators.2, .call (.operand (operators.1 + 1))]))

/-- What follows an expression and takes it as its operand: a call, member access, indexing, or an
operator with at least that power. -/
def operandSuffix (least : Nat) : Suffix :=
  .firstOf
    ((.misfit, .stop) ::
      (.next [.lParen], .around (.ofSteps .callExpr [argList])) ::
      (.callTypeArgs, .around (.ofSteps .callExpr [typeArgList, argList])) ::
      (.next [.dot, .questionDot], propertyAccess) ::
      (.next [.lBracket],
        .around (.ofSteps .indexExpr [.expect .lBracket, .call .expression, .expect .rBracket])) ::
      (.both (.sure (least ≤ asPower)) (.next [.asKw]),
        .around (.ofSteps .asExpr [.expect .asKw, .call .type])) ::
      binaryPowers.map (binarySuffix least))

/-- An expression whose binary operators have at least that power. -/
def operand (least : Nat) : Phrase := .extend (.call .primary) (operandSuffix least)

/-! ## Functions -/

/-- `async function name<T>(params): R { body }` -/
def functionExpr : Phrase :=
  .nodeOf .functionExpr
    [asyncModifier,
      .expect .functionKw,
      .given (.next [.ident]) name,
      typeParamListIfAny,
      paramList,
      typeAscriptionIfAny,
      .unlessMisfit (.part block)]

/-- `(params): R => body`, where the body is a block or an expression. -/
def arrowFunction : Phrase :=
  .nodeOf .arrowFunction
    [asyncModifier,
      typeParamListIfAny,
      .branch (.next [.ident]) bareParamList paramList,
      typeAscriptionIfAny,
      .expect .fatArrow,
      .unlessMisfit (.branch (.next [.lBrace]) (.part block) (.call .expression))]

/-! ## Expressions without operators -/

def parenExpr : Phrase := .nodeOf .parenExpr [.expect .lParen, .call .expression, .expect .rParen]

/-- `Callee.path` behind `new` -/
def newCallee : Phrase :=
  .extend (.call .primary) (.firstOf [(.both (.next [.dot]) (.not .misfit), propertyAccess)])

/-- `new Callee.path<T>(args)`; the arguments may be missing. -/
def newExpr : Phrase :=
  .nodeOf .newExpr
    [.expect .newKw,
      .part newCallee,
      .given .callTypeArgs typeArgList,
      .given (.next [.lParen]) argList]

/-- An expression that starts here and has nothing behind it; a prefix operator takes its operand. -/
def primary : Phrase :=
  .firstOf (.refuse .expression)
    [(.next prefixOperators,
        .nodeOf .prefixExpr [.take prefixOperators, .call (.operand prefixPower)]),
      single .literal [.numberLiteral, .stringLiteral, .trueKw, .falseKw, .nullKw],
      (.both (.word "async") (.second [.functionKw]), functionExpr),
      single .nameRef [.ident],
      single .thisExpr [.thisKw],
      (.next [.lParen], parenExpr),
      (.next [.lBracket], arrayLiteral),
      (.next [.lBrace], objectLiteral),
      (.next [.functionKw], functionExpr),
      (.next [.newKw], newExpr)]

/-! ## Conditionals and assignments -/

/-- `condition ? then : else` -/
def conditional : Phrase :=
  .wrap (.call (.operand 0))
    (.firstOf [(.next [.question], .around (.ofSteps .conditionalExpr
      [.expect .question, .call .expression, .expect .colon, .unlessMisfit (.call .expression)]))])

def expression : Phrase :=
  .branch .arrow arrowFunction
    (.wrap conditional
      (.firstOf [(.next [.eq], .around (.ofSteps .assignExpr [.expect .eq, .call .expression]))]))

end RouteTypes.Grammar
