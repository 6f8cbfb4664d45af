-- The parts that declarations, expressions and types have in common: names, modifiers, annotations,
-- parameters, type parameters, blocks.
import RouteTypes.Grammar.Phrase

namespace RouteTypes.Grammar

/-! ## Names -/

/-- The identifier that a declaration binds. -/
def name : Steps :=
  .branch (.next [.ident]) (.emit .name [.expect .ident]) (.refuse .identifier)

/-- The reserved words. -/
def words : List TokenKind := TokenKind.keywords.map (·.2)

/-- What the key of a property can be: identifier, reserved word, string or number. -/
def keyTokens : List TokenKind := .ident :: .stringLiteral :: .numberLiteral :: words

def propertyName : Steps :=
  .branch (.next keyTokens) (.emit .name [.take keyTokens]) (.refuse .propertyName)

/-! ## Modifiers -/

/-- Words of which there is at least one, in a node of their own. -/
def modifierList (question : Question) (allowed : List TokenKind) : Steps :=
  .given question (.emit .modifierList [.take allowed, .loop question (.take allowed)])

/-- The words before a declaration. -/
def modifiers (allowed : List TokenKind) : Steps := modifierList (.next allowed) allowed

/-- What may stand behind the name of a member. A word before one of these is the member's name and
no modifier. -/
def behindMemberName : List TokenKind :=
  [.colon, .question, .lParen, .lt, .eq, .semicolon, .comma, .rParen, .rBrace]

/-- The words before a member or a parameter. -/
def memberModifiers (allowed : List TokenKind) : Steps :=
  modifierList (.both (.next allowed) (.not (.second behindMemberName))) allowed

/-- `async` before a function. It is no reserved word: `async => 1` has a parameter of that name. -/
def asyncModifier : Steps :=
  .given (.both (.word "async") (.not (.second [.fatArrow]))) (.emit .modifierList [.expect .ident])

/-! ## Annotations -/

/-- `: Type` -/
def typeAscription : Steps := .emit .typeAscription [.expect .colon, .call .type]

def typeAscriptionIfAny : Steps := .given (.next [.colon]) typeAscription

/-! ## Parameters -/

def paramModifiers : List TokenKind := [.publicKw, .privateKw, .protectedKw, .readonlyKw]

def param : Steps :=
  .emit .param
    [memberModifiers paramModifiers,
      .skip .dotDotDot,
      .branch (.next [.thisKw]) (.emit .name [.expect .thisKw]) name,
      .skip .question,
      typeAscriptionIfAny,
      .behind .eq (.call .expression)]

/-- `(a: T, b?: U = init, ...rest: V[])` -/
def paramList : Steps :=
  .emit .paramList [.expect .lParen, .separated .rParen param, .expect .rParen]

/-- The lone parameter of `x => body`. -/
def bareParamList : Steps := .emit .paramList [.emit .param [name]]

/-! ## Type parameters -/

/-- `T extends Bound = Default` -/
def typeParam : Steps :=
  .emit .typeParam [name, .behind .extendsKw (.call .type), .behind .eq (.call .type)]

def typeParamList : Steps :=
  .emit .typeParamList [.expect .lt, .separated .gt typeParam, .expect .gt]

def typeParamListIfAny : Steps := .given (.next [.lt]) typeParamList

/-! ## Blocks -/

/-- `{ statement* }` -/
def block : Phrase := .nodeOf .block [.braced .block (.call .statement)]

/-- A block, or the semicolon of a function that is only declared. -/
def bodyOrSemicolon : Steps :=
  .unlessMisfit (.branch (.next [.semicolon]) (.expect .semicolon) (.part block))

end RouteTypes.Grammar
