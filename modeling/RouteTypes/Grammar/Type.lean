-- Types: references, arrays, unions, object types, function types, literals.
import RouteTypes.Grammar.Part

namespace RouteTypes.Grammar

/-! ## Members of object types -/

def memberSeparator : Steps :=
  .branch (.next [.semicolon]) (.expect .semicolon) (.skip .comma)

/-- `[key: string]: T`, behind its modifiers. -/
def indexSignature : Body :=
  .ofSteps .indexSignature
    [.expect .lBracket,
      .emit .param [name, .branch (.next [.colon]) typeAscription (.refuse .indexKeyType)],
      .expect .rBracket,
      .branch (.next [.colon]) typeAscription (.refuse .indexValueType),
      memberSeparator]

/-- A property or method, behind its modifiers. -/
def namedTypeMember : Body :=
  .seq (.all [propertyName, .skip .question])
    (.branch (.next [.lParen, .lt])
      (.ofSteps .methodSignature
        [typeParamListIfAny, paramList, typeAscriptionIfAny, memberSeparator])
      (.ofSteps .propertySignature [typeAscriptionIfAny, memberSeparator]))

def typeMember : Steps :=
  .part (.node (.seq (memberModifiers [.readonlyKw])
    (.branch (.next [.lBracket]) indexSignature namedTypeMember)))

/-- `{ member; member, ... }`, which is also the body of an interface. -/
def typeLiteral : Phrase := .nodeOf .typeLiteral [.braced .typeLiteral typeMember]

/-! ## Types without operators -/

/-- `<A, B>` -/
def typeArgList : Steps :=
  .emit .typeArgList [.expect .lt, .separated .gt (.call .type), .expect .gt]

/-- `Name<A>` -/
def typeRef : Phrase :=
  .nodeOf .typeRef [.emit .nameRef [.expect .ident], .given (.next [.lt]) typeArgList]

def parenType : Phrase := .nodeOf .parenType [.expect .lParen, .call .type, .expect .rParen]

/-- `<T>(params) => R` -/
def functionType : Phrase :=
  .nodeOf .functionType
    [typeParamListIfAny, paramList, .expect .fatArrow, .unlessMisfit (.call .type)]

/-- A node that is one token. -/
def single (kind : NodeKind) (kinds : List TokenKind) : Question × Phrase :=
  (.next kinds, .nodeOf kind [.take kinds])

def primaryType : Phrase :=
  .firstOf (.refuse .type)
    [(.next [.ident], typeRef),
      (.next [.lBrace], typeLiteral),
      (.next [.lt], functionType),
      (.next [.lParen], .branch .functionType functionType parenType),
      single .thisType [.thisKw],
      single .predefinedType [.voidKw, .nullKw],
      single .literalType [.stringLiteral, .numberLiteral, .trueKw, .falseKw]]

/-! ## Arrays and unions -/

/-- `[]` behind an element type. -/
def arraySuffix : Suffix :=
  .firstOf [(.both (.next [.lBracket]) (.second [.rBracket]),
    .around (.ofSteps .arrayType [.expect .lBracket, .expect .rBracket]))]

/-- `T[][]` -/
def postfixType : Phrase := .extend primaryType arraySuffix

/-- A bar and the members of a union, with a bar before each further one. A bar behind a misfit is the
last one. -/
def unionMembers : Steps :=
  .seq (.expect .bar)
    (.unlessMisfit (.all
      [.part postfixType,
        .loop (.both (.next [.bar]) (.not .misfit)) (.seq (.expect .bar) (.part postfixType)),
        .given .misfit (.skip .bar)]))

/-- The members of a union behind the first one. -/
def unionSuffix : Suffix :=
  .firstOf [(.next [.bar], .around (.ofSteps .unionType [unionMembers]))]

/-- A type. The members of a union are all in one node; a bar may stand before the first. -/
def type : Phrase :=
  .branch (.next [.bar]) (.nodeOf .unionType [unionMembers]) (.wrap postfixType unionSuffix)

end RouteTypes.Grammar
