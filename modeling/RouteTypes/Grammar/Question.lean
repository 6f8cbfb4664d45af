-- What is asked about the tokens to come before the reading goes on in one way or another. Most questions
-- are about the next token or the one behind it. Some look ahead without a limit: arrow functions,
-- function types and the type arguments of a call are told from what else could start like them by what
-- comes behind a closing bracket.
import RouteTypes.Grammar.Reader

namespace RouteTypes

/-! ## Looking ahead -/

namespace TokenKind

/-- What comes behind the parenthesis that closes the innermost of `depth` open ones. -/
def behindParens (depth : Nat) : List TokenKind → Option (List TokenKind)
  | [] => none
  | next :: rest =>
    match next with
    | .lParen => behindParens (depth + 1) rest
    | .rParen => if depth ≤ 1 then some rest else behindParens (depth - 1) rest
    | .eof => none
    | _ => behindParens depth rest

/-- Whether an annotated return type is followed by an arrow. Brackets nest; outside of them a comma,
semicolon or equals sign ends the type. -/
def arrowBehindType (depth : Nat) : List TokenKind → Bool
  | [] => false
  | next :: rest =>
    match next with
    | .lParen | .lBracket | .lBrace | .lt => arrowBehindType (depth + 1) rest
    | .rParen | .rBracket | .rBrace | .gt =>
      if depth = 0 then false else arrowBehindType (depth - 1) rest
    | .fatArrow => if depth = 0 then true else arrowBehindType depth rest
    | .semicolon | .eq | .comma => if depth = 0 then false else arrowBehindType depth rest
    | .eof => false
    | _ => arrowBehindType depth rest

/-- The tokens that can stand in type arguments. -/
def typeTokens : List TokenKind :=
  [.ident, .comma, .dot, .lBracket, .rBracket, .lBrace, .rBrace, .lParen, .rParen, .colon, .semicolon,
    .question, .bar, .fatArrow, .stringLiteral, .numberLiteral, .thisKw, .voidKw, .nullKw, .trueKw,
    .falseKw, .readonlyKw]

/-- Whether only tokens of types stand before the `>` that closes the innermost of `depth` open ones,
and a parenthesis right behind it. -/
def callBehindTypeArgs (depth : Nat) : List TokenKind → Bool
  | [] => false
  | next :: rest =>
    if next = .lt then callBehindTypeArgs (depth + 1) rest
    else if next = .gt then
      if depth ≤ 1 then rest.head? == some .lParen else callBehindTypeArgs (depth - 1) rest
    else if typeTokens.contains next then callBehindTypeArgs depth rest
    else false

end TokenKind

namespace Sight

/-- Whether the next parenthesis opens the parameters of a function type. -/
def isAtFunctionType (s : Sight) : Bool :=
  (TokenKind.behindParens 0 s.kinds).any (·.head? == some .fatArrow)

/-- Whether an arrow function starts here: `x =>`, `<T>(`, `(...) =>` or `(...): Type =>`, the forms
without type parameters also behind `async`. -/
def isAtArrow (s : Sight) : Bool :=
  let isAsync := s.isAtWord "async" && (s.kindAt 1 == .ident || s.kindAt 1 == .lParen)
  let skipped := if isAsync then 1 else 0
  match s.kindAt skipped with
  | .ident => s.kindAt (skipped + 1) == .fatArrow
  | .lt => !isAsync
  | .lParen =>
    match TokenKind.behindParens 0 (s.kinds.drop skipped) with
    | some (.fatArrow :: _) => true
    | some (.colon :: behind) => TokenKind.arrowBehindType 0 behind
    | _ => false
  | _ => false

/-- Whether a `<` is next that opens the type arguments of a call. If not, it compares. -/
def isAtCallTypeArgs (s : Sight) : Bool :=
  s.kind == .lt && TokenKind.callBehindTypeArgs 0 s.kinds

end Sight

/-! ## Questions -/

/-- A question about what is to come. -/
inductive Question where
  | sure (answer : Bool)
  /-- The next token is of one of the kinds. -/
  | next (kinds : List TokenKind)
  /-- The token behind the next one is of one of the kinds. -/
  | second (kinds : List TokenKind)
  /-- The next token is an identifier that is this word. -/
  | word (text : String)
  /-- A token before did not fit. -/
  | misfit
  | functionType
  | arrow
  | callTypeArgs
  | not (question : Question)
  | both (first other : Question)
deriving DecidableEq, Repr

namespace Question

def ask : Question → Sight → Bool
  | .sure answer, _ => answer
  | .next kinds, s => s.isAtAny kinds
  | .second kinds, s => kinds.contains (s.kindAt 1)
  | .word text, s => s.isAtWord text
  | .misfit, s => s.hasMisfit
  | .functionType, s => s.isAtFunctionType
  | .arrow, s => s.isAtArrow
  | .callTypeArgs, s => s.isAtCallTypeArgs
  | .not question, s => !question.ask s
  | .both first other, s => first.ask s && other.ask s

/-- Neither at one of the kinds that end a list, nor at the end of the text, nor behind a misfit. -/
def inside (stops : List TokenKind) : Question := .both (.not (.next (.eof :: stops))) (.not .misfit)

end Question

end RouteTypes
