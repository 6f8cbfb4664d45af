-- What can be wrong with a text as a program. Only the first misfit of a text is kept: where the
-- reading goes on behind it, every further one could be a consequence.
import RouteTypes.Token.Kind
import RouteTypes.Text.Span

namespace RouteTypes

open Text

/-- What stands between two braces. -/
inductive Enclosure where
  | typeLiteral | objectLiteral | block | classBody | bindingPattern
deriving DecidableEq, Repr

/-- What the next token should have been. -/
inductive Expected where
  | token (kind : TokenKind)
  | type
  | expression
  | identifier
  | propertyName
  | propertyNameAfterDot
  | declaration
  | indexKeyType
  | indexValueType
  /-- The brace that closes the one at `opened`. -/
  | closingBrace (what : Enclosure) (opened : Span)
deriving DecidableEq, Repr

/-- The first token of a text that does not fit. -/
structure Misfit where
  expected : Expected
  span : Span
deriving DecidableEq, Repr

/-! ## Wording -/

/-- A kind of token in a message: its sign or word between backticks. -/
def TokenKind.described (kind : TokenKind) : String :=
  match kind with
  | .lParen => "`(`"
  | .rParen => "`)`"
  | .lBracket => "`[`"
  | .rBracket => "`]`"
  | .lBrace => "`\x7b`"
  | .rBrace => "`\x7d`"
  | .comma => "`,`"
  | .colon => "`:`"
  | .semicolon => "`;`"
  | .eq => "`=`"
  | .gt => "`>`"
  | .fatArrow => "`=>`"
  | .ident => "identifier"
  | .eof => "end of file"
  | _ =>
    match keywords.find? (·.2 == kind) with
    | some (word, _) => "`" ++ word ++ "`"
    | none => kind.label

def Enclosure.opened : Enclosure → String
  | .typeLiteral => "type literal opened here"
  | .objectLiteral => "object literal opened here"
  | .block => "block opened here"
  | .classBody => "class body opened here"
  | .bindingPattern => "binding pattern opened here"

def Expected.message : Expected → String
  | .token kind => "expected " ++ kind.described
  | .type => "expected type"
  | .expression => "expected expression"
  | .identifier => "expected identifier"
  | .propertyName => "expected property name"
  | .propertyNameAfterDot => "expected property name after `.`"
  | .declaration => "expected a declaration"
  | .indexKeyType => "expected `:` in index signature"
  | .indexValueType => "index signature needs a value type"
  | .closingBrace _ _ => "expected `\x7d`"

namespace Misfit

def message (misfit : Misfit) : String := misfit.expected.message

/-- A second place that explains the misfit, with what happened there. -/
def related (misfit : Misfit) : Option (String × Span) :=
  match misfit.expected with
  | .closingBrace what opened => some (what.opened, opened)
  | _ => none

end Misfit

end RouteTypes
