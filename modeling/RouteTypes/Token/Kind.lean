-- Tokens of the language: the kinds, the words that are reserved, and the names under which kinds are
-- listed. A token keeps its text, so a list of tokens is a text cut into pieces.

namespace RouteTypes

/-- The kinds of token. Blanks and comments are tokens too. Names of primitive types are plain
identifiers. -/
inductive TokenKind where
  -- reserved words
  | asKw | classKw | constKw | declareKw | defaultKw | elseKw | exportKw | extendsKw | falseKw
  | functionKw | ifKw | implementsKw | interfaceKw | letKw | newKw | nullKw | privateKw
  | protectedKw | publicKw | readonlyKw | returnKw | staticKw | thisKw | trueKw | typeKw
  | typeofKw | varKw | voidKw
  -- operators
  | plus | minus | star | slash | percent | eq | eqEq | eqEqEq | notEq | notEqEq | lt | gt | ltEq
  | gtEq | ampAmp | pipePipe | questionQuestion | bang | question | questionDot | bar | amp
  | fatArrow | dot | dotDotDot
  -- brackets and punctuation
  | lParen | rParen | lBracket | rBracket | lBrace | rBrace | comma | colon | semicolon
  -- literals and names
  | numberLiteral | stringLiteral | ident
  -- blanks and comments
  | whitespace | lineComment | blockComment
  -- the end of the text, and what is no token of the language
  | eof | error
deriving DecidableEq, Repr, Inhabited

/-- A token with its text. -/
structure Token where
  kind : TokenKind
  text : String
deriving DecidableEq, Repr, Inhabited

namespace TokenKind

/-! ## Names of the kinds -/

/-- The name of a kind in a list of tokens. -/
def name : TokenKind → String
  | .asKw => "As"
  | .classKw => "Class"
  | .constKw => "Const"
  | .declareKw => "Declare"
  | .defaultKw => "Default"
  | .elseKw => "Else"
  | .exportKw => "Export"
  | .extendsKw => "Extends"
  | .falseKw => "False"
  | .functionKw => "Function"
  | .ifKw => "If"
  | .implementsKw => "Implements"
  | .interfaceKw => "Interface"
  | .letKw => "Let"
  | .newKw => "New"
  | .nullKw => "Null"
  | .privateKw => "Private"
  | .protectedKw => "Protected"
  | .publicKw => "Public"
  | .readonlyKw => "Readonly"
  | .returnKw => "Return"
  | .staticKw => "Static"
  | .thisKw => "This"
  | .trueKw => "True"
  | .typeKw => "Type"
  | .typeofKw => "Typeof"
  | .varKw => "Var"
  | .voidKw => "Void"
  | .plus => "Plus"
  | .minus => "Minus"
  | .star => "Star"
  | .slash => "Slash"
  | .percent => "Percent"
  | .eq => "Eq"
  | .eqEq => "EqEq"
  | .eqEqEq => "EqEqEq"
  | .notEq => "NotEq"
  | .notEqEq => "NotEqEq"
  | .lt => "Lt"
  | .gt => "Gt"
  | .ltEq => "LtEq"
  | .gtEq => "GtEq"
  | .ampAmp => "AmpAmp"
  | .pipePipe => "PipePipe"
  | .questionQuestion => "QuestionQuestion"
  | .bang => "Bang"
  | .question => "Question"
  | .questionDot => "QuestionDot"
  | .bar => "Bar"
  | .amp => "Amp"
  | .fatArrow => "FatArrow"
  | .dot => "Dot"
  | .dotDotDot => "DotDotDot"
  | .lParen => "LParen"
  | .rParen => "RParen"
  | .lBracket => "LBracket"
  | .rBracket => "RBracket"
  | .lBrace => "LBrace"
  | .rBrace => "RBrace"
  | .comma => "Comma"
  | .colon => "Colon"
  | .semicolon => "Semicolon"
  | .numberLiteral => "NumberLiteral"
  | .stringLiteral => "StringLiteral"
  | .ident => "Ident"
  | .whitespace => "Whitespace"
  | .lineComment => "LineComment"
  | .blockComment => "BlockComment"
  | .eof => "Eof"
  | .error => "Error"

/-- The name of a kind in the outline of a tree. -/
def label : TokenKind → String
  | .asKw => "AS_KW"
  | .classKw => "CLASS_KW"
  | .constKw => "CONST_KW"
  | .declareKw => "DECLARE_KW"
  | .defaultKw => "DEFAULT_KW"
  | .elseKw => "ELSE_KW"
  | .exportKw => "EXPORT_KW"
  | .extendsKw => "EXTENDS_KW"
  | .falseKw => "FALSE_KW"
  | .functionKw => "FUNCTION_KW"
  | .ifKw => "IF_KW"
  | .implementsKw => "IMPLEMENTS_KW"
  | .interfaceKw => "INTERFACE_KW"
  | .letKw => "LET_KW"
  | .newKw => "NEW_KW"
  | .nullKw => "NULL_KW"
  | .privateKw => "PRIVATE_KW"
  | .protectedKw => "PROTECTED_KW"
  | .publicKw => "PUBLIC_KW"
  | .readonlyKw => "READONLY_KW"
  | .returnKw => "RETURN_KW"
  | .staticKw => "STATIC_KW"
  | .thisKw => "THIS_KW"
  | .trueKw => "TRUE_KW"
  | .typeKw => "TYPE_KW"
  | .typeofKw => "TYPEOF_KW"
  | .varKw => "VAR_KW"
  | .voidKw => "VOID_KW"
  | .plus => "PLUS"
  | .minus => "MINUS"
  | .star => "STAR"
  | .slash => "SLASH"
  | .percent => "PERCENT"
  | .eq => "EQ"
  | .eqEq => "EQ_EQ"
  | .eqEqEq => "EQ_EQ_EQ"
  | .notEq => "NOT_EQ"
  | .notEqEq => "NOT_EQ_EQ"
  | .lt => "LT"
  | .gt => "GT"
  | .ltEq => "LT_EQ"
  | .gtEq => "GT_EQ"
  | .ampAmp => "AMP_AMP"
  | .pipePipe => "PIPE_PIPE"
  | .questionQuestion => "QUESTION_QUESTION"
  | .bang => "BANG"
  | .question => "QUESTION"
  | .questionDot => "QUESTION_DOT"
  | .bar => "BAR"
  | .amp => "AMP"
  | .fatArrow => "FAT_ARROW"
  | .dot => "DOT"
  | .dotDotDot => "DOT_DOT_DOT"
  | .lParen => "L_PAREN"
  | .rParen => "R_PAREN"
  | .lBracket => "L_BRACKET"
  | .rBracket => "R_BRACKET"
  | .lBrace => "L_BRACE"
  | .rBrace => "R_BRACE"
  | .comma => "COMMA"
  | .colon => "COLON"
  | .semicolon => "SEMICOLON"
  | .numberLiteral => "NUMBER_LITERAL"
  | .stringLiteral => "STRING_LITERAL"
  | .ident => "IDENT"
  | .whitespace => "WHITESPACE"
  | .lineComment => "LINE_COMMENT"
  | .blockComment => "BLOCK_COMMENT"
  | .eof => "EOF"
  | .error => "ERROR"

/-- Every kind, in the order of the declaration. -/
def all : List TokenKind := [
  .asKw, .classKw, .constKw, .declareKw, .defaultKw, .elseKw, .exportKw, .extendsKw, .falseKw,
  .functionKw, .ifKw, .implementsKw, .interfaceKw, .letKw, .newKw, .nullKw, .privateKw,
  .protectedKw, .publicKw, .readonlyKw, .returnKw, .staticKw, .thisKw, .trueKw, .typeKw,
  .typeofKw, .varKw, .voidKw, .plus, .minus, .star, .slash, .percent, .eq, .eqEq, .eqEqEq,
  .notEq, .notEqEq, .lt, .gt, .ltEq, .gtEq, .ampAmp, .pipePipe, .questionQuestion, .bang,
  .question, .questionDot, .bar, .amp, .fatArrow, .dot, .dotDotDot, .lParen, .rParen, .lBracket,
  .rBracket, .lBrace, .rBrace, .comma, .colon, .semicolon, .numberLiteral, .stringLiteral,
  .ident, .whitespace, .lineComment, .blockComment, .eof, .error]

/-- Every kind is listed. -/
theorem mem_all (kind : TokenKind) : kind ∈ all := by
  cases kind <;> decide

/-- The kind of that label. -/
def ofLabel? (label : String) : Option TokenKind := all.find? (·.label == label)

/-! ## Classes of kinds -/

/-- Blanks and comments: they separate tokens and mean nothing else. -/
def isTrivia (kind : TokenKind) : Bool :=
  kind == .whitespace || kind == .lineComment || kind == .blockComment

/-- The reserved words and their kinds. -/
def keywords : List (String × TokenKind) := [
  ("as", .asKw), ("class", .classKw), ("const", .constKw), ("declare", .declareKw),
  ("default", .defaultKw), ("else", .elseKw), ("export", .exportKw), ("extends", .extendsKw),
  ("false", .falseKw), ("function", .functionKw), ("if", .ifKw), ("implements", .implementsKw),
  ("interface", .interfaceKw), ("let", .letKw), ("new", .newKw), ("null", .nullKw),
  ("private", .privateKw), ("protected", .protectedKw), ("public", .publicKw),
  ("readonly", .readonlyKw), ("return", .returnKw), ("static", .staticKw), ("this", .thisKw),
  ("true", .trueKw), ("type", .typeKw), ("typeof", .typeofKw), ("var", .varKw),
  ("void", .voidKw)]

/-- The kind of a reserved word. -/
def ofWord? (word : String) : Option TokenKind := keywords.lookup word

/-- A reserved word. It may still name a property. -/
def isKeyword (kind : TokenKind) : Bool := keywords.any (·.2 == kind)

end TokenKind

namespace Token

def isTrivia (token : Token) : Bool := token.kind.isTrivia

/-- The bytes that the token takes. -/
def size (token : Token) : Nat := token.text.utf8ByteSize

end Token

end RouteTypes
