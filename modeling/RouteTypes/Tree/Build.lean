-- Making trees for code that is put into a program. A tree made here has the shape that reading its
-- text gives.
import RouteTypes.Tree.Basic
import RouteTypes.Token.Lexer

namespace RouteTypes.Tree

/-! ## Tokens -/

def comma : Tree := .leaf ⟨.comma, ","⟩

def space : Tree := .leaf ⟨.whitespace, " "⟩

/-- One character of a string between double quotes. -/
def quoteChar (c : Char) : List Char :=
  if c = '"' then ['\\', '"']
  else if c = '\\' then ['\\', '\\']
  else if c = '\n' then ['\\', 'n']
  else if c = '\r' then ['\\', 'r']
  else if c = '\t' then ['\\', 't']
  else [c]

/-- A string literal. -/
def stringToken (value : String) : Tree :=
  .leaf ⟨.stringLiteral, String.ofList ('"' :: value.toList.flatMap quoteChar ++ ['"'])⟩

/-! ## Expressions -/

def numberLiteral (value : Nat) : Tree := .node .literal [.leaf ⟨.numberLiteral, toString value⟩]

def stringLiteral (value : String) : Tree := .node .literal [stringToken value]

/-- The key of a property: a word if it is one, else a string. -/
def propertyName (text : String) : Tree :=
  .node .name
    [if Token.isName text then .leaf ⟨Token.wordKind text, text⟩ else stringToken text]

/-- `name: value` -/
def propertyAssignment (name : String) (value : Tree) : Tree :=
  .node .propertyAssignment [propertyName name, .leaf ⟨.colon, ":"⟩, space, value]

/-- The members of an object, each behind a blank, with commas between them and a blank at the end. -/
def spaced : List Tree → List Tree
  | [] => []
  | [last] => [space, last, space]
  | member :: rest => space :: member :: comma :: spaced rest

/-- `{ a: 1, b: 2 }` on one line, or `{}`. -/
def objectLiteral (members : List Tree) : Tree :=
  .node .objectLiteral (.leaf ⟨.lBrace, "\x7b"⟩ :: spaced members ++ [.leaf ⟨.rBrace, "\x7d"⟩])

/-- A reference to a name. -/
def nameRef (name : String) : Tree := .node .nameRef [.leaf ⟨.ident, name⟩]

end RouteTypes.Tree
