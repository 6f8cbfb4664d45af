-- Reading whole programs. The rules that contain themselves are tied together here: a rule may be
-- nested in another no deeper than the tokens to come allow, since each rule takes a token before it
-- comes to itself again.
import RouteTypes.Grammar.Statement
import RouteTypes.Token.Lexer
import RouteTypes.Tree.Node

namespace RouteTypes

namespace Grammar

/-! ## The rules together -/

/-- What each rule reads. -/
def phraseOf : Rule → Phrase
  | .statement => statement
  | .expression => expression
  | .operand least => operand least
  | .primary => primary
  | .type => type

/-- The rules, nested at most that deep. -/
def rulesUpTo : Nat → Rules
  | 0, _, r => (none, r.refuse .expression)
  | depth + 1, rule, r => (phraseOf rule).run (rulesUpTo depth) r

/-- A depth that the rules do not reach over so many tokens: between two tokens a statement may lead
to an expression, that to an operand, and that to a primary expression or a type. -/
def depthFor (tokens : Nat) : Nat := 5 * (tokens + 1)

/-! ## Programs -/

/-- What stands behind the first misfit, up to the end of the text. -/
def unread : Steps :=
  .given (.not (.next [.eof]))
    (.emit .errorNode [.loop (.not (.next [.eof])) (.take TokenKind.all)])

/-- All statements of a program. They end at the first misfit. -/
def statements : Steps := .emit .stmtList [.loop (.inside []) (.call .statement), unread]

/-- The statements of a program and the end of its text. -/
def program : Body := .ofSteps .sourceFile [statements, .expect .eof]

/-- The reader at the end of a program. What stands before the first token is in the outermost node. -/
def readAll (tokens : List Token) : Reader :=
  let start := Reader.ofTokens tokens
  let rules := rulesUpTo (depthFor start.ahead.length)
  let inner := program.run rules start.begin
  inner.2.finish start.here inner.1

end Grammar

/-- A program that has been read: its tree, and what did not fit. The tree holds every token of the text
in any case. -/
structure Program where
  tree : Tree
  misfits : List Misfit
deriving Repr

namespace Program

/-- Reads the tokens of a program, the last of which is the end of the text. -/
def ofTokens (tokens : List Token) : Program :=
  let r := Grammar.readAll tokens
  ⟨(Event.build r.events tokens).getD (.node .sourceFile []), r.misfits⟩

def ofSource (source : String) : Program := ofTokens (Token.ofSource source)

def misfit (program : Program) : Option Misfit := program.misfits.head?

def isOk (program : Program) : Bool := program.misfits.isEmpty

/-- The root of the tree. -/
def root (program : Program) : Node := Node.ofTree .program program.tree

end Program

end RouteTypes
