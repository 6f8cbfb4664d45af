-- Trees without positions. Every token of a text is a leaf, blanks and comments too, so the tree has
-- the text in it: it is what the leaves give, read from left to right.
import RouteTypes.Tree.Kind

namespace RouteTypes

/-- A tree over tokens. -/
inductive Tree where
  | leaf (token : Token)
  | node (kind : NodeKind) (children : List Tree)
deriving Repr, Inhabited

namespace Tree

def kind : Tree → Kind
  | .leaf token => .token token.kind
  | .node kind _ => .node kind

def isTrivia (tree : Tree) : Bool := tree.kind.isTrivia

def children : Tree → List Tree
  | .leaf _ => []
  | .node _ children => children

/-! ## The tokens -/

mutual

/-- The leaves from left to right. -/
def tokens : Tree → List Token
  | .leaf token => [token]
  | .node _ children => tokensOf children

def tokensOf : List Tree → List Token
  | [] => []
  | tree :: rest => tokens tree ++ tokensOf rest

end

theorem tokensOf_append (first rest : List Tree) :
    tokensOf (first ++ rest) = tokensOf first ++ tokensOf rest := by
  induction first with
  | nil => rfl
  | cons tree first ih => simp [tokensOf, ih]

/-- The text of the tree. -/
def text (tree : Tree) : String := String.join (tree.tokens.map (·.text))

/-! ## The same tree without blanks and comments -/

mutual

def withoutTrivia : Tree → Tree
  | .leaf token => .leaf token
  | .node kind children => .node kind (withoutTriviaOf children)

def withoutTriviaOf : List Tree → List Tree
  | [] => []
  | tree :: rest =>
    if tree.isTrivia then withoutTriviaOf rest else withoutTrivia tree :: withoutTriviaOf rest

end

end Tree

end RouteTypes
