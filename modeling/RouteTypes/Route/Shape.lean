-- Parts that a node has to have, or else the node is malformed.
import RouteTypes.Route.Failure
import RouteTypes.Tree.Parts
import RouteTypes.Tree.Visit
import RouteTypes.Tree.Build

namespace RouteTypes

open Text

namespace Node

def malformed (node : Node) (expected : String) : Failure :=
  ⟨.malformedNode node.kind.label expected, some node.span⟩

/-- The first node right below of that kind. -/
def expectChild (node : Node) (kind : Kind) : Except Failure Node :=
  match node.children.find? (Kind.node ·.kind == kind) with
  | some child => .ok child
  | none => .error (node.malformed s!"a {kind.label} child")

/-- The first token right below of that kind. -/
def expectToken (node : Node) (kind : Kind) : Except Failure Placed :=
  match node.tokens.find? (Kind.token ·.token.kind == kind) with
  | some placed => .ok placed
  | none => .error (node.malformed s!"a {kind.label} token")

end Node

/-! ## Renaming -/

/-- Makes every reference to one name a reference to another, except in arrow functions. The state
counts the references that are seen. -/
def renameRefs (old new : String) : Visitor Nat Failure where
  handles kind := kind == .nameRef || kind == .arrowFunction
  handle node _ :=
    if node.kind == .nameRef then do
      modify (· + 1)
      let placed ← node.expectToken (.token .ident)
      return if placed.token.text == old then .changed (Tree.nameRef new) else .kept
    else
      return .kept

end RouteTypes
