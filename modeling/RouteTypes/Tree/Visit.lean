-- Changing a tree from the outside in. A visitor handles the nodes of some kinds; a handler may make
-- another node in place of the one it gets, leave it as it is, or go on with the nodes below. Every
-- other node is left as it is if nothing below it changes, and is made again around the changes if
-- something does.
import RouteTypes.Tree.Node

namespace RouteTypes

/-- What a visit makes of a node: the node as it was, or another one. -/
inductive Visit where
  | kept
  | changed (tree : Tree)

namespace Visit

def isKept : Visit → Bool
  | .kept => true
  | .changed _ => false

/-- The tree that stands where the part stood. -/
def result (part : Part) : Visit → Tree
  | .kept => part.erase
  | .changed tree => tree

/-- The tree that stands where the node stood. -/
def resultAt (node : Node) : Visit → Tree
  | .kept => node.tree
  | .changed tree => tree

/-- The trees that stand where the parts stood. -/
def results : List Part → List Visit → List Tree
  | part :: parts, visit :: visits => visit.result part :: results parts visits
  | _, _ => []

/-- A node after visits to all its parts. -/
def around (kind : NodeKind) (parts : List Part) (visits : List Visit) : Visit :=
  if visits.all isKept then .kept else .changed (.node kind (results parts visits))

end Visit

/-- Actions of a visitor: they keep a state and may fail. -/
abbrev Visiting (σ ε : Type) := StateT σ (Except ε)

/-- Which nodes are handled, and how. A handler also gets the visit of the nodes below, to run or to
leave out. -/
structure Visitor (σ ε : Type) where
  handles : NodeKind → Bool
  handle : Node → Visiting σ ε Visit → Visiting σ ε Visit

namespace Visitor

variable {σ ε : Type} (v : Visitor σ ε)

mutual

/-- The visit of a part and of everything in it. -/
def visitPart (source : Source) (parent : Option Node) : Part → Visiting σ ε Visit
  | .leaf .. => return .kept
  | .node span kind parts =>
    let here : Node := ⟨source, kind, span, parts, parent⟩
    let below : Visiting σ ε Visit := do
      return Visit.around kind parts (← visitParts source (some here) parts)
    if v.handles kind then v.handle here below else below

def visitParts (source : Source) (parent : Option Node) : List Part → Visiting σ ε (List Visit)
  | [] => return []
  | part :: rest => do
    let visit ← visitPart source parent part
    let visits ← visitParts source parent rest
    return visit :: visits

end

/-- The visit of a tree from its root. -/
def visit (root : Node) : Visiting σ ε Visit := v.visitPart root.source root.parent root.part

end Visitor

end RouteTypes
