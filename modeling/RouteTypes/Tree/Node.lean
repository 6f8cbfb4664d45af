-- Trees with positions. Every part knows the bytes of the source that it covers, and a node also knows
-- the nodes around it, so a question about a place in a program can look inwards and outwards.
import RouteTypes.Table
import RouteTypes.Tree.Basic
import RouteTypes.Token.Placed

namespace RouteTypes

open Text

/-! ## Parts -/

/-- A part of a tree at its place. -/
inductive Part where
  | leaf (span : Span) (token : Token)
  | node (span : Span) (kind : NodeKind) (parts : List Part)
deriving Repr, Inhabited

namespace Part

def span : Part → Span
  | .leaf span _ => span
  | .node span _ _ => span

def kind : Part → Kind
  | .leaf _ token => .token token.kind
  | .node _ kind _ => .node kind

def isTrivia (part : Part) : Bool := part.kind.isTrivia

def token? : Part → Option Token
  | .leaf _ token => some token
  | .node .. => none

/-- `KIND@start..stop` -/
def label (part : Part) : String :=
  part.kind.label ++ "@" ++ toString part.span.start ++ ".." ++ toString part.span.stop

mutual

/-- The tree without its positions. -/
def erase : Part → Tree
  | .leaf _ token => .leaf token
  | .node _ kind parts => .node kind (eraseAll parts)

def eraseAll : List Part → List Tree
  | [] => []
  | part :: rest => erase part :: eraseAll rest

end

/-- Where a row of parts ends that starts at `start`. -/
def stopOf (start : Nat) (parts : List Part) : Nat := (parts.getLast?.map (·.span.stop)).getD start

end Part

mutual

/-- The tree with its positions, if its text starts at `start`. -/
def Tree.place (start : Nat) : Tree → Part
  | .leaf token => .leaf ⟨start, start + token.size⟩ token
  | .node kind children =>
    let parts := Tree.placeAll start children
    .node ⟨start, Part.stopOf start parts⟩ kind parts

def Tree.placeAll (start : Nat) : List Tree → List Part
  | [] => []
  | tree :: rest =>
    let part := Tree.place start tree
    part :: Tree.placeAll part.span.stop rest

end

mutual

/-- Taking the positions away again gives the tree back. -/
theorem Tree.erase_place (start : Nat) : ∀ tree : Tree, (tree.place start).erase = tree
  | .leaf _ => rfl
  | .node _ children => by
    simp [Tree.place, Part.erase, Tree.eraseAll_placeAll start children]

theorem Tree.eraseAll_placeAll (start : Nat) :
    ∀ trees : List Tree, Part.eraseAll (Tree.placeAll start trees) = trees
  | [] => rfl
  | tree :: rest => by
    simp [Tree.placeAll, Part.eraseAll, Tree.erase_place start tree, Tree.eraseAll_placeAll _ rest]

end

/-! ## Nodes -/

/-- Which of the two texts a node belongs to: the program, or the declarations that every program can
see. -/
inductive Source where
  | program
  | prelude
deriving DecidableEq, Repr, Inhabited

/-- A node at its place, with the node around it. -/
structure Node where
  source : Source
  kind : NodeKind
  span : Span
  parts : List Part
  parent : Option Node
deriving Inhabited

/-- What tells nodes apart. -/
structure NodeId where
  source : Source
  kind : NodeKind
  span : Span
deriving DecidableEq, Repr, Inhabited

instance : Keyed NodeId where
  code id := [id.span.start, id.span.stop, id.kind.ctorIdx, id.source.ctorIdx]
  eq_of_code_eq {a b} h := by
    obtain ⟨sourceA, kindA, startA, stopA⟩ := a
    obtain ⟨sourceB, kindB, startB, stopB⟩ := b
    simp only [List.cons.injEq, and_true] at h
    obtain ⟨rfl, rfl, kinds, sources⟩ := h
    rw [← NodeKind.ofNat_ctorIdx kindA, ← NodeKind.ofNat_ctorIdx kindB, kinds,
      ← Source.ofNat_ctorIdx sourceA, ← Source.ofNat_ctorIdx sourceB, sources]

namespace Node

def id (node : Node) : NodeId := ⟨node.source, node.kind, node.span⟩

/-- Whether both are the same place of the same text. -/
def isSame (a b : Node) : Bool := a.id == b.id

/-- The root of a tree. -/
def ofTree (source : Source) (tree : Tree) : Node :=
  match tree.place 0 with
  | .node span kind parts => ⟨source, kind, span, parts, none⟩
  | .leaf span token => ⟨source, .errorNode, span, [.leaf span token], none⟩

def part (node : Node) : Part := .node node.span node.kind node.parts

/-- The tree of the node, without positions. -/
def tree (node : Node) : Tree := .node node.kind (Part.eraseAll node.parts)

def text (node : Node) : String := node.tree.text

def label (node : Node) : String := node.part.label

/-! ### Inwards -/

/-- A part of the node as a node. -/
def inner? (node : Node) : Part → Option Node
  | .leaf .. => none
  | .node span kind parts => some ⟨node.source, kind, span, parts, some node⟩

/-- The nodes right below. -/
def children (node : Node) : List Node := node.parts.filterMap node.inner?

/-- The tokens right below. -/
def tokens (node : Node) : List Placed :=
  node.parts.filterMap fun
    | .leaf span token => some ⟨span, token⟩
    | .node .. => none

/-- The first node right below of one of the kinds. -/
def child? (node : Node) (is : NodeKind → Bool) : Option Node := node.children.find? (is ·.kind)

/-- The nodes right below of one of the kinds. -/
def childrenOf (node : Node) (is : NodeKind → Bool) : List Node :=
  node.children.filter (is ·.kind)

/-- The first token right below of that kind. -/
def token? (node : Node) (kind : TokenKind) : Option Placed :=
  node.tokens.find? (·.token.kind == kind)

def hasToken (node : Node) (kind : TokenKind) : Bool := (node.token? kind).isSome

/-- The parts right below that are neither blanks nor comments. -/
def significant (node : Node) : List Part := node.parts.filter (!·.isTrivia)

mutual

/-- The nodes of a part from the outside in and from left to right. -/
def nodesIn (source : Source) (parent : Option Node) : Part → List Node
  | .leaf .. => []
  | .node span kind parts =>
    let here : Node := ⟨source, kind, span, parts, parent⟩
    here :: nodesInAll source (some here) parts

def nodesInAll (source : Source) (parent : Option Node) : List Part → List Node
  | [] => []
  | part :: rest => nodesIn source parent part ++ nodesInAll source parent rest

end

/-- The node and all nodes below it, from the outside in and from left to right. -/
def descendants (node : Node) : List Node := nodesIn node.source node.parent node.part

/-! ### Outwards -/

/-- The nodes around the node, innermost first. -/
def around (node : Node) : List Node :=
  match node with
  | ⟨_, _, _, _, none⟩ => []
  | ⟨_, _, _, _, some outer⟩ => outer :: around outer

/-- The node and the nodes around it, innermost first. -/
def outwards (node : Node) : List Node := node :: node.around

end Node

end RouteTypes
