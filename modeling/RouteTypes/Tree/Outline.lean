-- The outline of a tree: one line for each part, with its kind, its place, the text of a token, and
-- two blanks of margin for each level. Trees with the same outline have the same text.
import RouteTypes.Tree.Node
import RouteTypes.Text.Quoted

namespace RouteTypes.Part

mutual

/-- The lines of a part, each behind the margin. -/
def outlineAt (margin : String) : Part → List String
  | .leaf span token =>
    [margin ++ (Part.leaf span token).label ++ " " ++ Text.quoted token.text]
  | .node span kind parts =>
    (margin ++ (Part.node span kind parts).label) :: outlineAll (margin ++ "  ") parts

def outlineAll (margin : String) : List Part → List String
  | [] => []
  | part :: rest => outlineAt margin part ++ outlineAll margin rest

end

end RouteTypes.Part

namespace RouteTypes.Tree

/-- The lines of a tree. -/
def outline (tree : Tree) : List String := (tree.place 0).outlineAt ""

end RouteTypes.Tree
