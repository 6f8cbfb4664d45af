-- What names stand for in a checked program. Every expression is looked at, and a name among them refers to what the
-- nearest scope says that has a value of that name; if there is none, it is reported, unless it needs no
-- declaration. Nothing else is reported as a missing name.
import RouteTypes.Proofs.Typing.Programs
import RouteTypes.Proofs.Typing.Scoping

namespace RouteTypes

namespace Node

/-- The node stands in no written type, and is none. -/
def OutsideTypes (node : Node) : Prop := ∀ outer ∈ node.outwards, outer.kind.isType = false

end Node

/-! ## Two texts -/

namespace Program

variable {text declarations : String}

theorem isText (text : String) (source : Source) : Facts.IsText source (Node.ofTree source (Program.ofSource text).tree) where
  source := Node.source_ofTree _ _
  parent := Node.parent_ofTree _ _
  kind := by
    rw [ofSource_eq]
    rfl

theorem descendants_distinct (hread : (Program.ofSource text).isOk = true) (source : Source) :
    (Node.ofTree source (Program.ofSource text).tree).descendants.Pairwise Node.Unlike :=
  (Program.apart hread source).imp fun hapart hid => by
    obtain ⟨-, hkind, hspan⟩ := NodeId.mk.inj hid
    exact hapart hkind hspan

/-- The nodes of a program and of what every program sees are all told apart. -/
theorem all_distinct (hdeclarations : (Program.ofSource declarations).isOk = true)
    (hread : (Program.ofSource text).isOk = true) :
    ((Node.ofTree .prelude (Program.ofSource declarations).tree).descendants ++
      (Program.ofSource text).root.descendants).Pairwise Node.Unlike := by
  refine List.pairwise_append.mpr ⟨descendants_distinct hdeclarations .prelude, descendants_distinct hread .program, ?_⟩
  intro node hnode other hother hid
  have hsource := (NodeId.mk.inj hid).1
  rw [Node.source_of_mem_descendants hnode, Node.source_ofTree, source_of_mem hother] at hsource
  cases hsource

/-- The scopes of a program say what its source says. -/
theorem scopes_say (hdeclarations : (Program.ofSource declarations).isOk = true)
    (hread : (Program.ofSource text).isOk = true) :
    let prelude := Node.ofTree .prelude (Program.ofSource declarations).tree
    let root := (Program.ofSource text).root
    Facts.Scoped (prelude.descendants ++ root.descendants) prelude (prelude.descendants ++ root.descendants)
      (prelude.descendants ++ root.descendants) (Facts.bound prelude root) :=
  Facts.bound_scoped (isText declarations .prelude) (isText text .program) (all_distinct hdeclarations hread)

end Program

namespace Checked

variable {text declarations : String} {depth : Nat} {checked : Checked}

/-- What a node declares in the beginning it declares in the end. -/
theorem Ends.declared?_of_bound {prelude root : Node} (h : Ends prelude root checked) {node : Node} {id : SymbolId}
    (hid : (Facts.bound prelude root).declared? node = some id) : checked.declared? node = some id := by
  rcases h.later.declared node.id with hsame | ⟨hnone, -⟩
  · exact hsame.trans hid
  · cases hid.symm.trans hnone

section

variable (hread : (Program.ofSource text).isOk = true)
  (hchecked : upTo depth (Node.ofTree .prelude (Program.ofSource declarations).tree) (Program.ofSource text).root =
    some checked)

include hchecked

include hread

omit hread

variable (hdeclarations : (Program.ofSource declarations).isOk = true)

include hread hdeclarations

end

end Checked

end RouteTypes
