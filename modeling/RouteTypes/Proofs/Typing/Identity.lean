-- What tells nodes apart. While a program is checked, much is noted in tables under the ids of nodes. An id
-- says no more than the text, the kind and the place of a node, and yet no two nodes have the same one.
import RouteTypes.Proofs.Route.Numbering
import RouteTypes.Proofs.Tree.Places
import RouteTypes.Proofs.Typing.Prelude

namespace RouteTypes

namespace Node

theorem Apart.id_ne {a b : Node} (h : Apart a b) : a.id ≠ b.id := fun hid =>
  h (NodeId.mk.inj hid).2.1 (NodeId.mk.inj hid).2.2

theorem id_ne_of_source {a b : Node} (h : a.source ≠ b.source) : a.id ≠ b.id := fun hid =>
  h (NodeId.mk.inj hid).1

end Node

/-- No two nodes of a program without misfits are of the same kind and cover the same text. So each of the
nodes that may be asked about while it is checked, its own and those of what every program sees, has an id of
its own, and whatever is noted under one of them, nothing changes under the others. -/
theorem nodes_have_their_own_ids {text : String} (h : (Program.ofSource text).isOk = true) :
    let nodes := preludeRoot.descendants ++ (Program.ofSource text).root.descendants
    ((Program.ofSource text).root.descendants.map fun node => (node.kind, node.span)).Nodup ∧
      (nodes.map Node.id).Nodup ∧
      ∀ (i j : Nat) (a b : Node), nodes[i]? = some a → nodes[j]? = some b → i ≠ j →
        ∀ {ν : Type} (table : Table NodeId ν) (value : ν),
          (table.insert a.id value).get? b.id = table.get? b.id ∧
          (table.insertIfNew a.id value).get? b.id = table.get? b.id ∧
          (table.keepFirst a.id value).2.get? b.id = table.get? b.id := by
  intro nodes
  have hown := Program.apart h .program
  have hprelude := Program.apart prelude_isOk .prelude
  have hsources : ∀ a ∈ preludeRoot.descendants, ∀ b ∈ (Program.ofSource text).root.descendants,
      a.source ≠ b.source := by
    intro a ha b hb
    rw [Node.source_of_mem_descendants ha, Node.source_of_mem_descendants hb, preludeRoot, Program.root,
      Node.source_ofTree, Node.source_ofTree]
    decide
  have hids : nodes.Pairwise fun a b : Node => a.id ≠ b.id :=
    List.pairwise_append.mpr ⟨hprelude.imp Node.Apart.id_ne, hown.imp Node.Apart.id_ne,
      fun a ha b hb => Node.id_ne_of_source (hsources a ha b hb)⟩
  have hnodup : (nodes.map Node.id).Nodup := List.pairwise_map.mpr hids
  refine ⟨?_, hnodup, fun i j a b ha hb hne ν table value => ?_⟩
  · exact List.pairwise_map.mpr (hown.imp fun hapart hsame =>
      hapart (Prod.mk.inj hsame).1 (Prod.mk.inj hsame).2)
  · have hid : a.id ≠ b.id := fun hid => hne <| by
      have hi : (nodes.map Node.id)[i]? = some a.id := by rw [List.getElem?_map, ha]; rfl
      have hj : (nodes.map Node.id)[j]? = some a.id := by rw [List.getElem?_map, hb, hid]; rfl
      obtain ⟨hin, -⟩ := List.getElem?_eq_some_iff.mp hi
      exact (List.getElem?_inj hin hnodup).mp (hi.trans hj.symm)
    exact ⟨Table.get?_insert_of_ne hid value table, Table.get?_insertIfNew_of_ne hid value table,
      Table.get?_keepFirst_of_ne hid value table⟩

/-- The nodes of a program with one route have. -/
theorem oneRoute_nodes_have_their_own_ids : (Program.ofSource Route.oneRoute).isOk = true ∧
    ((preludeRoot.descendants ++ (Program.ofSource Route.oneRoute).root.descendants).map Node.id).Nodup := by
  have hread : (Program.ofSource Route.oneRoute).isOk = true := by decide +kernel
  exact ⟨hread, (nodes_have_their_own_ids hread).2.1⟩

end RouteTypes
