-- Nodes within nodes. Every node of a tree stands where the tree around it puts it, so its text lies within
-- that of each node around it.
import RouteTypes.Proofs.Tree.Places

namespace RouteTypes

open RouteTypes.Tree

namespace Node

/-- The text of a node lies within that of another one. -/
structure Within (node outer : Node) : Prop where
  start_le : outer.span.start ≤ node.span.start
  stop_le : node.span.stop ≤ outer.span.stop

theorem Within.refl (node : Node) : Within node node := ⟨Nat.le_refl _, Nat.le_refl _⟩

theorem Within.trans {node outer outermost : Node} (h : Within node outer) (h' : Within outer outermost) :
    Within node outermost :=
  ⟨Nat.le_trans h'.start_le h.start_le, Nat.le_trans h.stop_le h'.stop_le⟩

/-! ## Around -/

theorem around_eq {node outer : Node} (h : node.parent = some outer) : node.around = outer.outwards := by
  cases node
  cases h
  rfl

theorem outwards_eq {node outer : Node} (h : node.parent = some outer) : node.outwards = node :: outer.outwards :=
  congrArg (node :: ·) (around_eq h)

theorem mem_around_trans {inner middle outer : Node} (h : middle ∈ inner.around) (houter : outer ∈ middle.around) :
    outer ∈ inner.around := by
  obtain ⟨source, kind, span, parts, parent⟩ := inner
  cases parent with
  | none => cases h
  | some above =>
    refine List.mem_cons_of_mem _ ?_
    rcases List.mem_cons.mp h with rfl | h
    · exact houter
    · exact mem_around_trans h houter

section

variable {source : Source} {node : Node}

mutual

/-- What is below a node has it around. -/
theorem mem_around_of_mem : ∀ {outer : Node} (part : Part), node ∈ nodesIn source (some outer) part →
    outer ∈ node.around
  | _, .leaf _ _, h => by cases h
  | outer, .node span kind parts, h => by
    rw [nodesIn] at h
    rcases List.mem_cons.mp h with rfl | h
    · exact List.mem_cons_self
    · exact mem_around_trans (mem_around_of_mem_all parts h) List.mem_cons_self

theorem mem_around_of_mem_all : ∀ {outer : Node} (parts : List Part), node ∈ nodesInAll source (some outer) parts →
    outer ∈ node.around
  | _, [], h => by cases h
  | outer, part :: rest, h => by
    rw [nodesInAll] at h
    rcases List.mem_append.mp h with h | h
    · exact mem_around_of_mem part h
    · exact mem_around_of_mem_all rest h

end

end

/-! ## Where nodes stand -/

section

variable {source : Source}

mutual

/-- The parts of a node of a placed tree stand one behind the other from where the node starts. -/
theorem part_of_mem {node : Node} : ∀ {parent : Option Node} {start : Nat} (tree : Tree),
    node ∈ nodesIn source parent (tree.place start) → node.part = node.tree.place node.span.start
  | _, _, .leaf _, h => by cases h
  | parent, start, .node kind children, h => by
    rw [Tree.place, nodesIn] at h
    rcases List.mem_cons.mp h with rfl | h
    · rw [tree, Tree.eraseAll_placeAll]
      rfl
    · exact part_of_mem_all children h

theorem part_of_mem_all {node : Node} : ∀ {parent : Option Node} {start : Nat} (trees : List Tree),
    node ∈ nodesInAll source parent (Tree.placeAll start trees) → node.part = node.tree.place node.span.start
  | _, _, [], h => by cases h
  | parent, start, tree :: rest, h => by
    rw [Tree.placeAll, nodesInAll] at h
    rcases List.mem_append.mp h with h | h
    · exact part_of_mem tree h
    · exact part_of_mem_all rest h

end

/-- A node that is not the first one of a part stands right below the node around it. -/
theorem mem_children_of_parent {node : Node} {parent : Option Node} (part : Part)
    (h : node ∈ nodesIn source parent part) :
    (part = node.part ∧ node.parent = parent) ∨ ∃ outer, node.parent = some outer ∧ node ∈ outer.children := by
  cases part with
  | leaf _ _ => cases h
  | node span kind parts =>
    rw [nodesIn] at h
    rcases List.mem_cons.mp h with rfl | h
    · exact .inl ⟨rfl, rfl⟩
    · obtain ⟨part, hpart, hin⟩ := mem_nodesInAll.mp h
      rcases mem_children_of_parent part hin with ⟨rfl, hparent⟩ | hbelow
      · refine .inr ⟨_, hparent, mem_children.mpr ⟨node.span, node.kind, node.parts, hpart, ?_⟩⟩
        have hsource := source_of_mem _ hin
        cases node
        cases hparent
        dsimp only at hsource
        subst hsource
        rfl
      · exact .inr hbelow

end

/-! ## What lies within what -/

/-- What stands right below a node of a placed tree lies within it. -/
theorem Within.of_child {node child : Node} (h : node.part = node.tree.place node.span.start)
    (hchild : child ∈ node.children) : child.Within node := by
  obtain ⟨span, kind, parts, hpart, rfl⟩ := mem_children.mp hchild
  have hmem : ⟨node.source, kind, span, parts, some node⟩ ∈ nodesInAll node.source (some node) node.parts :=
    mem_nodesInAll.mpr ⟨_, hpart, List.mem_cons_self⟩
  rw [tree, Tree.place, part] at h
  obtain ⟨hspan, -, hparts⟩ := Part.node.inj h
  rw [hparts] at hmem
  have hany : HandedDown fun _ => True := fun _ _ _ _ _ => trivial
  have hlies := lies_of_mem_all hany _ (fun _ _ => trivial) hmem
  have hstop : node.span.stop = node.span.start + Token.sizeOf (tokensOf (Part.eraseAll node.parts)) :=
    (congrArg Text.Span.stop hspan).trans (Tree.placedAll_placeAll _ _).2
  exact ⟨hlies.start_le, hstop ▸ hlies.stop_le⟩

section

variable {source : Source} {tree : Tree}

theorem part_of_mem_descendants {node : Node} (h : node ∈ (ofTree source tree).descendants) :
    node.part = node.tree.place node.span.start := by
  cases tree with
  | leaf token =>
    rcases List.mem_cons.mp h with rfl | h
    · rfl
    · cases h
  | node kind children =>
    exact part_of_mem _ (show node ∈ nodesIn source none ((Tree.node kind children).place 0) from h)

/-- A node of a tree lies within the one around it. -/
theorem Within.of_parent {node outer : Node} (h : node ∈ (ofTree source tree).descendants)
    (houter : node.parent = some outer) : outer ∈ (ofTree source tree).descendants ∧ node.Within outer := by
  have hmem := (closed_descendants (parent_ofTree source tree)).parent h houter
  refine ⟨hmem, .of_child (part_of_mem_descendants hmem) ?_⟩
  rcases mem_children_of_parent _ h with ⟨-, hparent⟩ | ⟨own, hparent, hchild⟩
  · rw [houter, parent_ofTree] at hparent
    cases hparent
  · rw [houter] at hparent
    cases hparent
    exact hchild

/-- A node of a tree lies within all nodes around it. -/
theorem Within.of_outwards {outer : Node} : ∀ {node : Node}, node ∈ (ofTree source tree).descendants →
    outer ∈ node.outwards → outer ∈ (ofTree source tree).descendants ∧ node.Within outer
  | ⟨_, _, _, _, none⟩, h, houter => by
    obtain rfl := List.mem_singleton.mp houter
    exact ⟨h, .refl _⟩
  | ⟨_, _, _, _, some above⟩, h, houter => by
    rcases List.mem_cons.mp houter with rfl | houter
    · exact ⟨h, .refl _⟩
    · obtain ⟨habove, hwithin⟩ := Within.of_parent h rfl
      obtain ⟨hmem, hwithin'⟩ := Within.of_outwards habove houter
      exact ⟨hmem, hwithin.trans hwithin'⟩

end

end Node

end RouteTypes
