-- What stands beside what. The parts of a node stand one behind the other, and of two nodes of a tree one lies
-- around the other, or one ends before the other begins. So what is part of a node is part of no other node.
import RouteTypes.Proofs.Tree.Nesting

namespace RouteTypes

open RouteTypes.Tree

/-! ## Parts in a row -/

namespace Part

/-- The part ends before the other one begins. -/
def Before (part other : Part) : Prop := part.span.stop ≤ other.span.start

/-- One of the parts ends before the other begins. -/
def Beside (part other : Part) : Prop := part.Before other ∨ other.Before part

instance : Std.Symm Beside := ⟨fun _ _ => Or.symm⟩

/-- The part lies between two places. -/
structure Between (start stop : Nat) (part : Part) : Prop where
  start_le : start ≤ part.span.start
  stop_le : part.span.stop ≤ stop

end Part

theorem Tree.start_place (start : Nat) (tree : Tree) : (tree.place start).span.start = start := by
  cases tree <;> rfl

/-- What stands in a placed row lies within the row. -/
theorem Tree.between_of_mem : ∀ {start : Nat} {trees : List Tree} {part : Part}, part ∈ Tree.placeAll start trees →
    part.Between start (start + Token.sizeOf (tokensOf trees))
  | _, [], _, h => by cases h
  | start, tree :: rest, part, h => by
    have hstop : (tree.place start).span.stop = start + tree.size := (Tree.placed_place start tree).2
    rw [tokensOf, Token.sizeOf_append]
    rcases List.mem_cons.mp h with rfl | h
    · refine ⟨Nat.le_of_eq (Tree.start_place start tree).symm, ?_⟩
      rw [hstop, size]
      omega
    · obtain ⟨hstart, hend⟩ := Tree.between_of_mem h
      rw [hstop] at hstart hend
      rw [size] at hstart hend
      exact ⟨by omega, by omega⟩

/-- What stands in a placed row is one of its trees at its place. -/
theorem Tree.exists_place : ∀ {start : Nat} {trees : List Tree} {part : Part}, part ∈ Tree.placeAll start trees →
    ∃ place, ∃ tree ∈ trees, part = tree.place place
  | _, [], _, h => by cases h
  | start, tree :: rest, part, h => by
    rcases List.mem_cons.mp h with rfl | h
    · exact ⟨start, tree, List.mem_cons_self, rfl⟩
    · obtain ⟨place, found, hfound, rfl⟩ := Tree.exists_place h
      exact ⟨place, found, List.mem_cons_of_mem _ hfound, rfl⟩

theorem Tree.placeAll_ordered : ∀ (start : Nat) (trees : List Tree), (Tree.placeAll start trees).Pairwise Part.Before
  | _, [] => .nil
  | _, _ :: rest => List.pairwise_cons.mpr
    ⟨fun _ hother => (Tree.between_of_mem hother).start_le, Tree.placeAll_ordered _ rest⟩

namespace Node

/-- A node whose parts stand where its place puts them. -/
def IsPlaced (node : Node) : Prop := node.part = node.tree.place node.span.start

variable {node outer : Node} {part other : Part}

theorem IsPlaced.parts (h : node.IsPlaced) : node.parts = Tree.placeAll node.span.start (Part.eraseAll node.parts) := by
  rw [IsPlaced, tree, Tree.place, part] at h
  exact (Part.node.inj h).2.2

theorem IsPlaced.stop (h : node.IsPlaced) : node.span.stop = node.span.start + node.tree.size := by
  rw [IsPlaced] at h
  exact (congrArg (·.span.stop) h).trans (Tree.placed_place _ _).2

/-- The parts of a node lie within it. -/
theorem IsPlaced.between (h : node.IsPlaced) (hpart : part ∈ node.parts) :
    part.Between node.span.start node.span.stop := by
  rw [h.parts] at hpart
  rw [h.stop]
  exact Tree.between_of_mem hpart

/-- One of two parts of a node ends before the other begins. -/
theorem IsPlaced.beside (h : node.IsPlaced) (hpart : part ∈ node.parts) (hother : other ∈ node.parts)
    (hne : part ≠ other) : part.Beside other := by
  have hordered : node.parts.Pairwise Part.Beside := by
    rw [h.parts]
    exact (Tree.placeAll_ordered _ _).imp .inl
  exact hordered.forall hpart hother hne

/-! ## Nodes beside nodes -/

/-- The node lies around the other one, or it ends before the other one begins. -/
def Leads (node other : Node) : Prop := node ∈ other.around ∨ node.span.stop ≤ other.span.start

/-- One of the nodes leads to the other. -/
def Linked (node other : Node) : Prop := node.Leads other ∨ other.Leads node

instance : Std.Symm Linked := ⟨fun _ _ => Or.symm⟩

section

variable {source : Source}

mutual

theorem nodesIn_ordered : ∀ {parent : Option Node} {start : Nat} (tree : Tree),
    (nodesIn source parent (tree.place start)).Pairwise Leads
  | _, _, .leaf _ => .nil
  | parent, start, .node kind children => by
    rw [Tree.place, nodesIn]
    exact List.pairwise_cons.mpr
      ⟨fun other hother => .inl (mem_around_of_mem_all _ hother), nodesInAll_ordered children⟩

theorem nodesInAll_ordered : ∀ {parent : Option Node} {start : Nat} (trees : List Tree),
    (nodesInAll source parent (Tree.placeAll start trees)).Pairwise Leads
  | _, _, [] => .nil
  | parent, start, tree :: rest => by
    have hany : HandedDown fun _ => True := fun _ _ _ _ _ => trivial
    rw [Tree.placeAll, nodesInAll]
    refine List.pairwise_append.mpr ⟨nodesIn_ordered tree, nodesInAll_ordered rest, ?_⟩
    intro node hnode other hother
    right
    have hstop := (lies_of_mem hany tree trivial hnode).stop_le
    have hstart := (lies_of_mem_all hany rest (fun _ _ => trivial) hother).start_le
    rw [stop_place] at hstart
    exact Nat.le_trans hstop hstart

end

variable {tree : Tree} {a b : Node}

theorem descendants_ordered (source : Source) (tree : Tree) : (ofTree source tree).descendants.Pairwise Leads := by
  cases tree with
  | leaf token => exact List.pairwise_singleton _ _
  | node kind children => exact nodesIn_ordered (Tree.node kind children)

/-- Two nodes of a tree are one, or one of them leads to the other. -/
theorem linked (ha : a ∈ (ofTree source tree).descendants) (hb : b ∈ (ofTree source tree).descendants) (hne : a ≠ b) :
    a.Linked b := by
  have hall : (ofTree source tree).descendants.Pairwise Linked := (descendants_ordered source tree).imp .inl
  exact hall.forall ha hb hne

/-- What lies around a node has a node right below it that still does, unless that is the node itself. -/
theorem exists_child_outwards : ∀ {node : Node}, node ∈ (ofTree source tree).descendants → outer ∈ node.around →
    ∃ child ∈ outer.children, child ∈ node.outwards
  | ⟨_, _, _, _, none⟩, _, houter => by cases houter
  | ⟨_, _, _, _, some above⟩, h, houter => by
    obtain ⟨habove, -⟩ := Within.of_parent h rfl
    rcases List.mem_cons.mp houter with rfl | houter
    · rcases mem_children_of_parent _ h with ⟨-, hparent⟩ | ⟨own, hparent, hchild⟩
      · rw [parent_ofTree] at hparent
        cases hparent
      · cases hparent
        exact ⟨_, hchild, List.mem_cons_self⟩
    · obtain ⟨child, hchild, hin⟩ := exists_child_outwards habove houter
      exact ⟨child, hchild, List.mem_cons_of_mem _ hin⟩

/-! ## The same place -/

/-- The text of a part lies within that of a node, and it is not empty. -/
structure Reaches (part : Part) (node : Node) : Prop where
  start_le : node.span.start ≤ part.span.start
  start_lt : part.span.start < part.span.stop
  stop_le : part.span.stop ≤ node.span.stop

theorem Reaches.of_mem (ha : a ∈ (ofTree source tree).descendants) {p : Part} (hp : p ∈ a.parts)
    (hpos : p.span.start < p.span.stop) : Reaches p a :=
  have hbetween := IsPlaced.between (part_of_mem_descendants ha) hp
  ⟨hbetween.start_le, hpos, hbetween.stop_le⟩

/-- What reaches into two nodes, and none lies around the other, has only one. -/
theorem eq_of_reaches {p : Part} (ha : a ∈ (ofTree source tree).descendants)
    (hb : b ∈ (ofTree source tree).descendants) (hpa : Reaches p a) (hpb : Reaches p b) (hab : a ∉ b.around)
    (hba : b ∉ a.around) : a = b := by
  have hstart := hpa.start_le
  have hstop := hpa.stop_le
  have hlt := hpa.start_lt
  have hstart' := hpb.start_le
  have hstop' := hpb.stop_le
  by_contra hne
  rcases linked ha hb hne with (h | h) | (h | h)
  · exact hab h
  · omega
  · exact hba h
  · omega

/-- The part of a node that reaches into a node inside is the one that holds that node. -/
theorem part_of_reaches {p : Part} (hb : b ∈ (ofTree source tree).descendants) (ha : a ∈ b.around) (hp : p ∈ a.parts)
    (hpb : Reaches p b) : ∃ child, p = child.part ∧ b.Within child := by
  obtain ⟨child, hchild, hin⟩ := exists_child_outwards hb ha
  have hplaced : a.IsPlaced := part_of_mem_descendants (Within.of_outwards hb (List.mem_cons_of_mem _ ha)).1
  have hwithin := (Within.of_outwards hb hin).2
  refine ⟨child, ?_, hwithin⟩
  by_contra hne
  have hpart : child.part ∈ a.parts := by
    obtain ⟨span, kind, parts, hpart, rfl⟩ := mem_children.mp hchild
    exact hpart
  have hstart := hpb.start_le
  have hstop := hpb.stop_le
  have hlt := hpb.start_lt
  have hstart' := hwithin.start_le
  have hstop' := hwithin.stop_le
  rcases hplaced.beside hp hpart hne with h | h
  · have h : p.span.stop ≤ child.span.start := h
    omega
  · have h : child.span.stop ≤ p.span.start := h
    omega

/-- The part of the node is a token, or it is not all that the node has. -/
def Marks (node : Node) (part : Part) : Prop := (∀ inner : Node, part ≠ inner.part) ∨ node.span ≠ part.span

/-- Parts that mark their nodes and stand at the same place are parts of one node. -/
theorem eq_of_parts {p q : Part} (ha : a ∈ (ofTree source tree).descendants)
    (hb : b ∈ (ofTree source tree).descendants) (hp : p ∈ a.parts) (hq : q ∈ b.parts) (hsame : p.span = q.span)
    (hpos : p.span.start < p.span.stop) (hbp : Marks b p) (haq : Marks a q) : a = b := by
  have hnot : ∀ {a b : Node} {p : Part}, b ∈ (ofTree source tree).descendants → p ∈ a.parts → Reaches p b →
      Marks b p → a ∉ b.around := by
    intro a b p hb hp hpb hmarks hab
    obtain ⟨child, rfl, hwithin⟩ := part_of_reaches hb hab hp hpb
    rcases hmarks with hleaf | hproper
    · exact hleaf child rfl
    · refine hproper ?_
      have hstart := Nat.le_antisymm hpb.start_le hwithin.start_le
      have hstop := Nat.le_antisymm hwithin.stop_le hpb.stop_le
      calc b.span = ⟨b.span.start, b.span.stop⟩ := rfl
        _ = child.part.span := by rw [hstart, hstop]; rfl
  have hpa := Reaches.of_mem ha hp hpos
  have hqb := Reaches.of_mem hb hq (hsame ▸ hpos)
  have hpb : Reaches p b := ⟨hsame ▸ hqb.start_le, hpos, hsame ▸ hqb.stop_le⟩
  have hqa : Reaches q a := ⟨hsame ▸ hpa.start_le, hsame ▸ hpos, hsame ▸ hpa.stop_le⟩
  exact eq_of_reaches ha hb hpa hpb (hnot hb hp hpb hbp) (hnot ha hq hqa haq)

end

end Node

end RouteTypes
