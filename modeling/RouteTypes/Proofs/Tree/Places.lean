-- The nodes of a program and their places. The nodes below a root are those that can be reached from it
-- inwards and outwards, each lies within the one around it, and two nodes of the same kind never cover the
-- same text: the kind and the place of a node tell which node it is.
import Mathlib.Data.List.Pairwise
import RouteTypes.Proofs.Grammar.Weight
import RouteTypes.Typing.Value

namespace RouteTypes

open RouteTypes.Tree

/-! ## Inwards and outwards -/

/-- A set of nodes that is not left by going inwards or outwards. -/
structure Node.Closed (known : Node → Prop) : Prop where
  child : ∀ {node child : Node}, known node → child ∈ node.children → known child
  parent : ∀ {node outer : Node}, known node → node.parent = some outer → known outer

namespace Node

section

variable {source : Source}

theorem mem_nodesInAll {node : Node} {parent : Option Node} {parts : List Part} :
    node ∈ nodesInAll source parent parts ↔ ∃ part ∈ parts, node ∈ nodesIn source parent part := by
  induction parts with
  | nil => simp [nodesInAll]
  | cons part rest ih => simp [nodesInAll, ih]

/-- A node that is right below is the first one of a part. -/
theorem mem_children {node child : Node} : child ∈ node.children ↔ ∃ span kind parts,
    .node span kind parts ∈ node.parts ∧ child = ⟨node.source, kind, span, parts, some node⟩ := by
  unfold children
  rw [List.mem_filterMap]
  constructor
  · rintro ⟨part, hpart, hinner⟩
    cases part with
    | leaf span token => cases hinner
    | node span kind parts =>
      cases hinner
      exact ⟨span, kind, parts, hpart, rfl⟩
  · rintro ⟨span, kind, parts, hpart, rfl⟩
    exact ⟨_, hpart, rfl⟩

theorem parent_of_mem_children {node child : Node} (h : child ∈ node.children) :
    child.parent = some node := by
  obtain ⟨span, kind, parts, -, rfl⟩ := mem_children.mp h
  rfl

mutual

theorem source_of_mem {node : Node} : ∀ {parent : Option Node} (part : Part),
    node ∈ nodesIn source parent part → node.source = source
  | _, .leaf _ _, h => by cases h
  | parent, .node span kind parts, h => by
    rw [nodesIn] at h
    rcases List.mem_cons.mp h with rfl | h
    · rfl
    · exact source_of_mem_all parts h

theorem source_of_mem_all {node : Node} : ∀ {parent : Option Node} (parts : List Part),
    node ∈ nodesInAll source parent parts → node.source = source
  | _, [], h => by cases h
  | parent, part :: rest, h => by
    rw [nodesInAll] at h
    rcases List.mem_append.mp h with h | h
    · exact source_of_mem part h
    · exact source_of_mem_all rest h

end

/-- With a node all nodes right below it are there. -/
theorem child_mem {node child : Node} (hchild : child ∈ node.children) :
    ∀ {parent : Option Node} (part : Part), node ∈ nodesIn source parent part →
      child ∈ nodesIn source parent part
  | _, .leaf _ _, h => by cases h
  | parent, .node span kind parts, h => by
    rw [nodesIn] at h ⊢
    refine List.mem_cons_of_mem _ ?_
    rcases List.mem_cons.mp h with rfl | h
    · obtain ⟨span, kind, inner, hpart, rfl⟩ := mem_children.mp hchild
      exact mem_nodesInAll.mpr ⟨_, hpart, List.mem_cons_self⟩
    · obtain ⟨part, hpart, h⟩ := mem_nodesInAll.mp h
      exact mem_nodesInAll.mpr ⟨part, hpart, child_mem hchild part h⟩

/-- The node around a node is there too, unless it is that around all. -/
theorem parent_mem {node : Node} : ∀ {parent : Option Node} (part : Part),
    node ∈ nodesIn source parent part →
      node.parent = parent ∨ ∃ outer ∈ nodesIn source parent part, node.parent = some outer
  | _, .leaf _ _, h => by cases h
  | parent, .node span kind parts, h => by
    rw [nodesIn] at h ⊢
    rcases List.mem_cons.mp h with rfl | h
    · exact .inl rfl
    · obtain ⟨part, hpart, h⟩ := mem_nodesInAll.mp h
      rcases parent_mem part h with hparent | ⟨outer, houter, hparent⟩
      · exact .inr ⟨_, List.mem_cons_self, hparent⟩
      · exact .inr ⟨outer, List.mem_cons_of_mem _ (mem_nodesInAll.mpr ⟨part, hpart, houter⟩), hparent⟩

theorem self_mem_descendants : ∀ node : Node, node ∈ node.descendants
  | ⟨_, _, _, _, _⟩ => List.mem_cons_self

theorem source_of_mem_descendants {root node : Node} (h : node ∈ root.descendants) :
    node.source = root.source :=
  source_of_mem root.part h

theorem source_ofTree (source : Source) (tree : Tree) : (ofTree source tree).source = source := by
  unfold ofTree
  split <;> rfl

theorem parent_ofTree (source : Source) (tree : Tree) : (ofTree source tree).parent = none := by
  unfold ofTree
  split <;> rfl

/-- The nodes of a whole tree. -/
theorem closed_descendants {root : Node} (h : root.parent = none) : Closed (· ∈ root.descendants) where
  child hnode hchild := child_mem hchild root.part hnode
  parent {node outer} hnode houter := by
    rcases parent_mem root.part hnode with hnone | ⟨own, hown, hsome⟩
    · rw [hnone, h] at houter
      cases houter
    · rw [hsome, Option.some_inj] at houter
      exact houter ▸ hown

theorem Closed.or {known other : Node → Prop} (h : Closed known) (h' : Closed other) :
    Closed fun node => known node ∨ other node where
  child hnode hchild := hnode.imp (h.child · hchild) (h'.child · hchild)
  parent hnode houter := hnode.imp (h.parent · houter) (h'.parent · houter)

end

/-! ### Parts of known nodes -/

namespace Closed

variable {known : Node → Prop} (hclosed : Closed known) {node : Node}

include hclosed

theorem childrenOf (hnode : known node) {is : NodeKind → Bool} :
    ∀ child ∈ node.childrenOf is, known child :=
  fun _ hchild => hclosed.child hnode (List.mem_of_mem_filter hchild)

theorem child? (hnode : known node) {is : NodeKind → Bool} :
    ∀ child ∈ node.child? is, known child :=
  fun _ hchild => hclosed.child hnode (List.mem_of_find?_eq_some hchild)

/-- The parts of kind after a step to a node below. -/
theorem map_childrenOf (hnode : known node) {is inner : NodeKind → Bool} :
    ∀ child ∈ ((node.child? is).map (·.childrenOf inner)).getD [], known child := by
  intro child hchild
  cases hlist : node.child? is with
  | none =>
    rw [hlist] at hchild
    cases hchild
  | some list =>
    rw [hlist] at hchild
    exact hclosed.childrenOf (hclosed.child? hnode list hlist) child hchild

theorem ascribed? (hnode : known node) : ∀ type ∈ node.ascribed?, known type := by
  intro type htype
  obtain ⟨ascription, hascription, htype⟩ := Option.bind_eq_some_iff.mp htype
  exact hclosed.child? (hclosed.child? hnode ascription hascription) type htype

end Closed

/-! ### Return statements -/

theorem mem_returnsIn {source : Source} {parent : Option Node} {span : Text.Span} {kind : NodeKind}
    {parts : List Part} {found : Node}
    (h : found ∈ Node.returnsIn source parent (.node span kind parts)) :
    (kind = .returnStmt ∧ found = ⟨source, kind, span, parts, parent⟩) ∨
      found ∈ Node.returnsInAll source (some ⟨source, kind, span, parts, parent⟩) parts := by
  unfold Node.returnsIn at h
  dsimp only at h
  split at h
  · exact .inl ⟨rfl, List.mem_singleton.mp h⟩
  all_goals first | exact .inr h | cases h

mutual

theorem Closed.returnsIn {known : Node → Prop} (hclosed : Closed known) {source : Source} :
    ∀ {parent : Option Node} (part : Part),
      (∀ span kind parts, part = .node span kind parts → known ⟨source, kind, span, parts, parent⟩) →
        ∀ found ∈ Node.returnsIn source parent part, known found ∧ found.kind = .returnStmt
  | _, .leaf _ _, _ => by
    intro found hfound
    cases hfound
  | parent, .node span kind parts, h => by
    have hhere := h span kind parts rfl
    intro found hfound
    rcases mem_returnsIn hfound with ⟨rfl, rfl⟩ | hfound
    · exact ⟨hhere, rfl⟩
    · exact hclosed.returnsInAll parts (fun part hpart => hpart) rfl hhere found hfound

theorem Closed.returnsInAll {known : Node → Prop} (hclosed : Closed known) {source : Source}
    {outer : Node} : ∀ parts : List Part, (∀ part ∈ parts, part ∈ outer.parts) →
      outer.source = source → known outer →
        ∀ found ∈ Node.returnsInAll source (some outer) parts, known found ∧ found.kind = .returnStmt
  | [], _, _, _ => by
    intro found hfound
    cases hfound
  | part :: rest, hparts, hsource, houter => by
    intro found hfound
    rw [Node.returnsInAll] at hfound
    rcases List.mem_append.mp hfound with hfound | hfound
    · refine hclosed.returnsIn part (fun span kind parts hpart => ?_) found hfound
      refine hclosed.child houter (Node.mem_children.mpr ⟨span, kind, parts, ?_, ?_⟩)
      · exact hpart ▸ hparts part List.mem_cons_self
      · rw [hsource]
    · exact hclosed.returnsInAll rest (fun part hpart => hparts part (List.mem_cons_of_mem _ hpart))
        hsource houter found hfound

end

/-- The return statements of a known body are known. -/
theorem Closed.returns {known : Node → Prop} (hclosed : Closed known) {body : Node} (hbody : known body) :
    ∀ found ∈ body.returns, known found ∧ found.kind = .returnStmt :=
  hclosed.returnsInAll body.parts (fun _ hpart => hpart) rfl hbody

/-! ## Places -/

theorem stop_place (start : Nat) (tree : Tree) : (tree.place start).span.stop = start + tree.size :=
  (Tree.placed_place start tree).2

/-- A node among placed trees is in one of them, which stands behind those before it. -/
theorem mem_nodesInAll_placeAll {source : Source} {node : Node} {parent : Option Node} {start : Nat}
    {trees : List Tree} (h : node ∈ nodesInAll source parent (Tree.placeAll start trees)) :
    ∃ before tree behind, trees = before ++ tree :: behind ∧
      node ∈ nodesIn source parent (tree.place (start + Token.sizeOf (tokensOf before))) := by
  induction trees generalizing start with
  | nil => cases h
  | cons tree rest ih =>
    rw [Tree.placeAll, nodesInAll] at h
    rcases List.mem_append.mp h with h | h
    · exact ⟨[], tree, rest, rfl, h⟩
    · obtain ⟨before, found, behind, rfl, hfound⟩ := ih h
      refine ⟨tree :: before, found, behind, rfl, ?_⟩
      rw [stop_place, size] at hfound
      rwa [tokensOf, Token.sizeOf_append, ← Nat.add_assoc]

/-- A node covers the bytes of its own tree, lies between two places, and its tree is good. -/
structure Lies (good : Tree → Prop) (start stop : Nat) (node : Node) : Prop where
  covers : node.span.stop = node.span.start + node.tree.size
  start_le : start ≤ node.span.start
  stop_le : node.span.stop ≤ stop
  good : good node.tree

/-- A property of trees that is handed down in them. -/
def HandedDown (good : Tree → Prop) : Prop :=
  ∀ kind children, good (.node kind children) → ∀ child ∈ children, good child

variable {source : Source}

mutual

/-- What is true of a tree and handed down in it is true of all its nodes, which lie within it. -/
theorem lies_of_mem {good : Tree → Prop} (hgood : HandedDown good) {node : Node} :
    ∀ {parent : Option Node} {start : Nat} (tree : Tree), good tree →
      node ∈ nodesIn source parent (tree.place start) → Lies good start (start + tree.size) node
  | _, _, .leaf _, _, h => by cases h
  | parent, start, .node kind children, htree, h => by
    rw [Tree.place, nodesIn] at h
    rcases List.mem_cons.mp h with rfl | h
    · have herase : Part.eraseAll (Tree.placeAll start children) = children :=
        Tree.eraseAll_placeAll start children
      have hstop := (Tree.placedAll_placeAll start children).2
      refine ⟨?_, Nat.le_refl _, Nat.le_of_eq hstop, ?_⟩
      · rw [tree, herase]
        exact hstop
      · rw [tree, herase]
        exact htree
    · exact lies_of_mem_all hgood children (hgood kind children htree) h

theorem lies_of_mem_all {good : Tree → Prop} (hgood : HandedDown good) {node : Node} :
    ∀ {parent : Option Node} {start : Nat} (trees : List Tree), (∀ tree ∈ trees, good tree) →
      node ∈ nodesInAll source parent (Tree.placeAll start trees) →
      Lies good start (start + Token.sizeOf (tokensOf trees)) node
  | _, _, [], _, h => by cases h
  | parent, start, tree :: rest, htrees, h => by
    rw [Tree.placeAll, nodesInAll] at h
    rw [tokensOf, Token.sizeOf_append]
    rcases List.mem_append.mp h with h | h
    · have hlies := lies_of_mem hgood tree (htrees tree List.mem_cons_self) h
      refine ⟨hlies.covers, hlies.start_le, Nat.le_trans hlies.stop_le ?_, hlies.good⟩
      exact Nat.add_le_add_left (Nat.le_add_right _ _) _
    · have hlies := lies_of_mem_all hgood rest (fun tree htree => htrees tree (List.mem_cons_of_mem _ htree)) h
      rw [stop_place, Nat.add_assoc] at hlies
      exact ⟨hlies.covers, Nat.le_trans (Nat.le_add_right _ _) hlies.start_le, hlies.stop_le, hlies.good⟩

end

/-! ## One node at a place -/

/-- A tree of a program without misfits. -/
structure Good (tree : Tree) : Prop where
  sound : tree.Sound Grammar.forms
  weighs : tree.Weighs

theorem Good.child : HandedDown Good :=
  fun _ _ h child hchild => ⟨h.sound.child child hchild, h.weighs.child child hchild⟩

theorem Good.size_pos {kind : NodeKind} {children : List Tree} (h : Good (.node kind children))
    (hplain : kind.isPlain = true) : 0 < (Tree.node kind children).size :=
  h.sound.size_pos h.weighs (by simp [Tree.kind, Kind.isLight, hplain])

/-- What covers the same text as a plain node around it has a lower rank. -/
theorem rank_lt_of_mem {node : Node} {parent : Option Node} {start : Nat} {kind : NodeKind}
    {children : List Tree} (hgood : Good (.node kind children)) (hplain : kind.isPlain = true)
    (h : node ∈ nodesInAll source parent (Tree.placeAll start children))
    (hspan : node.span = ⟨start, start + (Tree.node kind children).size⟩) :
    node.kind.rank < kind.rank := by
  obtain ⟨before, tree, behind, rfl, hin⟩ := mem_nodesInAll_placeAll h
  have hsplit := size_split kind before tree behind
  have hany : HandedDown fun _ => True := fun _ _ _ _ _ => trivial
  have hlies := lies_of_mem hany tree trivial hin
  have hstart := hlies.start_le
  have hstop := hlies.stop_le
  rw [hspan] at hstart hstop
  dsimp only at hstart hstop
  cases tree with
  | leaf token => cases hin
  | node inner parts =>
    -- The child has all bytes, so nothing beside it has any.
    obtain ⟨hrank, hinner⟩ := hgood.sound.rank_lt hgood.weighs hplain (by omega) (by omega)
    have hchild : Good (.node inner parts) :=
      Good.child _ _ hgood _ (List.mem_append_right _ List.mem_cons_self)
    rw [Tree.place, nodesIn] at hin
    rcases List.mem_cons.mp hin with rfl | hin
    · exact hrank
    · refine Nat.lt_trans (rank_lt_of_mem hchild hinner hin ?_) hrank
      rw [hspan]
      congr 1 <;> omega
termination_by sizeOf children
decreasing_by
  have hlt := List.sizeOf_lt_of_mem (List.mem_append_right before
    (List.mem_cons_self (a := Tree.node inner parts) (l := behind)))
  simp only [Tree.node.sizeOf_spec] at hlt
  subst_vars
  omega

/-- A tree of a program without misfits in which every node has bytes. -/
structure Solid (tree : Tree) : Prop extends Good tree where
  plain : ∀ {kind children}, tree = .node kind children → kind.isPlain = true

theorem Solid.child : HandedDown Solid := by
  intro kind children h child hchild
  refine ⟨Good.child kind children h.toGood child hchild, fun {inner parts} hnode => ?_⟩
  have hkind : kind ≠ .sourceFile := by
    rintro rfl
    cases h.plain rfl
  exact h.sound.child_plain hkind (hnode ▸ hchild)

theorem Solid.start_lt {tree : Tree} (h : Solid tree) {parent : Option Node} {start : Nat} {node : Node}
    (hnode : node ∈ nodesIn source parent (tree.place start)) : node.span.start < node.span.stop := by
  obtain ⟨hcovers, -, -, hsolid⟩ := lies_of_mem Solid.child tree h hnode
  have hpos : 0 < node.tree.size := hsolid.size_pos (hsolid.plain rfl)
  omega

/-- Two nodes whose kinds or places tell them apart. -/
def Apart (a b : Node) : Prop := a.kind = b.kind → a.span ≠ b.span

instance : Std.Symm Apart := ⟨fun _ _ h hkind hspan => h hkind.symm hspan.symm⟩

mutual

/-- A node has a higher rank than what covers the same text below it, and what stands beside it covers
another text. -/
theorem apart_nodesIn : ∀ {parent : Option Node} {start : Nat} (tree : Tree), Solid tree →
    (nodesIn source parent (tree.place start)).Pairwise Apart
  | _, _, .leaf _, _ => .nil
  | parent, start, .node kind children, hsolid => by
    rw [Tree.place, nodesIn]
    refine List.pairwise_cons.mpr ⟨fun node hnode hkind hspan => ?_,
      apart_nodesInAll children (Solid.child kind children hsolid)⟩
    have hstop := (Tree.placedAll_placeAll start children).2
    have hrank := rank_lt_of_mem hsolid.toGood (hsolid.plain rfl) hnode (by rw [← hspan, hstop]; rfl)
    exact absurd (hkind ▸ hrank) (Nat.lt_irrefl _)

theorem apart_nodesInAll : ∀ {parent : Option Node} {start : Nat} (trees : List Tree),
    (∀ tree ∈ trees, Solid tree) → (nodesInAll source parent (Tree.placeAll start trees)).Pairwise Apart
  | _, _, [], _ => .nil
  | parent, start, tree :: rest, hsolid => by
    have hone := hsolid tree List.mem_cons_self
    have hrest : ∀ tree ∈ rest, Solid tree := fun tree htree => hsolid tree (List.mem_cons_of_mem _ htree)
    rw [Tree.placeAll, nodesInAll]
    refine List.pairwise_append.mpr ⟨apart_nodesIn tree hone, apart_nodesInAll rest hrest, ?_⟩
    -- What lies in a tree ends before what lies behind it begins.
    intro first hfirst other hother hkind hspan
    have hstop := (lies_of_mem Solid.child tree hone hfirst).stop_le
    have hstart := (lies_of_mem_all Solid.child rest hrest hother).start_le
    have hlt := hone.start_lt hfirst
    rw [stop_place, ← hspan] at hstart
    omega

end

/-- Leaves are no nodes. -/
theorem exists_nodesInAll_leaves (source : Source) (parent : Option Node) (start : Nat) (tokens : List Token)
    (rest : List Tree) :
    ∃ next, nodesInAll source parent (Tree.placeAll start (tokens.map .leaf ++ rest)) =
      nodesInAll source parent (Tree.placeAll next rest) := by
  induction tokens generalizing start with
  | nil => exact ⟨start, rfl⟩
  | cons token tokens ih => exact ih _

/-- The nodes of a program are the root, the list of its statements, and the nodes in these. -/
theorem exists_descendants (source : Source) {tree : Tree} {blanks more : List Token} {statements : List Tree}
    (htree : tree = .node .sourceFile (blanks.map .leaf ++ .node .stmtList statements :: more.map .leaf)) :
    ∃ list start, list.kind = .stmtList ∧ (ofTree source tree).descendants =
      ofTree source tree :: list :: nodesInAll source (some list) (Tree.placeAll start statements) := by
  obtain ⟨start, hstart⟩ := exists_nodesInAll_leaves source (some (ofTree source tree)) 0
    blanks (.node .stmtList statements :: more.map .leaf)
  obtain ⟨stop, hstop⟩ := exists_nodesInAll_leaves source (some (ofTree source tree))
    ((Tree.node .stmtList statements).place start).span.stop more []
  rw [List.append_nil, Tree.placeAll, nodesInAll] at hstop
  rw [Tree.placeAll, nodesInAll, hstop, List.append_nil, Tree.place, nodesIn] at hstart
  refine ⟨_, start, rfl, .trans ?_ (congrArg (ofTree source tree :: ·) hstart)⟩
  subst htree
  rfl

end Node

theorem Program.good {text : String} (h : (Program.ofSource text).isOk = true) :
    Node.Good (Program.ofSource text).tree where
  sound := program_sound h
  weighs token htoken heof := by
    rw [tokens_tree] at htoken
    exact Token.scan_pos text.toList token htoken heof

theorem Program.exists_statements (text : String) :
    ∃ (blanks : List Token) (statements : List Tree) (more : List Token), (Program.ofSource text).tree =
      .node .sourceFile (blanks.map .leaf ++ .node .stmtList statements :: more.map .leaf) := by
  obtain ⟨before, htokens, hbefore⟩ := Token.ofSource_ends text
  obtain ⟨blanks, statements, more, hparts, -⟩ := Grammar.parts_of_program htokens rfl hbefore
  exact ⟨blanks, statements, more ++ [⟨.eof, ""⟩], by rw [ofSource_eq, hparts, List.map_append]; rfl⟩

/-- The nodes of a program without misfits are all told apart by their kinds and places: the program and its
statements have kinds of their own, and all other nodes have bytes. -/
theorem Program.apart {text : String} (h : (Program.ofSource text).isOk = true) (source : Source) :
    (Node.ofTree source (Program.ofSource text).tree).descendants.Pairwise Node.Apart := by
  obtain ⟨blanks, statements, more, htree⟩ := exists_statements text
  obtain ⟨list, start, hlist, hnodes⟩ := Node.exists_descendants source htree
  have hgood := Program.good h
  rw [htree] at hgood
  have hstatements : Node.Good (.node .stmtList statements) :=
    Node.Good.child _ _ hgood _ (List.mem_append_right _ List.mem_cons_self)
  have hsolid : ∀ tree ∈ statements, Node.Solid tree := fun tree hmem =>
    ⟨Node.Good.child _ _ hstatements tree hmem, fun {kind children} hnode =>
      hstatements.sound.child_plain (by decide) (hnode ▸ hmem)⟩
  have hplain : ∀ node ∈ Node.nodesInAll source (some list) (Tree.placeAll start statements),
      node.kind.isPlain = true := fun node hnode =>
    (Node.lies_of_mem_all Node.Solid.child statements hsolid hnode).good.plain rfl
  have hroot : (Node.ofTree source (Program.ofSource text).tree).kind = .sourceFile := by
    rw [htree]
    rfl
  rw [hnodes]
  refine List.pairwise_cons.mpr ⟨fun node hnode hkind => ?_, List.pairwise_cons.mpr
    ⟨fun node hnode hkind => ?_, Node.apart_nodesInAll statements hsolid⟩⟩
  · rw [hroot] at hkind
    rcases List.mem_cons.mp hnode with rfl | hnode
    · cases hkind.trans hlist
    · cases hkind ▸ hplain node hnode
  · rw [hlist] at hkind
    cases hkind ▸ hplain node hnode

/-- In a program without misfits nodes of the same kind and at the same place are one. -/
theorem Program.node_eq {text : String} (h : (Program.ofSource text).isOk = true) {a b : Node}
    (ha : a ∈ (Program.ofSource text).root.descendants)
    (hb : b ∈ (Program.ofSource text).root.descendants) (hid : a.id = b.id) : a = b := by
  obtain ⟨-, hkind, hspan⟩ := NodeId.mk.inj hid
  by_contra hne
  exact (Program.apart h .program).forall ha hb hne hkind hspan

theorem Program.nodes_closed (text : String) : Node.Closed (· ∈ (Program.ofSource text).root.descendants) :=
  Node.closed_descendants (Node.parent_ofTree _ _)

theorem Program.source_of_mem {text : String} {node : Node} (h : node ∈ (Program.ofSource text).root.descendants) :
    node.source = .program :=
  (Node.source_of_mem_descendants h).trans (Node.source_ofTree _ _)

end RouteTypes
