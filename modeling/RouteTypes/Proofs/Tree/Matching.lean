-- Trees that match: blanks and comments do not count, and where the second of two trees has grown, lists of
-- arguments end in a record that the first one does not have. Nodes at the same place in matching trees are
-- reached by the same way from the root.
import RouteTypes.Proofs.Tree.Places
import RouteTypes.Route.Annotate

namespace RouteTypes

/-! ## Matching parts -/

/-- A record of numbers, as it is put in behind arguments. -/
def Part.IsRecord (part : Part) : Prop :=
  ∃ config params returned, part.erase = Route.argument config params returned

def Part.isLeaf (part : Part) : Bool := part.token?.isSome

/-- Whether two rows of parts match. If they are those of a list of arguments and the second tree may have
grown, there may be a record behind all nodes of the first row. -/
inductive Matches (grows : Bool) : Bool → List Part → List Part → Prop
  | nil {list : Bool} : Matches grows list [] []
  | blank {list : Bool} {part : Part} {parts parts' : List Part} (trivia : part.isTrivia = true)
      (rest : Matches grows list parts parts') : Matches grows list (part :: parts) parts'
  | blank' {list : Bool} {part : Part} {parts parts' : List Part} (trivia : part.isTrivia = true)
      (rest : Matches grows list parts parts') : Matches grows list parts (part :: parts')
  | leaf {list : Bool} {span span' : Text.Span} {token : Token} {parts parts' : List Part}
      (solid : token.isTrivia = false) (rest : Matches grows list parts parts') :
      Matches grows list (.leaf span token :: parts) (.leaf span' token :: parts')
  | node {list : Bool} {span span' : Text.Span} {kind : NodeKind} {inner inner' parts parts' : List Part}
      (below : Matches grows (kind == .argList) inner inner') (rest : Matches grows list parts parts') :
      Matches grows list (.node span kind inner :: parts) (.node span' kind inner' :: parts')
  | grown {parts before behind : List Part} {record : Part} (may : grows = true) (isRecord : record.IsRecord)
      (leaves : ∀ part ∈ parts, part.isLeaf = true) (front : ∀ part ∈ before, part.isLeaf = true)
      (back : ∀ part ∈ behind, part.isLeaf = true) :
      Matches grows true parts (before ++ record :: behind)

variable {grows : Bool}

mutual

/-- A part matches itself, wherever it stands. -/
theorem Matches.self {list : Bool} {parts parts' : List Part} : ∀ part : Part, Matches grows list parts parts' →
    Matches grows list (part :: parts) (part :: parts')
  | .leaf span token, h => by
    cases htoken : token.isTrivia
    · exact .leaf htoken h
    · exact .blank htoken (.blank' htoken h)
  | .node _ _ inner, h => .node (Matches.refl inner) h

theorem Matches.refl {list : Bool} : ∀ parts : List Part, Matches grows list parts parts
  | [] => .nil
  | part :: rest => .self part (Matches.refl rest)

end

namespace Node

theorem inner?_leaf {node : Node} {part : Part} (h : part.isLeaf = true) : node.inner? part = none := by
  cases part with
  | leaf _ _ => rfl
  | node _ _ _ => cases h

theorem inner?_trivia {node : Node} {part : Part} (h : part.isTrivia = true) : node.inner? part = none := by
  cases part with
  | leaf _ _ => rfl
  | node _ _ _ => cases h

theorem filterMap_node {node : Node} {span : Text.Span} {kind : NodeKind} {inner parts : List Part} :
    (Part.node span kind inner :: parts).filterMap node.inner? =
      ⟨node.source, kind, span, inner, some node⟩ :: parts.filterMap node.inner? :=
  List.filterMap_cons_some rfl

theorem filterMap_leaves {node : Node} {parts : List Part} (h : ∀ part ∈ parts, part.isLeaf = true) :
    parts.filterMap node.inner? = [] :=
  List.filterMap_eq_nil_iff.mpr fun part hpart => inner?_leaf (h part hpart)

end Node

/-- What is known of two nodes at the same place of matching trees by themselves. -/
structure Kin (grows : Bool) (node node' : Node) : Prop where
  kind : node'.kind = node.kind
  source : node'.source = node.source
  parts : Matches grows (node.kind == .argList) node.parts node'.parts

/-- The nodes right below that stand in the same places are kin. -/
theorem Matches.child {list : Bool} {node node' : Node} (hsource : node'.source = node.source)
    {parts parts' : List Part} (h : Matches grows list parts parts') {i : Nat} {child child' : Node}
    (hchild : (parts.filterMap node.inner?)[i]? = some child)
    (hchild' : (parts'.filterMap node'.inner?)[i]? = some child') : Kin grows child child' := by
  induction h generalizing i with
  | nil => cases hchild
  | blank trivia _ ih =>
    rw [List.filterMap_cons_none (Node.inner?_trivia trivia)] at hchild
    exact ih hchild hchild'
  | blank' trivia _ ih =>
    rw [List.filterMap_cons_none (Node.inner?_trivia trivia)] at hchild'
    exact ih hchild hchild'
  | leaf _ _ ih =>
    rw [List.filterMap_cons_none rfl] at hchild hchild'
    exact ih hchild hchild'
  | node below _ _ ih =>
    rw [Node.filterMap_node] at hchild hchild'
    cases i with
    | zero =>
      cases hchild
      cases hchild'
      exact ⟨rfl, hsource, below⟩
    | succ i => exact ih hchild hchild'
  | grown _ _ leaves _ _ =>
    rw [Node.filterMap_leaves leaves] at hchild
    cases hchild

/-- Every node right below has its partner, and what there is more is the record. -/
theorem Matches.children {list : Bool} {node node' : Node} {parts parts' : List Part}
    (h : Matches grows list parts parts') :
    (parts'.filterMap node'.inner?).length = (parts.filterMap node.inner?).length ∨
      grows = true ∧ list = true ∧ ∃ before record behind, parts' = before ++ record :: behind ∧
        record.IsRecord ∧ (∀ part ∈ behind, part.isLeaf = true) ∧
        (before.filterMap node'.inner?).length = (parts.filterMap node.inner?).length := by
  induction h with
  | nil => exact .inl rfl
  | blank trivia _ ih =>
    rw [List.filterMap_cons_none (Node.inner?_trivia trivia)]
    exact ih
  | blank' trivia _ ih =>
    rw [List.filterMap_cons_none (Node.inner?_trivia trivia)]
    rcases ih with ih | ⟨hgrows, hlist, before, record, behind, rfl, hrecord, hbehind, hlength⟩
    · exact .inl ih
    · refine .inr ⟨hgrows, hlist, _ :: before, record, behind, rfl, hrecord, hbehind, ?_⟩
      rw [List.filterMap_cons_none (Node.inner?_trivia trivia), hlength]
  | leaf _ _ ih =>
    rw [List.filterMap_cons_none rfl, List.filterMap_cons_none rfl]
    rcases ih with ih | ⟨hgrows, hlist, before, record, behind, rfl, hrecord, hbehind, hlength⟩
    · exact .inl ih
    · refine .inr ⟨hgrows, hlist, _ :: before, record, behind, rfl, hrecord, hbehind, ?_⟩
      rw [List.filterMap_cons_none rfl, hlength]
  | node _ _ _ ih =>
    rw [Node.filterMap_node, Node.filterMap_node]
    rcases ih with ih | ⟨hgrows, hlist, before, record, behind, rfl, hrecord, hbehind, hlength⟩
    · exact .inl (congrArg (· + 1) ih)
    · refine .inr ⟨hgrows, hlist, _ :: before, record, behind, rfl, hrecord, hbehind, ?_⟩
      rw [Node.filterMap_node]
      exact congrArg (· + 1) hlength
  | @grown parts before behind record hgrows hrecord leaves front back =>
    refine .inr ⟨hgrows, rfl, before, record, behind, rfl, hrecord, back, ?_⟩
    rw [Node.filterMap_leaves front, Node.filterMap_leaves leaves]

/-- The nodes right below, as many as there are below the first, and behind them perhaps the record. -/
theorem Kin.children {node node' : Node} (h : Kin grows node node') :
    ∃ own put, node'.children = own ++ put ∧ own.length = node.children.length ∧
      (put = [] ∨ grows = true ∧ node.kind = .argList ∧ ∃ record, put = [record] ∧ record.part.IsRecord) := by
  rcases (h.parts.children : (node'.children).length = node.children.length ∨ _) with
    hlength | ⟨hgrows, hlist, before, record, behind, hparts, hrecord, hbehind, hlength⟩
  · exact ⟨node'.children, [], (List.append_nil _).symm, hlength, .inl rfl⟩
  · obtain ⟨config, params, returned, herase⟩ := hrecord
    cases record with
    | leaf _ _ => cases herase
    | node span kind inner =>
      refine ⟨before.filterMap node'.inner?, [⟨node'.source, kind, span, inner, some node'⟩], ?_, hlength,
        .inr ⟨hgrows, beq_iff_eq.mp hlist, _, rfl, config, params, returned, herase⟩⟩
      rw [Node.children, hparts, List.filterMap_append, Node.filterMap_node, Node.filterMap_leaves hbehind]

theorem Kin.child {node node' : Node} (h : Kin grows node node') {i : Nat} {child child' : Node}
    (hchild : node.children[i]? = some child) (hchild' : node'.children[i]? = some child') :
    Kin grows child child' :=
  h.parts.child h.source hchild hchild'

/-- Nodes match if what is in them does. -/
theorem Matches.inside {node node' : Node} (h : Matches grows false [node.part] [node'.part]) :
    Matches grows (node.kind == .argList) node.parts node'.parts := by
  obtain ⟨source, kind, span, parts, parent⟩ := node
  obtain ⟨source', kind', span', parts', parent'⟩ := node'
  cases h with
  | blank trivia => cases trivia
  | blank' trivia => cases trivia
  | node below => exact below

/-! ## Ways -/

namespace Node

/-- The node that is reached by going down to the nodes right below with these numbers. -/
def down : List Nat → Node → Option Node
  | [], node => some node
  | i :: way, node => node.children[i]?.bind (down way)

theorem down_concat (node : Node) (way : List Nat) (i : Nat) :
    node.down (way ++ [i]) = (node.down way).bind (·.children[i]?) := by
  induction way generalizing node with
  | nil => cases hchild : node.children[i]? <;> simp [down, hchild]
  | cons j way ih =>
    rw [List.cons_append, down, down, Option.bind_assoc]
    exact congrArg _ (funext ih)

theorem mem_of_down {root node : Node} (hroot : root.parent = none) {way : List Nat}
    (h : root.down way = some node) : node ∈ root.descendants := by
  induction way using List.reverseRecOn generalizing node with
  | nil =>
    cases h
    exact self_mem_descendants root
  | append_singleton way i ih =>
    rw [down_concat] at h
    obtain ⟨outer, houter, hchild⟩ := Option.bind_eq_some_iff.mp h
    exact (closed_descendants hroot).child (ih houter) (List.mem_of_getElem? hchild)

theorem nodesIn_sublist {source : Source} {parent : Option Node} {part : Part} {parts : List Part}
    (h : part ∈ parts) : (nodesIn source parent part).Sublist (nodesInAll source parent parts) := by
  induction parts with
  | nil => cases h
  | cons first rest ih =>
    rw [nodesInAll]
    rcases List.mem_cons.mp h with rfl | h
    · exact List.sublist_append_left _ _
    · exact (ih h).trans (List.sublist_append_right _ _)

theorem filterMap_sublist {outer : Node} (parts : List Part) :
    (parts.filterMap outer.inner?).Sublist (nodesInAll outer.source (some outer) parts) := by
  induction parts with
  | nil => exact .slnil
  | cons part rest ih =>
    cases part with
    | leaf _ _ => exact ih
    | node span kind inner =>
      rw [filterMap_node, nodesInAll, nodesIn]
      exact (ih.trans (List.sublist_append_right _ _)).cons_cons _

/-- The nodes right below a node are among all the nodes, in the same order. -/
theorem children_sublist {node : Node} {source : Source} : ∀ {parent : Option Node} (part : Part),
    node ∈ nodesIn source parent part → node.children.Sublist (nodesIn source parent part)
  | _, .leaf _ _, h => by cases h
  | parent, .node span kind parts, h => by
    rw [nodesIn] at h ⊢
    refine .cons _ ?_
    rcases List.mem_cons.mp h with rfl | h
    · exact filterMap_sublist parts
    · obtain ⟨part, hpart, h⟩ := mem_nodesInAll.mp h
      exact (children_sublist part h).trans (nodesIn_sublist hpart)

/-- Whether no two nodes below the root, or the root and one of them, have the same id. -/
def Distinct (root : Node) : Prop := root.descendants.Pairwise fun a b => a.id ≠ b.id

theorem Distinct.eq {root a b : Node} (h : root.Distinct) (ha : a ∈ root.descendants) (hb : b ∈ root.descendants)
    (hid : a.id = b.id) : a = b := by
  have : Std.Symm fun a b : Node => a.id ≠ b.id := ⟨fun _ _ hne hid => hne hid.symm⟩
  by_contra hne
  exact h.forall ha hb hne hid

/-- Where all nodes are told apart, one way leads to each. -/
theorem down_inj {root node : Node} (hroot : root.parent = none) (hdistinct : root.Distinct) {way other : List Nat}
    (h : root.down way = some node) (hother : root.down other = some node) : way = other := by
  induction way using List.reverseRecOn generalizing other node with
  | nil =>
    cases h
    induction other using List.reverseRecOn with
    | nil => rfl
    | append_singleton other j _ =>
      rw [down_concat] at hother
      obtain ⟨outer, -, hchild⟩ := Option.bind_eq_some_iff.mp hother
      rw [parent_of_mem_children (List.mem_of_getElem? hchild)] at hroot
      cases hroot
  | append_singleton way i ih =>
    rw [down_concat] at h
    obtain ⟨outer, houter, hchild⟩ := Option.bind_eq_some_iff.mp h
    have hparent := parent_of_mem_children (List.mem_of_getElem? hchild)
    induction other using List.reverseRecOn with
    | nil =>
      cases hother
      rw [hparent] at hroot
      cases hroot
    | append_singleton other j _ =>
      rw [down_concat] at hother
      obtain ⟨outer', houter', hchild'⟩ := Option.bind_eq_some_iff.mp hother
      cases hparent.symm.trans (parent_of_mem_children (List.mem_of_getElem? hchild'))
      have hnodup : outer.children.Nodup :=
        (hdistinct.imp fun hne hsame => hne (congrArg id hsame)).sublist
          (children_sublist root.part (mem_of_down hroot houter))
      obtain ⟨hi, -⟩ := List.getElem?_eq_some_iff.mp hchild
      rw [ih houter houter', (List.getElem?_inj hi hnodup).mp (hchild.trans hchild'.symm)]

end Node

/-! ## The same place in two trees -/

/-- Whether the same way leads to both nodes. -/
def SamePlace (root root' node node' : Node) : Prop :=
  ∃ way, root.down way = some node ∧ root'.down way = some node'

/-- Whether the way to a node of the second tree leads to none in the first. -/
def Put (root root' node' : Node) : Prop := ∃ way, root.down way = none ∧ root'.down way = some node'

/-- Two roots whose trees match. -/
structure Rooted (grows : Bool) (root root' : Node) : Prop extends Kin grows root root' where
  top : root.parent = none
  top' : root'.parent = none

namespace SamePlace

variable {root root' node node' : Node}

theorem refl (root root' : Node) : SamePlace root root' root root' := ⟨[], rfl, rfl⟩

theorem child (h : SamePlace root root' node node') {i : Nat} {child child' : Node}
    (hchild : node.children[i]? = some child) (hchild' : node'.children[i]? = some child') :
    SamePlace root root' child child' := by
  obtain ⟨way, hway, hway'⟩ := h
  refine ⟨way ++ [i], ?_, ?_⟩
  · rw [Node.down_concat, hway]
    exact hchild
  · rw [Node.down_concat, hway']
    exact hchild'

theorem kin (hroots : Rooted grows root root') (h : SamePlace root root' node node') : Kin grows node node' := by
  obtain ⟨way, hway, hway'⟩ := h
  induction way using List.reverseRecOn generalizing node node' with
  | nil =>
    cases hway
    cases hway'
    exact hroots.toKin
  | append_singleton way i ih =>
    rw [Node.down_concat] at hway hway'
    obtain ⟨outer, houter, hchild⟩ := Option.bind_eq_some_iff.mp hway
    obtain ⟨outer', houter', hchild'⟩ := Option.bind_eq_some_iff.mp hway'
    exact (ih houter houter').child hchild hchild'

theorem parent (hroots : Rooted grows root root') (h : SamePlace root root' node node') :
    Option.Rel (SamePlace root root') node.parent node'.parent := by
  obtain ⟨way, hway, hway'⟩ := h
  induction way using List.reverseRecOn with
  | nil =>
    cases hway
    cases hway'
    rw [hroots.top, hroots.top']
    exact .none
  | append_singleton way i _ =>
    rw [Node.down_concat] at hway hway'
    obtain ⟨outer, houter, hchild⟩ := Option.bind_eq_some_iff.mp hway
    obtain ⟨outer', houter', hchild'⟩ := Option.bind_eq_some_iff.mp hway'
    rw [Node.parent_of_mem_children (List.mem_of_getElem? hchild),
      Node.parent_of_mem_children (List.mem_of_getElem? hchild')]
    exact .some ⟨way, houter, houter'⟩

theorem mem (hroots : Rooted grows root root') (h : SamePlace root root' node node') :
    node ∈ root.descendants :=
  have ⟨_, hway, _⟩ := h
  Node.mem_of_down hroots.top hway

theorem mem' (hroots : Rooted grows root root') (h : SamePlace root root' node node') :
    node' ∈ root'.descendants :=
  have ⟨_, _, hway'⟩ := h
  Node.mem_of_down hroots.top' hway'

/-- Where all nodes are told apart, a node has one partner. -/
theorem unique (hroots : Rooted grows root root') (hdistinct : root.Distinct)
    {other' : Node} (h : SamePlace root root' node node') (hother : SamePlace root root' node other') :
    other' = node' := by
  obtain ⟨way, hway, hway'⟩ := h
  obtain ⟨way', hsame, hother'⟩ := hother
  cases Node.down_inj hroots.top hdistinct hway hsame
  exact Option.some_inj.mp (hother'.symm.trans hway')

theorem unique' (hroots : Rooted grows root root') (hdistinct' : root'.Distinct)
    {other : Node} (h : SamePlace root root' node node') (hother : SamePlace root root' other node') :
    other = node := by
  obtain ⟨way, hway, hway'⟩ := h
  obtain ⟨way', hother', hsame⟩ := hother
  cases Node.down_inj hroots.top' hdistinct' hway' hsame
  exact Option.some_inj.mp (hother'.symm.trans hway)

/-- What has a partner is not put in. -/
theorem not_put (hroots : Rooted grows root root') (hdistinct' : root'.Distinct)
    (h : SamePlace root root' node node') : ¬ Put root root' node' := by
  rintro ⟨way', hnone, hsame⟩
  obtain ⟨way, hway, hway'⟩ := h
  cases Node.down_inj hroots.top' hdistinct' hway' hsame
  rw [hway] at hnone
  cases hnone

end SamePlace

end RouteTypes
