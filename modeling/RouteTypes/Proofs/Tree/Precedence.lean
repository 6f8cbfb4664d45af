-- How the expressions of a program are grouped, asked of its nodes. The operator of an operand binds tighter
-- than the one that it is an operand of, and of two that bind equally tight the left one binds first.
import RouteTypes.Proofs.Grammar.Operands
import RouteTypes.Proofs.Tree.Layout

namespace RouteTypes

open RouteTypes.Tree

namespace Node

/-- How tight the operator of a binary expression binds. -/
def level? (node : Node) : Option Nat :=
  if node.kind = .binaryExpr then node.operator?.bind TokenKind.level? else none

/-- How the parts of an expression are grouped, by its kind. A loose expression is a conditional, an
assignment or an arrow function without parentheses around it. -/
structure Grouped (node : Node) : Prop where
  /-- Of two operators that bind equally tight the left one binds first. A comparison binds as tight as
  what takes an expression as a type. -/
  binary : node.kind = .binaryExpr → ∃ (left right : Node) (level : Nat),
    node.expression? = some left ∧ node.expressionAt? 1 = some right ∧ node.level? = some level ∧
      left.kind.isLoose = false ∧ right.kind.isLoose = false ∧
      (left.kind = .binaryExpr → ∃ inner, left.level? = some inner ∧ level ≤ inner) ∧
      (right.kind = .binaryExpr → ∃ inner, right.level? = some inner ∧ level < inner) ∧
      (right.kind = .asExpr → level < 5)
  unary : node.kind = .prefixExpr → ∃ operand, node.expression? = some operand ∧
    operand.kind.isLoose = false ∧ operand.kind ≠ .binaryExpr ∧ operand.kind ≠ .asExpr
  cast : node.kind = .asExpr → ∃ operand, node.expression? = some operand ∧
    operand.kind.isLoose = false ∧
    (operand.kind = .binaryExpr → ∃ inner, operand.level? = some inner ∧ 5 ≤ inner)
  receiver : node.kind ∈ NodeKind.postfixes → ∃ receiver, node.expression? = some receiver ∧
    receiver.kind.isLoose = false ∧ receiver.kind ≠ .prefixExpr ∧ receiver.kind ≠ .binaryExpr
  /-- Conditionals group to the right: what is asked for is none. -/
  conditional : node.kind = .conditionalExpr → ∃ condition, node.expression? = some condition ∧
    condition.kind.isLoose = false
  /-- Assignments group to the right: what is assigned to is none. -/
  assignment : node.kind = .assignExpr → ∃ target, node.expression? = some target ∧
    target.kind ≠ .assignExpr ∧ target.kind ≠ .arrowFunction

theorem solid_tree (node : Node) :
    solid (Part.eraseAll node.parts) = node.significant.map Part.erase := by
  unfold significant
  induction node.parts with
  | nil => rfl
  | cons part rest ih =>
    have htrivia : part.erase.isTrivia = part.isTrivia := by cases part <;> rfl
    rw [solid] at ih ⊢
    rw [Part.eraseAll, List.filter_cons, List.filter_cons, htrivia]
    split
    · rw [List.map_cons, ih]
    · exact ih

theorem tree_of_significant {node first : Node} {parts : List Part} {tree : Tree} {rest : List Tree}
    (h : node.significant = first.part :: parts) (hsolid : solid (Part.eraseAll node.parts) = tree :: rest) :
    first.tree = tree := by
  rw [solid_tree, h] at hsolid
  exact (List.cons.inj hsolid).1

/-- A node that stands first is the first one right below. -/
theorem tree_of_head {node first : Node} {tree : Tree} {rest : List Tree}
    (h : node.children.head? = some first) (hsolid : solid (Part.eraseAll node.parts) = tree :: rest)
    (htree : ∃ kind, tree.kind = .node kind) : first.tree = tree := by
  rw [solid_tree] at hsolid
  obtain ⟨part, parts, hparts, rfl, -⟩ := List.map_eq_cons_iff.mp hsolid
  obtain ⟨kind, hkind⟩ := htree
  cases part with
  | leaf span token => cases hkind
  | node span own inner =>
    rw [← children_significant, hparts] at h
    cases h
    rfl

theorem mem_children_of_expression {node child : Node} (h : node.expression? = some child) :
    child ∈ node.children :=
  List.mem_of_find?_eq_some h

theorem mem_children_of_expressionAt {node child : Node} {n : Nat} (h : node.expressionAt? n = some child) :
    child ∈ node.children :=
  List.mem_of_mem_filter (List.mem_of_getElem? h)

end Node

namespace Program

variable {text : String} (h : (Program.ofSource text).isOk = true) {source : Source} {node : Node}
  (hnode : node ∈ (Node.ofTree source (Program.ofSource text).tree).descendants)

include h hnode

theorem grouped_of_mem : node.tree.Grouped := by
  obtain ⟨blanks, statements, more, htree⟩ := exists_statements text
  have hgrouped := Program.grouped h
  rw [htree] at hgrouped hnode
  have hdown : Node.HandedDown Tree.Grouped := by
    intro kind children hown child hchild
    cases hown with
    | node _ hall => exact hall child hchild
  exact (Node.lies_of_mem hdown _ hgrouped hnode).good

/-- The parts right below a node are grouped. -/
theorem grouping_of_mem : Tree.Grouping node.kind (solid (Part.eraseAll node.parts)) := by
  have hgrouped := grouped_of_mem h hnode
  rw [Node.tree] at hgrouped
  cases hgrouped with
  | node hgrouping _ => exact hgrouping

theorem level?_tree : node.tree.level? = node.level? := by
  rw [Node.level?]
  split
  · rename_i hkind
    obtain ⟨left, right, operator, hsignificant, -, -, hoperator⟩ := binary_parts h hnode (.inl hkind)
    rw [Node.tree, hkind, Tree.level?, Node.solid_tree, hsignificant, hoperator]
    rfl
  · rename_i hkind
    unfold Tree.level?
    split
    · rename_i heq
      exact absurd (Tree.node.inj heq).1 hkind
    · rfl

omit h in
theorem mem_of_mem_children {child : Node} (hchild : child ∈ node.children) :
    child ∈ (Node.ofTree source (Program.ofSource text).tree).descendants :=
  (Node.closed_descendants (Node.parent_ofTree source (Program.ofSource text).tree)).child hnode hchild

/-- A child that binds by a level, asked of nodes. -/
theorem bindsBy_of_mem {child : Node} {least : Nat} (hchild : child ∈ node.children)
    (hbinds : child.tree.BindsBy least) : child.kind.isLoose = false ∧
      (child.kind = .binaryExpr → ∃ inner, child.level? = some inner ∧ least ≤ inner) := by
  refine ⟨hbinds.tight _ rfl, fun hkind => ?_⟩
  rw [← level?_tree h (mem_of_mem_children hnode hchild)]
  exact hbinds.binary (congrArg Kind.node hkind)

theorem operator_grouped (hkind : node.kind = .binaryExpr) : ∃ (left right : Node) (level : Nat),
    node.expression? = some left ∧ node.expressionAt? 1 = some right ∧ node.level? = some level ∧
      left.kind.isLoose = false ∧ right.kind.isLoose = false ∧
      (left.kind = .binaryExpr → ∃ inner, left.level? = some inner ∧ level ≤ inner) ∧
      (right.kind = .binaryExpr → ∃ inner, right.level? = some inner ∧ level < inner) ∧
      (right.kind = .asExpr → level < 5) := by
  obtain ⟨left, right, operator, hsignificant, hleft, hright, hoperator⟩ := binary_parts h hnode (.inl hkind)
  have hgrouping := grouping_of_mem h hnode
  rw [hkind] at hgrouping
  obtain ⟨leftTree, token, rightTree, level, hsolid, hlevel, hbindsLeft, hbindsRight⟩ := hgrouping
  rw [Node.solid_tree, hsignificant] at hsolid
  obtain ⟨rfl, rfl, rfl⟩ : left.tree = leftTree ∧ operator.token = token ∧ right.tree = rightTree := by
    simpa [Node.part, Part.erase, Placed.part, Node.tree] using hsolid
  obtain ⟨hlooseLeft, hinnerLeft⟩ := bindsBy_of_mem h hnode (Node.mem_children_of_expression hleft) hbindsLeft
  obtain ⟨hlooseRight, hinnerRight⟩ :=
    bindsBy_of_mem h hnode (Node.mem_children_of_expressionAt hright) hbindsRight.toBindsBy
  refine ⟨left, right, level, hleft, hright, ?_, hlooseLeft, hlooseRight, hinnerLeft, hinnerRight, fun hcast => ?_⟩
  · rw [Node.level?, if_pos hkind, hoperator]
    exact hlevel
  · exact hbindsRight.cast (congrArg Kind.node hcast)

theorem prefix_grouped (hkind : node.kind = .prefixExpr) : ∃ operand, node.expression? = some operand ∧
    operand.kind.isLoose = false ∧ operand.kind ≠ .binaryExpr ∧ operand.kind ≠ .asExpr := by
  obtain ⟨operator, operand, hsignificant, -, hoperand⟩ := prefix_parts h hnode hkind
  have hgrouping := grouping_of_mem h hnode
  rw [hkind] at hgrouping
  obtain ⟨token, tree, hsolid, hbinds⟩ := hgrouping
  rw [Node.solid_tree, hsignificant] at hsolid
  obtain ⟨-, rfl⟩ : operator.token = token ∧ operand.tree = tree := by
    simpa [Node.part, Part.erase, Placed.part, Node.tree] using hsolid
  refine ⟨operand, hoperand, hbinds.tight _ rfl, fun hbinary => ?_, fun hcast => ?_⟩
  · -- no operator binds as tight as a prefix operator
    have hmem := mem_of_mem_children hnode (Node.mem_children_of_expression hoperand)
    obtain ⟨level, hlevel, hle⟩ := hbinds.binary (congrArg Kind.node hbinary)
    rw [level?_tree h hmem, Node.level?, if_pos hbinary] at hlevel
    obtain ⟨kind, -, hkind⟩ := Option.bind_eq_some_iff.mp hlevel
    exact absurd (Grammar.level_lt_prefixPower hkind) (Nat.not_lt.mpr hle)
  · exact absurd (hbinds.cast (congrArg Kind.node hcast)) (by decide)

theorem receiver_grouped (hkind : node.kind ∈ NodeKind.postfixes) :
    ∃ receiver, node.expression? = some receiver ∧ receiver.kind.isLoose = false ∧
      receiver.kind ≠ .prefixExpr ∧ receiver.kind ≠ .binaryExpr := by
  have hgrouping := grouping_of_mem h hnode
  have hfound : ∃ receiver, node.expression? = some receiver ∧ receiver.tree.Receiver := by
    simp only [NodeKind.postfixes, List.mem_cons, List.not_mem_nil, or_false] at hkind
    rcases hkind with hkind | hkind | hkind
    all_goals
      rw [hkind] at hgrouping
      obtain ⟨tree, rest, hsolid, hreceiver⟩ := hgrouping
    · obtain ⟨callee, list, hcallee, hhead, -⟩ := call_parts h hnode hkind
      exact ⟨callee, hcallee, by rwa [Node.tree_of_head hhead hsolid hreceiver.isNode]⟩
    · obtain ⟨receiver, point, name, hsignificant, hfound, -⟩ := access_parts h hnode hkind
      exact ⟨receiver, hfound, by rwa [Node.tree_of_significant hsignificant hsolid]⟩
    · obtain ⟨receiver, index, opening, closing, hsignificant, hfound, -⟩ := index_parts h hnode hkind
      exact ⟨receiver, hfound, by rwa [Node.tree_of_significant hsignificant hsolid]⟩
  obtain ⟨receiver, hfound, hreceiver⟩ := hfound
  exact ⟨receiver, hfound, hreceiver.tight _ rfl, fun hunary => hreceiver.unary (congrArg Kind.node hunary),
    fun hbinary => hreceiver.binary (congrArg Kind.node hbinary)⟩

theorem cast_grouped (hkind : node.kind = .asExpr) : ∃ operand, node.expression? = some operand ∧
    operand.kind.isLoose = false ∧
    (operand.kind = .binaryExpr → ∃ inner, operand.level? = some inner ∧ 5 ≤ inner) := by
  obtain ⟨operand, type, word, hsignificant, hoperand, -⟩ := as_parts h hnode hkind
  have hgrouping := grouping_of_mem h hnode
  rw [hkind] at hgrouping
  obtain ⟨tree, rest, hsolid, hbinds⟩ := hgrouping
  rw [← Node.tree_of_significant hsignificant hsolid] at hbinds
  exact ⟨operand, hoperand, bindsBy_of_mem h hnode (Node.mem_children_of_expression hoperand) hbinds⟩

theorem conditional_grouped (hkind : node.kind = .conditionalExpr) :
    ∃ condition, node.expression? = some condition ∧ condition.kind.isLoose = false := by
  obtain ⟨condition, yes, no, question, colon, hsignificant, hcondition, -⟩ := conditional_parts h hnode hkind
  have hgrouping := grouping_of_mem h hnode
  rw [hkind] at hgrouping
  obtain ⟨tree, rest, hsolid, hbinds⟩ := hgrouping
  rw [← Node.tree_of_significant hsignificant hsolid] at hbinds
  exact ⟨condition, hcondition, hbinds.tight _ rfl⟩

theorem assignment_grouped (hkind : node.kind = .assignExpr) : ∃ target, node.expression? = some target ∧
    target.kind ≠ .assignExpr ∧ target.kind ≠ .arrowFunction := by
  obtain ⟨target, value, operator, hsignificant, htarget, -⟩ := binary_parts h hnode (.inr hkind)
  have hgrouping := grouping_of_mem h hnode
  rw [hkind] at hgrouping
  obtain ⟨tree, rest, hsolid, hassign, harrow⟩ := hgrouping
  rw [← Node.tree_of_significant hsignificant hsolid] at hassign harrow
  exact ⟨target, htarget, fun h => hassign (congrArg Kind.node h), fun h => harrow (congrArg Kind.node h)⟩

end Program

/-- In a program without misfits expressions are grouped by how tight their operators bind. -/
theorem expressions_are_grouped {text : String} (h : (Program.ofSource text).isOk = true) :
    ∀ node ∈ (Program.ofSource text).root.descendants, node.Grouped := fun _ hnode => {
  binary := Program.operator_grouped h hnode
  unary := Program.prefix_grouped h hnode
  cast := Program.cast_grouped h hnode
  receiver := Program.receiver_grouped h hnode
  conditional := Program.conditional_grouped h hnode
  assignment := Program.assignment_grouped h hnode }

/-- Sums, products, comparisons, conditionals and assignments, one in the other. -/
def grouped : String := "x = -a.b + c * d - e < f ? g && h || i : (j ? k : l)(m);"

theorem grouped_expressions_are_grouped : (Program.ofSource grouped).isOk = true ∧
    ∀ node ∈ (Program.ofSource grouped).root.descendants, node.Grouped := by
  have hread : (Program.ofSource grouped).isOk = true := by decide +kernel
  exact ⟨hread, expressions_are_grouped hread⟩

end RouteTypes
