-- What a record of numbers is made of: two properties with a number each, and nothing that is called, declared
-- or returned. So what is collected from the nodes of a program is collected from its twin too, and no more.
import RouteTypes.Proofs.Route.Numbering
import RouteTypes.Proofs.Tree.Twins

namespace RouteTypes

open List

/-! ## Kinds of nodes in a tree -/

namespace Tree

mutual

/-- Whether all nodes of a tree are of these kinds. -/
def madeOf (is : NodeKind → Bool) : Tree → Bool
  | .leaf _ => true
  | .node kind children => is kind && madeOfAll is children

def madeOfAll (is : NodeKind → Bool) : List Tree → Bool
  | [] => true
  | tree :: rest => madeOf is tree && madeOfAll is rest

end

end Tree

/-- The kinds of nodes below a record. -/
def NodeKind.isStill (kind : NodeKind) : Bool := kind == .propertyAssignment || kind == .name || kind == .literal

namespace Part

/-- Whether all nodes of a row of parts are of the kinds below a record. -/
def Still (parts : List Part) : Prop := Tree.madeOfAll NodeKind.isStill (eraseAll parts) = true

theorem Still.first {part : Part} {parts : List Part} (h : Still (part :: parts)) : Still [part] :=
  (Bool.and_eq_true _ _).mpr ⟨((Bool.and_eq_true _ _).mp h).1, rfl⟩

theorem Still.left {part : Part} {parts : List Part} (h : Still (part :: parts)) : Still parts :=
  ((Bool.and_eq_true _ _).mp h).2

theorem Still.node {span : Text.Span} {kind : NodeKind} {inner parts : List Part}
    (h : Still (.node span kind inner :: parts)) : kind.isStill = true ∧ Still inner :=
  (Bool.and_eq_true _ _).mp ((Bool.and_eq_true _ _).mp h).1

theorem still_leaves {parts : List Part} (h : ∀ part ∈ parts, part.isLeaf = true) : Still parts := by
  induction parts with
  | nil => rfl
  | cons part rest ih =>
    have hrest := ih fun part hin => h part (List.mem_cons_of_mem _ hin)
    cases part with
    | leaf _ _ => exact hrest
    | node _ _ _ => cases h _ List.mem_cons_self

theorem IsRecord.still {span : Text.Span} {kind : NodeKind} {inner : List Part}
    (h : IsRecord (.node span kind inner)) : kind = .objectLiteral ∧ Still inner := by
  obtain ⟨config, params, returned, herase⟩ := h
  obtain ⟨first, hfirst⟩ := Route.propertyName_eq config.paramsField
  obtain ⟨second, hsecond⟩ := Route.propertyName_eq config.returnField
  obtain ⟨hkind, hinner⟩ := Tree.node.inj herase
  refine ⟨hkind, ?_⟩
  rw [Still, hinner]
  simp [Tree.spaced, Tree.propertyAssignment, hfirst, hsecond, Tree.numberLiteral, Tree.madeOf, Tree.madeOfAll,
    Tree.space, Tree.comma, NodeKind.isStill]

end Part

/-! ## The members of a record -/

namespace Node

/-- The properties of a record are written with their numbers. -/
theorem members_of_record {record : Node} (h : record.part.IsRecord) :
    ∀ member ∈ record.objectMembers, member.kind = .propertyAssignment ∧
      ∃ value, member.expression? = some value ∧ value.kind = .literal := by
  obtain ⟨config, params, returned, herase⟩ := h
  obtain ⟨first, hfirst⟩ := Route.propertyName_eq config.paramsField
  obtain ⟨second, hsecond⟩ := Route.propertyName_eq config.returnField
  have hmembers : record.objectMembers.map Node.tree =
      [Tree.propertyAssignment config.paramsField (.numberLiteral params),
        Tree.propertyAssignment config.returnField (.numberLiteral returned)] := by
    rw [objectMembers, childrenOf_tree, (Tree.node.inj herase).2]
    simp [Tree.spaced, Tree.propertyAssignment, Tree.isNodeOf, NodeKind.isObjectMember, Tree.space, Tree.comma]
  have hvalue : ∀ {key : String} {number : Nat} {member : Node},
      member.tree = Tree.propertyAssignment key (.numberLiteral number) → member.kind = .propertyAssignment ∧
        ∃ value, member.expression? = some value ∧ value.kind = .literal := by
    intro key number member htree
    obtain ⟨hkind, hparts⟩ := Tree.node.inj htree
    obtain ⟨token, hname⟩ := Route.propertyName_eq key
    have hexpression : member.expression?.map Node.tree = some (.numberLiteral number) := by
      rw [expression?, child?_tree, hparts, hname]
      simp [Tree.isNodeOf, Tree.numberLiteral, NodeKind.isExpression, Tree.space]
    obtain ⟨value, hvalue, hnumber⟩ := Option.map_eq_some_iff.mp hexpression
    exact ⟨hkind, value, hvalue, (Tree.node.inj hnumber).1⟩
  intro member hmember
  have htree := List.mem_map_of_mem (f := Node.tree) hmember
  rw [hmembers] at htree
  rcases List.mem_cons.mp htree with htree | htree
  · exact hvalue htree
  · exact hvalue (List.mem_singleton.mp htree)

end Node

/-- What is below a node that was put in was put in. -/
theorem Put.child {root root' node child : Node} (h : Put root root' node) (hchild : child ∈ node.children) :
    Put root root' child := by
  obtain ⟨way, hnone, hway⟩ := h
  obtain ⟨i, hi⟩ := List.mem_iff_getElem?.mp hchild
  refine ⟨way ++ [i], ?_, ?_⟩
  · rw [Node.down_concat, hnone]
    rfl
  · rw [Node.down_concat, hway]
    exact hi

/-! ## Return statements and calls -/

namespace Node

mutual

theorem returnsIn_still {source : Source} : ∀ {parent : Option Node} (part : Part), Part.Still [part] →
    returnsIn source parent part = []
  | _, .leaf _ _, _ => rfl
  | parent, .node span kind inner, h => by
    obtain ⟨hkind, hinner⟩ := h.node
    have hbelow : returnsInAll source (some ⟨source, kind, span, inner, parent⟩) inner = [] :=
      returnsInAll_still inner hinner
    revert hkind hbelow
    cases kind <;> first | exact fun _ hbelow => hbelow | exact fun hkind _ => by cases hkind

theorem returnsInAll_still {source : Source} {parent : Option Node} : ∀ parts : List Part, Part.Still parts →
    returnsInAll source parent parts = []
  | [], _ => rfl
  | part :: rest, h => by
    rw [returnsInAll, returnsIn_still part h.first, returnsInAll_still rest h.left]
    rfl

end

mutual

theorem nodesIn_still {is : NodeKind → Bool} (his : ∀ kind, NodeKind.isStill kind = true → is kind = false)
    {source : Source} : ∀ {parent : Option Node} (part : Part), Part.Still [part] →
      (nodesIn source parent part).filter (is ·.kind) = []
  | _, .leaf _ _, _ => rfl
  | parent, .node span kind inner, h => by
    obtain ⟨hkind, hinner⟩ := h.node
    rw [nodesIn, List.filter_cons_of_neg (by simp [his kind hkind]), nodesInAll_still his inner hinner]

theorem nodesInAll_still {is : NodeKind → Bool} (his : ∀ kind, NodeKind.isStill kind = true → is kind = false)
    {source : Source} {parent : Option Node} : ∀ parts : List Part, Part.Still parts →
      (nodesInAll source parent parts).filter (is ·.kind) = []
  | [], _ => rfl
  | part :: rest, h => by
    rw [nodesInAll, List.filter_append, nodesIn_still his part h.first, nodesInAll_still his rest h.left]
    rfl

end

end Node

namespace Pairing

variable {P : Pairing} {node node' : Node}

/-- The return statements of a body. -/
theorem Alike.returns (h : P.Alike node node') : Forall₂ P.Alike node.returns node'.returns := by
  refine Twin.walk (motive := fun outer outer' parts parts' =>
    Forall₂ P.Alike (Node.returnsInAll outer.source (some outer) parts)
      (Node.returnsInAll outer'.source (some outer') parts')) ?_ ?_ ?_ ?_ ?_ h.twin
  · exact fun _ => .nil
  · intro outer outer' part parts parts' hpart hrest
    cases part with
    | leaf _ _ => exact hrest
    | node _ _ _ => cases hpart
  · intro outer outer' part parts parts' hpart hrest
    cases part with
    | leaf _ _ => exact hrest
    | node _ _ _ => cases hpart
  · intro outer outer' span span' kind inner inner' parts parts' htwin hinner hrest
    refine List.Forall₂.append ?_ hrest
    revert htwin hinner
    cases kind <;> first | exact fun _ hinner => hinner | exact fun _ _ => .nil |
      exact fun htwin _ => .cons (htwin.alike (p := (· == .returnStmt)) rfl rfl) .nil
  · intro outer outer' span kind parts inner behind htwin hlist hrecord hparts hbehind
    obtain ⟨rfl, hinner⟩ := Part.IsRecord.still hrecord.isRecord
    have hnone : Node.returnsIn outer'.source (some outer') (.node span .objectLiteral inner) = [] :=
      Node.returnsInAll_still inner hinner
    rw [Node.returnsInAll_still parts (Part.still_leaves hparts), Node.returnsInAll, hnone,
      Node.returnsInAll_still behind (Part.still_leaves hbehind)]
    exact .nil

/-- The nodes of kinds that no record has, from the outside in and from left to right. -/
theorem Twin.nodes (is : NodeKind → Bool) (hlist : is .argList = false) (hobject : is .objectLiteral = false)
    (his : ∀ kind, NodeKind.isStill kind = true → is kind = false) (h : P.Twin node node') :
    Forall₂ P.Alike ((Node.nodesInAll node.source (some node) node.parts).filter (is ·.kind))
      ((Node.nodesInAll node'.source (some node') node'.parts).filter (is ·.kind)) := by
  refine h.walk (motive := fun outer outer' parts parts' =>
    Forall₂ P.Alike ((Node.nodesInAll outer.source (some outer) parts).filter (is ·.kind))
      ((Node.nodesInAll outer'.source (some outer') parts').filter (is ·.kind))) ?_ ?_ ?_ ?_ ?_
  · exact fun _ => .nil
  · intro outer outer' part parts parts' hpart hrest
    cases part with
    | leaf _ _ => exact hrest
    | node _ _ _ => cases hpart
  · intro outer outer' part parts parts' hpart hrest
    cases part with
    | leaf _ _ => exact hrest
    | node _ _ _ => cases hpart
  · intro outer outer' span span' kind inner inner' parts parts' htwin hinner hrest
    rw [Node.nodesInAll, Node.nodesInAll, List.filter_append, List.filter_append]
    refine List.Forall₂.append ?_ hrest
    rw [Node.nodesIn, Node.nodesIn]
    cases hkind : is kind
    · rw [List.filter_cons_of_neg (by simp [hkind]), List.filter_cons_of_neg (by simp [hkind])]
      exact hinner
    · rw [List.filter_cons_of_pos (by simp [hkind]), List.filter_cons_of_pos (by simp [hkind])]
      exact .cons (htwin.alike hkind hlist) hinner
  · intro outer outer' span kind parts inner behind htwin _ hrecord hparts hbehind
    obtain ⟨rfl, hinner⟩ := Part.IsRecord.still hrecord.isRecord
    rw [Node.nodesInAll_still his parts (Part.still_leaves hparts), Node.nodesInAll, List.filter_append,
      Node.nodesIn, List.filter_cons_of_neg (by simp [hobject]), Node.nodesInAll_still his inner hinner,
      Node.nodesInAll_still his behind (Part.still_leaves hbehind)]
    exact .nil

/-! ## Parentheses -/

/-- The first expression of a row of parts, without the parentheses around it. -/
theorem Twin.peelFirst (h : P.Twin node node') (hkind : node.kind ≠ .argList) :
    Option.Rel P.Alike (Node.peelFirst node.source (some node) node.parts)
      (Node.peelFirst node'.source (some node') node'.parts) := by
  refine h.walk (motive := fun outer outer' parts parts' => outer.kind ≠ .argList →
    Option.Rel P.Alike (Node.peelFirst outer.source (some outer) parts)
      (Node.peelFirst outer'.source (some outer') parts')) ?_ ?_ ?_ ?_ ?_ hkind
  · exact fun _ _ => .none
  · intro outer outer' part parts parts' hpart hrest
    cases part with
    | leaf _ _ => exact hrest
    | node _ _ _ => cases hpart
  · intro outer outer' part parts parts' hpart hrest
    cases part with
    | leaf _ _ => exact hrest
    | node _ _ _ => cases hpart
  · intro outer outer' span span' kind inner inner' parts parts' htwin hinner hrest hkind
    rw [Node.peelFirst, Node.peelFirst, Node.peel, Node.peel]
    cases hparen : kind == .parenExpr
    · cases hexpression : kind.isExpression
      · exact hrest hkind
      · exact .some (htwin.alike hexpression rfl)
    · have halike := htwin.alike (p := (· == .parenExpr)) hparen rfl
      exact .some ((hinner halike.plain).getD halike)
  · exact fun _ hlist _ _ _ hkind => absurd hlist hkind

theorem Alike.withoutParens (h : P.Alike node node') : P.Alike node.withoutParens node'.withoutParens := by
  have hfirst := h.twin.peelFirst h.plain
  have hpeel : ∀ node : Node, node.withoutParens =
      if node.kind == .parenExpr then (Node.peelFirst node.source (some node) node.parts).getD node else node := by
    rintro ⟨source, kind, span, parts, parent⟩
    rw [Node.withoutParens, Node.part, Node.peel]
    dsimp only
    cases kind == .parenExpr
    · cases kind.isExpression <;> rfl
    · rfl
  rw [hpeel, hpeel, h.kind]
  split
  · exact hfirst.getD h
  · exact h

end Pairing

end RouteTypes
