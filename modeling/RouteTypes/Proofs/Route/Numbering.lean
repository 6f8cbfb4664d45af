-- Which calls are annotated, and with which numbers: exactly the registrations, each with the place of its
-- schemas in the registry.
import RouteTypes.Proofs.Route.Annotation

namespace RouteTypes

open RouteTypes.Tree

/-! ## Calls and their arguments -/

namespace Node

/-- The calls in a program, from the outside in and from left to right. -/
def calls (root : Node) : List Node := root.descendants.filter (·.kind == .callExpr)

end Node

namespace Tree

/-- The calls in a tree, from the outside in and from left to right. -/
def calls (tree : Tree) : List Tree := (Node.ofTree .program tree).calls.map Node.tree

/-- The arguments of a call. -/
def args (call : Tree) : List Tree := (Node.ofTree .program call).args.map Node.tree

mutual

/-- The nodes in a tree, from the outside in and from left to right. -/
def nodes : Tree → List Tree
  | .leaf _ => []
  | .node kind children => .node kind children :: nodesOf children

def nodesOf : List Tree → List Tree
  | [] => []
  | tree :: rest => nodes tree ++ nodesOf rest

end

/-- A node of one of the kinds. -/
def isNodeOf (is : NodeKind → Bool) : Tree → Bool
  | .leaf _ => false
  | .node kind _ => is kind

theorem nodesOf_append (trees others : List Tree) :
    nodesOf (trees ++ others) = nodesOf trees ++ nodesOf others := by
  induction trees with
  | nil => rfl
  | cons tree rest ih => rw [List.cons_append, nodesOf, ih, nodesOf, List.append_assoc]

end Tree

namespace Node

mutual

theorem nodesIn_tree (source : Source) : ∀ (parent : Option Node) (part : Part),
    (nodesIn source parent part).map Node.tree = part.erase.nodes
  | _, .leaf _ _ => rfl
  | parent, .node span kind parts => by
    rw [nodesIn, List.map_cons, nodesInAll_tree source _ parts]
    rfl

theorem nodesInAll_tree (source : Source) : ∀ (parent : Option Node) (parts : List Part),
    (nodesInAll source parent parts).map Node.tree = nodesOf (Part.eraseAll parts)
  | _, [] => rfl
  | parent, part :: rest => by
    rw [nodesInAll, List.map_append, nodesIn_tree source parent part, nodesInAll_tree source parent rest]
    rfl

end

theorem children_tree (node : Node) :
    node.children.map Node.tree = (Part.eraseAll node.parts).filter (·.isNodeOf fun _ => true) := by
  obtain ⟨source, kind, span, parts, parent⟩ := node
  unfold children
  dsimp only
  generalize hnode : Node.mk source kind span parts parent = node
  clear hnode
  induction parts with
  | nil => rfl
  | cons part rest ih =>
    cases part with
    | leaf span token => exact ih
    | node span kind parts =>
      rw [List.filterMap_cons, Node.inner?]
      dsimp only
      rw [List.map_cons, ih]
      rfl

theorem childrenOf_tree (node : Node) (is : NodeKind → Bool) :
    (node.childrenOf is).map Node.tree =
      (Part.eraseAll node.parts).filter fun tree => tree.isNodeOf is := by
  have hfilter : (node.children.map Node.tree).filter (·.isNodeOf is) =
      (node.childrenOf is).map Node.tree := by
    rw [List.filter_map]
    rfl
  rw [← hfilter, children_tree, List.filter_filter]
  congr 1
  funext tree
  cases tree <;> simp [isNodeOf]

theorem child?_tree (node : Node) (is : NodeKind → Bool) :
    (node.child? is).map Node.tree = (Part.eraseAll node.parts).find? fun tree => tree.isNodeOf is := by
  have hfirst : (node.childrenOf is).head? = node.child? is := List.head?_filter
  rw [← hfirst, ← List.head?_map, childrenOf_tree, List.head?_filter]

theorem args_tree (node : Node) :
    node.args.map Node.tree = ((Part.eraseAll node.parts).find? (·.isNodeOf (· == .argList))).elim []
      fun list => list.children.filter (·.isNodeOf NodeKind.isElement) := by
  rw [← child?_tree]
  unfold args argList?
  cases node.child? (· == .argList) with
  | none => rfl
  | some list => exact list.childrenOf_tree NodeKind.isElement

end Node

namespace Tree

theorem calls_eq (tree : Tree) :
    tree.calls = tree.nodes.filter (·.isNodeOf (· == .callExpr)) := by
  cases tree with
  | leaf token => rfl
  | node kind children =>
    have hnodes := Node.nodesIn_tree .program none ((Tree.node kind children).place 0)
    rw [Tree.erase_place] at hnodes
    rw [← hnodes, List.filter_map]
    rfl

theorem args_eq (kind : NodeKind) (children : List Tree) :
    (Tree.node kind children).args = (children.find? (·.isNodeOf (· == .argList))).elim []
      fun list => list.children.filter (·.isNodeOf NodeKind.isElement) := by
  have hparts : Part.eraseAll (Node.ofTree .program (.node kind children)).parts = children :=
    Tree.eraseAll_placeAll 0 children
  rw [args, Node.args_tree, hparts]

end Tree

namespace Route

variable {config : Config} {is : Node → Bool} {source : Source}

/-! ## What stays -/

/-- Two trees of the same kind whose children have the same kinds. -/
structure Alike (tree tree' : Tree) : Prop where
  kind : tree'.kind = tree.kind
  children : tree'.children.map Tree.kind = tree.children.map Tree.kind

theorem map_kind_of_alike {trees trees' : List Tree} (h : List.Forall₂ Alike trees trees') :
    trees'.map Tree.kind = trees.map Tree.kind := by
  induction h with
  | nil => rfl
  | cons hone _ ih => rw [List.map_cons, List.map_cons, ih, hone.kind]

mutual

theorem Annotates.alike {parent : Option Node} {part : Part} {k next : Nat} {tree : Tree} :
    Annotates config is source parent part k tree next → Alike part.erase tree
  | .leaf => ⟨rfl, rfl⟩
  | .keep _ below => ⟨rfl, map_kind_of_alike below.alike⟩
  | .call _ below append => by
    have hbelow := map_kind_of_alike below.alike
    obtain ⟨before, list, behind, list', rfl, -, -, rfl⟩ := appendTo_eq_ok append
    refine ⟨rfl, ?_⟩
    rw [Part.erase, Tree.children, Tree.children, ← hbelow]
    simp [Tree.kind]

theorem AnnotatesAll.alike {parent : Option Node} {parts : List Part} {k next : Nat}
    {trees : List Tree} :
    AnnotatesAll config is source parent parts k trees next →
      List.Forall₂ Alike (Part.eraseAll parts) trees
  | .nil => .nil
  | .cons first others => .cons first.alike others.alike

end

theorem filter_length_of_kinds {trees trees' : List Tree} (is : NodeKind → Bool)
    (h : trees'.map Tree.kind = trees.map Tree.kind) :
    (trees'.filter (·.isNodeOf is)).length = (trees.filter (·.isNodeOf is)).length := by
  have hkinds : ∀ trees : List Tree, (trees.filter (·.isNodeOf is)).length =
      (trees.map Tree.kind).countP fun | .node kind => is kind | _ => false := by
    intro trees
    rw [List.countP_map, ← List.countP_eq_length_filter]
    congr 1
    funext tree
    cases tree <;> rfl
  rw [hkinds, hkinds, h]

/-- Calls whose parts are alike have as many arguments. -/
theorem args_length_of_alike {kind : NodeKind} {children children' : List Tree}
    (h : List.Forall₂ Alike children children') :
    (Tree.node kind children').args.length = (Tree.node kind children).args.length := by
  rw [Tree.args_eq, Tree.args_eq]
  induction h with
  | nil => rfl
  | @cons tree tree' _ _ hone _ ih =>
    have hkind : tree'.isNodeOf (· == .argList) = tree.isNodeOf (· == .argList) := by
      have := hone.kind
      cases tree <;> cases tree' <;> simp_all [Tree.kind, isNodeOf]
    rw [List.find?_cons, List.find?_cons, hkind]
    split
    · exact filter_length_of_kinds NodeKind.isElement hone.children
    · exact ih

/-! ## What is put in -/

@[simp] theorem isNodeOf_leaf (is : NodeKind → Bool) (token : Token) :
    (Tree.leaf token).isNodeOf is = false := rfl

theorem isNodeOf_of_kind {tree : Tree} {token : TokenKind} (is : NodeKind → Bool)
    (h : tree.kind = .token token) : tree.isNodeOf is = false := by
  cases tree with
  | leaf token => rfl
  | node kind children => cases h

theorem isNodeOf_of_trivia {tree : Tree} (is : NodeKind → Bool) (h : tree.isTrivia = true) :
    tree.isNodeOf is = false := by
  cases tree with
  | leaf token => rfl
  | node kind children => cases h

/-- In a list that ends with its parenthesis the new argument stands right before blanks, comments and
the parenthesis. -/
theorem appendArgument_of_closed {arg : Tree} {parts parts' : List Tree}
    (h : Tree.appendArgument arg parts = some parts')
    (hclosed : (parts.map Tree.kind).getLast? = some (.token .rParen)) :
    ∃ before last blanks close, parts = before ++ last :: (blanks ++ [close]) ∧
      last.isTrivia = false ∧ (∀ blank ∈ blanks, blank.isTrivia = true) ∧
      close.kind = .token .rParen ∧
      parts' = before ++ last :: (groupBehind arg last ++ (blanks ++ [close])) := by
  obtain ⟨before, last, blanks, close, behind, rfl, hlast, hblanks, hclose, hbehind, rfl⟩ :=
    appendArgument_eq_some h
  rcases List.eq_nil_or_concat behind with rfl | ⟨front, final, rfl⟩
  · exact ⟨before, last, blanks, close, rfl, hlast, hblanks, hclose, rfl⟩
  · exfalso
    refine hbehind final (by simp) ?_
    have hparts : before ++ last :: (blanks ++ close :: front.concat final) =
        (before ++ last :: (blanks ++ close :: front)) ++ [final] := by simp
    rwa [hparts, List.map_append, List.map_singleton, List.getLast?_concat, Option.some_inj] at hclosed

theorem filter_groupBehind {arg last : Tree} (is : NodeKind → Bool) (harg : arg.isNodeOf is = true) :
    (groupBehind arg last).filter (·.isNodeOf is) = [arg] := by
  unfold groupBehind
  split <;> simp [Tree.space, Tree.comma, harg]

/-- The new argument is the last one. -/
theorem appendArgument_elements {arg : Tree} {parts parts' : List Tree}
    (h : Tree.appendArgument arg parts = some parts')
    (hclosed : (parts.map Tree.kind).getLast? = some (.token .rParen))
    (harg : arg.isNodeOf NodeKind.isElement = true) :
    parts'.filter (·.isNodeOf NodeKind.isElement) =
      parts.filter (·.isNodeOf NodeKind.isElement) ++ [arg] := by
  obtain ⟨before, last, blanks, close, rfl, -, hblanks, hclose, rfl⟩ := appendArgument_of_closed h hclosed
  have hend : (blanks ++ [close]).filter (·.isNodeOf NodeKind.isElement) = [] := by
    rw [List.filter_eq_nil_iff]
    intro tree htree
    rcases List.mem_append.mp htree with htree | htree
    · rw [isNodeOf_of_trivia _ (hblanks tree htree)]
      exact Bool.false_ne_true
    · rw [List.mem_singleton.mp htree, isNodeOf_of_kind _ hclose]
      exact Bool.false_ne_true
  generalize blanks ++ [close] = rest at hend
  rw [List.append_cons before last rest, List.append_cons before last (groupBehind arg last ++ rest),
    List.filter_append (before ++ [last]), List.filter_append (before ++ [last]),
    List.filter_append (groupBehind arg last), filter_groupBehind _ harg, hend, List.append_nil,
    List.append_nil]

theorem nodesOf_groupBehind (arg last : Tree) : nodesOf (groupBehind arg last) = arg.nodes := by
  unfold groupBehind
  split <;> simp [nodesOf, Tree.space, Tree.comma, Tree.nodes]

theorem appendArgument_nodes {arg : Tree} {parts parts' : List Tree}
    (h : Tree.appendArgument arg parts = some parts') (is : NodeKind → Bool)
    (harg : arg.nodes.filter (·.isNodeOf is) = []) :
    (nodesOf parts').filter (·.isNodeOf is) = (nodesOf parts).filter (·.isNodeOf is) := by
  obtain ⟨before, last, blanks, close, behind, rfl, -, -, -, -, rfl⟩ := appendArgument_eq_some h
  simp only [nodesOf_append, nodesOf, List.filter_append, nodesOf_groupBehind, harg, List.nil_append]

theorem propertyName_eq (text : String) :
    ∃ token, Tree.propertyName text = .node .name [.leaf token] := by
  unfold Tree.propertyName
  split
  · exact ⟨_, rfl⟩
  · exact ⟨_, rfl⟩

theorem argument_nodes (config : Config) (params returned : Nat) :
    (argument config params returned).nodes.filter (·.isNodeOf (· == .callExpr)) = [] := by
  obtain ⟨first, hfirst⟩ := propertyName_eq config.paramsField
  obtain ⟨second, hsecond⟩ := propertyName_eq config.returnField
  simp [argument, Tree.objectLiteral, Tree.spaced, Tree.propertyAssignment, hfirst, hsecond,
    Tree.numberLiteral, Tree.nodes, nodesOf, isNodeOf, Tree.space, Tree.comma]

theorem argument_isElement (config : Config) (params returned : Nat) :
    (argument config params returned).isNodeOf NodeKind.isElement = true := rfl

theorem exists_alike {trees trees' : List Tree} (h : List.Forall₂ Alike trees trees') :
    ∀ tree' ∈ trees', ∃ tree ∈ trees, Alike tree tree' := by
  induction h with
  | nil =>
    intro tree' htree'
    cases htree'
  | @cons first first' _ _ hfirst _ ih =>
    intro tree' htree'
    rcases List.mem_cons.mp htree' with rfl | htree'
    · exact ⟨first, List.mem_cons_self, hfirst⟩
    · obtain ⟨tree, htree, halike⟩ := ih tree' htree'
      exact ⟨tree, List.mem_cons_of_mem _ htree, halike⟩

/-- The list of arguments of a call ends with its parenthesis, also after the visit. -/
theorem closed_of_alike {children trees : List Tree} {list : List Tree}
    (hsound : ∀ child ∈ children, child.Sound Grammar.forms) (h : List.Forall₂ Alike children trees)
    (hlist : .node .argList list ∈ trees) :
    (list.map Tree.kind).getLast? = some (.token .rParen) := by
  obtain ⟨tree, htree, halike⟩ := exists_alike h _ hlist
  have hkind : tree.kind = .node .argList := halike.kind.symm
  cases tree with
  | leaf token => cases hkind
  | node kind parts =>
    cases hkind
    obtain ⟨front, last, blanks, close, rfl, -, -, hclose⟩ := Grammar.argList_closed (hsound _ htree)
    have hkinds : list.map Tree.kind = (front ++ last :: (blanks ++ [.leaf close])).map Tree.kind :=
      halike.children
    rw [hkinds, List.append_cons, ← List.append_assoc, List.map_append, List.map_singleton,
      List.getLast?_concat, Tree.kind, hclose]

theorem args_of_first {kind : NodeKind} {before list behind : List Tree}
    (h : ∀ part ∈ before, part.kind ≠ .node .argList) :
    (Tree.node kind (before ++ .node .argList list :: behind)).args =
      list.filter (·.isNodeOf NodeKind.isElement) := by
  have hnone : before.find? (·.isNodeOf (· == .argList)) = none := by
    rw [List.find?_eq_none]
    intro part hpart
    have hkind := h part hpart
    cases part with
    | leaf token => exact Bool.false_ne_true
    | node kind children =>
      intro hone
      exact hkind (by rw [Tree.kind, beq_iff_eq.mp hone])
  rw [Tree.args_eq, List.find?_append, hnone]
  rfl

/-- A registration gets the argument behind its own ones. -/
theorem appendTo_args {arg tree : Tree} {children trees : List Tree}
    (hsound : ∀ child ∈ children, child.Sound Grammar.forms) (halike : List.Forall₂ Alike children trees)
    (harg : arg.isNodeOf NodeKind.isElement = true) (h : appendTo arg (.node .callExpr trees) = .ok tree) :
    ∃ before, tree.args = before ++ [arg] ∧ before.length = (Tree.node .callExpr children).args.length := by
  rw [← args_length_of_alike halike]
  obtain ⟨before, list, behind, list', rfl, hbefore, happend, rfl⟩ := appendTo_eq_ok h
  have hclosed := closed_of_alike hsound halike (List.mem_append_right _ List.mem_cons_self)
  refine ⟨_, ?_, rfl⟩
  rw [args_of_first hbefore, args_of_first hbefore, appendArgument_elements happend hclosed harg]

/-- It is still one call, with the calls in it that were there. -/
theorem appendTo_calls {arg tree : Tree} {trees : List Tree}
    (harg : arg.nodes.filter (·.isNodeOf (· == .callExpr)) = [])
    (h : appendTo arg (.node .callExpr trees) = .ok tree) :
    tree.calls = tree :: (nodesOf trees).filter (·.isNodeOf (· == .callExpr)) := by
  obtain ⟨before, list, behind, list', rfl, -, happend, rfl⟩ := appendTo_eq_ok h
  have hcall : (Tree.node .callExpr (before ++ .node .argList list' :: behind)).isNodeOf
      (· == .callExpr) = true := rfl
  rw [Tree.calls_eq, Tree.nodes, List.filter_cons, if_pos hcall]
  congr 1
  simp only [nodesOf_append, nodesOf, Tree.nodes, List.filter_append, List.filter_cons,
    appendArgument_nodes happend _ harg]
  rfl

/-! ## Numbers -/

/-- The calls of a program beside those that stand in their places, if the registrations among them have
the numbers from `k` on up to `next`: a registration has one argument more, which says its numbers, and
every other call has as many arguments as before. -/
inductive Numbered (config : Config) (is : Node → Bool) : Nat → List Node → List Tree → Nat → Prop
  | nil {k : Nat} : Numbered config is k [] [] k
  | other {k next : Nat} {call : Node} {out : Tree} {calls : List Node} {outs : List Tree}
      (no : is call = false) (args : out.args.length = call.args.length)
      (rest : Numbered config is k calls outs next) :
      Numbered config is k (call :: calls) (out :: outs) next
  | registration {k next : Nat} {call : Node} {out : Tree} {calls : List Node} {outs : List Tree}
      (yes : is call = true)
      (args : ∃ before, out.args = before ++ [argument config (2 * k) (2 * k + 1)] ∧
        before.length = call.args.length)
      (rest : Numbered config is (k + 1) calls outs next) :
      Numbered config is k (call :: calls) (out :: outs) next

theorem Numbered.append {k middle next : Nat} {calls more : List Node} {outs others : List Tree}
    (h : Numbered config is k calls outs middle) (h' : Numbered config is middle more others next) :
    Numbered config is k (calls ++ more) (outs ++ others) next := by
  induction h with
  | nil => exact h'
  | other no args _ ih => exact .other no args (ih h')
  | registration yes args _ ih => exact .registration yes args (ih h')

theorem args_length (node : Node) : node.args.length = node.tree.args.length := by
  rw [Node.tree, Tree.args_eq, ← Node.args_tree, List.length_map]

mutual

theorem Annotates.numbered {parent : Option Node} {part : Part} {k next : Nat} {tree : Tree}
    (hsound : part.erase.Sound Grammar.forms) :
    Annotates config is source parent part k tree next →
      Numbered config is k ((Node.nodesIn source parent part).filter (·.kind == .callExpr)) tree.calls next
  | .leaf => .nil
  | @Annotates.keep _ _ _ _ span kind parts _ _ trees no below => by
    have hbelow := AnnotatesAll.numbered hsound.child below
    rw [Node.nodesIn, Tree.calls_eq, Tree.nodes, List.filter_cons, List.filter_cons]
    split
    · rename_i hkind
      have hnode : (Tree.node kind trees).isNodeOf (· == .callExpr) = true := hkind
      rw [if_pos hnode]
      refine .other ?_ ?_ hbelow
      · obtain rfl : kind = .callExpr := beq_iff_eq.mp hkind
        exact no
      · rw [args_length, Node.tree]
        exact args_length_of_alike below.alike
    · rename_i hkind
      have hnode : ¬ (Tree.node kind trees).isNodeOf (· == .callExpr) = true := hkind
      rw [if_neg hnode]
      exact hbelow
  | @Annotates.call _ _ _ _ span parts _ _ trees _ yes below append => by
    have hbelow := AnnotatesAll.numbered hsound.child below
    have hcall : ((NodeKind.callExpr == NodeKind.callExpr) = true) := rfl
    rw [Node.nodesIn, List.filter_cons, if_pos hcall, appendTo_calls (argument_nodes config _ _) append]
    refine .registration yes ?_ hbelow
    rw [args_length, Node.tree]
    exact appendTo_args hsound.child below.alike (argument_isElement config _ _) append

theorem AnnotatesAll.numbered {parent : Option Node} {parts : List Part} {k next : Nat}
    {trees : List Tree} (hsound : ∀ tree ∈ Part.eraseAll parts, tree.Sound Grammar.forms) :
    AnnotatesAll config is source parent parts k trees next →
      Numbered config is k ((Node.nodesInAll source parent parts).filter (·.kind == .callExpr))
        ((nodesOf trees).filter (·.isNodeOf (· == .callExpr))) next
  | .nil => .nil
  | .cons first others => by
    rw [Node.nodesInAll, nodesOf, List.filter_append, List.filter_append]
    refine .append ?_ (AnnotatesAll.numbered (fun tree htree => hsound tree (List.mem_cons_of_mem _ htree)) others)
    rw [← Tree.calls_eq]
    exact first.numbered (hsound _ List.mem_cons_self)

end

/-! ## The registry -/

theorem lowerAt_eq_ok {checked : Checked} {span : Text.Span} {type : TypeId} {schema : Schema}
    (h : lowerAt checked span type = .ok schema) : checked.typeTable.lower type = .ok schema := by
  unfold lowerAt at h
  cases hlower : checked.typeTable.lower type with
  | error cause =>
    rw [hlower] at h
    cases h
  | ok lowered =>
    rw [hlower] at h
    cases h
    rfl

/-- The schemas of a registration are those of the only parameter of its handler and of what the handler
returns. -/
theorem schemasOf_eq_ok {program : Callables} {call : Node} {params returned : Schema}
    (h : schemasOf config program call = .ok (params, returned)) :
    ∃ handler signature param, handlerOf config call = .ok handler ∧
      program.calls (program.checked.typeOfNode handler) = [signature] ∧
      (program.checked.signature signature).params = [param] ∧
      program.checked.typeTable.lower (program.checked.typeOfSymbol param) = .ok params ∧
      program.checked.typeTable.lower (program.checked.returnType signature) = .ok returned := by
  unfold schemasOf at h
  obtain ⟨handler, hhandler, h⟩ := bind_ok h
  obtain ⟨signature, hsignature, h⟩ := bind_ok h
  obtain ⟨param, hparam, h⟩ := bind_ok h
  obtain ⟨_, hparams, h⟩ := bind_ok h
  obtain ⟨_, hreturned, h⟩ := bind_ok h
  cases h
  refine ⟨handler, signature, param, hhandler, ?_, ?_, lowerAt_eq_ok hparams, lowerAt_eq_ok hreturned⟩
  · unfold signatureOf at hsignature
    split at hsignature
    · rename_i only hcalls
      cases hsignature
      exact hcalls
    · cases hsignature
  · unfold paramOf at hparam
    split at hparam
    · rename_i only honly
      cases hparam
      exact honly
    · cases hparam

theorem getElem?_flatMap_pair {pairs : List (Schema × Schema)} {k : Nat} {pair : Schema × Schema}
    (h : pairs[k]? = some pair) :
    (pairs.flatMap fun pair => [pair.1, pair.2])[2 * k]? = some pair.1 ∧
      (pairs.flatMap fun pair => [pair.1, pair.2])[2 * k + 1]? = some pair.2 := by
  induction pairs generalizing k with
  | nil => cases h
  | cons first rest ih =>
    cases k with
    | zero =>
      cases h
      exact ⟨rfl, rfl⟩
    | succ k => exact ih h

/-- Annotating a program gives one argument more to the registrations and to no other call. They are those
that are listed for the same anchor, and their number is told. The registry has two schemas for each, and
the `k`th of them, an outer one before those in it, says in its new argument where they are: at `2 * k`
that of the only parameter of its handler, at `2 * k + 1` that of what its handler returns. -/
theorem registrations_are_numbered {source : String} {program : Callables} {annotated : Annotated}
    (hread : (Program.ofSource source).isOk = true)
    (h : annotate config program (Program.ofSource source).root = .ok annotated) :
    let root := (Program.ofSource source).root
    ∃ anchor, Route.anchor config program.checked root = .ok anchor ∧
      annotated.registrations = (registrations program.checked anchor root).length ∧
      annotated.registry.size = 2 * annotated.registrations ∧
      Numbered config (isRegistration program.checked anchor) 0 root.calls
        (annotated.visit.resultAt root).calls annotated.registrations ∧
      ∀ k call, (registrations program.checked anchor root)[k]? = some call →
        ∃ handler signature param params returned, handlerOf config call = .ok handler ∧
          program.calls (program.checked.typeOfNode handler) = [signature] ∧
          (program.checked.signature signature).params = [param] ∧
          program.checked.typeTable.lower (program.checked.typeOfSymbol param) = .ok params ∧
          program.checked.typeTable.lower (program.checked.returnType signature) = .ok returned ∧
          annotated.registry.get? (2 * k) = some params ∧
          annotated.registry.get? (2 * k + 1) = some returned := by
  intro root
  obtain ⟨anchor, hanchor, hfiled, hannotates⟩ := annotate_ok config program h
  have hcount := registrations_eq_length config program h hanchor
  have hsize : annotated.registry.size = 2 * annotated.registrations := by
    rw [hcount]
    simpa [Progress.start, Registry.empty, Registry.size] using hfiled.size
  refine ⟨anchor, hanchor, hcount, hsize, ?_, ?_⟩
  · rw [hcount]
    refine Annotates.numbered ?_ hannotates
    rw [Program.root_part, Tree.erase_place]
    exact program_sound hread
  · intro k call hcall
    obtain ⟨pairs, hpairs, hschemas⟩ := hfiled.schemas
    obtain ⟨hk, rfl⟩ := List.getElem?_eq_some_iff.mp hcall
    have hk' : k < pairs.length := hpairs.length_eq ▸ hk
    obtain ⟨handler, signature, param, hhandler, hsignature, hparam, hparams, hreturned⟩ :=
      schemasOf_eq_ok (List.Forall₂.get hpairs hk hk')
    obtain ⟨hfirst, hsecond⟩ := getElem?_flatMap_pair (List.getElem?_eq_getElem hk')
    refine ⟨handler, signature, param, _, _, hhandler, hsignature, hparam, hparams, hreturned, ?_, ?_⟩
    · rw [Registry.get?, hschemas]
      exact hfirst
    · rw [Registry.get?, hschemas]
      exact hsecond

/-! ## One route -/

/-- A program with one registration. -/
def oneRoute : String :=
  "class R \x7b m(a: any) \x7b\x7d \x7d const r = new R(); r.m('', '', (x: number) => 1); export default r;"

/-- The names that are meant in it. -/
def oneRouteConfig : Config := ⟨"R", "m", "p", "q"⟩

/-- It is checked without any declarations besides its own, and annotated then. -/
theorem oneRoute_checks : ∃ checked annotated,
    Checked.upTo 40 (Node.ofTree .prelude (Program.ofSource "").tree) (Program.ofSource oneRoute).root = some checked ∧
      annotate oneRouteConfig (callables checked) (Program.ofSource oneRoute).root = .ok annotated ∧
        annotated.registrations = 1 := by
  have hall : ((Checked.upTo 40 (Node.ofTree .prelude (Program.ofSource "").tree) (Program.ofSource oneRoute).root).any
      fun checked =>
        match annotate oneRouteConfig (callables checked) (Program.ofSource oneRoute).root with
        | .ok annotated => annotated.registrations == 1
        | .error _ => false) = true := by decide +kernel
  obtain ⟨checked, hchecked, hannotates⟩ := Option.any_eq_true _ _ |>.mp hall
  split at hannotates
  · rename_i annotated h
    exact ⟨checked, annotated, hchecked, h, beq_iff_eq.mp hannotates⟩
  · cases hannotates

theorem oneRoute_annotates : (Program.ofSource oneRoute).isOk = true ∧
    ∃ program annotated,
      annotate oneRouteConfig program (Program.ofSource oneRoute).root = .ok annotated ∧
        annotated.registrations = 1 := by
  obtain ⟨checked, annotated, -, h, hone⟩ := oneRoute_checks
  exact ⟨by decide +kernel, callables checked, annotated, h, hone⟩

theorem oneRoute_is_numbered : (Program.ofSource oneRoute).isOk = true ∧
    ∃ program annotated anchor,
      annotate oneRouteConfig program (Program.ofSource oneRoute).root = .ok annotated ∧
        Numbered oneRouteConfig (isRegistration program.checked anchor) 0
          (Program.ofSource oneRoute).root.calls
          (annotated.visit.resultAt (Program.ofSource oneRoute).root).calls 1 := by
  obtain ⟨hread, program, annotated, h, hone⟩ := oneRoute_annotates
  obtain ⟨anchor, -, -, -, hnumbered, -⟩ := registrations_are_numbered hread h
  rw [hone] at hnumbered
  exact ⟨hread, program, annotated, anchor, h, hnumbered⟩

end Route

end RouteTypes
