-- Which function a return statement leaves. It is the innermost function around the statement. The returns of a
-- body are collected from the outside in, past the functions and classes within it. Both come to the same: a
-- statement only stands where the grammar lets statements stand, so no way leads from a statement to the function
-- around it but through blocks and conditions.
import RouteTypes.Proofs.Tree.Layout
import RouteTypes.Proofs.Tree.Nesting

namespace RouteTypes

/-! ## Rows of one kind -/

/-- Whether all children of a node of that kind have the property. Several kinds can have one body in common. -/
def Body.allFor (ok : Kind → Bool) (kind : NodeKind) : Body → Bool
  | .close _ => true
  | .seq first rest => !rest.closes kind || (first.allIn ok && rest.allFor ok kind)
  | .branch _ yes no => yes.allFor ok kind && no.allFor ok kind

def NodeForm.allFor (ok : Kind → Bool) (kind : NodeKind) (form : NodeForm) : Bool :=
  form.body.allFor ok kind && form.inner.all fun inner => inner.all fun kind => ok (.node kind)

theorem Body.allFor_row {ok : Kind → Bool} {own : NodeKind} : ∀ (body : Body) (row : List Kind),
    body.allFor ok own = true → row ∈ body.language own → ∀ kind ∈ row, ok kind = true
  | .close other, row, _, h => (Body.close other).all_of_row row rfl h
  | .seq first rest, row, hall, h => by
    obtain ⟨one, hone, other, hother, rfl⟩ := Language.mem_mul.mp h
    rw [Body.allFor, rest.closes_of_row hother, Bool.not_true, Bool.false_or, Bool.and_eq_true] at hall
    intro kind hkind
    rcases List.mem_append.mp hkind with hkind | hkind
    · exact first.all_of_row one hall.1 hone kind hkind
    · exact rest.allFor_row other hall.2 hother kind hkind
  | .branch _ yes no, row, hall, h => by
    rw [Body.allFor, Bool.and_eq_true] at hall
    rcases Question.mem_of_ways h with h | h
    · exact yes.allFor_row row hall.1 h
    · exact no.allFor_row row hall.2 h

theorem NodeForm.allFor_row {ok : Kind → Bool} {own : NodeKind} {form : NodeForm} {row : List Kind}
    (hall : form.allFor ok own = true) (h : row ∈ form.language own) : ∀ kind ∈ row, ok kind = true := by
  obtain ⟨inner, body⟩ := form
  rw [NodeForm.allFor, Bool.and_eq_true] at hall
  cases inner with
  | none => exact body.allFor_row row hall.1 h
  | some inner =>
    obtain ⟨first, hfirst, rest, hrest, rfl⟩ := h
    intro kind hkind
    rcases List.mem_cons.mp hkind with rfl | hkind
    · exact List.all_eq_true.mp hall.2 first hfirst
    · exact body.allFor_row rest hall.1 hrest kind hkind

/-! ## Where statements stand -/

/-- What a return statement can leave. -/
def NodeKind.takesReturns : NodeKind → Bool
  | .functionDecl | .functionExpr | .arrowFunction | .methodDecl | .constructorDecl => true
  | _ => false

/-- Functions within a body and the classes that hold methods: their returns are theirs. -/
def NodeKind.isPassed : NodeKind → Bool
  | .arrowFunction | .functionExpr | .functionDecl | .classDecl => true
  | _ => false

/-- What holds statements. -/
def NodeKind.holdsStatements : NodeKind → Bool
  | .block | .ifStmt | .stmtList | .sourceFile => true
  | _ => false

namespace Grammar

/-- What may stand right below what, as far as it matters for return statements. -/
def mayStandIn : NodeKind → Kind → Bool
  | outer, .node .returnStmt | outer, .node .ifStmt => outer == .block || outer == .ifStmt || outer == .stmtList
  | outer, .node .block => outer == .block || outer == .ifStmt || outer == .stmtList || outer.takesReturns
  | outer, .node .stmtList => outer == .sourceFile
  | _, .node .sourceFile => false
  | outer, .node .methodDecl | outer, .node .constructorDecl => outer == .classBody
  | outer, .node .classBody => outer == .classDecl
  | _, _ => true

theorem forms_mayStandIn : directForms.all (fun form => NodeKind.all.all fun kind =>
    !form.body.closes kind || form.allFor (mayStandIn kind) kind) = true := by
  decide +kernel

/-- A function has at most one block. -/
theorem takesReturns_shows : NodeKind.all.all (fun kind =>
    !kind.takesReturns || shows (seeOnly (· == .block)) kind [[], [()]]) = true := by
  decide +kernel

/-- Statements stand where statements are held, or are the body of a function. -/
theorem not_statement {outer kind : NodeKind} (h : mayStandIn outer (.node kind) = true)
    (houter : outer.holdsStatements = false) (htakes : outer.takesReturns = false) :
    kind ≠ .returnStmt ∧ kind.holdsStatements = false := by
  cases kind with
  | returnStmt | ifStmt | block | stmtList => cases outer <;> contradiction
  | sourceFile => cases h
  | _ => exact ⟨nofun, rfl⟩

/-- What stands right below a function and is not its block is no statement. -/
theorem not_statement_of_takesReturns {outer kind : NodeKind} (h : mayStandIn outer (.node kind) = true)
    (htakes : outer.takesReturns = true) (hblock : kind ≠ .block) :
    kind ≠ .returnStmt ∧ kind.holdsStatements = false := by
  cases kind with
  | returnStmt | ifStmt | stmtList => cases outer <;> contradiction
  | block => exact absurd rfl hblock
  | sourceFile => cases h
  | _ => exact ⟨nofun, rfl⟩

/-- Within statements only blocks and conditions hold further ones. -/
theorem not_holdsStatements {outer kind : NodeKind} (h : mayStandIn outer (.node kind) = true)
    (houter : outer = .block ∨ outer = .ifStmt) (hkind : ¬(kind = .block ∨ kind = .ifStmt)) :
    kind.holdsStatements = false := by
  cases kind with
  | block | ifStmt => exact absurd (by simp) hkind
  | stmtList => rcases houter with rfl | rfl <;> cases h
  | sourceFile => cases h
  | _ => rfl

/-- Methods and constructors stand in the body of a class only, and that in a class. -/
theorem not_member {outer kind : NodeKind} (h : mayStandIn outer (.node kind) = true)
    (houter : outer ≠ .classDecl ∧ outer ≠ .classBody) (hpassed : kind.isPassed = false) :
    kind.takesReturns = false ∧ kind ≠ .classDecl ∧ kind ≠ .classBody := by
  cases kind with
  | methodDecl | constructorDecl => exact absurd (beq_iff_eq.mp h) houter.2
  | classBody => exact absurd (beq_iff_eq.mp h) houter.1
  | classDecl | functionDecl | functionExpr | arrowFunction => cases hpassed
  | _ => exact ⟨rfl, nofun, nofun⟩

end Grammar

namespace Program

variable {text : String} (h : (Program.ofSource text).isOk = true) {node child : Node}
  (hnode : node ∈ (Program.ofSource text).root.descendants)

include h hnode

theorem mayStandIn_of_mem (hchild : child ∈ node.children) :
    Grammar.mayStandIn node.kind (.node child.kind) = true := by
  obtain ⟨form, hform, hcloses, hrow⟩ := exists_directForm h hnode
  have hall := List.all_eq_true.mp (List.all_eq_true.mp Grammar.forms_mayStandIn form hform) node.kind
    (NodeKind.mem_all _)
  rw [hcloses] at hall
  exact NodeForm.allFor_row hall hrow _ (Node.mem_row.mpr ⟨child, hchild, rfl⟩)

/-- The block of a function is the only one. -/
theorem blocks_eq {body : Node} (htakes : node.kind.takesReturns = true) (hbody : node.block? = some body) :
    node.childrenOf (· == .block) = [body] := by
  have hshows := List.all_eq_true.mp Grammar.takesReturns_shows node.kind (NodeKind.mem_all _)
  rw [htakes] at hshows
  have hview := view_of_mem h hnode hshows
  have hlength : (node.childrenOf (· == .block)).length ≤ 1 := by
    rw [Node.length_childrenOf]
    rcases List.mem_pair.mp hview with hview | hview <;> rw [hview] <;> decide
  have hhead : (node.childrenOf (· == .block)).head? = some body := List.head?_filter.trans hbody
  match hblocks : node.childrenOf (· == .block), hhead, hlength with
  | [own], hhead, _ => rw [Option.some.inj hhead]

end Program

/-! ## The function around a statement -/

namespace Node

/-- The innermost function around the node. -/
def function? (node : Node) : Option Node := node.around.find? (·.kind.takesReturns)

/-- Whether the node is a return statement that leaves the function. -/
def isReturnOf (function node : Node) : Bool := node.kind == .returnStmt && node.function?.any function.isSame

/-- The return statements that leave the function, in the order of the source. -/
def ownReturns (function : Node) : List Node := function.descendants.filter function.isReturnOf

theorem isReturnOf_kind {function node : Node} (h : function.isReturnOf node = true) : node.kind = .returnStmt :=
  beq_iff_eq.mp (Bool.and_eq_true_iff.mp h).1

theorem not_isReturnOf {function node : Node} (h : node.kind ≠ .returnStmt) : function.isReturnOf node = false := by
  rw [isReturnOf, beq_eq_false_iff_ne.mpr h, Bool.false_and]

theorem around_length_lt : ∀ {node outer : Node}, outer ∈ node.around → outer.around.length < node.around.length
  | ⟨_, _, _, _, some above⟩, outer, h => by
    rcases List.mem_cons.mp h with rfl | h
    · exact Nat.lt_succ_self _
    · exact Nat.lt_succ_of_lt (around_length_lt h)

/-- A function around a node is the innermost one, or around it. -/
theorem function?_of_around : ∀ {node outer : Node}, outer ∈ node.around → outer.kind.takesReturns = true →
      ∃ function, node.function? = some function ∧ outer ∈ function.outwards
  | ⟨_, _, _, _, some above⟩, outer, h, htakes => by
    cases habove : above.kind.takesReturns with
    | true => exact ⟨above, List.find?_cons_of_pos habove, h⟩
    | false =>
      rcases List.mem_cons.mp h with rfl | h
      · rw [htakes] at habove
        cases habove
      · obtain ⟨function, hfunction, houter⟩ := function?_of_around h htakes
        exact ⟨function, (List.find?_cons_of_neg (by simp [habove])).trans hfunction, houter⟩

/-- What stands right below a node that is no function belongs to the function that the node belongs to. -/
theorem function?_child {outer child : Node} (hchild : child.parent = some outer)
    (htakes : outer.kind.takesReturns = false) : child.function? = outer.function? := by
  rw [function?, around_eq hchild]
  exact List.find?_cons_of_neg (by simp [htakes])

theorem function?_below {outer child : Node} (hchild : child.parent = some outer)
    (htakes : outer.kind.takesReturns = true) : child.function? = some outer := by
  rw [function?, around_eq hchild]
  exact List.find?_cons_of_pos htakes

theorem mem_around_child {node child outer : Node} (hchild : child ∈ node.children)
    (h : child ∈ outer.outwards) : node ∈ outer.outwards := by
  have habove : node ∈ child.around := by
    rw [around_eq (parent_of_mem_children hchild)]
    exact List.mem_cons_self
  rcases List.mem_cons.mp h with rfl | h
  · exact List.mem_cons_of_mem _ habove
  · exact List.mem_cons_of_mem _ (mem_around_trans h habove)

/-! ## From the outside in -/

/-- What gives nothing may be left out. -/
theorem flatMap_filter_eq {α β : Type} {f : α → List β} {keep : α → Bool} {items : List α}
    (h : ∀ item ∈ items, keep item = false → f item = []) : items.flatMap f = (items.filter keep).flatMap f := by
  induction items with
  | nil => rfl
  | cons item rest ih =>
    have hrest := ih fun other hother => h other (List.mem_cons_of_mem _ hother)
    rw [List.flatMap_cons, hrest]
    cases hkeep : keep item with
    | true => rw [List.filter_cons_of_pos hkeep, List.flatMap_cons]
    | false => rw [List.filter_cons_of_neg (by simp [hkeep]), h item List.mem_cons_self hkeep, List.nil_append]

theorem sizeOf_child {node child : Node} (hchild : child ∈ node.children) :
    sizeOf child.parts < sizeOf node.parts := by
  obtain ⟨span, kind, parts, hpart, rfl⟩ := mem_children.mp hchild
  have hlt := List.sizeOf_lt_of_mem hpart
  rw [Part.node.sizeOf_spec] at hlt
  dsimp only
  omega

/-- The nodes below a node, one child after the other. -/
theorem descendants_eq_children (node : Node) :
    node.descendants = node :: node.children.flatMap descendants := by
  have hrow : ∀ parts : List Part, nodesInAll node.source (some node) parts =
      (parts.filterMap node.inner?).flatMap descendants := by
    intro parts
    induction parts with
    | nil => rfl
    | cons part rest ih =>
      cases part with
      | leaf span token => exact ih
      | node span kind inner =>
        rw [nodesInAll, ih]
        rfl
  have hbelow := hrow node.parts
  cases node
  exact congrArg (_ :: ·) hbelow

/-- What is known of nodes inwards and outwards is known of the nodes below. -/
theorem Closed.descendants {known : Node → Prop} (hclosed : Closed known) {node found : Node} (hnode : known node)
    (hfound : found ∈ node.descendants) : known found := by
  rw [descendants_eq_children] at hfound
  rcases List.mem_cons.mp hfound with rfl | hfound
  · exact hnode
  · obtain ⟨child, hchild, hin⟩ := List.mem_flatMap.mp hfound
    exact hclosed.descendants (hclosed.child hnode hchild) hin
termination_by sizeOf node.parts
decreasing_by exact sizeOf_child hchild

theorem Closed.around {known : Node → Prop} (hclosed : Closed known) : ∀ {node outer : Node}, known node →
    outer ∈ node.around → known outer
  | ⟨_, _, _, _, some above⟩, outer, hnode, h => by
    have habove : known above := hclosed.parent hnode rfl
    rcases List.mem_cons.mp h with rfl | h
    · exact habove
    · exact hclosed.around habove h

/-- The return statements that are collected where a node stands. -/
def returnsAt (node : Node) : List Node := returnsIn node.source node.parent node.part

/-- The return statements below a node are collected one child after the other. -/
theorem returns_eq (node : Node) : node.returns = node.children.flatMap returnsAt := by
  have hrow : ∀ parts : List Part, returnsInAll node.source (some node) parts =
      (parts.filterMap node.inner?).flatMap returnsAt := by
    intro parts
    induction parts with
    | nil => rfl
    | cons part rest ih =>
      cases part with
      | leaf span token => exact ih
      | node span kind inner =>
        rw [returnsInAll, ih]
        rfl
  exact hrow node.parts

theorem returnsAt_return {node : Node} (h : node.kind = .returnStmt) : node.returnsAt = [node] := by
  cases node
  cases h
  rfl

theorem returnsAt_passed {node : Node} (h : node.kind.isPassed = true) : node.returnsAt = [] := by
  obtain ⟨source, kind, span, parts, parent⟩ := node
  cases kind <;> first | contradiction | rfl

theorem returnsAt_other {node : Node} (hreturn : node.kind ≠ .returnStmt) (h : node.kind.isPassed = false) :
    node.returnsAt = node.returns := by
  obtain ⟨source, kind, span, parts, parent⟩ := node
  cases kind <;> first | contradiction | rfl

end Node

namespace Program

variable {text : String} (h : (Program.ofSource text).isOk = true)

include h

/-- Below a node that holds no statements, a return statement belongs to a function that is not around that
node. -/
theorem function?_within {node found : Node} (hnode : node ∈ (Program.ofSource text).root.descendants)
    (hholds : node.kind.holdsStatements = false) (hfound : found ∈ node.children.flatMap Node.descendants)
    (hkind : found.kind = .returnStmt) :
    ∃ function, found.function? = some function ∧ node ∈ function.outwards := by
  obtain ⟨child, hchild, hin⟩ := List.mem_flatMap.mp hfound
  cases htakes : node.kind.takesReturns with
  | true =>
    rw [Node.descendants, Node.parent_of_mem_children hchild] at hin
    exact Node.function?_of_around (Node.mem_around_of_mem child.part hin) htakes
  | false =>
    obtain ⟨hreturn, hnone⟩ := Grammar.not_statement (mayStandIn_of_mem h hnode hchild) hholds htakes
    rw [Node.descendants_eq_children] at hin
    rcases List.mem_cons.mp hin with rfl | hin
    · exact absurd hkind hreturn
    · obtain ⟨function, hfunction, hout⟩ :=
        function?_within ((nodes_closed text).child hnode hchild) hnone hin hkind
      exact ⟨function, hfunction, Node.mem_around_child hchild hout⟩
termination_by sizeOf node.parts
decreasing_by exact Node.sizeOf_child hchild

/-- Within a node of a function that holds no statements, no return statement leaves the function. -/
theorem filter_within {function node : Node} (hfunction : function ∈ (Program.ofSource text).root.descendants)
    (hnode : node ∈ (Program.ofSource text).root.descendants) (haround : function ∈ node.around)
    (hholds : node.kind.holdsStatements = false) :
    (node.children.flatMap Node.descendants).filter function.isReturnOf = [] := by
  refine List.filter_eq_nil_iff.mpr fun found hfound hown => ?_
  obtain ⟨own, hown', hout⟩ := function?_within h hnode hholds hfound (Node.isReturnOf_kind hown)
  obtain ⟨-, hsame⟩ := Bool.and_eq_true_iff.mp hown
  rw [hown', Option.any_some, Node.isSame, beq_iff_eq] at hsame
  have hin : found ∈ node.descendants := Node.descendants_eq_children node ▸ List.mem_cons_of_mem _ hfound
  have hknown := (nodes_closed text).around ((nodes_closed text).descendants hnode hin)
    (List.mem_of_find?_eq_some hown')
  obtain rfl := node_eq h hfunction hknown hsame
  rcases List.mem_cons.mp hout with rfl | hout
  · exact absurd (Node.around_length_lt haround) (Nat.lt_irrefl _)
  · exact absurd (Node.around_length_lt haround) (Nat.lt_asymm (Node.around_length_lt hout))

/-- Where no statements are held, no return statements are collected. -/
theorem returns_within {node : Node} (hnode : node ∈ (Program.ofSource text).root.descendants)
    (hholds : node.kind.holdsStatements = false) (htakes : node.kind.takesReturns = false)
    (hclass : node.kind ≠ .classDecl ∧ node.kind ≠ .classBody) : node.returns = [] := by
  rw [Node.returns_eq]
  refine List.flatMap_eq_nil_iff.mpr fun child hchild => ?_
  have hstands := mayStandIn_of_mem h hnode hchild
  obtain ⟨hreturn, hnone⟩ := Grammar.not_statement hstands hholds htakes
  cases hpassed : child.kind.isPassed with
  | true => exact Node.returnsAt_passed hpassed
  | false =>
    rw [Node.returnsAt_other hreturn hpassed]
    obtain ⟨hplain, hclass⟩ := Grammar.not_member hstands hclass hpassed
    exact returns_within ((nodes_closed text).child hnode hchild) hnone hplain hclass
termination_by sizeOf node.parts
decreasing_by exact Node.sizeOf_child hchild

/-- In a block or a condition of a function, the return statements that leave the function are those that are
collected. -/
theorem filter_statements {function node : Node} (hfunction : function ∈ (Program.ofSource text).root.descendants)
    (hnode : node ∈ (Program.ofSource text).root.descendants) (hkind : node.kind = .block ∨ node.kind = .ifStmt)
    (hown : ∀ child ∈ node.children, child.function? = some function) :
    (node.children.flatMap Node.descendants).filter function.isReturnOf = node.returns := by
  rw [Node.returns_eq, List.filter_flatMap]
  refine List.flatMap_congr fun child hchild => ?_
  have hstands := mayStandIn_of_mem h hnode hchild
  have hmem := (nodes_closed text).child hnode hchild
  have hfound := hown child hchild
  have haround : function ∈ child.around := List.mem_of_find?_eq_some hfound
  rw [Node.descendants_eq_children]
  by_cases hreturn : child.kind = .returnStmt
  · have hself : function.isReturnOf child = true := by
      rw [Node.isReturnOf, hreturn, hfound, Option.any_some, Node.isSame, beq_self_eq_true, beq_self_eq_true]
      rfl
    rw [List.filter_cons_of_pos hself, filter_within h hfunction hmem haround (by rw [hreturn]; rfl),
      Node.returnsAt_return hreturn]
  rw [List.filter_cons_of_neg (by simp [Node.not_isReturnOf hreturn])]
  by_cases hstatements : child.kind = .block ∨ child.kind = .ifStmt
  · have hplain : child.kind.takesReturns = false := by rcases hstatements with h | h <;> rw [h] <;> rfl
    have hpassed : child.kind.isPassed = false := by rcases hstatements with h | h <;> rw [h] <;> rfl
    rw [Node.returnsAt_other hreturn hpassed]
    refine filter_statements hfunction hmem hstatements fun inner hinner => ?_
    rw [Node.function?_child (Node.parent_of_mem_children hinner) hplain, hfound]
  · have hnone : child.kind.holdsStatements = false := Grammar.not_holdsStatements hstands hkind hstatements
    rw [filter_within h hfunction hmem haround hnone]
    cases hpassed : child.kind.isPassed with
    | true => exact (Node.returnsAt_passed hpassed).symm
    | false =>
      rw [Node.returnsAt_other hreturn hpassed]
      obtain ⟨hplain, hclass⟩ := Grammar.not_member hstands
        (by rcases hkind with h | h <;> rw [h] <;> exact ⟨nofun, nofun⟩) hpassed
      exact (returns_within h hmem hnone hplain hclass).symm
termination_by sizeOf node.parts
decreasing_by exact Node.sizeOf_child hchild

/-- The return statements that leave a function are those that are collected from its body. -/
theorem ownReturns_eq {function body : Node} (hfunction : function ∈ (Program.ofSource text).root.descendants)
    (htakes : function.kind.takesReturns = true) (hbody : function.block? = some body) :
    function.ownReturns = body.returns := by
  have hmem : body ∈ function.children := List.mem_of_find?_eq_some hbody
  have hblock : body.kind = .block := by simpa using List.find?_some hbody
  have hself : function.isReturnOf function = false :=
    Node.not_isReturnOf fun hreturn => by rw [hreturn] at htakes; cases htakes
  have hbelow : function.isReturnOf body = false := Node.not_isReturnOf (by rw [hblock]; nofun)
  have hown : ∀ child ∈ function.children, child.function? = some function := fun child hchild =>
    Node.function?_below (Node.parent_of_mem_children hchild) htakes
  -- Parameters, names and types hold no return statements of the function.
  have hother : ∀ child ∈ function.children, (child.kind == .block) = false →
      child.descendants.filter function.isReturnOf = [] := by
    intro child hchild hkind
    obtain ⟨hreturn, hnone⟩ := Grammar.not_statement_of_takesReturns (mayStandIn_of_mem h hfunction hchild)
      htakes (by simpa using hkind)
    rw [Node.descendants_eq_children, List.filter_cons_of_neg (by simp [Node.not_isReturnOf hreturn])]
    exact filter_within h hfunction ((nodes_closed text).child hfunction hchild)
      (List.mem_of_find?_eq_some (hown child hchild)) hnone
  have hchildren : (function.children.flatMap Node.descendants).filter function.isReturnOf =
      (function.childrenOf (· == .block)).flatMap fun child => child.descendants.filter function.isReturnOf := by
    rw [List.filter_flatMap]
    exact Node.flatMap_filter_eq hother
  rw [Node.ownReturns, Node.descendants_eq_children, List.filter_cons_of_neg (by simp [hself]), hchildren,
    blocks_eq h hfunction htakes hbody, List.flatMap_singleton, Node.descendants_eq_children,
    List.filter_cons_of_neg (by simp [hbelow])]
  refine filter_statements h hfunction ((nodes_closed text).child hfunction hmem) (.inl hblock) fun child hchild => ?_
  rw [Node.function?_child (Node.parent_of_mem_children hchild) (by rw [hblock]; rfl), hown body hmem]

end Program

end RouteTypes
