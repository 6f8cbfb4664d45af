-- What the parts of a node are. A part is asked for by its class, as the first, the second or the last node
-- of that class, and the reading puts nodes together without a thought of that. In a program without misfits
-- both agree: each question for a part that must be there has an answer, which is the part meant, and a list
-- has all nodes that are in it.
import RouteTypes.Proofs.Grammar.Views
import RouteTypes.Proofs.Tree.Children
import RouteTypes.Proofs.Typing.Identity

namespace RouteTypes

/-! ## Parts and their places -/

/-- The token as a part of a tree. -/
def Placed.part (placed : Placed) : Part := .leaf placed.span placed.token

/-- A part that is a token, as a token. -/
def Part.placed? : Part → Option Placed
  | .leaf span token => some ⟨span, token⟩
  | .node .. => none

namespace Node

theorem tokens_eq (node : Node) : node.tokens = node.parts.filterMap Part.placed? :=
  List.filterMap_congr fun part _ => by cases part <;> rfl

/-- The tokens that mean something are among the parts that do. -/
theorem tokens_significant (node : Node) :
    node.tokens.filter (!·.token.isTrivia) = node.significant.filterMap Part.placed? := by
  rw [tokens_eq, significant, List.filterMap_filter, List.filter_filterMap]
  refine List.filterMap_congr fun part _ => ?_
  cases part with
  | leaf span token => rfl
  | node span kind parts => rfl

/-- A token that means something is found among the parts that do. -/
theorem find?_tokens {is : Placed → Bool} (hsolid : ∀ placed, is placed = true → placed.token.isTrivia = false)
    (node : Node) : node.tokens.find? is = (node.significant.filterMap Part.placed?).find? is := by
  rw [← tokens_significant, List.find?_filter]
  congr 1
  funext placed
  cases hplaced : is placed with
  | false => simp
  | true => simp [hsolid placed hplaced]

theorem firstToken?_eq (node : Node) :
    node.firstToken? = (node.significant.filterMap Part.placed?).head? := by
  rw [← tokens_significant, List.head?_filter]
  rfl

theorem token?_eq {kind : TokenKind} (hsolid : kind.isTrivia = false) (node : Node) :
    node.token? kind = (node.significant.filterMap Part.placed?).find? (·.token.kind == kind) :=
  find?_tokens (fun placed hplaced => by rw [Token.isTrivia, beq_iff_eq.mp hplaced, hsolid]) node

theorem memberToken?_eq (node : Node) : node.memberToken? =
    ((node.significant.filterMap Part.placed?).filter fun placed =>
      placed.token.kind == .ident || placed.token.kind.isKeyword).getLast? := by
  have hsolid : ∀ kind : TokenKind, (kind == .ident || kind.isKeyword) = true → kind.isTrivia = false := by
    intro kind
    cases kind <;> decide
  rw [memberToken?, ← tokens_significant, List.filter_filter]
  congr 1
  refine List.filter_congr fun placed _ => ?_
  cases hplaced : placed.token.kind == .ident || placed.token.kind.isKeyword with
  | false => rfl
  | true => rw [Token.isTrivia, hsolid _ hplaced]; rfl

theorem expression?_eq (node : Node) : node.expression? = node.expressions.head? :=
  (List.head?_filter).symm

end Node

/-! ## What must be there -/

namespace NodeKind

/-- The nodes that have one expression right below and no other. -/
def holdsExpression : List NodeKind :=
  [.callExpr, .newExpr, .propertyAccess, .prefixExpr, .asExpr, .parenExpr, .spreadElement,
    .propertyAssignment, .exportDefault, .exprStmt, .ifStmt]

/-- The nodes that have one type right below and no other. -/
def holdsType : List NodeKind :=
  [.typeAscription, .arrayType, .parenType, .asExpr, .typeAliasDecl, .functionType]

/-- The declarations, parameters and members that have a name. Constructors and index signatures have none. -/
def holdsName : List NodeKind :=
  [.typeAliasDecl, .interfaceDecl, .classDecl, .functionDecl, .param, .typeParam, .bindingElement,
    .propertyDecl, .methodDecl, .propertySignature, .methodSignature, .propertyAssignment]

/-- What is written as a reference to a name. -/
def holdsNameRef : List NodeKind := [.shorthandProperty, .typeRef]

/-- The functions, whose parameters are in a list. -/
def holdsParams : List NodeKind :=
  [.arrowFunction, .functionExpr, .functionDecl, .methodDecl, .constructorDecl, .methodSignature,
    .functionType]

/-- What the nodes in a list are. -/
def itemsOf : NodeKind → NodeKind → Bool
  | .argList | .arrayLiteral => isElement
  | .objectLiteral => isObjectMember
  | .paramList => (· == .param)
  | .typeParamList => (· == .typeParam)
  | .typeArgList | .unionType | .extendsClause => isType
  | .classBody => isClassMember
  | .typeLiteral => isTypeMember
  | .objectBindingPattern => (· == .bindingElement)
  | .block | .stmtList => isStatement
  | _ => fun _ => true

end NodeKind

namespace Node

/-- A list between parentheses: they are the first and the last of its parts, and the first of their kind. -/
def Parenthesized (list : Node) : Prop :=
  ∃ (opening closing : Placed) (inside : List Part),
    list.significant = opening.part :: (inside ++ [closing.part]) ∧
      list.token? .lParen = some opening ∧ list.token? .rParen = some closing

/-- What the questions for the parts of a node answer that must be there, each by the kind of the node. Where
an answer is the only node of its class right below, no other could have been taken for it. -/
structure HasParts (node : Node) : Prop where
  /-- What is called comes first, and the arguments between parentheses come last. -/
  call : node.kind = .callExpr → ∃ callee list,
    node.expression? = some callee ∧ node.children.head? = some callee ∧
      node.argList? = some list ∧ node.children.getLast? = some list ∧
      list.kind = .argList ∧ list.Parenthesized ∧ node.args = list.children
  parenthesized : node.kind = .argList → node.Parenthesized
  binary : node.kind = .binaryExpr ∨ node.kind = .assignExpr → ∃ (left right : Node) (operator : Placed),
    node.significant = [left.part, operator.part, right.part] ∧
      node.expression? = some left ∧ node.expressionAt? 1 = some right ∧
      node.operator? = some operator.token.kind
  conditional : node.kind = .conditionalExpr → ∃ (condition yes no : Node) (question colon : Placed),
    node.significant = [condition.part, question.part, yes.part, colon.part, no.part] ∧
      node.expression? = some condition ∧ node.expressionAt? 1 = some yes ∧ node.expressionAt? 2 = some no
  index : node.kind = .indexExpr → ∃ (receiver index : Node) (opening closing : Placed),
    node.significant = [receiver.part, opening.part, index.part, closing.part] ∧
      node.expression? = some receiver ∧ node.expressionAt? 1 = some index
  access : node.kind = .propertyAccess → ∃ (receiver : Node) (point name : Placed),
    node.significant = [receiver.part, point.part, name.part] ∧
      node.expression? = some receiver ∧ node.memberToken? = some name
  unary : node.kind = .prefixExpr → ∃ (operator : Placed) (operand : Node),
    node.significant = [operator.part, operand.part] ∧
      node.operator? = some operator.token.kind ∧ node.expression? = some operand
  cast : node.kind = .asExpr → ∃ (expression type : Node) (word : Placed),
    node.significant = [expression.part, word.part, type.part] ∧
      node.expression? = some expression ∧ node.type? = some type
  /-- The body of an arrow function comes last, and is a block or an expression. -/
  arrow : node.kind = .arrowFunction → ∃ body,
    node.arrowBody? = some body ∧ node.children.getLast? = some body
  literal : node.kind = .literal → ∃ (placed : Placed) (constant : Constant),
    node.significant = [placed.part] ∧ node.constant? = some constant
  expression : node.kind ∈ NodeKind.holdsExpression → ∃ expression,
    node.expression? = some expression ∧ node.expressions = [expression]
  type : node.kind ∈ NodeKind.holdsType → ∃ type, node.type? = some type ∧ node.types = [type]
  name : node.kind ∈ NodeKind.holdsName → ∃ name,
    node.name? = some name ∧ node.childrenOf (· == .name) = [name]
  nameRef : node.kind ∈ NodeKind.holdsNameRef → ∃ ref,
    node.nameRef? = some ref ∧ node.childrenOf (· == .nameRef) = [ref]
  params : node.kind ∈ NodeKind.holdsParams → ∃ list,
    node.paramList? = some list ∧ node.childrenOf (· == .paramList) = [list] ∧ node.params = list.children
  /-- A name is one token. -/
  nameToken : node.kind = .name → ∃ placed : Placed,
    node.significant = [placed.part] ∧ node.firstToken? = some placed
  /-- What a variable declares has a name or a pattern, and not both. -/
  declarator : node.kind = .varDeclarator →
    (∃ name, node.name? = some name ∧ node.pattern? = none) ∨
      ∃ pattern, node.name? = none ∧ node.pattern? = some pattern
  elements : node.kind = .argList ∨ node.kind = .arrayLiteral → node.elements = node.children
  objectMembers : node.kind = .objectLiteral → node.objectMembers = node.children
  listedParams : node.kind = .paramList → node.paramsOf = node.children
  listedTypeParams : node.kind = .typeParamList → node.typeParamsOf = node.children
  listedTypes : node.kind = .typeArgList ∨ node.kind = .unionType ∨ node.kind = .extendsClause →
    node.types = node.children
  classMembers : node.kind = .classDecl → ∃ body,
    node.childrenOf (· == .classBody) = [body] ∧ node.classMembers = body.children
  typeMembers : node.kind = .typeLiteral → node.typeMembers = node.children
  bindingElements : node.kind = .objectBindingPattern → node.bindingElements = node.children
  statements : node.kind = .block ∨ node.kind = .stmtList → node.statements = node.children
  programStatements : node.kind = .sourceFile → ∃ list,
    node.childrenOf (· == .stmtList) = [list] ∧ node.programStatements = list.children

end Node

/-! ## What the grammar gives -/

/-- What a part is taken for where each part counts. A word is a name or a reserved word, a sign is any other
token. -/
inductive Slot where
  | expression | type | word | sign | other
deriving DecidableEq

namespace Slot

def ofKind : Kind → Slot
  | .token kind => if kind == .ident || kind.isKeyword then .word else .sign
  | .node kind => if kind.isExpression then .expression else if kind.isType then .type else .other
  | .tombstone => .other

/-- The rows of parts of the nodes that always have as many of them. -/
def layouts : NodeKind → List (List Slot)
  | .binaryExpr | .assignExpr => [[.expression, .sign, .expression]]
  | .conditionalExpr => [[.expression, .sign, .expression, .sign, .expression]]
  | .indexExpr => [[.expression, .sign, .expression, .sign]]
  | .propertyAccess => [[.expression, .sign, .word]]
  | .prefixExpr => [[.word, .expression], [.sign, .expression]]
  | .asExpr => [[.expression, .word, .type]]
  | .literal | .name => [[.word], [.sign]]
  | _ => []

/-- These nodes. -/
def laidOut : List NodeKind :=
  [.binaryExpr, .assignExpr, .conditionalExpr, .indexExpr, .propertyAccess, .prefixExpr, .asExpr, .literal,
    .name]

end Slot

namespace Grammar

/-- Looks for nodes of a class. -/
def seeOnly (is : NodeKind → Bool) : Kind → Option Unit
  | .node kind => if is kind then some () else none
  | .token _ | .tombstone => none

/-- Looks for names and patterns. -/
def seeBound : Kind → Option NodeKind
  | .node .name => some .name
  | .node .objectBindingPattern => some .objectBindingPattern
  | _ => none

theorem eq_of_seeBound {kind : Kind} {found : NodeKind} (h : seeBound kind = some found) :
    kind = .node found := by
  unfold seeBound at h
  split at h <;> cases h <;> rfl

/-- Looks for tokens of a kind. -/
def seeToken (kind : TokenKind) : Kind → Option Unit
  | .token own => if own == kind then some () else none
  | .node _ | .tombstone => none

/-- Whether each node of a kind has exactly one node of the class right below. -/
def hasOne (is : NodeKind → Bool) (kind : NodeKind) : Bool := shows (seeOnly is) kind [[()]]

/-- Which kinds of nodes have exactly one node of which class right below. -/
def onlyBelow : List (List NodeKind × (NodeKind → Bool)) :=
  [(NodeKind.holdsExpression, NodeKind.isExpression), (NodeKind.holdsType, NodeKind.isType),
    (NodeKind.holdsName, (· == .name)), (NodeKind.holdsParams, (· == .paramList)),
    (NodeKind.holdsNameRef, (· == .nameRef)), ([.classDecl], (· == .classBody)),
    ([.sourceFile], (· == .stmtList))]

-- The rows of the forms, settled at once: the kernel goes through them only one time.
theorem rows_show : (∀ entry ∈ onlyBelow, entry.1.all (hasOne entry.2) = true) ∧
    shows seeBound .varDeclarator [[.name], [.objectBindingPattern]] = true ∧
    shows (seeToken .rParen) .argList [[()]] = true ∧
    Slot.laidOut.all
      (fun kind => shows (fun part => some (Slot.ofKind part)) kind (Slot.layouts kind)) = true := by
  decide +kernel

theorem holdsExpression_hasOne : NodeKind.holdsExpression.all (hasOne NodeKind.isExpression) = true :=
  rows_show.1 (NodeKind.holdsExpression, NodeKind.isExpression) (by simp [onlyBelow])

theorem holdsType_hasOne : NodeKind.holdsType.all (hasOne NodeKind.isType) = true :=
  rows_show.1 (NodeKind.holdsType, NodeKind.isType) (by simp [onlyBelow])

theorem holdsName_hasOne : NodeKind.holdsName.all (hasOne (· == .name)) = true :=
  rows_show.1 (NodeKind.holdsName, (· == .name)) (by simp [onlyBelow])

theorem holdsParams_hasOne : NodeKind.holdsParams.all (hasOne (· == .paramList)) = true :=
  rows_show.1 (NodeKind.holdsParams, (· == .paramList)) (by simp [onlyBelow])

theorem varDeclarator_shows :
    shows seeBound .varDeclarator [[.name], [.objectBindingPattern]] = true :=
  rows_show.2.1

theorem argList_shows : shows (seeToken .rParen) .argList [[()]] = true :=
  rows_show.2.2.1

theorem holdsNameRef_hasOne : NodeKind.holdsNameRef.all (hasOne (· == .nameRef)) = true :=
  rows_show.1 (NodeKind.holdsNameRef, (· == .nameRef)) (by simp [onlyBelow])

theorem classDecl_hasOne : hasOne (· == .classBody) .classDecl = true := by
  simpa using rows_show.1 ([.classDecl], (· == .classBody)) (by simp [onlyBelow])

theorem laidOut_shows : Slot.laidOut.all
    (fun kind => shows (fun part => some (Slot.ofKind part)) kind (Slot.layouts kind)) = true :=
  rows_show.2.2.2

theorem sourceFile_hasOne : hasOne (· == .stmtList) .sourceFile = true := by
  simpa using rows_show.1 ([.sourceFile], (· == .stmtList)) (by simp [onlyBelow])

/-- What may stand right below a node where a list is, and in a literal. -/
def itemOrConstant : NodeKind → Kind → Bool
  | .literal, .token kind =>
    kind == .numberLiteral || kind == .stringLiteral || kind == .trueKw || kind == .falseKw || kind == .nullKw
  | owner, .node kind => owner.itemsOf kind
  | _, _ => true

theorem forms_itemOrConstant : directForms.all (fun form => NodeKind.all.all fun kind =>
    !form.body.closes kind || form.allIn (itemOrConstant kind)) = true := by
  decide +kernel

/-- What the body of an arrow function is. -/
def arrowEnd : Kind → Bool
  | .node kind => kind == .block || kind.isExpression
  | .token _ | .tombstone => false

theorem forms_arrow : directForms.all (fun form => !form.body.closes .arrowFunction ||
    form.endsIn arrowEnd .arrowFunction) = true := by
  decide +kernel

end Grammar

/-! ## Rows of parts -/

theorem Part.exists_placed {part : Part} {kind : TokenKind} (h : part.kind = .token kind) :
    ∃ placed, part = Placed.part placed ∧ placed.token.kind = kind := by
  cases part with
  | leaf span token =>
    cases h
    exact ⟨⟨span, token⟩, rfl, rfl⟩
  | node span own parts => cases h

namespace Node

/-- What a part of a node is that is taken for something: a node right below or a token. -/
def Fills (node : Node) (part : Part) : Slot → Prop
  | .expression => ∃ child, node.inner? part = some child ∧ part = child.part ∧ child.kind.isExpression = true
  | .type => ∃ child, node.inner? part = some child ∧ part = child.part ∧ child.kind.isExpression = false ∧
      child.kind.isType = true
  | .word => ∃ placed, part = Placed.part placed ∧
      (placed.token.kind == .ident || placed.token.kind.isKeyword) = true
  | .sign => ∃ placed, part = Placed.part placed ∧
      (placed.token.kind == .ident || placed.token.kind.isKeyword) = false
  | .other => True

/-- How many nodes of a class are right below. -/
theorem length_childrenOf (node : Node) (is : NodeKind → Bool) :
    (node.childrenOf is).length = (node.row.filterMap (Grammar.seeOnly is)).length := by
  have hview : (node.childrenOf is).map (fun _ => ()) = node.row.filterMap (Grammar.seeOnly is) := by
    rw [childrenOf, ← children_significant, row, List.filterMap_map, List.filter_filterMap, List.map_filterMap]
    refine List.filterMap_congr fun part _ => ?_
    cases part with
    | leaf span token => rfl
    | node span kind parts =>
      simp only [inner?, Option.filter_some, Function.comp, Part.kind, Grammar.seeOnly]
      split <;> rfl
  rw [← hview, List.length_map]

theorem fills (node : Node) (part : Part) : node.Fills part (Slot.ofKind part.kind) := by
  cases part with
  | leaf span token =>
    rw [Part.kind, Slot.ofKind]
    split
    · rename_i hword
      exact ⟨⟨span, token⟩, rfl, hword⟩
    · rename_i hword
      exact ⟨⟨span, token⟩, rfl, Bool.eq_false_iff.mpr hword⟩
  | node span kind parts =>
    rw [Part.kind, Slot.ofKind]
    split
    · rename_i hexpression
      exact ⟨_, rfl, rfl, hexpression⟩
    · rename_i hexpression
      split
      · rename_i htype
        exact ⟨_, rfl, rfl, Bool.eq_false_iff.mpr hexpression, htype⟩
      · trivial

end Node

namespace Program

variable {text : String} (h : (Program.ofSource text).isOk = true) {source : Source} {node : Node}
  (hnode : node ∈ (Node.ofTree source (Program.ofSource text).tree).descendants)

include h hnode

theorem exists_directForm : ∃ form ∈ Grammar.directForms, form.body.closes node.kind = true ∧
    node.row ∈ form.language node.kind := by
  have hsound := Grammar.directPhrase_reads.program_sound h
  obtain ⟨blanks, statements, more, htree⟩ := exists_statements text
  rw [htree] at hsound hnode
  have hdown : Node.HandedDown (Tree.Sound Grammar.directForms) := fun kind children => Tree.Sound.child
  rw [Node.row_eq]
  exact (Node.lies_of_mem hdown _ hsound hnode).good.exists_form

/-- A node shows one of the views of its kind. -/
theorem view_of_mem {α : Type} [DecidableEq α] {see : Kind → Option α} {wanted : List (List α)}
    (hshows : Grammar.shows see node.kind wanted = true) : node.row.filterMap see ∈ wanted := by
  obtain ⟨form, hform, hcloses, hrow⟩ := exists_directForm h hnode
  exact Grammar.view_of_form hshows hform hcloses hrow

/-- Each part of a node is what the kind of the node says. -/
theorem exists_layout (hkind : node.kind ∈ Slot.laidOut) :
    ∃ layout ∈ Slot.layouts node.kind,
      List.Forall₂ (fun part slot => node.Fills part slot) node.significant layout := by
  refine ⟨_, view_of_mem h hnode (List.all_eq_true.mp Grammar.laidOut_shows _ hkind), ?_⟩
  rw [List.filterMap_eq_map', Node.row, List.map_map, List.forall₂_map_right_iff]
  exact List.forall₂_same.mpr fun part _ => node.fills part

/-- A node of a kind that has one node of a class right below. -/
theorem exists_only {is : NodeKind → Bool} (hone : Grammar.hasOne is node.kind = true) :
    ∃ child, node.childrenOf is = [child] := by
  have hview := List.mem_singleton.mp (view_of_mem h hnode hone)
  exact List.length_eq_one_iff.mp (by rw [Node.length_childrenOf, hview]; rfl)

/-- What is right below a list are its items, and constants are right below a literal. -/
theorem itemOrConstant_of_mem : ∀ kind ∈ node.row, Grammar.itemOrConstant node.kind kind = true := by
  obtain ⟨form, hform, hcloses, hrow⟩ := exists_directForm h hnode
  have hall := List.all_eq_true.mp (List.all_eq_true.mp Grammar.forms_itemOrConstant form hform) node.kind
    (NodeKind.mem_all _)
  rw [hcloses] at hall
  exact NodeForm.all_of_row hall hrow

end Program

/-! ## Two and three parts -/

namespace Node

@[simp] theorem inner?_placed (node : Node) (placed : Placed) : node.inner? placed.part = none := rfl

@[simp] theorem placed?_part (placed : Placed) : placed.part.placed? = some placed := rfl

@[simp] theorem placed?_node (node : Node) : node.part.placed? = none := rfl

theorem expressions_eq (node : Node) :
    node.expressions = (node.significant.filterMap node.inner?).filter (·.kind.isExpression) := by
  rw [children_significant]
  rfl

theorem types_eq (node : Node) :
    node.types = (node.significant.filterMap node.inner?).filter (·.kind.isType) := by
  rw [children_significant]
  rfl

theorem type?_eq (node : Node) : node.type? = node.types.head? := (List.head?_filter).symm

end Node

namespace Program

variable {text : String} (h : (Program.ofSource text).isOk = true) {source : Source} {node : Node}
  (hnode : node ∈ (Node.ofTree source (Program.ofSource text).tree).descendants)

include h hnode

/-- A node with an operator between two expressions. -/
theorem binary_parts (hkind : node.kind = .binaryExpr ∨ node.kind = .assignExpr) :
    ∃ (left right : Node) (operator : Placed),
      node.significant = [left.part, operator.part, right.part] ∧
        node.expression? = some left ∧ node.expressionAt? 1 = some right ∧
        node.operator? = some operator.token.kind := by
  obtain ⟨layout, hlayout, hparts⟩ := exists_layout h hnode
    (by rcases hkind with hkind | hkind <;> rw [hkind] <;> decide)
  obtain rfl : layout = [.expression, .sign, .expression] := by
    rcases hkind with hkind | hkind <;> rw [hkind] at hlayout <;> exact List.mem_singleton.mp hlayout
  generalize hsignificant : node.significant = parts at hparts
  obtain _ | ⟨⟨left, hleft, rfl, hleft'⟩, _ | ⟨⟨operator, rfl, -⟩, _ | ⟨⟨right, hright, rfl, hright'⟩, ⟨⟩⟩⟩⟩ :=
    hparts
  have hexpressions : node.expressions = [left, right] := by
    simp [Node.expressions_eq, hsignificant, List.filterMap_cons, hleft, hright, hleft', hright']
  refine ⟨left, right, operator, rfl, ?_, ?_, ?_⟩
  · rw [Node.expression?_eq, hexpressions, List.head?_cons]
  · rw [Node.expressionAt?, hexpressions]
    rfl
  · rw [Node.operator?, Node.firstToken?_eq, hsignificant]
    rfl

/-- A condition and the two branches, in this order. -/
theorem conditional_parts (hkind : node.kind = .conditionalExpr) :
    ∃ (condition yes no : Node) (question colon : Placed),
      node.significant = [condition.part, question.part, yes.part, colon.part, no.part] ∧
        node.expression? = some condition ∧ node.expressionAt? 1 = some yes ∧
        node.expressionAt? 2 = some no := by
  obtain ⟨layout, hlayout, hparts⟩ := exists_layout h hnode (by rw [hkind]; decide)
  rw [hkind] at hlayout
  obtain rfl := List.mem_singleton.mp hlayout
  generalize hsignificant : node.significant = parts at hparts
  obtain _ | ⟨⟨condition, hcondition, rfl, hcondition'⟩, _ | ⟨⟨question, rfl, -⟩,
    _ | ⟨⟨yes, hyes, rfl, hyes'⟩, _ | ⟨⟨colon, rfl, -⟩, _ | ⟨⟨no, hno, rfl, hno'⟩, ⟨⟩⟩⟩⟩⟩⟩ := hparts
  have hexpressions : node.expressions = [condition, yes, no] := by
    simp [Node.expressions_eq, hsignificant, List.filterMap_cons, hcondition, hyes, hno, hcondition',
      hyes', hno']
  refine ⟨condition, yes, no, question, colon, rfl, ?_, ?_, ?_⟩
  · rw [Node.expression?_eq, hexpressions, List.head?_cons]
  · rw [Node.expressionAt?, hexpressions]
    rfl
  · rw [Node.expressionAt?, hexpressions]
    rfl

/-- What is indexed and the index between brackets. -/
theorem index_parts (hkind : node.kind = .indexExpr) :
    ∃ (receiver index : Node) (opening closing : Placed),
      node.significant = [receiver.part, opening.part, index.part, closing.part] ∧
      node.expression? = some receiver ∧ node.expressionAt? 1 = some index := by
  obtain ⟨layout, hlayout, hparts⟩ := exists_layout h hnode (by rw [hkind]; decide)
  rw [hkind] at hlayout
  obtain rfl := List.mem_singleton.mp hlayout
  generalize hsignificant : node.significant = parts at hparts
  obtain _ | ⟨⟨receiver, hreceiver, rfl, hreceiver'⟩, _ | ⟨⟨opening, rfl, -⟩,
    _ | ⟨⟨index, hindex, rfl, hindex'⟩, _ | ⟨⟨closing, rfl, -⟩, ⟨⟩⟩⟩⟩⟩ := hparts
  have hexpressions : node.expressions = [receiver, index] := by
    simp [Node.expressions_eq, hsignificant, List.filterMap_cons, hreceiver, hindex, hreceiver', hindex']
  refine ⟨receiver, index, opening, closing, rfl, ?_, ?_⟩
  · rw [Node.expression?_eq, hexpressions, List.head?_cons]
  · rw [Node.expressionAt?, hexpressions]
    rfl

/-- What has a member, a point and the name of the member, which is the last part. -/
theorem access_parts (hkind : node.kind = .propertyAccess) :
    ∃ (receiver : Node) (point name : Placed),
      node.significant = [receiver.part, point.part, name.part] ∧
      node.expression? = some receiver ∧ node.memberToken? = some name := by
  obtain ⟨layout, hlayout, hparts⟩ := exists_layout h hnode (by rw [hkind]; decide)
  rw [hkind] at hlayout
  obtain rfl := List.mem_singleton.mp hlayout
  generalize hsignificant : node.significant = parts at hparts
  obtain _ | ⟨⟨receiver, hreceiver, rfl, hreceiver'⟩, _ | ⟨⟨point, rfl, hpoint⟩,
    _ | ⟨⟨name, rfl, hname⟩, ⟨⟩⟩⟩⟩ := hparts
  refine ⟨receiver, point, name, rfl, ?_, ?_⟩
  · simp [Node.expression?_eq, Node.expressions_eq, hsignificant, List.filterMap_cons, hreceiver, hreceiver']
  · rw [Node.memberToken?_eq, hsignificant]
    simp [List.filterMap_cons, hpoint, hname]

/-- An operator and its operand. -/
theorem prefix_parts (hkind : node.kind = .prefixExpr) :
    ∃ (operator : Placed) (operand : Node), node.significant = [operator.part, operand.part] ∧
      node.operator? = some operator.token.kind ∧ node.expression? = some operand := by
  obtain ⟨layout, hlayout, hparts⟩ := exists_layout h hnode (by rw [hkind]; decide)
  rw [hkind] at hlayout
  generalize hsignificant : node.significant = parts at hparts
  have hboth : ∃ operator : Placed, ∃ operand : Node, node.inner? operand.part = some operand ∧
      parts = [operator.part, operand.part] ∧ operand.kind.isExpression = true := by
    rcases List.mem_pair.mp hlayout with rfl | rfl
    all_goals
      obtain _ | ⟨⟨operator, rfl, -⟩, _ | ⟨⟨operand, hoperand, rfl, hoperand'⟩, ⟨⟩⟩⟩ := hparts
      exact ⟨operator, operand, hoperand, rfl, hoperand'⟩
  obtain ⟨operator, operand, hoperand, rfl, hoperand'⟩ := hboth
  refine ⟨operator, operand, rfl, ?_, ?_⟩
  · rw [Node.operator?, Node.firstToken?_eq, hsignificant]
    rfl
  · simp [Node.expression?_eq, Node.expressions_eq, hsignificant, List.filterMap_cons, hoperand, hoperand']

/-- An expression and the type that it is taken as. -/
theorem as_parts (hkind : node.kind = .asExpr) :
    ∃ (expression type : Node) (word : Placed),
      node.significant = [expression.part, word.part, type.part] ∧
      node.expression? = some expression ∧ node.type? = some type := by
  obtain ⟨layout, hlayout, hparts⟩ := exists_layout h hnode (by rw [hkind]; decide)
  rw [hkind] at hlayout
  obtain rfl := List.mem_singleton.mp hlayout
  generalize hsignificant : node.significant = parts at hparts
  obtain _ | ⟨⟨expression, hexpression, rfl, hexpression'⟩, _ | ⟨⟨word, rfl, -⟩,
    _ | ⟨⟨type, htype, rfl, -, htype'⟩, ⟨⟩⟩⟩⟩ := hparts
  have hnot : expression.kind.isType = false := by
    revert hexpression'
    cases expression.kind <;> decide
  refine ⟨expression, type, word, rfl, ?_, ?_⟩
  · simp [Node.expression?_eq, Node.expressions_eq, hsignificant, List.filterMap_cons, hexpression, hexpression']
  · simp [Node.type?_eq, Node.types_eq, hsignificant, List.filterMap_cons, hexpression, htype, hnot, htype']

/-- A literal is one token, which is a constant. -/
theorem literal_parts (hkind : node.kind = .literal) :
    ∃ (placed : Placed) (constant : Node.Constant), node.significant = [placed.part] ∧ node.constant? = some constant := by
  obtain ⟨layout, hlayout, hparts⟩ := exists_layout h hnode (by rw [hkind]; decide)
  rw [hkind] at hlayout
  generalize hsignificant : node.significant = parts at hparts
  have hone : ∃ placed : Placed, parts = [placed.part] := by
    rcases List.mem_pair.mp hlayout with rfl | rfl
    all_goals
      obtain _ | ⟨⟨placed, rfl, -⟩, ⟨⟩⟩ := hparts
      exact ⟨placed, rfl⟩
  obtain ⟨placed, rfl⟩ := hone
  have hconstant := itemOrConstant_of_mem h hnode (.token placed.token.kind) (by
    rw [Node.row, hsignificant]
    exact List.mem_singleton_self _)
  have hoperator : node.operator? = some placed.token.kind := by
    rw [Node.operator?, Node.firstToken?_eq, hsignificant]
    rfl
  rw [hkind] at hconstant
  have hsome : node.constant?.isSome = true := by
    rw [Node.constant?, hoperator]
    revert hconstant
    cases placed.token.kind <;> decide
  exact ⟨placed, _, rfl, Option.some_get hsome |>.symm⟩

/-- A name is one token. -/
theorem name_parts (hkind : node.kind = .name) :
    ∃ placed : Placed, node.significant = [placed.part] ∧ node.firstToken? = some placed := by
  obtain ⟨layout, hlayout, hparts⟩ := exists_layout h hnode (by rw [hkind]; decide)
  rw [hkind] at hlayout
  generalize hsignificant : node.significant = parts at hparts
  have hone : ∃ placed : Placed, parts = [placed.part] := by
    rcases List.mem_pair.mp hlayout with rfl | rfl
    all_goals
      obtain _ | ⟨⟨placed, rfl, -⟩, ⟨⟩⟩ := hparts
      exact ⟨placed, rfl⟩
  obtain ⟨placed, rfl⟩ := hone
  exact ⟨placed, rfl, by rw [Node.firstToken?_eq, hsignificant]; rfl⟩

end Program

/-! ## The only node of a class -/

/-- The kind of a part that is a node. -/
def Kind.node? : Kind → Option NodeKind
  | .node kind => some kind
  | .token _ | .tombstone => none

namespace Node

theorem child?_of_only {node child : Node} {is : NodeKind → Bool} (h : node.childrenOf is = [child]) :
    node.child? is = some child := by
  rw [child?, ← List.head?_filter, ← childrenOf, h, List.head?_cons]

/-- The kinds of the nodes right below are those in the row. -/
theorem children_kinds (node : Node) : node.children.map Node.kind = node.row.filterMap Kind.node? := by
  rw [← children_significant, row, List.filterMap_map, List.map_filterMap]
  refine List.filterMap_congr fun part _ => ?_
  cases part <;> rfl

theorem childrenOf_eq_children {node : Node} {is : NodeKind → Bool}
    (h : ∀ kind, .node kind ∈ node.row → is kind = true) : node.childrenOf is = node.children :=
  List.filter_eq_self.mpr fun child hchild => h child.kind (mem_row.mpr ⟨child, hchild, rfl⟩)

end Node

namespace Program

variable {text : String} (h : (Program.ofSource text).isOk = true) {source : Source} {node : Node}
  (hnode : node ∈ (Node.ofTree source (Program.ofSource text).tree).descendants)

include h hnode

/-- What is right below a list are its items. -/
theorem childrenOf_items : node.childrenOf node.kind.itemsOf = node.children := by
  refine Node.childrenOf_eq_children fun kind hkind => ?_
  have hitem := itemOrConstant_of_mem h hnode _ hkind
  cases hown : node.kind <;> rw [hown] at hitem <;> exact hitem

theorem parenthesized (hkind : node.kind = .argList) : node.Parenthesized := by
  have hgood := good_of_mem h hnode
  rw [Node.tree, hkind] at hgood
  obtain ⟨⟨inner, hinner⟩, -⟩ := Grammar.argList_children hgood.sound
  rw [← Node.row_eq] at hinner
  -- The parenthesis that closes is looked for from the front, so there must be no other one before it.
  have hview : node.row.filterMap (Grammar.seeToken .rParen) = [()] :=
    List.mem_singleton.mp (view_of_mem h hnode (by rw [hkind]; exact Grammar.argList_shows))
  have hopen : Grammar.seeToken .rParen (.token .lParen) = none := rfl
  have hclose : Grammar.seeToken .rParen (.token .rParen) = some () := rfl
  rw [hinner, List.filterMap_cons_none hopen, List.filterMap_append, List.filterMap_cons_some hclose,
    List.filterMap_nil, List.append_eq_singleton_iff] at hview
  have hnone : inner.filterMap (Grammar.seeToken .rParen) = [] :=
    (hview.resolve_right fun hother => List.cons_ne_nil _ _ hother.2).1
  obtain ⟨first, rest, hparts, hfirst, hrest⟩ := List.map_eq_cons_iff.mp hinner
  obtain ⟨inside, last, rfl, hinside, hlast⟩ := List.map_eq_append_iff.mp hrest
  obtain ⟨lastPart, nothing, rfl, hlastKind, hnothing⟩ := List.map_eq_cons_iff.mp hlast
  obtain rfl := List.map_eq_nil_iff.mp hnothing
  obtain ⟨opening, rfl, hopening⟩ := Part.exists_placed hfirst
  obtain ⟨closing, rfl, hclosing⟩ := Part.exists_placed hlastKind
  refine ⟨opening, closing, inside, hparts, ?_, ?_⟩
  · rw [Node.token?_eq rfl, hparts, List.filterMap_cons_some (Node.placed?_part opening)]
    exact List.find?_cons_of_pos (beq_iff_eq.mpr hopening)
  · have hother : ∀ placed ∈ inside.filterMap Part.placed?, ¬(placed.token.kind == .rParen) = true := by
      intro placed hplaced hkind
      obtain ⟨part, hpart, hsame⟩ := List.mem_filterMap.mp hplaced
      have hkinds := List.filterMap_eq_nil_iff.mp hnone part.kind (hinside ▸ List.mem_map_of_mem hpart)
      cases part with
      | node span kind parts => cases hsame
      | leaf span token =>
        cases hsame
        rw [Part.kind, Grammar.seeToken, if_pos hkind] at hkinds
        cases hkinds
    rw [Node.token?_eq rfl, hparts, List.filterMap_cons_some (Node.placed?_part opening), List.filterMap_append,
      List.find?_cons_of_neg (by rw [hopening]; decide), List.find?_append,
      List.find?_eq_none.mpr hother, Option.none_or, List.filterMap_cons_some (Node.placed?_part closing)]
    exact List.find?_cons_of_pos (p := fun placed : Placed => placed.token.kind == .rParen) (beq_iff_eq.mpr hclosing)

/-- A node that has one node of a class right below is asked for it with one answer. -/
theorem child?_eq_only {is : NodeKind → Bool} {kinds : List NodeKind}
    (hall : kinds.all (Grammar.hasOne is) = true) (hkind : node.kind ∈ kinds) :
    ∃ child, node.child? is = some child ∧ node.childrenOf is = [child] := by
  obtain ⟨child, hchild⟩ := exists_only h hnode (List.all_eq_true.mp hall _ hkind)
  exact ⟨child, Node.child?_of_only hchild, hchild⟩

/-- The items of the only list of a kind. -/
theorem childrenOf_items_of_only {list : Node} {kind : NodeKind}
    (honly : node.childrenOf (· == kind) = [list]) : list.childrenOf kind.itemsOf = list.children := by
  have hlist : list ∈ node.childrenOf (· == kind) := honly ▸ List.mem_singleton_self _
  have hkind : (list.kind == kind) = true := (List.mem_filter.mp hlist).2
  have hmem := (Node.closed_descendants (Node.parent_ofTree source (Program.ofSource text).tree)).childrenOf
    hnode list hlist
  rw [← beq_iff_eq.mp hkind]
  exact childrenOf_items h hmem

/-- What is called comes first and the arguments come last. -/
theorem call_parts (hkind : node.kind = .callExpr) : ∃ callee list,
    node.expression? = some callee ∧ node.children.head? = some callee ∧
      node.argList? = some list ∧ node.children.getLast? = some list ∧
      list.kind = .argList ∧ list.Parenthesized ∧ node.args = list.children := by
  have hgood := good_of_mem h hnode
  rw [Node.tree, hkind] at hgood
  obtain ⟨first, hfirst, hrow⟩ := Grammar.callExpr_children hgood.sound
  rw [← Node.row_eq] at hrow
  -- With or without type arguments, what is called is the first node and the list of arguments the last one.
  obtain ⟨callee, between, list, hchildren, hcallee, hlist, hbetween⟩ :
      ∃ callee between list, node.children = callee :: (between ++ [list]) ∧ callee.kind = first ∧
        list.kind = .argList ∧ ∀ child ∈ between, child.kind = .typeArgList := by
    have hkinds := node.children_kinds
    rcases hrow with hrow | hrow <;> rw [hrow] at hkinds
    · obtain ⟨callee, rest, hchildren, hcallee, hrest⟩ := List.map_eq_cons_iff.mp hkinds
      obtain ⟨list, rfl, hlist⟩ := List.map_eq_singleton_iff.mp hrest
      exact ⟨callee, [], list, hchildren, hcallee, hlist, fun _ hchild => absurd hchild List.not_mem_nil⟩
    · obtain ⟨callee, rest, hchildren, hcallee, hrest⟩ := List.map_eq_cons_iff.mp hkinds
      obtain ⟨types, rest, rfl, htypes, hrest⟩ := List.map_eq_cons_iff.mp hrest
      obtain ⟨list, rfl, hlist⟩ := List.map_eq_singleton_iff.mp hrest
      exact ⟨callee, [types], list, hchildren, hcallee, hlist, fun _ hchild =>
        List.mem_singleton.mp hchild ▸ htypes⟩
  have hclosed := Node.closed_descendants (Node.parent_ofTree source (Program.ofSource text).tree)
  have hmem := hclosed.child hnode (hchildren ▸ List.mem_cons_of_mem _ List.mem_concat_self)
  have hargs : node.argList? = some list := by
    have hne : ¬(callee.kind == .argList) = true := by
      rw [hcallee]
      revert hfirst
      cases first <;> decide
    have hnone : ∀ child ∈ between, ¬(child.kind == .argList) = true := fun child hchild => by
      rw [hbetween child hchild]
      decide
    rw [Node.argList?, Node.child?, hchildren,
      List.find?_cons_of_neg (p := fun child : Node => child.kind == .argList) hne, List.find?_append,
      List.find?_eq_none.mpr hnone, Option.none_or]
    exact List.find?_cons_of_pos (beq_iff_eq.mpr hlist)
  refine ⟨callee, list, ?_, by rw [hchildren, List.head?_cons], hargs, ?_, hlist,
    parenthesized h hmem hlist, ?_⟩
  · rw [Node.expression?, Node.child?, hchildren]
    exact List.find?_cons_of_pos (hcallee ▸ hfirst)
  · rw [hchildren, ← List.cons_append, List.getLast?_concat]
  · rw [Node.args, hargs]
    have := childrenOf_items h hmem
    rwa [hlist] at this

/-- What a variable declares has a name or a pattern. -/
theorem declarator_parts (hkind : node.kind = .varDeclarator) :
    (∃ name, node.name? = some name ∧ node.pattern? = none) ∨
      ∃ pattern, node.name? = none ∧ node.pattern? = some pattern := by
  have hview : node.row.filterMap Grammar.seeBound ∈ [[.name], [.objectBindingPattern]] :=
    view_of_mem h hnode (by rw [hkind]; exact Grammar.varDeclarator_shows)
  -- A node is found exactly if its kind is seen in the row.
  have hfound : ∀ kind, Grammar.seeBound (.node kind) = some kind →
      ((node.child? (· == kind)).isSome ↔ kind ∈ node.row.filterMap Grammar.seeBound) := by
    intro kind hsee
    rw [Node.child?, List.find?_isSome, List.mem_filterMap]
    constructor
    · rintro ⟨child, hchild, hsame⟩
      exact ⟨.node kind, Node.mem_row.mpr ⟨child, hchild, beq_iff_eq.mp hsame⟩, hsee⟩
    · rintro ⟨own, hown, hsame⟩
      obtain ⟨child, hchild, hsame⟩ := Node.mem_row.mp (Grammar.eq_of_seeBound hsame ▸ hown)
      exact ⟨child, hchild, beq_iff_eq.mpr hsame⟩
  have hname := hfound .name rfl
  have hpattern := hfound .objectBindingPattern rfl
  rcases List.mem_pair.mp hview with hview | hview <;> rw [hview] at hname hpattern
  · refine .inl ⟨_, (Option.some_get (hname.mpr (List.mem_singleton_self _))).symm, ?_⟩
    exact Option.not_isSome_iff_eq_none.mp fun hsome => absurd (hpattern.mp hsome) (by decide)
  · refine .inr ⟨_, ?_, (Option.some_get (hpattern.mpr (List.mem_singleton_self _))).symm⟩
    exact Option.not_isSome_iff_eq_none.mp fun hsome => absurd (hname.mp hsome) (by decide)

/-- The body of an arrow function comes last. -/
theorem arrow_parts (hkind : node.kind = .arrowFunction) :
    ∃ body, node.arrowBody? = some body ∧ node.children.getLast? = some body := by
  obtain ⟨form, hform, hcloses, hrow⟩ := exists_directForm h hnode
  rw [hkind] at hcloses hrow
  have hends := List.all_eq_true.mp Grammar.forms_arrow form hform
  rw [hcloses] at hends
  obtain ⟨last, hlast, hok⟩ := NodeForm.exists_last hends hrow
  obtain ⟨before, hbefore⟩ := List.getLast?_eq_some_iff.mp hlast
  cases last with
  | token kind => cases hok
  | tombstone => cases hok
  | node kind =>
    have hkinds := node.children_kinds
    have hsee : Kind.node? (.node kind) = some kind := rfl
    rw [hbefore, List.filterMap_append, List.filterMap_cons_some hsee, List.filterMap_nil] at hkinds
    obtain ⟨front, rest, hchildren, -, hrest⟩ := List.map_eq_append_iff.mp hkinds
    obtain ⟨body, rfl, rfl⟩ := List.map_eq_singleton_iff.mp hrest
    have hbody : node.children.getLast? = some body := by rw [hchildren, List.getLast?_concat]
    refine ⟨body, ?_, hbody⟩
    rw [Node.arrowBody?, hbody, Option.filter_some, if_pos]
    exact hok

/-- The parameters of a function are in the only list of them. -/
theorem params_parts (hkind : node.kind ∈ NodeKind.holdsParams) : ∃ list,
    node.paramList? = some list ∧ node.childrenOf (· == .paramList) = [list] ∧ node.params = list.children := by
  obtain ⟨list, hlist, honly⟩ := child?_eq_only h hnode Grammar.holdsParams_hasOne hkind
  refine ⟨list, hlist, honly, ?_⟩
  have hitems := childrenOf_items_of_only h hnode honly
  rw [Node.params, Node.paramList?, hlist]
  exact hitems

/-- The members of a class are in its only body. -/
theorem class_parts (hkind : node.kind = .classDecl) : ∃ body,
    node.childrenOf (· == .classBody) = [body] ∧ node.classMembers = body.children := by
  obtain ⟨body, honly⟩ := exists_only h hnode (by rw [hkind]; exact Grammar.classDecl_hasOne)
  refine ⟨body, honly, ?_⟩
  have hitems := childrenOf_items_of_only h hnode honly
  rw [Node.classMembers, Node.child?_of_only honly]
  exact hitems

/-- The statements of a program are in its only list of them. -/
theorem file_parts (hkind : node.kind = .sourceFile) : ∃ list,
    node.childrenOf (· == .stmtList) = [list] ∧ node.programStatements = list.children := by
  obtain ⟨list, honly⟩ := exists_only h hnode (by rw [hkind]; exact Grammar.sourceFile_hasOne)
  refine ⟨list, honly, ?_⟩
  have hitems := childrenOf_items_of_only h hnode honly
  rw [Node.programStatements, honly, List.flatMap_singleton]
  exact hitems

end Program

/-! ## All parts of all nodes -/

/-- In a program without misfits each node has the parts that it must have, and they are the ones that are
found for it. -/
theorem nodes_have_their_parts {text : String} (h : (Program.ofSource text).isOk = true) :
    ∀ node ∈ (Program.ofSource text).root.descendants, node.HasParts := by
  intro node hnode
  have hitems := Program.childrenOf_items h hnode
  exact {
    call := Program.call_parts h hnode
    parenthesized := Program.parenthesized h hnode
    binary := Program.binary_parts h hnode
    conditional := Program.conditional_parts h hnode
    index := Program.index_parts h hnode
    access := Program.access_parts h hnode
    unary := Program.prefix_parts h hnode
    cast := Program.as_parts h hnode
    arrow := Program.arrow_parts h hnode
    literal := Program.literal_parts h hnode
    expression := Program.child?_eq_only h hnode Grammar.holdsExpression_hasOne
    type := Program.child?_eq_only h hnode Grammar.holdsType_hasOne
    name := Program.child?_eq_only h hnode Grammar.holdsName_hasOne
    nameRef := Program.child?_eq_only h hnode Grammar.holdsNameRef_hasOne
    params := Program.params_parts h hnode
    nameToken := Program.name_parts h hnode
    declarator := Program.declarator_parts h hnode
    elements := by rintro (hkind | hkind) <;> rw [hkind] at hitems <;> exact hitems
    objectMembers := fun hkind => by rw [hkind] at hitems; exact hitems
    listedParams := fun hkind => by rw [hkind] at hitems; exact hitems
    listedTypeParams := fun hkind => by rw [hkind] at hitems; exact hitems
    listedTypes := by rintro (hkind | hkind | hkind) <;> rw [hkind] at hitems <;> exact hitems
    classMembers := Program.class_parts h hnode
    typeMembers := fun hkind => by rw [hkind] at hitems; exact hitems
    bindingElements := fun hkind => by rw [hkind] at hitems; exact hitems
    statements := by rintro (hkind | hkind) <;> rw [hkind] at hitems <;> exact hitems
    programStatements := Program.file_parts h hnode }

/-- The nodes of a program with one route have. -/
theorem oneRoute_nodes_have_their_parts : (Program.ofSource Route.oneRoute).isOk = true ∧
    ∀ node ∈ (Program.ofSource Route.oneRoute).root.descendants, node.HasParts := by
  have hread : (Program.ofSource Route.oneRoute).isOk = true := by decide +kernel
  exact ⟨hread, nodes_have_their_parts hread⟩

end RouteTypes
