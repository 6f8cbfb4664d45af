-- What stands right below the nodes of a program. The grammar tells it: every row of children that it gives
-- to nodes of a kind has some part in it, or nothing but some parts. So the program is no longer asked what
-- a parameter without a name or a call without arguments would mean: there is none.
import RouteTypes.Proofs.Grammar.Ending
import RouteTypes.Proofs.Tree.Places

namespace RouteTypes

open RouteTypes.Tree

/-! ## Parts that every row has -/

/-- Whether something that the steps read has the property, whatever they read. -/
def Steps.someIn (ok : Kind → Bool) : Steps → Bool
  | .done | .loop _ _ => false
  | .refuse _ => true
  | .take kinds => kinds.all fun kind => ok (.token kind)
  | .seq first rest => first.someIn ok || rest.someIn ok
  | .branch question yes no => question.ways (· && ·) (yes.someIn ok) (no.someIn ok)
  | .part phrase => NodeKind.all.all fun kind => !phrase.makes kind || ok (.node kind)
  | .enclosed _ inside => inside.someIn ok || ok (.token .rBrace)

/-- Whether each node of that kind has a child with the property. -/
def Body.someIn (ok : Kind → Bool) (kind : NodeKind) : Body → Bool
  | .close own => own != kind
  | .seq first rest => first.someIn ok || rest.someIn ok kind
  | .branch question yes no => question.ways (· && ·) (yes.someIn ok kind) (no.someIn ok kind)

/-- Whether each node of that form and that kind has a child with the property behind the one that the form
is put around. -/
def NodeForm.someIn (ok : Kind → Bool) (kind : NodeKind) (form : NodeForm) : Bool :=
  form.body.someIn ok kind

section

variable {ok : Kind → Bool}

theorem Question.exists_of_ways {row : List Kind} {question : Question} {yes no : Language Kind}
    {yes' no' : Bool} {P : Prop} (hsome : question.ways (· && ·) yes' no' = true)
    (h : row ∈ question.ways (· + ·) yes no) (hyes : yes' = true → row ∈ yes → P)
    (hno : no' = true → row ∈ no → P) : P := by
  unfold Question.ways at hsome h
  split at h <;> rename_i hsettled <;> rw [hsettled] at hsome
  · exact hyes hsome h
  · exact hno hsome h
  · obtain ⟨hyes', hno'⟩ := (Bool.and_eq_true _ _).mp hsome
    exact ((Language.mem_add _ _ _).mp h).elim (hyes hyes') (hno hno')

theorem exists_append_ok {one other : List Kind}
    (h : (∃ kind ∈ one, ok kind = true) ∨ ∃ kind ∈ other, ok kind = true) :
    ∃ kind ∈ one ++ other, ok kind = true := by
  rcases h with ⟨kind, hkind, hok⟩ | ⟨kind, hkind, hok⟩
  · exact ⟨kind, List.mem_append_left _ hkind, hok⟩
  · exact ⟨kind, List.mem_append_right _ hkind, hok⟩

theorem Steps.exists_of_row : ∀ (steps : Steps) (row : List Kind), steps.someIn ok = true →
    row ∈ steps.language → ∃ kind ∈ row, ok kind = true
  | .done, _, hsome, _ | .loop _ _, _, hsome, _ => by cases hsome
  | .refuse _, _, _, h => absurd h (Language.notMem_zero _)
  | .take kinds, row, hsome, ⟨kind, hkind, hrow⟩ =>
    ⟨.token kind, hrow ▸ List.mem_singleton_self _, List.all_eq_true.mp hsome kind hkind⟩
  | .seq first rest, row, hsome, h => by
    obtain ⟨one, hone, other, hother, rfl⟩ := Language.mem_mul.mp h
    exact exists_append_ok (((Bool.or_eq_true _ _).mp hsome).imp
      (fun hfirst => first.exists_of_row one hfirst hone)
      (fun hrest => rest.exists_of_row other hrest hother))
  | .branch _ yes no, row, hsome, h =>
    Question.exists_of_ways hsome h (yes.exists_of_row row) (no.exists_of_row row)
  | .part phrase, row, hsome, ⟨kind, hkind, hrow⟩ => by
    have hok := List.all_eq_true.mp hsome kind (NodeKind.mem_all kind)
    rw [hkind] at hok
    exact ⟨.node kind, hrow ▸ List.mem_singleton_self _, hok⟩
  | .enclosed _ inside, row, hsome, h => by
    obtain ⟨one, hone, other, hother, rfl⟩ := Language.mem_mul.mp h
    rw [Set.mem_singleton_iff.mp hother]
    exact exists_append_ok (((Bool.or_eq_true _ _).mp hsome).imp
      (fun hinside => inside.exists_of_row one hinside hone)
      (fun hbrace => ⟨_, List.mem_singleton_self _, hbrace⟩))

theorem Body.exists_of_row {own : NodeKind} : ∀ (body : Body) (row : List Kind),
    body.someIn ok own = true → row ∈ body.language own → ∃ kind ∈ row, ok kind = true
  | .close kind, row, hsome, h => by
    rw [beq_iff_eq.mp ((Body.close kind).closes_of_row h)] at hsome
    simp [Body.someIn] at hsome
  | .seq first rest, row, hsome, h => by
    obtain ⟨one, hone, other, hother, rfl⟩ := Language.mem_mul.mp h
    exact exists_append_ok (((Bool.or_eq_true _ _).mp hsome).imp
      (fun hfirst => first.exists_of_row one hfirst hone)
      (fun hrest => rest.exists_of_row other hrest hother))
  | .branch _ yes no, row, hsome, h =>
    Question.exists_of_ways hsome h (yes.exists_of_row row) (no.exists_of_row row)

theorem NodeForm.exists_of_row {own : NodeKind} {form : NodeForm} {row : List Kind}
    (hsome : form.someIn ok own = true) (h : row ∈ form.language own) : ∃ kind ∈ row, ok kind = true := by
  obtain ⟨inner, body⟩ := form
  cases inner with
  | none => exact body.exists_of_row row hsome h
  | some inner =>
    obtain ⟨first, -, rest, hrest, rfl⟩ := h
    obtain ⟨kind, hkind, hok⟩ := body.exists_of_row rest hsome hrest
    exact ⟨kind, List.mem_cons_of_mem _ hkind, hok⟩

end

/-! ## What the grammar gives -/

namespace Grammar

/-- What every node of a kind has right below. -/
def owned : NodeKind → Kind → Bool
  | .param, .node kind => kind == .name
  | _, _ => false

/-- What nodes of a kind may have right below. -/
def admitted : NodeKind → Kind → Bool
  | .paramList, .node kind => kind == .param
  | .bindingElement, .node kind => kind == .name
  | _, _ => true

theorem forms_owned : forms.all (fun form => !form.body.closes .param ||
    form.someIn (owned .param) .param) = true := by
  decide +kernel

theorem forms_admitted : forms.all (fun form => NodeKind.all.all fun kind =>
    !form.body.closes kind || form.allIn (admitted kind)) = true := by
  decide +kernel

set_option maxRecDepth 4000 in
/-- A default export is of one form. -/
theorem forms_exportDefault : forms.filter (fun form => form.body.closes .exportDefault) =
    [⟨none, .ofSteps .exportDefault
      [.expect .exportKw, .expect .defaultKw, .call .expression, .skip .semicolon]⟩] := by
  rfl

end Grammar

/-! ## The rows of nodes -/

namespace Node

/-- The kinds of the parts right below that are neither blanks nor comments. -/
def row (node : Node) : List Kind := node.significant.map Part.kind

theorem row_eq (node : Node) : node.row = significantKinds (Part.eraseAll node.parts) := by
  unfold row significant
  induction node.parts with
  | nil => rfl
  | cons part rest ih =>
    have htrivia : part.erase.isTrivia = part.isTrivia := by cases part <;> rfl
    have hkind : part.erase.kind = part.kind := by cases part <;> rfl
    rw [significantKinds] at ih ⊢
    rw [Part.eraseAll, List.filter_cons, List.filter_cons, htrivia]
    split
    · rw [List.map_cons, List.map_cons, ih, hkind]
    · exact ih

/-- The nodes right below are among the parts that are neither blanks nor comments. -/
theorem children_significant (node : Node) : node.significant.filterMap node.inner? = node.children := by
  rw [significant, children, List.filterMap_filter]
  refine List.filterMap_congr fun part _ => ?_
  cases part with
  | leaf span token => exact ite_self _
  | node span kind parts => rfl

theorem mem_row {node : Node} {kind : NodeKind} :
    .node kind ∈ node.row ↔ ∃ child ∈ node.children, child.kind = kind := by
  rw [row, List.mem_map, ← children_significant]
  simp only [List.mem_filterMap]
  constructor
  · rintro ⟨part, hpart, hkind⟩
    cases part with
    | leaf span token => cases hkind
    | node span own parts =>
      cases hkind
      exact ⟨_, ⟨_, hpart, rfl⟩, rfl⟩
  · rintro ⟨child, ⟨part, hpart, hchild⟩, rfl⟩
    cases part with
    | leaf span token => cases hchild
    | node span own parts =>
      cases hchild
      exact ⟨_, hpart, rfl⟩

end Node

/-! ## Nodes of programs -/

namespace Program

variable {text : String} (h : (Program.ofSource text).isOk = true) {source : Source} {node : Node}
  (hnode : node ∈ (Node.ofTree source (Program.ofSource text).tree).descendants)

include h hnode

theorem good_of_mem : Node.Good node.tree := by
  obtain ⟨blanks, statements, more, htree⟩ := exists_statements text
  have hgood := good h
  rw [htree] at hgood hnode
  exact (Node.lies_of_mem Node.Good.child _ hgood hnode).good

/-- Each node holds a row of children that the grammar gives to nodes of its kind. -/
theorem exists_form : ∃ form ∈ Grammar.forms, form.body.closes node.kind = true ∧
    node.row ∈ form.language node.kind := by
  rw [Node.row_eq]
  exact (good_of_mem h hnode).sound.exists_form

/-- What stands right below a node is of a kind that is admitted there. -/
theorem admitted_of_mem_children {child : Node} (hchild : child ∈ node.children) :
    Grammar.admitted node.kind (.node child.kind) = true := by
  obtain ⟨form, hform, hcloses, hrow⟩ := exists_form h hnode
  have hall := List.all_eq_true.mp (List.all_eq_true.mp Grammar.forms_admitted form hform) node.kind
    (NodeKind.mem_all _)
  rw [hcloses] at hall
  exact NodeForm.all_of_row hall hrow _ (Node.mem_row.mpr ⟨child, hchild, rfl⟩)

/-- A parameter has a name. -/
theorem exists_name (hkind : node.kind = .param) : ∃ name, node.name? = some name := by
  obtain ⟨form, hform, hcloses, hrow⟩ := exists_form h hnode
  have hone := List.all_eq_true.mp Grammar.forms_owned form hform
  rw [hkind] at hcloses hrow
  rw [hcloses] at hone
  obtain ⟨kind, hmem, hname⟩ := NodeForm.exists_of_row hone hrow
  cases kind with
  | token kind => cases hname
  | tombstone => cases hname
  | node kind =>
    obtain ⟨child, hchild, hkind⟩ := Node.mem_row.mp hmem
    rw [Grammar.owned] at hname
    have hfound : (node.children.find? fun child => child.kind == .name).isSome := by
      rw [List.find?_isSome]
      exact ⟨child, hchild, hkind ▸ hname⟩
    exact Option.isSome_iff_exists.mp hfound

/-- There are parameters and nothing else in a list of them. -/
theorem paramsOf_eq (hkind : node.kind = .paramList) : node.paramsOf = node.children := by
  refine List.filter_eq_self.mpr fun child hchild => ?_
  have hadmitted := admitted_of_mem_children h hnode hchild
  rw [hkind] at hadmitted
  exact hadmitted

/-- There is no expression in an element of a binding pattern. -/
theorem expression?_bindingElement (hkind : node.kind = .bindingElement) : node.expression? = none := by
  refine List.find?_eq_none.mpr fun child hchild => ?_
  have hadmitted := admitted_of_mem_children h hnode hchild
  rw [hkind, Grammar.admitted, beq_iff_eq] at hadmitted
  rw [hadmitted]
  decide

/-- A default export is the two words and an expression, and perhaps a semicolon. -/
theorem exportDefault_parts (hkind : node.kind = .exportDefault) :
    ∃ first second third rest, node.significant = first :: second :: third :: rest ∧
      first.kind = .token .exportKw ∧ second.kind = .token .defaultKw ∧
      ∃ exported, node.inner? third = some exported ∧ node.expression? = some exported := by
  obtain ⟨form, hform, hcloses, hrow⟩ := exists_form h hnode
  rw [hkind] at hcloses hrow
  have hmem : form ∈ Grammar.forms.filter (fun form => form.body.closes .exportDefault) :=
    List.mem_filter.mpr ⟨hform, hcloses⟩
  rw [Grammar.forms_exportDefault, List.mem_singleton] at hmem
  subst hmem
  obtain ⟨one, hone, fromTwo, hfromTwo, hkinds⟩ := Language.mem_mul.mp (Body.ofSteps_row hrow)
  obtain ⟨two, htwo, fromThree, hfromThree, heq⟩ := Language.mem_mul.mp hfromTwo
  obtain ⟨three, ⟨kind, hexpression, hthree⟩, rest, -, heq'⟩ := Language.mem_mul.mp hfromThree
  rw [← heq, ← heq', Steps.expect_row hone, Steps.expect_row htwo, hthree] at hkinds
  obtain ⟨first, parts, hparts, hfirst, hmore⟩ := List.map_eq_cons_iff.mp hkinds.symm
  obtain ⟨second, parts, rfl, hsecond, hmore⟩ := List.map_eq_cons_iff.mp hmore
  obtain ⟨third, parts, rfl, hthird, -⟩ := List.map_eq_cons_iff.mp hmore
  refine ⟨first, second, third, parts, hparts, hfirst, hsecond, ?_⟩
  have hchildren := node.children_significant
  rw [hparts] at hchildren
  cases first with
  | node => cases hfirst
  | leaf =>
    cases second with
    | node => cases hsecond
    | leaf =>
      cases third with
      | leaf => cases hthird
      | node span own inner =>
        cases hthird
        refine ⟨_, rfl, ?_⟩
        rw [Node.expression?, Node.child?, ← hchildren]
        exact List.find?_cons_of_pos hexpression

/-- A call has arguments, which stand between parentheses. -/
theorem exists_argList (hkind : node.kind = .callExpr) : ∃ list inner, node.argList? = some list ∧
    list.row = .token .lParen :: (inner ++ [.token .rParen]) := by
  have hgood := good_of_mem h hnode
  rw [Node.tree, hkind] at hgood
  obtain ⟨before, list, hparts, -⟩ := Grammar.callExpr_closed hgood.sound
  have hrow : Kind.node .argList ∈ node.row := by
    rw [Node.row_eq, hparts, significantKinds_append]
    exact List.mem_append_right _ (List.mem_singleton_self _)
  obtain ⟨child, hchild, hchildKind⟩ := Node.mem_row.mp hrow
  have hsome : (node.children.find? fun child => child.kind == .argList).isSome := by
    rw [List.find?_isSome]
    exact ⟨child, hchild, beq_iff_eq.mpr hchildKind⟩
  obtain ⟨found, hfound⟩ := Option.isSome_iff_exists.mp hsome
  have hmem := (Node.closed_descendants (Node.parent_ofTree _ _)).child hnode (List.mem_of_find?_eq_some hfound)
  have hlist := good_of_mem h hmem
  have hlistKind : found.kind = .argList := by simpa using List.find?_some hfound
  rw [Node.tree, hlistKind] at hlist
  obtain ⟨⟨inner, hinner⟩, -⟩ := Grammar.argList_children hlist.sound
  exact ⟨found, inner, hfound, by rw [Node.row_eq, hinner]⟩

end Program

end RouteTypes
