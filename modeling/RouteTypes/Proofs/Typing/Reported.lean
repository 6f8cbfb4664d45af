-- Where problems are reported. A problem of one sort is always reported at the same place of the node it is about, and
-- in a program without misfits no other node has a problem of that sort there.
import RouteTypes.Proofs.Tree.Layout
import RouteTypes.Proofs.Tree.Order
import RouteTypes.Proofs.Typing.Rules

namespace RouteTypes

open RouteTypes.Tree

/-! ## What takes up room -/

namespace Program

variable {text : String} (h : (Program.ofSource text).isOk = true) {source : Source} {node : Node}
  (hnode : node ∈ (Node.ofTree source (Program.ofSource text).tree).descendants)

include h hnode

/-- A part that is not light has bytes. -/
theorem part_start_lt {part : Part} (hpart : part ∈ node.parts) (hlight : ¬ part.kind.isLight = true) :
    part.span.start < part.span.stop := by
  have hplaced : node.IsPlaced := Node.part_of_mem_descendants hnode
  have hgood := good_of_mem h hnode
  rw [hplaced.parts] at hpart
  obtain ⟨place, tree, htree, rfl⟩ := Tree.exists_place hpart
  have hchild := Node.Good.child _ _ hgood tree htree
  have hkind : ¬ tree.kind.isLight = true := by cases tree <;> exact hlight
  have hpos := hchild.sound.size_pos hchild.weighs hkind
  rw [Tree.start_place, Node.stop_place]
  omega

/-- A plain node has bytes. -/
theorem start_lt (hplain : node.kind.isPlain = true) : node.span.start < node.span.stop := by
  have hplaced : node.IsPlaced := Node.part_of_mem_descendants hnode
  have hpos : 0 < node.tree.size := (good_of_mem h hnode).size_pos hplain
  have hstop := hplaced.stop
  omega

omit h in
/-- A part beside another one that has bytes is not all that the node has. -/
theorem span_ne_of_beside {part other : Part} (hpart : part ∈ node.parts) (hother : other ∈ node.parts)
    (hne : part ≠ other) (hpos : other.span.start < other.span.stop) : node.span ≠ part.span := by
  have hplaced : node.IsPlaced := Node.part_of_mem_descendants hnode
  have hbetween := hplaced.between hother
  have hstart := hbetween.start_le
  have hstop := hbetween.stop_le
  intro hsame
  rw [hsame] at hstart hstop
  rcases hplaced.beside hpart hother hne with hbeside | hbeside
  · have hbeside : part.span.stop ≤ other.span.start := hbeside
    omega
  · have hbeside : other.span.stop ≤ part.span.start := hbeside
    omega

end Program

/-! ## The places of problems -/

namespace Node

theorem is_of_child? {node child : Node} {is : NodeKind → Bool} (h : node.child? is = some child) :
    is child.kind = true :=
  List.find?_some (p := fun child : Node => is child.kind) h

theorem part_of_child? {node child : Node} {is : NodeKind → Bool} (h : node.child? is = some child) :
    child.part ∈ node.parts := by
  obtain ⟨span, kind, parts, hpart, rfl⟩ := mem_children.mp (List.mem_of_find?_eq_some h)
  exact hpart

/-- Where it is reported that a name is not declared. -/
def nameSpan? (node : Node) : Option Text.Span := if node.kind = .nameRef then some node.span else none

/-- Where it is reported that a type is not declared, or that there are not as many arguments as it takes. -/
def typeSpan? (node : Node) : Option Text.Span := if node.kind = .typeRef then some (Check.refSpan node) else none

/-- Where it is reported that a member is missing: at its name, if that is written by itself. -/
def memberSpan? (node : Node) : Option Text.Span :=
  if node.kind = .propertyAccess then node.memberToken?.map (·.span)
  else if node.kind = .bindingElement then some (Check.boundSpan node)
  else none

/-- Where it is reported about a node of that kind that there is no signature for it. -/
def calleeSpan? (kind : NodeKind) (node : Node) : Option Text.Span :=
  if node.kind = kind then some (node.expression?.getD node).span else none

/-- Where a problem with that code is reported about the node, if there may be one. -/
def reportSpan? (node : Node) : String → Option Text.Span
  | "T0001" => node.nameSpan?
  | "T0002" | "T0006" => node.typeSpan?
  | "T0003" => node.memberSpan?
  | "T0004" => node.calleeSpan? .callExpr
  | "T0005" => node.calleeSpan? .newExpr
  | _ => none

end Node

namespace Grammar

-- A name has no node below it; what ends a text is in no binding element; and what is made stands behind a word.
theorem marks_show : shows Kind.node? .name [[]] = true ∧ shows (seeToken .eof) .bindingElement [[]] = true ∧
    shows (seeToken .newKw) .newExpr [[()]] = true := by
  decide +kernel

end Grammar

namespace Program

variable {text : String} (h : (Program.ofSource text).isOk = true) {source : Source} {a b : Node}
  (ha : a ∈ (Node.ofTree source (Program.ofSource text).tree).descendants)
  (hb : b ∈ (Node.ofTree source (Program.ofSource text).tree).descendants)

include h ha hb in
theorem eq_of_place (hkind : a.kind = b.kind) (hspan : a.span = b.span) : a = b := by
  by_contra hne
  exact (apart h source).forall ha hb hne hkind hspan

/-! ### Names of types -/

include h ha hb in
/-- References to types with their names at the same place are one. -/
theorem eq_of_refSpan (hkind : a.kind = .typeRef) (hkind' : b.kind = .typeRef)
    (hsame : Check.refSpan a = Check.refSpan b) : a = b := by
  obtain ⟨ref, href, -⟩ := child?_eq_only h ha Grammar.holdsNameRef_hasOne (by rw [hkind]; decide)
  obtain ⟨ref', href', -⟩ := child?_eq_only h hb Grammar.holdsNameRef_hasOne (by rw [hkind']; decide)
  have hclosed := Node.closed_descendants (Node.parent_ofTree source (Program.ofSource text).tree)
  have hrefKind : ref.kind = .nameRef := beq_iff_eq.mp (Node.is_of_child? href)
  have hrefKind' : ref'.kind = .nameRef := beq_iff_eq.mp (Node.is_of_child? href')
  rw [Check.refSpan, Check.refSpan, Node.nameRef?, Node.nameRef?, href, href'] at hsame
  have heq : ref = ref' := eq_of_place h (hclosed.child? ha ref href) (hclosed.child? hb ref' href')
    (hrefKind.trans hrefKind'.symm) hsame
  have hparent := Node.parent_of_mem_children (List.mem_of_find?_eq_some href)
  rw [heq, Node.parent_of_mem_children (List.mem_of_find?_eq_some href')] at hparent
  exact (Option.some_inj.mp hparent).symm

/-! ### What is called and made -/

include h ha hb in
/-- Nodes with their expressions at the same place are one, if these are not all that they have. -/
theorem eq_of_expression {callee callee' : Node} (hcallee : a.expression? = some callee)
    (hcallee' : b.expression? = some callee') (hproper : a.span ≠ callee.span) (hproper' : b.span ≠ callee'.span)
    (hsame : callee.span = callee'.span) : a = b := by
  have hplain : callee.kind.isPlain = true := by
    have hexpression := Node.is_of_child? hcallee
    revert hexpression
    cases callee.kind <;> decide
  have hclosed := Node.closed_descendants (Node.parent_ofTree source (Program.ofSource text).tree)
  have hpos := start_lt h (hclosed.child? ha callee hcallee) hplain
  refine Node.eq_of_parts ha hb (Node.part_of_child? hcallee) (Node.part_of_child? hcallee') hsame hpos (.inr ?_)
    (.inr ?_)
  · exact fun heq => hproper' (heq.trans hsame)
  · exact fun heq => hproper (heq.trans hsame.symm)

include h ha in
/-- What has an expression and something else right below is more than the expression. -/
theorem span_ne_expression {callee : Node} (hcallee : a.expression? = some callee) {part : Part}
    (hpart : part ∈ a.parts) (hkind : part.kind ≠ .node callee.kind) (hlight : ¬ part.kind.isLight = true) :
    a.span ≠ callee.span := by
  have hne : callee.part ≠ part := fun hsame => hkind (hsame ▸ rfl)
  exact span_ne_of_beside ha (Node.part_of_child? hcallee) hpart hne (part_start_lt h ha hpart hlight)

include h ha in
theorem exists_called (hkind : a.kind = .callExpr) : ∃ callee, a.expression? = some callee ∧ a.span ≠ callee.span := by
  obtain ⟨callee, list, hcallee, -, hlist, -, hlistKind, -⟩ := call_parts h ha hkind
  have hexpression := Node.is_of_child? hcallee
  refine ⟨callee, hcallee, span_ne_expression h ha hcallee (Node.part_of_child? hlist) (fun hsame => ?_) ?_⟩
  · rw [← Kind.node.inj hsame, hlistKind] at hexpression
    cases hexpression
  · rw [show list.part.kind = .node list.kind from rfl, hlistKind]
    decide

include h ha in
theorem exists_made (hkind : a.kind = .newExpr) : ∃ callee, a.expression? = some callee ∧ a.span ≠ callee.span := by
  obtain ⟨callee, hcallee, -⟩ := child?_eq_only h ha Grammar.holdsExpression_hasOne (by rw [hkind]; decide)
  have hview := List.mem_singleton.mp (view_of_mem h ha (by rw [hkind]; exact Grammar.marks_show.2.2))
  obtain ⟨kind, hin, hsee⟩ := List.mem_filterMap.mp (hview ▸ List.mem_singleton_self ())
  obtain ⟨part, hpart, rfl⟩ := List.mem_map.mp hin
  refine ⟨callee, hcallee, span_ne_expression h ha hcallee (List.mem_of_mem_filter hpart) (fun hsame => ?_) ?_⟩
  · rw [hsame] at hsee
    cases hsee
  · intro hlight
    cases part with
    | leaf span token =>
      rw [Part.kind, Grammar.seeToken] at hsee
      split at hsee
      · rename_i hnew
        rw [Part.kind, beq_iff_eq.mp hnew] at hlight
        cases hlight
      · cases hsee
    | node span kind parts => cases hsee

/-! ### Members -/

omit h ha in
theorem part_of_mem_tokens {node : Node} {placed : Placed} (hplaced : placed ∈ node.tokens) :
    placed.part ∈ node.parts := by
  rw [Node.tokens_eq] at hplaced
  obtain ⟨part, hpart, hsame⟩ := List.mem_filterMap.mp hplaced
  cases part with
  | leaf span token =>
    cases hsame
    exact hpart
  | node span kind parts => cases hsame

include h ha in
/-- Only the end of a text has no bytes. -/
theorem token_start_lt {placed : Placed} (hplaced : placed ∈ a.tokens) (hkind : placed.token.kind ≠ .eof) :
    placed.span.start < placed.span.stop :=
  part_start_lt h ha (part_of_mem_tokens hplaced) fun hlight => hkind (beq_iff_eq.mp hlight)

include h ha in
theorem memberToken?_start_lt {placed : Placed} (hplaced : a.memberToken? = some placed) :
    placed ∈ a.tokens ∧ placed.span.start < placed.span.stop := by
  obtain ⟨hin, hword⟩ := List.mem_filter.mp (List.mem_of_getLast? hplaced)
  refine ⟨hin, token_start_lt h ha hin fun heof => ?_⟩
  rw [heof] at hword
  cases hword

include h ha in
theorem bindingKey?_start_lt (hkind : a.kind = .bindingElement) {placed : Placed} (hkey : a.bindingKey? = some placed) :
    placed ∈ a.tokens ∧ placed.span.start < placed.span.stop := by
  have hin : placed ∈ a.tokens := List.mem_of_find?_eq_some hkey
  refine ⟨hin, token_start_lt h ha hin fun heof => ?_⟩
  unfold Node.bindingKey? at hkey
  have hboth := List.find?_some hkey
  obtain ⟨hsolid, -⟩ := Bool.and_eq_true_iff.mp hboth
  have hrow : placed.part.kind ∈ a.row := List.mem_map_of_mem (List.mem_filter.mpr ⟨part_of_mem_tokens hin, hsolid⟩)
  have hview := List.mem_singleton.mp (view_of_mem h ha (by rw [hkind]; exact Grammar.marks_show.2.1))
  have hnone := List.filterMap_eq_nil_iff.mp hview _ hrow
  rw [show placed.part.kind = .token .eof from congrArg Kind.token heof] at hnone
  cases hnone

include h ha in
/-- A missing member is reported at a token right below, or at the whole element of a pattern. -/
theorem memberSpan?_cases {span : Text.Span} (hspan : a.memberSpan? = some span) :
    (∃ placed : Placed, placed.part ∈ a.parts ∧ placed.span = span ∧ span.start < span.stop) ∨
      a.kind = .bindingElement ∧ a.span = span := by
  unfold Node.memberSpan? at hspan
  split at hspan
  · obtain ⟨placed, hplaced, rfl⟩ := Option.map_eq_some_iff.mp hspan
    obtain ⟨hin, hpos⟩ := memberToken?_start_lt h ha hplaced
    exact .inl ⟨placed, part_of_mem_tokens hin, rfl, hpos⟩
  · obtain ⟨hkind, hsame⟩ := Option.ite_none_right_eq_some.mp hspan
    cases hsame
    unfold Check.boundSpan
    cases hkey : a.bindingKey? with
    | none => exact .inr ⟨hkind, rfl⟩
    | some placed =>
      obtain ⟨hin, hpos⟩ := bindingKey?_start_lt h ha hkind hkey
      exact .inl ⟨placed, part_of_mem_tokens hin, rfl, hpos⟩

include h in
/-- There are no nodes but names in an element of a pattern. -/
theorem not_mem_around_of_element (hb : b ∈ (Node.ofTree source (Program.ofSource text).tree).descendants)
    (hkind : a.kind = .bindingElement) (hname : b.kind ≠ .name) : a ∉ b.around := by
  intro hab
  obtain ⟨child, hchild, hin⟩ := Node.exists_child_outwards hb hab
  obtain ⟨ha, -⟩ := Node.Within.of_outwards hb (List.mem_cons_of_mem _ hab)
  have hadmitted := admitted_of_mem_children h ha hchild
  rw [hkind] at hadmitted
  have hchildKind : child.kind = .name := beq_iff_eq.mp hadmitted
  rcases List.mem_cons.mp hin with rfl | hin
  · exact hname hchildKind
  · obtain ⟨inner, hinner, -⟩ := Node.exists_child_outwards hb hin
    obtain ⟨hmem, -⟩ := Node.Within.of_outwards hb (List.mem_cons_of_mem _ hin)
    have hview := List.mem_singleton.mp (view_of_mem h hmem (by rw [hchildKind]; exact Grammar.marks_show.1))
    rw [← Node.children_kinds, List.map_eq_nil_iff] at hview
    rw [hview] at hinner
    cases hinner

include h ha hb in
theorem eq_of_memberSpan? {span : Text.Span} (hspan : a.memberSpan? = some span) (hspan' : b.memberSpan? = some span) :
    a = b := by
  have hname : ∀ {node : Node} {span : Text.Span}, node.memberSpan? = some span → node.kind ≠ .name := by
    intro node span hspan hkind
    rw [Node.memberSpan?, if_neg (by rw [hkind]; decide), if_neg (by rw [hkind]; decide)] at hspan
    cases hspan
  -- A token cannot stand where a whole element of a pattern does that is another node.
  have hmixed : ∀ {a b : Node} {placed : Placed}, a ∈ (Node.ofTree source (Program.ofSource text).tree).descendants →
      b ∈ (Node.ofTree source (Program.ofSource text).tree).descendants → placed.part ∈ a.parts →
      placed.span.start < placed.span.stop → b.kind = .bindingElement → b.span = placed.span → a.kind ≠ .name →
        a = b := by
    intro a b placed ha hb hplaced hpos hkind hsame hne
    have hpb : Node.Reaches placed.part b :=
      ⟨Nat.le_of_eq (congrArg (·.start) hsame), hpos, Nat.le_of_eq (congrArg (·.stop) hsame.symm)⟩
    refine Node.eq_of_reaches ha hb (.of_mem ha hplaced hpos) hpb (fun hab => ?_)
      (not_mem_around_of_element h ha hkind hne)
    obtain ⟨child, hchild, -⟩ := Node.part_of_reaches hb hab hplaced hpb
    cases hchild
  rcases memberSpan?_cases h ha hspan with ⟨placed, hplaced, rfl, hpos⟩ | ⟨hkind, rfl⟩
  · rcases memberSpan?_cases h hb hspan' with ⟨placed', hplaced', hsame, -⟩ | ⟨hkind', hsame⟩
    · exact Node.eq_of_parts ha hb hplaced hplaced' hsame.symm hpos (.inl fun _ hnode => by cases hnode)
        (.inl fun _ hnode => by cases hnode)
    · exact hmixed ha hb hplaced hpos hkind' hsame (hname hspan)
  · rcases memberSpan?_cases h hb hspan' with ⟨placed', hplaced', hsame, hpos⟩ | ⟨hkind', hsame⟩
    · exact (hmixed hb ha hplaced' (hsame ▸ hpos) hkind hsame.symm (hname hspan')).symm
    · exact eq_of_place h ha hb (hkind.trans hkind'.symm) hsame.symm

/-! ### All sorts -/

include h ha hb in
theorem eq_of_calleeSpan? {kind : NodeKind} {span : Text.Span} (hkind : kind = .callExpr ∨ kind = .newExpr)
    (hspan : a.calleeSpan? kind = some span) (hspan' : b.calleeSpan? kind = some span) : a = b := by
  have hcallee : ∀ {node : Node}, node ∈ (Node.ofTree source (Program.ofSource text).tree).descendants →
      node.kind = kind → ∃ callee, node.expression? = some callee ∧ node.span ≠ callee.span := by
    intro node hnode hnodeKind
    rcases hkind with rfl | rfl
    · exact exists_called h hnode hnodeKind
    · exact exists_made h hnode hnodeKind
  obtain ⟨hnodeKind, hsame⟩ := Option.ite_none_right_eq_some.mp hspan
  obtain ⟨hnodeKind', hsame'⟩ := Option.ite_none_right_eq_some.mp hspan'
  obtain ⟨callee, hfound, hproper⟩ := hcallee ha hnodeKind
  obtain ⟨callee', hfound', hproper'⟩ := hcallee hb hnodeKind'
  rw [← hsame', hfound, hfound'] at hsame
  exact eq_of_expression h ha hb hfound hfound' hproper hproper' (Option.some_inj.mp hsame)

include h ha hb in
/-- A problem of one sort is reported at a place about one node only. -/
theorem eq_of_reportSpan? {code : String} {span : Text.Span} (hspan : a.reportSpan? code = some span)
    (hspan' : b.reportSpan? code = some span) : a = b := by
  have htype : ∀ {span : Text.Span}, a.typeSpan? = some span → b.typeSpan? = some span → a = b := by
    intro span hspan hspan'
    obtain ⟨hkind, hsame⟩ := Option.ite_none_right_eq_some.mp hspan
    obtain ⟨hkind', hsame'⟩ := Option.ite_none_right_eq_some.mp hspan'
    exact eq_of_refSpan h ha hb hkind hkind' (Option.some_inj.mp (hsame.trans hsame'.symm))
  unfold Node.reportSpan? at hspan
  split at hspan
  · obtain ⟨hkind, hsame⟩ := Option.ite_none_right_eq_some.mp hspan
    obtain ⟨hkind', hsame'⟩ := Option.ite_none_right_eq_some.mp hspan'
    exact eq_of_place h ha hb (hkind.trans hkind'.symm) (Option.some_inj.mp (hsame.trans hsame'.symm))
  · exact htype hspan hspan'
  · exact htype hspan hspan'
  · exact eq_of_memberSpan? h ha hb hspan hspan'
  · exact eq_of_calleeSpan? h ha hb (.inl rfl) hspan hspan'
  · exact eq_of_calleeSpan? h ha hb (.inr rfl) hspan hspan'
  · cases hspan

end Program

end RouteTypes
