-- What nodes hold whatever the text. Behind a misfit a node may lack what the grammar gives to its kind, but
-- what it holds is still read by the form that it has, so it never holds a node that no such form reads.
import RouteTypes.Proofs.Tree.Children

namespace RouteTypes

open RouteTypes.Tree

/-! ## What forms can read -/

/-- Whether the node may be of that kind, with or without misfits. -/
def Body.mayClose (kind : NodeKind) : Body → Bool
  | .close own => own == kind
  | .seq _ rest => rest.mayClose kind
  | .branch _ yes no => yes.mayClose kind || no.mayClose kind

/-- Whether the node that is put around another may be of that kind. -/
def Suffix.mayGive (kind : NodeKind) : Suffix → Bool
  | .stop => false
  | .around body => body.mayClose kind
  | .branch _ yes no => yes.mayGive kind || no.mayGive kind

/-- Whether the phrase may be a node of that kind. Of what rules read nothing is said here. -/
def Phrase.mayGive (kind : NodeKind) : Phrase → Bool
  | .refuse _ => false
  | .node body => body.mayClose kind
  | .branch _ yes no => yes.mayGive kind || no.mayGive kind
  | .call _ => true
  | .wrap inner suffix | .extend inner suffix => inner.mayGive kind || suffix.mayGive kind

/-- Whether the steps may put a node of that kind into the open one. -/
def Steps.mayPut (kind : NodeKind) : Steps → Bool
  | .done | .take _ | .refuse _ => false
  | .seq first rest => first.mayPut kind || rest.mayPut kind
  | .branch _ yes no => yes.mayPut kind || no.mayPut kind
  | .loop _ body => body.mayPut kind
  | .part phrase => phrase.mayGive kind
  | .enclosed _ inside => inside.mayPut kind

/-- Whether the node may hold a node of that kind. -/
def Body.mayHold (kind : NodeKind) : Body → Bool
  | .close _ => false
  | .seq first rest => first.mayPut kind || rest.mayHold kind
  | .branch _ yes no => yes.mayHold kind || no.mayHold kind

/-- Whether a node of that form may hold a node of that kind. What it is put around may be of any. -/
def NodeForm.mayHold (kind : NodeKind) (form : NodeForm) : Bool := form.inner.isSome || form.body.mayHold kind

/-- A tree whose nodes hold what these forms can read. -/
inductive Tree.Formed (forms : List NodeForm) : Tree → Prop
  | leaf (token : Token) : Formed forms (.leaf token)
  | node {kind : NodeKind} {children : List Tree} {form : NodeForm} (mem : form ∈ forms)
      (closes : form.body.mayClose kind = true)
      (holds : ∀ child ∈ children, ∀ inner, child.kind = .node inner → form.mayHold inner = true)
      (formed : ∀ child ∈ children, Formed forms child) : Formed forms (.node kind children)

namespace Tree

/-- A tree that may stand somewhere, and whose nodes hold what the forms can read. -/
structure Fills (forms : List NodeForm) (may : NodeKind → Bool) (tree : Tree) : Prop where
  may : ∀ kind, tree.kind = .node kind → may kind = true
  formed : tree.Formed forms

variable {forms : List NodeForm} {may weaker : NodeKind → Bool} {tree : Tree}

theorem Fills.mono (h : tree.Fills forms may) (hle : ∀ kind, may kind = true → weaker kind = true) :
    tree.Fills forms weaker :=
  ⟨fun kind hkind => hle kind (h.may kind hkind), h.formed⟩

theorem Fills.leaf (token : Token) : (Tree.leaf token).Fills forms may :=
  ⟨fun _ hkind => (by cases hkind), .leaf token⟩

theorem Fills.of_mem_leaves {tokens : List Token} (h : tree ∈ tokens.map Tree.leaf) : tree.Fills forms may := by
  obtain ⟨token, -, rfl⟩ := List.mem_map.mp h
  exact .leaf token

/-- A node of one of the forms. -/
theorem Fills.node {kind : NodeKind} {children : List Tree} {form : NodeForm} (hmem : form ∈ forms)
    (hcloses : form.body.mayClose kind = true) (hmay : may kind = true)
    (hchildren : ∀ child ∈ children, child.Fills forms (fun inner => form.mayHold inner)) :
    (Tree.node kind children).Fills forms may where
  may own hown := by cases hown; exact hmay
  formed := .node hmem hcloses (fun child hchild => (hchildren child hchild).may)
    fun child hchild => (hchildren child hchild).formed

end Tree

/-! ## Reading -/

section

variable {forms : List NodeForm} {may : NodeKind → Bool}

theorem collectWhile_fills {question : Sight → Bool} {step : Sight → List Tree × Sight}
    (hstep : ∀ s, ∀ tree ∈ (step s).1, tree.Fills forms may) (s : Sight) :
    ∀ tree ∈ (s.collectWhile question step).1, tree.Fills forms may := by
  intro tree htree
  rw [Sight.collectWhile] at htree
  dsimp only at htree
  split at htree
  · split at htree
    · rcases List.mem_append.mp htree with htree | htree
      · exact hstep s tree htree
      · exact collectWhile_fills hstep (step s).2 tree htree
    · exact hstep s tree htree
  · cases htree
termination_by s.ahead.length

theorem wrapWhile_fills {step : Tree → Sight → Option Tree × Sight}
    (hstep : ∀ inner s, inner.Fills forms may → ∀ outer, (step inner s).1 = some outer → outer.Fills forms may)
    (inner : Tree) (s : Sight) (hinner : inner.Fills forms may) : (s.wrapWhile step inner).1.Fills forms may := by
  have hone := hstep inner s hinner
  rw [Sight.wrapWhile]
  split
  · exact hinner
  · rename_i outer behind heq
    rw [heq] at hone
    split
    · exact wrapWhile_fills hstep outer behind (hone outer rfl)
    · exact hone outer rfl
termination_by s.ahead.length

/-- What is found may be a node of these kinds. -/
def Found.Fills (forms : List NodeForm) (may : NodeKind → Bool) (found : Found) : Prop :=
  ∀ blanks tree, found = some (blanks, tree) → tree.Fills forms may

theorem Found.Fills.mono {weaker : NodeKind → Bool} {found : Found} (h : found.Fills forms may)
    (hle : ∀ kind, may kind = true → weaker kind = true) : found.Fills forms weaker :=
  fun blanks tree hfound => (h blanks tree hfound).mono hle

theorem Found.Fills.trees {found : Found} (h : found.Fills forms may) :
    ∀ tree ∈ Found.trees found, tree.Fills forms may := by
  intro tree htree
  unfold Found.trees at htree
  split at htree
  · cases htree
  · rename_i blanks inner
    rcases List.mem_append.mp htree with htree | htree
    · exact .of_mem_leaves htree
    · rw [List.mem_singleton.mp htree]
      exact h blanks inner rfl

theorem may_or_left {yes no : NodeKind → Bool} (kind : NodeKind) (h : yes kind = true) : (yes kind || no kind) = true := by
  rw [h, Bool.true_or]

theorem may_or_right {yes no : NodeKind → Bool} (kind : NodeKind) (h : no kind = true) : (yes kind || no kind) = true := by
  rw [h, Bool.or_true]

variable {readings : Readings}

mutual

/-- What steps put into the open node they may put there. -/
theorem Steps.read_fills (h : ∀ rule s, (readings rule s).1.Fills forms fun _ => true) :
    ∀ (steps : Steps) (s : Sight), steps.forms ⊆ forms →
      ∀ tree ∈ (steps.read readings s).1, tree.Fills forms (fun kind => steps.mayPut kind)
  | .done, _, _, _, htree | .refuse _, _, _, _, htree => absurd htree List.not_mem_nil
  | .take kinds, s, _, tree, htree => by
    rw [Steps.read, Sight.take] at htree
    split at htree
    · exact .of_mem_leaves htree
    · cases htree
  | .seq first rest, s, hforms, tree, htree => by
    rw [Steps.forms, List.append_subset] at hforms
    rcases List.mem_append.mp htree with htree | htree
    · exact (first.read_fills h s hforms.1 tree htree).mono may_or_left
    · exact (rest.read_fills h _ hforms.2 tree htree).mono may_or_right
  | .branch question yes no, s, hforms, tree, htree => by
    rw [Steps.forms, List.append_subset] at hforms
    rw [Steps.read] at htree
    split at htree
    · exact (yes.read_fills h s hforms.1 tree htree).mono may_or_left
    · exact (no.read_fills h s hforms.2 tree htree).mono may_or_right
  | .loop question body, s, hforms, tree, htree =>
    collectWhile_fills (fun s => body.read_fills h s hforms) s tree htree
  | .part phrase, s, hforms, tree, htree => (phrase.read_fills h s hforms).trees tree htree
  | .enclosed what inside, s, hforms, tree, htree => by
    have hinside := inside.read_fills h s hforms
    rw [Steps.read] at htree
    split at htree
    · exact hinside tree htree
    · split at htree
      · rcases List.mem_append.mp htree with htree | htree
        · exact hinside tree htree
        · exact .of_mem_leaves htree
      · exact hinside tree htree

/-- A node holds what its body may hold, and is of a kind that it may be of. -/
theorem Body.read_fills (h : ∀ rule s, (readings rule s).1.Fills forms fun _ => true) :
    ∀ (body : Body) (s : Sight), body.forms ⊆ forms → body.mayClose (body.read readings s).1.1 = true ∧
      ∀ tree ∈ (body.read readings s).1.2, tree.Fills forms (fun kind => body.mayHold kind)
  | .close kind, _, _ => ⟨beq_self_eq_true kind, fun _ htree => absurd htree List.not_mem_nil⟩
  | .seq first rest, s, hforms => by
    rw [Body.forms, List.append_subset] at hforms
    obtain ⟨hcloses, hrest⟩ := rest.read_fills h (first.read readings s).2 hforms.2
    refine ⟨hcloses, fun tree htree => ?_⟩
    rcases List.mem_append.mp htree with htree | htree
    · exact (first.read_fills h s hforms.1 tree htree).mono may_or_left
    · exact (hrest tree htree).mono may_or_right
  | .branch question yes no, s, hforms => by
    rw [Body.forms, List.append_subset] at hforms
    rw [Body.read, Body.mayClose, Bool.or_eq_true]
    split
    · obtain ⟨hcloses, hyes⟩ := yes.read_fills h s hforms.1
      exact ⟨.inl hcloses, fun tree htree => (hyes tree htree).mono may_or_left⟩
    · obtain ⟨hcloses, hno⟩ := no.read_fills h s hforms.2
      exact ⟨.inr hcloses, fun tree htree => (hno tree htree).mono may_or_right⟩

theorem Phrase.read_fills (h : ∀ rule s, (readings rule s).1.Fills forms fun _ => true) :
    ∀ (phrase : Phrase) (s : Sight), phrase.forms ⊆ forms →
      (phrase.read readings s).1.Fills forms (fun kind => phrase.mayGive kind)
  | .refuse _, _, _, _, _, hfound => by cases hfound
  | .node body, s, hforms, blanks, tree, hfound => by
    rw [Phrase.forms, List.cons_subset] at hforms
    obtain ⟨hcloses, hholds⟩ := body.read_fills h s.flush hforms.2
    cases hfound
    exact .node hforms.1 hcloses hcloses hholds
  | .branch question yes no, s, hforms, blanks, tree, hfound => by
    rw [Phrase.forms, List.append_subset] at hforms
    rw [Phrase.read] at hfound
    split at hfound
    · exact (yes.read_fills h s hforms.1).mono may_or_left blanks tree hfound
    · exact (no.read_fills h s hforms.2).mono may_or_right blanks tree hfound
  | .call rule, s, _, blanks, tree, hfound => h rule s blanks tree hfound
  | .wrap inner suffix, s, hforms, blanks, tree, hfound => by
    rw [Phrase.forms, List.append_subset] at hforms
    have hinner : (inner.read readings s).1.Fills forms fun kind => inner.mayGive kind || suffix.mayGive kind :=
      (inner.read_fills h s hforms.1).mono may_or_left
    rw [Phrase.read] at hfound
    split at hfound
    · cases hfound
    · rename_i blanks' tree' behind heq
      have hone := hinner blanks' tree' (by rw [heq])
      cases hfound
      cases houter : (suffix.read readings tree' behind).1 with
      | none => exact hone
      | some outer => exact (suffix.read_fills h tree' behind _ hforms.2 hone.formed outer houter).mono may_or_right
  | .extend inner suffix, s, hforms, blanks, tree, hfound => by
    rw [Phrase.forms, List.append_subset] at hforms
    have hinner : (inner.read readings s).1.Fills forms fun kind => inner.mayGive kind || suffix.mayGive kind :=
      (inner.read_fills h s hforms.1).mono may_or_left
    rw [Phrase.read] at hfound
    split at hfound
    · cases hfound
    · rename_i blanks' tree' behind heq
      have hone := hinner blanks' tree' (by rw [heq])
      cases hfound
      exact wrapWhile_fills (fun inner s hinner outer houter =>
        (suffix.read_fills h inner s _ hforms.2 hinner.formed outer houter).mono may_or_right) tree' behind hone

theorem Suffix.read_fills (h : ∀ rule s, (readings rule s).1.Fills forms fun _ => true) :
    ∀ (suffix : Suffix) (inner : Tree) (s : Sight) (kinds : List NodeKind), suffix.forms kinds ⊆ forms →
      inner.Formed forms → ∀ outer, (suffix.read readings inner s).1 = some outer →
        outer.Fills forms (fun kind => suffix.mayGive kind)
  | .stop, _, _, _, _, _, _, houter => by cases houter
  | .around body, inner, s, kinds, hforms, hinner, outer, houter => by
    rw [Suffix.forms, List.cons_subset] at hforms
    obtain ⟨hcloses, hholds⟩ := body.read_fills h s hforms.2
    cases houter
    refine .node hforms.1 hcloses hcloses fun child hchild => ?_
    rcases List.mem_cons.mp hchild with rfl | hchild
    · exact ⟨fun _ _ => rfl, hinner⟩
    · exact (hholds child hchild).mono fun _ _ => rfl
  | .branch question yes no, inner, s, kinds, hforms, hinner, outer, houter => by
    rw [Suffix.forms, List.append_subset] at hforms
    rw [Suffix.read] at houter
    split at houter
    · exact (yes.read_fills h inner s kinds hforms.1 hinner outer houter).mono may_or_left
    · exact (no.read_fills h inner s kinds hforms.2 hinner outer houter).mono may_or_right

end

end

/-! ## Programs -/

namespace Grammar

/-- The forms of the nodes of any program. -/
def anyForms : List NodeForm := ⟨none, program⟩ :: (program.forms ++ forms)

theorem forms_subset_anyForms : forms ⊆ anyForms := fun _ hform =>
  List.mem_cons_of_mem _ (List.mem_append_right _ hform)

theorem readingsUpTo_fills (depth : Nat) (rule : Rule) (s : Sight) :
    (readingsUpTo depth rule s).1.Fills anyForms fun _ => true := by
  induction depth generalizing rule s with
  | zero => exact fun _ _ hfound => by cases hfound
  | succ depth ih =>
    have hforms : (phraseOf rule).forms ⊆ anyForms := fun _ hform => forms_subset_anyForms (phraseOf_forms rule hform)
    exact ((phraseOf rule).read_fills ih s hforms).mono fun _ _ => rfl

/-- In lists of type parameters stand type parameters. -/
theorem anyForms_typeParamList : anyForms.all (fun form => NodeKind.all.all fun kind =>
    !form.body.mayClose .typeParamList || !form.mayHold kind || kind == .typeParam) = true := by
  decide +kernel

end Grammar

/-- Whatever the text, the nodes of its tree hold what the forms of the grammar can read. -/
theorem Program.formed (text : String) : (Program.ofSource text).tree.Formed Grammar.anyForms := by
  rw [ofSource_eq]
  obtain ⟨hcloses, hholds⟩ := Grammar.program.read_fills
    (Grammar.readingsUpTo_fills (Grammar.depthFor (Sight.ofTokens (Token.ofSource text)).ahead.length))
    (Sight.ofTokens (Token.ofSource text)) fun _ hform => List.mem_cons_of_mem _ (List.mem_append_left _ hform)
  exact .node List.mem_cons_self rfl (fun child hchild => (hholds child hchild).may)
    fun child hchild => (hholds child hchild).formed

theorem Tree.Formed.child {forms : List NodeForm} : Node.HandedDown (Tree.Formed forms) := by
  intro kind children h child hchild
  cases h with
  | node _ _ _ hformed => exact hformed child hchild

theorem Node.formed_of_mem {text : String} {source : Source} {node : Node}
    (h : node ∈ (Node.ofTree source (Program.ofSource text).tree).descendants) :
    node.tree.Formed Grammar.anyForms := by
  obtain ⟨blanks, statements, more, htree⟩ := Program.exists_statements text
  have hformed := Program.formed text
  rw [htree] at hformed h
  exact (Node.lies_of_mem Tree.Formed.child _ hformed h).good

/-- In lists of type parameters stand type parameters, whatever the text. -/
theorem Node.typeParam_of_mem_children {text : String} {source : Source} {list child : Node}
    (hlist : list ∈ (Node.ofTree source (Program.ofSource text).tree).descendants)
    (hkind : list.kind = .typeParamList) (hchild : child ∈ list.children) : child.kind = .typeParam := by
  have hrow : Kind.node child.kind ∈ list.row := Node.mem_row.mpr ⟨child, hchild, rfl⟩
  rw [Node.row_eq, significantKinds, List.mem_map] at hrow
  obtain ⟨tree, htree, hown⟩ := hrow
  have hformed := Node.formed_of_mem hlist
  rw [Node.tree, hkind] at hformed
  cases hformed with
  | @node _ _ form hmem hcloses hholds _ =>
    have hall := List.all_eq_true.mp (List.all_eq_true.mp Grammar.anyForms_typeParamList form hmem) child.kind
      (NodeKind.mem_all _)
    rw [hcloses, hholds tree (List.mem_of_mem_filter htree) child.kind hown] at hall
    exact beq_iff_eq.mp hall

end RouteTypes
