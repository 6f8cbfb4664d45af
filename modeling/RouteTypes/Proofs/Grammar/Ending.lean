-- What the rows of children end with. The text of the grammar tells it: which steps can read nothing, and
-- what the others read last. So a list of arguments ends with its parenthesis and a call with its
-- arguments, and an expression with a token that means something and is no comma.
import RouteTypes.Proofs.Grammar.Forms
import RouteTypes.Proofs.Token.Munching

namespace RouteTypes

open RouteTypes.Tree

/-! ## Ends of rows -/

/-- Whether the steps can read nothing. -/
def Steps.skippable : Steps → Bool
  | .done | .loop _ _ => true
  | .take _ | .refuse _ | .part _ | .enclosed _ _ => false
  | .seq first rest => first.skippable && rest.skippable
  | .branch question yes no => question.ways (· || ·) yes.skippable no.skippable

/-- Whether what the steps read last has the property. -/
def Steps.endsIn (ok : Kind → Bool) : Steps → Bool
  | .done | .refuse _ => true
  | .take kinds => kinds.all fun kind => ok (.token kind)
  | .seq first rest => rest.endsIn ok && (!rest.skippable || first.endsIn ok)
  | .branch _ yes no => yes.endsIn ok && no.endsIn ok
  | .loop _ body => body.endsIn ok
  | .part phrase => NodeKind.all.all fun kind => !phrase.makes kind || ok (.node kind)
  | .enclosed _ _ => ok (.token .rBrace)

/-- Whether a node of that kind can hold nothing. -/
def Body.skippable (kind : NodeKind) : Body → Bool
  | .close own => own == kind
  | .seq first rest => first.skippable && rest.skippable kind
  | .branch question yes no => question.ways (· || ·) (yes.skippable kind) (no.skippable kind)

/-- Whether the last child of a node of that kind has the property. -/
def Body.endsIn (ok : Kind → Bool) (kind : NodeKind) : Body → Bool
  | .close _ => true
  | .seq first rest => rest.endsIn ok kind && (!rest.skippable kind || first.endsIn ok)
  | .branch _ yes no => yes.endsIn ok kind && no.endsIn ok kind

namespace NodeForm

/-- Whether a node of that kind has a child, and the last one has the property. -/
def endsIn (ok : Kind → Bool) (kind : NodeKind) (form : NodeForm) : Bool :=
  form.body.endsIn ok kind && (!form.body.skippable kind ||
    form.inner.any fun inner => inner.all fun kind => ok (.node kind))

end NodeForm

section

variable {ok : Kind → Bool}

theorem Question.mem_of_ways {row : List Kind} {question : Question} {yes no : Language Kind}
    (h : row ∈ question.ways (· + ·) yes no) : row ∈ yes ∨ row ∈ no := by
  unfold Question.ways at h
  split at h
  · exact .inl h
  · exact .inr h
  · exact (Language.mem_add _ _ _).mp h

/-- Steps that cannot read nothing read no empty row. -/
theorem Steps.skippable_of_nil : ∀ steps : Steps, [] ∈ steps.language → steps.skippable = true
  | .done, _ | .loop _ _, _ => rfl
  | .take _, ⟨_, _, h⟩ | .part _, ⟨_, _, h⟩ => absurd h (List.cons_ne_nil _ _).symm
  | .refuse _, h => absurd h (Language.notMem_zero _)
  | .seq first rest, h => by
    obtain ⟨one, hone, other, hother, hrow⟩ := Language.mem_mul.mp h
    obtain ⟨rfl, rfl⟩ := List.append_eq_nil_iff.mp hrow
    rw [Steps.skippable, first.skippable_of_nil hone, rest.skippable_of_nil hother]
    rfl
  | .branch _ yes no, h => Question.canFit_ways h yes.skippable_of_nil no.skippable_of_nil
  | .enclosed _ inside, h => by
    obtain ⟨one, hone, other, hother, hrow⟩ := Language.mem_mul.mp h
    obtain ⟨rfl, rfl⟩ := List.append_eq_nil_iff.mp hrow
    cases hother

theorem Body.skippable_of_nil {kind : NodeKind} :
    ∀ body : Body, [] ∈ body.language kind → body.skippable kind = true
  | .close own, h => (Body.close own).closes_of_row h
  | .seq first rest, h => by
    obtain ⟨one, hone, other, hother, hrow⟩ := Language.mem_mul.mp h
    obtain ⟨rfl, rfl⟩ := List.append_eq_nil_iff.mp hrow
    rw [Body.skippable, first.skippable_of_nil hone, rest.skippable_of_nil hother]
    rfl
  | .branch _ yes no, h => Question.canFit_ways h yes.skippable_of_nil no.skippable_of_nil

/-- The end of two rows behind each other is that of the second one, or of the first one if the second
one is empty. -/
theorem getLast?_append_ok {one other : List Kind} {skips : Bool}
    (hother : ∀ last, other.getLast? = some last → ok last = true) (hskips : other = [] → skips = true)
    (hone : skips = true → ∀ last, one.getLast? = some last → ok last = true) :
    ∀ last, (one ++ other).getLast? = some last → ok last = true := by
  intro last hlast
  cases other with
  | nil => exact hone (hskips rfl) last (by simpa using hlast)
  | cons first rest =>
    rw [List.getLast?_append_of_ne_nil _ (List.cons_ne_nil _ _)] at hlast
    exact hother last hlast

theorem Steps.last_of_row : ∀ (steps : Steps) (row : List Kind), steps.endsIn ok = true →
    row ∈ steps.language → ∀ last, row.getLast? = some last → ok last = true
  | .done, row, _, h => by
    rw [(Language.mem_one _).mp h]
    intro last hlast
    cases hlast
  | .take kinds, row, hends, ⟨kind, hkind, hrow⟩ => by
    rw [hrow]
    intro last hlast
    cases hlast
    exact List.all_eq_true.mp hends kind hkind
  | .refuse _, _, _, h => absurd h (Language.notMem_zero _)
  | .seq first rest, row, hends, h => by
    obtain ⟨one, hone, other, hother, rfl⟩ := Language.mem_mul.mp h
    rw [Steps.endsIn, Bool.and_eq_true, Bool.or_eq_true, Bool.not_eq_true'] at hends
    refine getLast?_append_ok (rest.last_of_row other hends.1 hother)
      (fun hnil => rest.skippable_of_nil (hnil ▸ hother)) (fun hskips => ?_)
    rcases hends.2 with hfirst | hfirst
    · rw [hfirst] at hskips
      cases hskips
    · exact first.last_of_row one hfirst hone
  | .branch _ yes no, row, hends, h => by
    rw [Steps.endsIn, Bool.and_eq_true] at hends
    rcases Question.mem_of_ways h with h | h
    · exact yes.last_of_row row hends.1 h
    · exact no.last_of_row row hends.2 h
  | .loop _ body, row, hends, h => by
    obtain ⟨rows, rfl, hrows⟩ := Language.mem_kstar.mp h
    have hone : ∀ one ∈ rows, ∀ last, one.getLast? = some last → ok last = true :=
      fun one hone => body.last_of_row one hends (hrows one hone)
    clear h hrows
    induction rows with
    | nil =>
      intro last hlast
      cases hlast
    | cons one rows ih =>
      rw [List.flatten_cons]
      exact getLast?_append_ok (ih fun one h => hone one (List.mem_cons_of_mem _ h)) (fun _ => rfl)
        (fun _ => hone one List.mem_cons_self)
  | .part phrase, row, hends, ⟨kind, hkind, hrow⟩ => by
    rw [hrow]
    intro last hlast
    cases hlast
    have hok := List.all_eq_true.mp hends kind (NodeKind.mem_all kind)
    rw [hkind] at hok
    exact hok
  | .enclosed _ inside, row, hends, h => by
    obtain ⟨one, -, other, hother, rfl⟩ := Language.mem_mul.mp h
    intro last hlast
    rw [Set.mem_singleton_iff.mp hother, List.getLast?_concat] at hlast
    cases hlast
    exact hends

theorem Body.last_of_row {kind : NodeKind} : ∀ (body : Body) (row : List Kind),
    body.endsIn ok kind = true → row ∈ body.language kind →
      ∀ last, row.getLast? = some last → ok last = true
  | .close own, row, _, h => by
    rw [Body.language] at h
    split at h
    · rw [(Language.mem_one _).mp h]
      intro last hlast
      cases hlast
    · exact absurd h (Language.notMem_zero _)
  | .seq first rest, row, hends, h => by
    obtain ⟨one, hone, other, hother, rfl⟩ := Language.mem_mul.mp h
    rw [Body.endsIn, Bool.and_eq_true, Bool.or_eq_true, Bool.not_eq_true'] at hends
    refine getLast?_append_ok (rest.last_of_row other hends.1 hother)
      (fun hnil => rest.skippable_of_nil (hnil ▸ hother)) (fun hskips => ?_)
    rcases hends.2 with hfirst | hfirst
    · rw [hfirst] at hskips
      cases hskips
    · exact first.last_of_row one hfirst hone
  | .branch _ yes no, row, hends, h => by
    rw [Body.endsIn, Bool.and_eq_true] at hends
    rcases Question.mem_of_ways h with h | h
    · exact yes.last_of_row row hends.1 h
    · exact no.last_of_row row hends.2 h

/-- A row that a form gives has an end, which has the property. -/
theorem NodeForm.exists_last {kind : NodeKind} {form : NodeForm} {row : List Kind}
    (hends : form.endsIn ok kind = true) (h : row ∈ form.language kind) :
    ∃ last, row.getLast? = some last ∧ ok last = true := by
  obtain ⟨inner, body⟩ := form
  rw [NodeForm.endsIn, Bool.and_eq_true, Bool.or_eq_true, Bool.not_eq_true'] at hends
  obtain ⟨hbody, hskips⟩ := hends
  cases inner with
  | none =>
    have hne : row ≠ [] := by
      rintro rfl
      rcases hskips with hskips | hskips
      · rw [body.skippable_of_nil h] at hskips
        cases hskips
      · cases hskips
    have hlast := List.getLast?_eq_some_getLast hne
    exact ⟨_, hlast, body.last_of_row row hbody h _ hlast⟩
  | some inner =>
    obtain ⟨first, hfirst, rest, hrest, rfl⟩ := h
    have hlast := List.getLast?_eq_some_getLast (List.cons_ne_nil (Kind.node first) rest)
    refine ⟨_, hlast, ?_⟩
    have hone : body.skippable kind = true →
        ∀ last, [Kind.node first].getLast? = some last → ok last = true := by
      intro hskip last hlast
      cases hlast
      rcases hskips with hskips | hskips
      · rw [hskips] at hskip
        cases hskip
      · exact List.all_eq_true.mp hskips first hfirst
    exact getLast?_append_ok (body.last_of_row rest hbody hrest)
      (fun hnil => body.skippable_of_nil (hnil ▸ hrest)) hone _ hlast

end

/-! ## Whole rows -/

/-- Whether all that the steps read has the property. -/
def Steps.allIn (ok : Kind → Bool) : Steps → Bool
  | .done | .refuse _ => true
  | .take kinds => kinds.all fun kind => ok (.token kind)
  | .seq first rest => first.allIn ok && rest.allIn ok
  | .branch _ yes no => yes.allIn ok && no.allIn ok
  | .loop _ body => body.allIn ok
  | .part phrase => NodeKind.all.all fun kind => !phrase.makes kind || ok (.node kind)
  | .enclosed _ inside => inside.allIn ok && ok (.token .rBrace)

def Body.allIn (ok : Kind → Bool) : Body → Bool
  | .close _ => true
  | .seq first rest => first.allIn ok && rest.allIn ok
  | .branch _ yes no => yes.allIn ok && no.allIn ok

/-- Whether all children of a node of that form have the property. -/
def NodeForm.allIn (ok : Kind → Bool) (form : NodeForm) : Bool :=
  form.body.allIn ok && form.inner.all fun inner => inner.all fun kind => ok (.node kind)

section

variable {ok : Kind → Bool}

theorem Steps.all_of_row : ∀ (steps : Steps) (row : List Kind), steps.allIn ok = true →
    row ∈ steps.language → ∀ kind ∈ row, ok kind = true
  | .done, row, _, h => by
    rw [(Language.mem_one _).mp h]
    intro kind hkind
    cases hkind
  | .take kinds, row, hall, ⟨kind, hkind, hrow⟩ => by
    rw [hrow]
    intro other hother
    rw [List.mem_singleton.mp hother]
    exact List.all_eq_true.mp hall kind hkind
  | .refuse _, _, _, h => absurd h (Language.notMem_zero _)
  | .seq first rest, row, hall, h => by
    obtain ⟨one, hone, other, hother, rfl⟩ := Language.mem_mul.mp h
    rw [Steps.allIn, Bool.and_eq_true] at hall
    intro kind hkind
    rcases List.mem_append.mp hkind with hkind | hkind
    · exact first.all_of_row one hall.1 hone kind hkind
    · exact rest.all_of_row other hall.2 hother kind hkind
  | .branch _ yes no, row, hall, h => by
    rw [Steps.allIn, Bool.and_eq_true] at hall
    rcases Question.mem_of_ways h with h | h
    · exact yes.all_of_row row hall.1 h
    · exact no.all_of_row row hall.2 h
  | .loop _ body, row, hall, h => by
    obtain ⟨rows, rfl, hrows⟩ := Language.mem_kstar.mp h
    intro kind hkind
    obtain ⟨one, hone, hkind⟩ := List.mem_flatten.mp hkind
    exact body.all_of_row one hall (hrows one hone) kind hkind
  | .part phrase, row, hall, ⟨kind, hkind, hrow⟩ => by
    rw [hrow]
    intro other hother
    rw [List.mem_singleton.mp hother]
    have hok := List.all_eq_true.mp hall kind (NodeKind.mem_all kind)
    rw [hkind] at hok
    exact hok
  | .enclosed _ inside, row, hall, h => by
    obtain ⟨one, hone, other, hother, rfl⟩ := Language.mem_mul.mp h
    rw [Steps.allIn, Bool.and_eq_true] at hall
    intro kind hkind
    rcases List.mem_append.mp hkind with hkind | hkind
    · exact inside.all_of_row one hall.1 hone kind hkind
    · rw [Set.mem_singleton_iff.mp hother] at hkind
      rw [List.mem_singleton.mp hkind]
      exact hall.2

theorem Body.all_of_row {own : NodeKind} : ∀ (body : Body) (row : List Kind), body.allIn ok = true →
    row ∈ body.language own → ∀ kind ∈ row, ok kind = true
  | .close _, row, _, h => by
    rw [Body.language] at h
    split at h
    · rw [(Language.mem_one _).mp h]
      intro kind hkind
      cases hkind
    · exact absurd h (Language.notMem_zero _)
  | .seq first rest, row, hall, h => by
    obtain ⟨one, hone, other, hother, rfl⟩ := Language.mem_mul.mp h
    rw [Body.allIn, Bool.and_eq_true] at hall
    intro kind hkind
    rcases List.mem_append.mp hkind with hkind | hkind
    · exact first.all_of_row one hall.1 hone kind hkind
    · exact rest.all_of_row other hall.2 hother kind hkind
  | .branch _ yes no, row, hall, h => by
    rw [Body.allIn, Bool.and_eq_true] at hall
    rcases Question.mem_of_ways h with h | h
    · exact yes.all_of_row row hall.1 h
    · exact no.all_of_row row hall.2 h

theorem NodeForm.all_of_row {own : NodeKind} {form : NodeForm} {row : List Kind}
    (hall : form.allIn ok = true) (h : row ∈ form.language own) : ∀ kind ∈ row, ok kind = true := by
  obtain ⟨inner, body⟩ := form
  rw [NodeForm.allIn, Bool.and_eq_true] at hall
  cases inner with
  | none => exact body.all_of_row row hall.1 h
  | some inner =>
    obtain ⟨first, hfirst, rest, hrest, rfl⟩ := h
    intro kind hkind
    rcases List.mem_cons.mp hkind with rfl | hkind
    · exact List.all_eq_true.mp hall.2 first hfirst
    · exact body.all_of_row rest hall.1 hrest kind hkind

end

theorem Steps.expect_row {kind : TokenKind} {row : List Kind} (h : row ∈ (Steps.expect kind).language) :
    row = [.token kind] := by
  obtain ⟨own, hown, hrow⟩ := h
  rw [hrow, List.mem_singleton.mp hown]

/-- Steps that put one node into the open one read its kind and nothing else. -/
theorem Steps.emit_row {kind : NodeKind} {steps : List Steps} {row : List Kind}
    (h : row ∈ (Steps.emit kind steps).language) : row = [.node kind] := by
  obtain ⟨own, hmakes, rfl⟩ := h
  rw [Phrase.nodeOf, Phrase.makes, Body.ofSteps, Body.closes, Bool.and_eq_true, Body.closes] at hmakes
  rw [beq_iff_eq.mp hmakes.2]

theorem Body.ofSteps_row {kind own : NodeKind} {steps : List Steps} {row : List Kind}
    (h : row ∈ (Body.ofSteps kind steps).language own) : row ∈ (Steps.all steps).language := by
  obtain ⟨one, hone, other, hother, rfl⟩ := Language.mem_mul.mp h
  rw [Body.language] at hother
  split at hother
  · rw [(Language.mem_one _).mp hother, List.append_nil]
    exact hone
  · exact absurd hother (Language.notMem_zero _)

/-! ## Ends of nodes -/

namespace Grammar

/-- The nodes that end with a closed token that is no comma. A member of an object type
may end with a comma, and a program may have no statements. -/
def settled (kind : NodeKind) : Bool :=
  !(kind == .propertySignature || kind == .methodSignature || kind == .indexSignature ||
    kind == .stmtList)

/-- What a settled node can end with. -/
def settledEnd : Kind → Bool
  | .token kind => kind.isClosed && kind != .comma
  | .node kind => settled kind
  | .tombstone => false

theorem forms_settled : forms.all (fun form => NodeKind.all.all fun kind =>
    !settled kind || !form.body.closes kind || form.endsIn settledEnd kind) = true := by
  decide +kernel

/-- What can stand in a list of arguments. -/
def argPart : Kind → Bool
  | .token kind => kind.isClosed
  | .node kind => kind.isElement
  | .tombstone => false

/-- A list of arguments. -/
def argListBody : Body :=
  .ofSteps .argList [.expect .lParen, .separated .rParen element, .expect .rParen]

set_option maxRecDepth 4000 in
theorem forms_argList :
    forms.filter (fun form => form.body.closes .argList) = List.replicate 3 ⟨none, argListBody⟩ := by
  rfl

theorem argListBody_allIn : argListBody.allIn argPart = true := by decide

/-- What can be called. -/
def callees : List NodeKind :=
  NodeKind.all.filter fun kind => kind.isExpression || (operandSuffix 0).makes kind

set_option maxRecDepth 4000 in
theorem forms_callExpr : forms.filter (fun form => form.body.closes .callExpr) =
    [⟨some callees, .ofSteps .callExpr [argList]⟩,
      ⟨some callees, .ofSteps .callExpr [typeArgList, argList]⟩] := by
  rfl

theorem callees_expression : callees.all (·.isExpression) = true := by decide

end Grammar

theorem exists_getLast?_of_row {trees : List Tree} {last : Kind}
    (hrow : (significantKinds trees).getLast? = some last)
    (hsolid : ∀ tree, trees.getLast? = some tree → tree.isTrivia = false) :
    ∃ tree, trees.getLast? = some tree ∧ tree.kind = last := by
  rcases List.eq_nil_or_concat trees with rfl | ⟨before, tree, rfl⟩
  · cases hrow
  · rw [List.concat_eq_append] at hrow hsolid ⊢
    have htree : tree.isTrivia = false := hsolid tree List.getLast?_concat
    have hone : significantKinds [tree] = [tree.kind] := by simp [significantKinds, htree]
    rw [significantKinds_append, hone, List.getLast?_concat, Option.some_inj] at hrow
    exact ⟨tree, List.getLast?_concat, hrow⟩

namespace Tree.Sound

variable {forms : List NodeForm} {kind : NodeKind} {children : List Tree}

theorem exists_form (h : Sound forms (.node kind children)) :
    ∃ form ∈ forms, form.body.closes kind = true ∧ significantKinds children ∈ form.language kind := by
  cases h with
  | @node _ _ form hmem hrow _ _ =>
    refine ⟨form, hmem, ?_, hrow⟩
    obtain ⟨inner, body⟩ := form
    cases inner with
    | none => exact body.closes_of_row hrow
    | some inner =>
      obtain ⟨_, -, rest, hrest, -⟩ := hrow
      exact body.closes_of_row hrest

theorem last_solid (h : Sound forms (.node kind children)) :
    ∀ tree, children.getLast? = some tree → tree.isTrivia = false := by
  cases h with
  | node _ _ hlast _ => exact hlast

theorem child (h : Sound forms (.node kind children)) : ∀ child ∈ children, Sound forms child := by
  cases h with
  | node _ _ _ hsound => exact hsound

/-- A node of a kind whose forms all end with something of a sort has a last child, which is of it. -/
theorem exists_last {ok : Kind → Bool} (h : Sound forms (.node kind children))
    (hforms : ∀ form ∈ forms, form.body.closes kind = true → form.endsIn ok kind = true) :
    ∃ last, children.getLast? = some last ∧ ok last.kind = true := by
  obtain ⟨form, hmem, hcloses, hrow⟩ := h.exists_form
  obtain ⟨last, hends, hok⟩ := NodeForm.exists_last (hforms form hmem hcloses) hrow
  obtain ⟨tree, htree, rfl⟩ := exists_getLast?_of_row hends h.last_solid
  exact ⟨tree, htree, hok⟩

end Tree.Sound

theorem Tree.tokens_ofLast {kind : NodeKind} {children : List Tree} {last : Tree} {token : Token}
    (hlast : children.getLast? = some last) (htoken : last.tokens.getLast? = some token) :
    (Tree.node kind children).tokens.getLast? = some token := by
  rcases List.eq_nil_or_concat children with rfl | ⟨before, tree, rfl⟩
  · cases hlast
  · rw [List.concat_eq_append] at hlast ⊢
    rw [List.getLast?_concat, Option.some_inj] at hlast
    subst hlast
    have hne : tree.tokens ≠ [] := by
      intro hnil
      rw [hnil] at htoken
      cases htoken
    rw [Tree.tokens, tokensOf_append, tokensOf, tokensOf, List.append_nil,
      List.getLast?_append_of_ne_nil _ hne]
    exact htoken

namespace Grammar

theorem endsIn_settled {kind : NodeKind} (h : settled kind = true) :
    ∀ form ∈ forms, form.body.closes kind = true → form.endsIn settledEnd kind = true := by
  intro form hform hcloses
  have hone := List.all_eq_true.mp (List.all_eq_true.mp forms_settled form hform) kind (NodeKind.mem_all kind)
  rw [h, hcloses] at hone
  exact hone

/-- A settled node ends with a closed token that is no comma. -/
theorem last_token_settled {tree : Tree} (h : tree.Sound forms) :
    ∀ {kind : NodeKind} {children : List Tree}, tree = .node kind children → settled kind = true →
      ∃ token, tree.tokens.getLast? = some token ∧ token.kind.isClosed = true ∧ token.kind ≠ .comma := by
  induction h with
  | leaf token =>
    intro kind children hnode
    cases hnode
  | @node kind children form hmem hrow hlast hsound ih =>
    intro kind children hnode hsettled
    cases hnode
    obtain ⟨last, hchild, hends⟩ := (Tree.Sound.node hmem hrow hlast hsound).exists_last (endsIn_settled hsettled)
    cases last with
    | leaf token =>
      have htoken : token.kind.isClosed = true ∧ token.kind ≠ .comma := by
        simpa [settledEnd, Tree.kind] using hends
      exact ⟨token, Tree.tokens_ofLast hchild rfl, htoken⟩
    | node inner parts =>
      obtain ⟨token, htoken, hclosed⟩ := ih _ (List.mem_of_getLast? hchild) rfl hends
      exact ⟨token, Tree.tokens_ofLast hchild htoken, hclosed⟩

/-- A list of arguments stands between parentheses, and there are items and closed tokens in it. -/
theorem argList_children {children : List Tree} (h : Sound forms (.node .argList children)) :
    (∃ inner, significantKinds children = .token .lParen :: (inner ++ [.token .rParen])) ∧
      ∀ child ∈ children, child.isTrivia = false → argPart child.kind = true := by
  obtain ⟨form, hmem, hcloses, hrow⟩ := h.exists_form
  have hform : form ∈ forms.filter (fun form => form.body.closes .argList) :=
    List.mem_filter.mpr ⟨hmem, hcloses⟩
  rw [forms_argList] at hform
  obtain rfl := List.eq_of_mem_replicate hform
  refine ⟨?_, ?_⟩
  · obtain ⟨opening, hopening, behind, hbehind, hkinds⟩ :=
      Language.mem_mul.mp (Body.ofSteps_row hrow)
    obtain ⟨inner, -, closing, hclosing, hinner⟩ := Language.mem_mul.mp hbehind
    obtain ⟨last, hlast, nothing, hnothing, hend⟩ := Language.mem_mul.mp hclosing
    refine ⟨inner, ?_⟩
    rw [← hkinds, ← hinner, ← hend, Steps.expect_row hopening, Steps.expect_row hlast,
      (Language.mem_one _).mp hnothing]
    rfl
  · intro child hchild hsolid
    refine argListBody.all_of_row _ argListBody_allIn hrow child.kind ?_
    exact List.mem_map_of_mem (List.mem_filter.mpr ⟨hchild, by rw [hsolid]; rfl⟩)

/-- A call is what is called, perhaps type arguments, and the arguments. -/
theorem callExpr_children {children : List Tree} (h : Sound forms (.node .callExpr children)) :
    ∃ first, first.isExpression = true ∧
      (significantKinds children = [.node first, .node .argList] ∨
        significantKinds children = [.node first, .node .typeArgList, .node .argList]) := by
  obtain ⟨form, hmem, hcloses, hrow⟩ := h.exists_form
  have hform : form ∈ forms.filter (fun form => form.body.closes .callExpr) :=
    List.mem_filter.mpr ⟨hmem, hcloses⟩
  rw [forms_callExpr] at hform
  rcases List.mem_cons.mp hform with rfl | hform
  · obtain ⟨first, hfirst, rest, hrest, heq⟩ := hrow
    refine ⟨first, List.all_eq_true.mp callees_expression first hfirst, .inl ?_⟩
    obtain ⟨args, hargs, none, hnone, rfl⟩ := Language.mem_mul.mp (Body.ofSteps_row hrest)
    rw [heq, Steps.emit_row hargs, (Language.mem_one _).mp hnone, List.append_nil]
  · rw [List.mem_singleton.mp hform] at hrow
    obtain ⟨first, hfirst, rest, hrest, heq⟩ := hrow
    refine ⟨first, List.all_eq_true.mp callees_expression first hfirst, .inr ?_⟩
    obtain ⟨types, htypes, more, hmore, rfl⟩ := Language.mem_mul.mp (Body.ofSteps_row hrest)
    obtain ⟨args, hargs, none, hnone, rfl⟩ := Language.mem_mul.mp hmore
    rw [heq, Steps.emit_row htypes, Steps.emit_row hargs, (Language.mem_one _).mp hnone]
    rfl

theorem exists_last_solid {trees : List Tree} (h : significantKinds trees ≠ []) :
    ∃ front last blanks, trees = front ++ last :: blanks ∧ last.isTrivia = false ∧
      ∀ blank ∈ blanks, blank.isTrivia = true := by
  induction trees using List.reverseRecOn with
  | nil => exact absurd rfl h
  | append_singleton front tree ih =>
    cases htree : tree.isTrivia with
    | false => exact ⟨front, tree, [], rfl, htree, fun blank hblank => absurd hblank List.not_mem_nil⟩
    | true =>
      have hnone : significantKinds [tree] = [] := by simp [significantKinds, htree]
      rw [significantKinds_append, hnone, List.append_nil] at h
      obtain ⟨front', last, blanks, rfl, hlast, hblanks⟩ := ih h
      refine ⟨front', last, blanks ++ [tree], by simp, hlast, fun blank hblank => ?_⟩
      rcases List.mem_append.mp hblank with hblank | hblank
      · exact hblanks blank hblank
      · rw [List.mem_singleton.mp hblank]
        exact htree

/-- Before the parenthesis that closes a list of arguments stand blanks and comments, and before these
something that means something. -/
theorem argList_closed {children : List Tree} (h : Sound forms (.node .argList children)) :
    ∃ front last blanks close, children = front ++ last :: (blanks ++ [.leaf close]) ∧
      last.isTrivia = false ∧ (∀ blank ∈ blanks, blank.isTrivia = true) ∧ close.kind = .rParen := by
  obtain ⟨⟨inner, hkinds⟩, -⟩ := argList_children h
  have hlast : (significantKinds children).getLast? = some (.token .rParen) := by
    rw [hkinds, ← List.cons_append, List.getLast?_concat]
  obtain ⟨closing, hclosing, hkind⟩ := exists_getLast?_of_row hlast h.last_solid
  obtain ⟨before, rfl⟩ := List.getLast?_eq_some_iff.mp hclosing
  cases closing with
  | node kind parts => cases hkind
  | leaf close =>
    have hclose : close.kind = .rParen := by simpa [Tree.kind] using hkind
    have hone : significantKinds [.leaf close] = [.token .rParen] := by
      simp [significantKinds, Tree.isTrivia, Tree.kind, hclose, Kind.isTrivia, TokenKind.isTrivia]
    rw [significantKinds_append, hone, ← List.cons_append] at hkinds
    have hbefore : significantKinds before ≠ [] := by
      rw [(List.append_inj' hkinds rfl).1]
      exact List.cons_ne_nil _ _
    obtain ⟨front, last, blanks, rfl, hsolid, hblanks⟩ := exists_last_solid hbefore
    exact ⟨front, last, blanks, close, by simp, hsolid, hblanks, hclose⟩

/-- A call ends with its arguments, and has no other list of arguments right below. -/
theorem callExpr_closed {children : List Tree} (h : Sound forms (.node .callExpr children)) :
    ∃ before list, children = before ++ [.node .argList list] ∧
      ∀ part ∈ before, part.kind ≠ .node .argList := by
  obtain ⟨first, hfirst, hkinds⟩ := callExpr_children h
  obtain ⟨front, hfront, hother⟩ : ∃ front, significantKinds children = front ++ [.node .argList] ∧
      Kind.node .argList ∉ front := by
    have hne : NodeKind.argList ≠ first := by
      rintro rfl
      cases hfirst
    rcases hkinds with hkinds | hkinds
    · exact ⟨[.node first], hkinds, by simp [hne]⟩
    · exact ⟨[.node first, .node .typeArgList], hkinds, by simp [hne]⟩
  have hlast : (significantKinds children).getLast? = some (.node .argList) := by
    rw [hfront, List.getLast?_concat]
  obtain ⟨closing, hclosing, hkind⟩ := exists_getLast?_of_row hlast h.last_solid
  obtain ⟨before, rfl⟩ := List.getLast?_eq_some_iff.mp hclosing
  cases closing with
  | leaf token => cases hkind
  | node kind list =>
    cases hkind
    refine ⟨before, list, rfl, fun part hpart hkind => hother ?_⟩
    have hone : significantKinds [.node .argList list] = [.node .argList] := rfl
    rw [significantKinds_append, hone] at hfront
    rw [← (List.append_inj' hfront rfl).1, ← hkind]
    refine List.mem_map_of_mem (List.mem_filter.mpr ⟨hpart, ?_⟩)
    cases part with
    | leaf token => cases hkind
    | node kind parts => rfl

end Grammar

end RouteTypes
