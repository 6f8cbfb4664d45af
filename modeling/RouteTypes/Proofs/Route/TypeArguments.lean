-- Type arguments of a call, which are told from comparisons by what stands behind the angle bracket that
-- closes them. Where they are found there is no call in them: a type can only hold one behind an equals
-- sign, which no type argument may have. So nothing is put into them, and they are found again.
import RouteTypes.Proofs.Grammar.Tails
import RouteTypes.Proofs.Route.Growth

namespace RouteTypes

open RouteTypes.Tree

/-! ## Rows up to an equals sign -/

/-- Whether everything before the first equals sign has the property. -/
def allUntilEq (ok : Kind → Bool) : List Kind → Bool
  | [] => true
  | kind :: rest => kind == .token .eq || ok kind && allUntilEq ok rest

theorem allUntilEq_append {ok : Kind → Bool} {one other : List Kind} (hone : allUntilEq ok one = true)
    (hother : Kind.token .eq ∈ one ∨ allUntilEq ok other = true) : allUntilEq ok (one ++ other) = true := by
  induction one with
  | nil =>
    rcases hother with hother | hother
    · cases hother
    · exact hother
  | cons kind rest ih =>
    rw [allUntilEq, Bool.or_eq_true, Bool.and_eq_true] at hone
    rw [List.cons_append, allUntilEq, Bool.or_eq_true, Bool.and_eq_true]
    rcases hone with heq | ⟨hkind, hrest⟩
    · exact .inl heq
    · by_cases heq : kind = .token .eq
      · exact .inl (beq_iff_eq.mpr heq)
      · refine .inr ⟨hkind, ih hrest (hother.imp_left fun hmem => ?_)⟩
        rcases List.mem_cons.mp hmem with h | h
        · exact absurd h.symm heq
        · exact h

/-- Whether the steps read an equals sign in any case. -/
def Steps.readsEq : Steps → Bool
  | .take kinds => kinds.all (· == .eq)
  | .seq first rest => first.readsEq || rest.readsEq
  | .branch _ yes no => yes.readsEq && no.readsEq
  | _ => false

/-- Whether all that the steps read before an equals sign has the property. -/
def Steps.allUntilEq (ok : Kind → Bool) : Steps → Bool
  | .seq first rest => first.allUntilEq ok && (first.readsEq || rest.allUntilEq ok)
  | .branch _ yes no => yes.allUntilEq ok && no.allUntilEq ok
  | .take kinds => kinds.all fun kind => kind == .eq || ok (.token kind)
  | steps => steps.allIn ok

/-- Whether all children of a node of that kind before an equals sign have the property. -/
def Body.allUntilEq (ok : Kind → Bool) (kind : NodeKind) : Body → Bool
  | .close _ => true
  | .seq first rest => first.allUntilEq ok && (first.readsEq || rest.allUntilEq ok kind)
  | .branch _ yes no =>
    (!yes.closes kind || yes.allUntilEq ok kind) && (!no.closes kind || no.allUntilEq ok kind)

def NodeForm.allUntilEq (ok : Kind → Bool) (kind : NodeKind) (form : NodeForm) : Bool :=
  form.body.allUntilEq ok kind && form.inner.all fun inner => inner.all fun kind => ok (.node kind)

section

variable {ok : Kind → Bool}

theorem allUntilEq_of_all {row : List Kind} (h : ∀ kind ∈ row, ok kind = true) :
    RouteTypes.allUntilEq ok row = true := by
  induction row with
  | nil => rfl
  | cons kind rest ih =>
    rw [RouteTypes.allUntilEq, h kind List.mem_cons_self,
      ih fun kind hkind => h kind (List.mem_cons_of_mem _ hkind)]
    simp

theorem Steps.eq_mem_of_row : ∀ (steps : Steps) (row : List Kind), steps.readsEq = true →
    row ∈ steps.language → Kind.token .eq ∈ row
  | .take kinds, row, h, ⟨kind, hkind, hrow⟩ => by
    rw [hrow, beq_iff_eq.mp (List.all_eq_true.mp h kind hkind)]
    exact List.mem_singleton_self _
  | .seq first rest, row, h, hrow => by
    obtain ⟨one, hone, other, hother, rfl⟩ := Language.mem_mul.mp hrow
    rw [Steps.readsEq, Bool.or_eq_true] at h
    rcases h with h | h
    · exact List.mem_append_left _ (first.eq_mem_of_row one h hone)
    · exact List.mem_append_right _ (rest.eq_mem_of_row other h hother)
  | .branch _ yes no, row, h, hrow => by
    rw [Steps.readsEq, Bool.and_eq_true] at h
    rcases Question.mem_of_ways hrow with hrow | hrow
    · exact yes.eq_mem_of_row row h.1 hrow
    · exact no.eq_mem_of_row row h.2 hrow

theorem Steps.allUntilEq_of_row : ∀ (steps : Steps) (row : List Kind), steps.allUntilEq ok = true →
    row ∈ steps.language → RouteTypes.allUntilEq ok row = true
  | .seq first rest, row, h, hrow => by
    obtain ⟨one, hone, other, hother, rfl⟩ := Language.mem_mul.mp hrow
    rw [Steps.allUntilEq, Bool.and_eq_true, Bool.or_eq_true] at h
    exact allUntilEq_append (first.allUntilEq_of_row one h.1 hone)
      (h.2.imp (first.eq_mem_of_row one · hone) (rest.allUntilEq_of_row other · hother))
  | .branch _ yes no, row, h, hrow => by
    rw [Steps.allUntilEq, Bool.and_eq_true] at h
    rcases Question.mem_of_ways hrow with hrow | hrow
    · exact yes.allUntilEq_of_row row h.1 hrow
    · exact no.allUntilEq_of_row row h.2 hrow
  | .take kinds, row, h, ⟨kind, hkind, hrow⟩ => by
    have hone := List.all_eq_true.mp h kind hkind
    rw [hrow, RouteTypes.allUntilEq]
    rw [Bool.or_eq_true, beq_iff_eq] at hone
    rcases hone with rfl | hone
    · rfl
    · simp [hone, RouteTypes.allUntilEq]
  | .done, row, h, hrow => allUntilEq_of_all (Steps.done.all_of_row row h hrow)
  | .refuse _, row, h, hrow => absurd hrow (Language.notMem_zero _)
  | .loop question body, row, h, hrow =>
    allUntilEq_of_all ((Steps.loop question body).all_of_row row h hrow)
  | .part phrase, row, h, hrow => allUntilEq_of_all ((Steps.part phrase).all_of_row row h hrow)
  | .enclosed what inside, row, h, hrow =>
    allUntilEq_of_all ((Steps.enclosed what inside).all_of_row row h hrow)

theorem Body.allUntilEq_of_row {kind : NodeKind} : ∀ (body : Body) (row : List Kind),
    body.allUntilEq ok kind = true → row ∈ body.language kind → RouteTypes.allUntilEq ok row = true
  | .close _, row, _, hrow => by
    rw [Body.language] at hrow
    split at hrow
    · rw [(Language.mem_one _).mp hrow]
      rfl
    · exact absurd hrow (Language.notMem_zero _)
  | .seq first rest, row, h, hrow => by
    obtain ⟨one, hone, other, hother, rfl⟩ := Language.mem_mul.mp hrow
    rw [Body.allUntilEq, Bool.and_eq_true, Bool.or_eq_true] at h
    exact allUntilEq_append (first.allUntilEq_of_row one h.1 hone)
      (h.2.imp (first.eq_mem_of_row one · hone) (rest.allUntilEq_of_row other · hother))
  | .branch _ yes no, row, h, hrow => by
    rw [Body.allUntilEq, Bool.and_eq_true] at h
    rcases Question.mem_of_ways hrow with hrow | hrow
    · rw [yes.closes_of_row hrow] at h
      exact yes.allUntilEq_of_row row h.1 hrow
    · rw [no.closes_of_row hrow] at h
      exact no.allUntilEq_of_row row h.2 hrow

theorem NodeForm.allUntilEq_of_row {own : NodeKind} {form : NodeForm} {row : List Kind}
    (h : form.allUntilEq ok own = true) (hrow : row ∈ form.language own) :
    RouteTypes.allUntilEq ok row = true := by
  obtain ⟨inner, body⟩ := form
  rw [NodeForm.allUntilEq, Bool.and_eq_true] at h
  cases inner with
  | none => exact body.allUntilEq_of_row row h.1 hrow
  | some inner =>
    obtain ⟨first, hfirst, rest, hrest, rfl⟩ := hrow
    have hone : ok (.node first) = true := List.all_eq_true.mp h.2 first hfirst
    rw [RouteTypes.allUntilEq, hone, body.allUntilEq_of_row rest h.1 hrest]
    simp

end

namespace Grammar

/-! ## Types -/

/-- The nodes that types are made of. -/
def typeKinds : List NodeKind :=
  [.name, .nameRef, .typeRef, .typeArgList, .parenType, .functionType, .typeLiteral, .propertySignature,
    .methodSignature, .indexSignature, .thisType, .predefinedType, .literalType, .arrayType, .unionType,
    .paramList, .param, .typeAscription, .typeParamList, .typeParam, .modifierList]

/-- What stands in types outside of angle brackets. -/
def typePart : Kind → Bool
  | .token kind => kind != .lt && kind != .gt
  | .node kind => typeKinds.contains kind
  | .tombstone => false

def isAngled (kind : NodeKind) : Bool := kind == .typeArgList || kind == .typeParamList

theorem forms_types : forms.all (fun form => typeKinds.all fun kind =>
    !form.body.closes kind || isAngled kind || form.allUntilEq typePart kind) = true := by
  decide +kernel

/-- Items of types between angle brackets. -/
def angled (kind : NodeKind) (item : Steps) : NodeForm :=
  ⟨none, .ofSteps kind [.expect .lt, .separated .gt item, .expect .gt]⟩

theorem forms_angled : forms.all (fun form =>
    (!form.body.closes .typeArgList || form == angled .typeArgList (.call .type)) &&
      (!form.body.closes .typeParamList || form == angled .typeParamList typeParam)) = true := by
  decide +kernel

theorem exists_angled {form : NodeForm} {kind : NodeKind} (hform : form ∈ forms)
    (hkind : isAngled kind = true) (hcloses : form.body.closes kind = true) :
    ∃ item, form = angled kind item ∧ (Steps.separated .gt item).allIn typePart = true := by
  have hall := List.all_eq_true.mp forms_angled form hform
  rw [Bool.and_eq_true] at hall
  rw [isAngled, Bool.or_eq_true, beq_iff_eq, beq_iff_eq] at hkind
  rcases hkind with rfl | rfl
  · rw [hcloses] at hall
    exact ⟨_, beq_iff_eq.mp hall.1, by decide +kernel⟩
  · rw [hcloses] at hall
    exact ⟨_, beq_iff_eq.mp hall.2, by decide +kernel⟩

end Grammar

/-! ## Going past types -/

namespace TokenKind

/-- Between angle brackets the search for the closing one goes past these tokens, whatever stands behind
them; if it succeeds at all, the claim holds. -/
def Skips (claim : Prop) (kinds : List TokenKind) : Prop :=
  ∀ (depth : Nat) (rest : List TokenKind), callBehindTypeArgs (depth + 1) (kinds ++ rest) = true →
    claim ∧ callBehindTypeArgs (depth + 1) rest = true ∧
      ∀ rest', callBehindTypeArgs (depth + 1) rest' = true →
        callBehindTypeArgs (depth + 1) (kinds ++ rest') = true

theorem Skips.imp {claim claim' : Prop} {kinds : List TokenKind} (h : Skips claim kinds)
    (himp : claim → claim') : Skips claim' kinds := fun depth rest htrue =>
  ⟨himp (h depth rest htrue).1, (h depth rest htrue).2⟩

theorem Skips.nil : Skips True [] := fun _ _ htrue => ⟨trivial, htrue, fun _ h => h⟩

theorem Skips.append {one other : Prop} {kinds more : List TokenKind} (h : Skips one kinds)
    (h' : Skips other more) : Skips (one ∧ other) (kinds ++ more) := by
  intro depth rest htrue
  rw [List.append_assoc] at htrue
  obtain ⟨hone, hbehind, hagain⟩ := h depth _ htrue
  obtain ⟨hother, hrest, hagain'⟩ := h' depth _ hbehind
  refine ⟨⟨hone, hother⟩, hrest, fun rest' hrest' => ?_⟩
  rw [List.append_assoc]
  exact hagain _ (hagain' _ hrest')

theorem Skips.token {kind : TokenKind} (hlt : kind ≠ .lt) (hgt : kind ≠ .gt) : Skips True [kind] := by
  intro depth rest htrue
  rw [List.singleton_append, callBehindTypeArgs, if_neg hlt, if_neg hgt] at htrue
  split at htrue
  · rename_i htype
    refine ⟨trivial, htrue, fun rest' hrest' => ?_⟩
    rw [List.singleton_append, callBehindTypeArgs, if_neg hlt, if_neg hgt, if_pos htype]
    exact hrest'
  · cases htrue

/-- There are no equals signs in type arguments. -/
theorem Skips.eq (claim : Prop) (kinds : List TokenKind) : Skips claim (.eq :: kinds) :=
  fun _ _ htrue => by cases htrue

theorem Skips.angled {claim : Prop} {kinds : List TokenKind} (h : Skips claim kinds) :
    Skips claim (.lt :: (kinds ++ [.gt])) := by
  intro depth rest htrue
  have hinner : ∀ rest, callBehindTypeArgs (depth + 1) (.lt :: (kinds ++ [.gt]) ++ rest) =
      callBehindTypeArgs (depth + 2) (kinds ++ .gt :: rest) := by
    intro rest
    rw [List.cons_append, List.append_assoc]
    rfl
  rw [hinner] at htrue
  obtain ⟨hclaim, hrest, hagain⟩ := h (depth + 1) _ htrue
  exact ⟨hclaim, hrest, fun rest' hrest' => (hinner rest').trans (hagain (.gt :: rest') hrest')⟩

end TokenKind

namespace Route

variable {config : Config}

/-- Nothing is put into the tree. -/
def Still (config : Config) (tree : Tree) : Prop := ∀ tree', Grown config tree tree' → tree' = tree

theorem still_leaf (token : Token) : Still config (.leaf token) := by
  intro tree' h
  cases h
  rfl

theorem GrownAll.still {trees trees' : List Tree} (h : GrownAll config trees trees')
    (hstill : ∀ tree ∈ trees, Still config tree) : trees' = trees := by
  induction trees generalizing trees' with
  | nil =>
    cases h
    rfl
  | cons tree rest ih =>
    cases h with
    | cons first others =>
      rw [hstill tree List.mem_cons_self _ first,
        ih others fun tree htree => hstill tree (List.mem_cons_of_mem _ htree)]

theorem still_node {kind : NodeKind} {children : List Tree} (hkind : kind ≠ .argList)
    (h : ∀ child ∈ children, Still config child) : Still config (.node kind children) := by
  intro tree' hgrown
  cases hgrown with
  | node _ below => rw [below.still h]
  | list _ _ _ _ _ _ => exact absurd rfl hkind

theorem solidKinds_significant (trees : List Tree) :
    Token.solidKinds (tokensOf (trees.filter (!·.isTrivia))) = Token.solidKinds (tokensOf trees) := by
  induction trees with
  | nil => rfl
  | cons tree rest ih =>
    rw [List.filter_cons, tokensOf, Token.solidKinds_append, ← ih]
    cases htrivia : tree.isTrivia with
    | false => simp [tokensOf, Token.solidKinds_append]
    | true =>
      have hnone := @solidKinds_blanks [tree] fun blank hblank => by
        rw [List.mem_singleton.mp hblank]
        exact htrivia
      rw [tokensOf, tokensOf, List.append_nil] at hnone
      simp [hnone]

/-- The search goes past a tree of types between angle brackets. -/
def Passed (config : Config) (tree : Tree) : Prop :=
  TokenKind.Skips (Still config tree) (Token.solidKinds tree.tokens)

theorem passed_leaf {token : Token} (hsolid : token.isTrivia = false)
    (hkind : Grammar.typePart (.token token.kind) = true) : Passed config (.leaf token) := by
  rw [Grammar.typePart, Bool.and_eq_true, bne_iff_ne, bne_iff_ne] at hkind
  have hone : Token.solidKinds (Tree.leaf token).tokens = [token.kind] := by
    rw [Tree.tokens, Token.solidKinds_cons, hsolid]
    rfl
  rw [Passed, hone]
  exact (TokenKind.Skips.token hkind.1 hkind.2).imp fun _ => still_leaf token

/-- Children of types are gone past up to an equals sign, behind which nothing else matters. -/
theorem passed_all {trees : List Tree} (hsolid : ∀ tree ∈ trees, tree.isTrivia = false)
    (hkinds : allUntilEq Grammar.typePart (trees.map Tree.kind) = true)
    (hnodes : ∀ tree ∈ trees, ∀ kind children, tree = .node kind children →
      Grammar.typeKinds.contains kind = true → Passed config tree) :
    TokenKind.Skips (∀ tree ∈ trees, Still config tree) (Token.solidKinds (tokensOf trees)) := by
  induction trees with
  | nil => exact TokenKind.Skips.nil.imp fun _ tree htree => absurd htree List.not_mem_nil
  | cons tree rest ih =>
    rw [List.map_cons, allUntilEq, Bool.or_eq_true, beq_iff_eq, Bool.and_eq_true] at hkinds
    rw [tokensOf, Token.solidKinds_append]
    have htree := hsolid tree List.mem_cons_self
    rcases hkinds with heq | ⟨hkind, hrest⟩
    · cases tree with
      | node kind children => cases heq
      | leaf token =>
        have hone : Token.solidKinds (Tree.leaf token).tokens = [.eq] := by
          have hsolid : token.isTrivia = false := htree
          rw [Tree.tokens, Token.solidKinds_cons, hsolid]
          simpa [Tree.kind, Token.solidKinds] using heq
        rw [hone]
        exact TokenKind.Skips.eq _ _
    · have hone : Passed config tree := by
        cases tree with
        | leaf token => exact passed_leaf htree hkind
        | node kind children => exact hnodes _ List.mem_cons_self kind children rfl hkind
      refine (hone.append (ih (fun tree h => hsolid tree (List.mem_cons_of_mem _ h)) hrest
        fun tree h => hnodes tree (List.mem_cons_of_mem _ h))).imp fun h tree hmem => ?_
      rcases List.mem_cons.mp hmem with rfl | hmem
      · exact h.1
      · exact h.2 tree hmem

theorem solidKinds_of_kind {tree : Tree} {kind : TokenKind} (h : tree.kind = .token kind)
    (hsolid : kind.isTrivia = false) : Token.solidKinds tree.tokens = [kind] := by
  cases tree with
  | node own children => cases h
  | leaf token =>
    obtain rfl : token.kind = kind := by simpa [Tree.kind] using h
    have htoken : token.isTrivia = false := hsolid
    rw [Tree.tokens, Token.solidKinds_cons, htoken]
    rfl

theorem still_of_token {tree : Tree} {kind : TokenKind} (h : tree.kind = .token kind) : Still config tree := by
  cases tree with
  | node own children => cases h
  | leaf token => exact still_leaf token

/-- A list of types stands between angle brackets, and what is between them is gone past. -/
theorem passed_angled {kind : NodeKind} {children : List Tree}
    (hsound : Sound Grammar.forms (.node kind children)) (hangled : Grammar.isAngled kind = true)
    (hnodes : ∀ child ∈ children, ∀ own parts, child = .node own parts →
      Grammar.typeKinds.contains own = true → Passed config child) :
    ∃ kinds, Token.solidKinds (Tree.node kind children).tokens = .lt :: (kinds ++ [.gt]) ∧
      TokenKind.Skips (Still config (.node kind children)) kinds := by
  obtain ⟨form, hmem, hcloses, hrow⟩ := hsound.exists_form
  obtain ⟨item, rfl, hitem⟩ := Grammar.exists_angled hmem hangled hcloses
  obtain ⟨opening, hopening, behind, hbehind, hkinds⟩ := Language.mem_mul.mp (Body.ofSteps_row hrow)
  obtain ⟨inner, hinner, closing, hclosing, rfl⟩ := Language.mem_mul.mp hbehind
  obtain ⟨last, hlast, nothing, hnothing, rfl⟩ := Language.mem_mul.mp hclosing
  rw [Steps.expect_row hopening, Steps.expect_row hlast, (Language.mem_one _).mp hnothing, List.append_nil,
    List.singleton_append, significantKinds, eq_comm] at hkinds
  obtain ⟨first, rest, hcut, hfirst, hrest⟩ := List.map_eq_cons_iff.mp hkinds
  obtain ⟨middle, ends, rfl, hmiddle, hends⟩ := List.map_eq_append_iff.mp hrest
  obtain ⟨final, rfl, hfinal⟩ := List.map_eq_singleton_iff.mp hends
  have hfilter : ∀ tree ∈ first :: (middle ++ [final]), tree ∈ children ∧ tree.isTrivia = false := by
    intro tree htree
    rw [← hcut] at htree
    obtain ⟨htree, hsolid⟩ := List.mem_filter.mp htree
    exact ⟨htree, (Bool.not_eq_true' _).mp hsolid⟩
  have hpassed := @passed_all config middle
    (fun tree htree => (hfilter tree (List.mem_cons_of_mem _ (List.mem_append_left _ htree))).2)
    (hmiddle ▸ allUntilEq_of_all ((Steps.separated .gt item).all_of_row _ hitem hinner))
    (fun tree htree => hnodes tree
      (hfilter tree (List.mem_cons_of_mem _ (List.mem_append_left _ htree))).1)
  refine ⟨Token.solidKinds (tokensOf middle), ?_, hpassed.imp fun hstill => still_node ?_ fun child hchild => ?_⟩
  · rw [Tree.tokens, ← solidKinds_significant, hcut, tokensOf, tokensOf_append, tokensOf, tokensOf, List.append_nil,
      Token.solidKinds_append, Token.solidKinds_append, solidKinds_of_kind hfirst rfl, solidKinds_of_kind hfinal rfl]
    rfl
  · rintro rfl
    cases hangled
  · cases hsolid : child.isTrivia with
    | true =>
      cases child with
      | leaf token => exact still_leaf token
      | node own parts => cases hsolid
    | false =>
      have hmem : child ∈ children.filter (!·.isTrivia) := List.mem_filter.mpr ⟨hchild, by rw [hsolid]; rfl⟩
      rw [hcut] at hmem
      rcases List.mem_cons.mp hmem with rfl | hmem
      · exact still_of_token hfirst
      · rcases List.mem_append.mp hmem with hmem | hmem
        · exact hstill child hmem
        · rw [List.mem_singleton.mp hmem]
          exact still_of_token hfinal

/-- The search goes past every tree of types. -/
theorem passed {tree : Tree} (h : tree.Sound Grammar.forms) : ∀ kind children, tree = .node kind children →
    Grammar.typeKinds.contains kind = true → Passed config tree := by
  induction h with
  | leaf token =>
    intro kind children hnode
    cases hnode
  | @node kind children form hmem hrow hlast hsound ih =>
    intro own parts hnode htype
    cases hnode
    have hwhole : Sound Grammar.forms (.node kind children) := .node hmem hrow hlast hsound
    cases hangled : Grammar.isAngled kind with
    | true =>
      obtain ⟨kinds, hkinds, hskips⟩ := passed_angled hwhole hangled ih
      rw [Passed, hkinds]
      exact hskips.angled
    | false =>
      obtain ⟨form, hmem, hcloses, hrow⟩ := hwhole.exists_form
      have hall := List.all_eq_true.mp (List.all_eq_true.mp Grammar.forms_types form hmem) kind
        (List.contains_iff_mem.mp htype)
      rw [hcloses, hangled] at hall
      have hpassed := @passed_all config (children.filter (!·.isTrivia))
        (fun tree htree => (Bool.not_eq_true' _).mp (List.mem_filter.mp htree).2)
        (form.allUntilEq_of_row hall hrow) (fun tree htree => ih tree (List.mem_filter.mp htree).1)
      rw [solidKinds_significant] at hpassed
      refine hpassed.imp fun hstill => still_node ?_ fun child hchild => ?_
      · rintro rfl
        cases htype
      · cases hsolid : child.isTrivia with
        | true =>
          cases child with
          | leaf token => exact still_leaf token
          | node own parts => cases hsolid
        | false => exact hstill child (List.mem_filter.mpr ⟨hchild, by rw [hsolid]; rfl⟩)

/-- Type arguments that were told by the parenthesis behind them are told by it again, and nothing is put
into them. -/
theorem typeArgs_again {children : List Tree} {rest : List TokenKind}
    (hsound : Sound Grammar.forms (.node .typeArgList children))
    (h : TokenKind.callBehindTypeArgs 0
      (Token.solidKinds (Tree.node .typeArgList children).tokens ++ rest) = true) :
    Still config (.node .typeArgList children) ∧ rest.head? = some .lParen ∧
      ∀ rest', rest'.head? = some .lParen → TokenKind.callBehindTypeArgs 0
        (Token.solidKinds (Tree.node .typeArgList children).tokens ++ rest') = true := by
  obtain ⟨kinds, hkinds, hskips⟩ := @passed_angled config _ _ hsound rfl
    fun child hchild own parts hnode htype => passed (hsound.child child hchild) own parts hnode htype
  have hinner : ∀ rest, TokenKind.callBehindTypeArgs 0 (.lt :: (kinds ++ [.gt]) ++ rest) =
      TokenKind.callBehindTypeArgs 1 (kinds ++ .gt :: rest) := by
    intro rest
    rw [List.cons_append, List.append_assoc]
    rfl
  rw [hkinds, hinner] at h
  obtain ⟨hstill, hend, hagain⟩ := hskips 0 _ h
  refine ⟨hstill, beq_iff_eq.mp hend, fun rest' hrest' => ?_⟩
  rw [hkinds, hinner]
  exact hagain (.gt :: rest') (beq_iff_eq.mpr hrest')

end Route

end RouteTypes
