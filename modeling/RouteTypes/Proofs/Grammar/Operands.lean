-- How operands grow. An operand is put into a call, an operator and so on as long as the next token goes on
-- with it. Each time the operators in it bind tight enough for what it is put into, since the token behind a
-- right operand would have been taken into that one if it bound tighter.
import RouteTypes.Proofs.Grammar.Grouping

namespace RouteTypes

open RouteTypes.Tree

/-! ## Where an operand ends -/

/-- The next token does not go on with an operand whose operators have to bind at least that tight. -/
structure Sight.Ends (least : Nat) (s : Sight) : Prop where
  opening : s.kind ∉ [.lParen, .dot, .questionDot, .lBracket]
  typeArgs : s.isAtCallTypeArgs = false
  cast : s.kind = .asKw → Grammar.asPower < least
  operator : ∀ level, s.kind.level? = some level → level < least

/-- An operator behind the tree is one that cannot be taken into it. -/
structure Tree.Closed (tree : Tree) (s : Sight) : Prop where
  binary : ∀ level, tree.level? = some level → s.Ends (level + 1)
  unary : tree.kind = .node .prefixExpr → s.Ends Grammar.prefixPower

/-- An operand, and what is to come behind it. -/
structure Tree.OperandAt (least : Nat) (tree : Tree) (s : Sight) : Prop where
  grouped : tree.Grouped
  operand : tree.Operand least
  closed : tree.Closed s
  isNode : ∃ kind, tree.kind = .node kind

/-- The kinds of nodes that bind tighter than every operator. -/
def NodeKind.isAtomic (kind : NodeKind) : Bool :=
  !kind.isLoose && kind != .binaryExpr && kind != .asExpr && kind != .prefixExpr

namespace Tree.OperandAt

variable {least : Nat} {tree : Tree} {s : Sight}

theorem of_atomic {kind : NodeKind} {children : List Tree} (hkind : kind.isAtomic = true)
    (hgrouped : (Tree.node kind children).Grouped) : (Tree.node kind children).OperandAt least s := by
  have hloose : kind.isLoose = false := by
    revert hkind
    cases kind <;> decide
  refine ⟨hgrouped, ⟨⟨fun own hown => ?_, fun hown => ?_⟩, fun hown => ?_⟩,
    ⟨fun level hlevel => ?_, fun hown => ?_⟩, kind, rfl⟩
  · cases hown
    exact hloose
  · cases hown
    cases hkind
  · cases hown
    cases hkind
  · unfold level? at hlevel
    split at hlevel
    · rename_i heq
      cases heq
      cases hkind
    · cases hlevel
  · cases hown
    cases hkind

theorem solid (h : tree.OperandAt least s) : tree.isTrivia = false := by
  obtain ⟨kind, hkind⟩ := h.isNode
  rw [Tree.isTrivia, hkind]
  rfl

/-- An operand that is called, indexed or asked for a member by what stands behind it. -/
theorem receiver (h : tree.OperandAt least s)
    (hgoesOn : s.kind ∈ [.lParen, .dot, .questionDot, .lBracket] ∨ s.isAtCallTypeArgs = true) :
    tree.Receiver := by
  have hnot : ∀ least, ¬s.Ends least := by
    intro least hends
    rcases hgoesOn with hopening | htypeArgs
    · exact hends.opening hopening
    · rw [hends.typeArgs] at htypeArgs
      cases htypeArgs
  refine ⟨h.isNode, h.operand.tight, fun hbinary => ?_, fun hunary => hnot _ (h.closed.unary hunary)⟩
  obtain ⟨level, hlevel, -⟩ := h.operand.binary hbinary
  exact hnot _ (h.closed.binary level hlevel)

/-- An operator behind an operand binds no tighter than the operator in it. -/
theorem bindsBy {level : Nat} (h : tree.OperandAt least s)
    (hgoesOn : ∀ other, s.Ends other → level < other) : tree.BindsBy level where
  tight := h.operand.tight
  binary hbinary := by
    obtain ⟨inner, hinner, -⟩ := h.operand.binary hbinary
    have hless := hgoesOn _ (h.closed.binary inner hinner)
    exact ⟨inner, hinner, by omega⟩

end Tree.OperandAt

/-! ## Going on with an operand -/

section

variable {readings : Readings}

theorem Suffix.read_around {kind : NodeKind} {steps : List Steps} {tree outer : Tree} {s behind : Sight}
    (h : (Suffix.around (.ofSteps kind steps)).read readings tree s = (some outer, behind)) :
    outer = .node kind (tree :: ((Steps.all steps).read readings s).1) ∧
      behind = ((Steps.all steps).read readings s).2 := by
  simp only [Suffix.read, Body.ofSteps, Body.read, List.append_nil, Prod.mk.injEq, Option.some_inj] at h
  exact ⟨h.1.symm, h.2.symm⟩

namespace Grammar

/-- Behind an operand nothing goes on with it. -/
theorem ends_of_operandSuffix {least : Nat} {tree : Tree} {s : Sight} (hfits : s.misfits = [])
    (h : ((operandSuffix least).read readings tree s).1 = none) : s.Ends least := by
  have hmisfit : ¬Question.misfit.ask s = true := by simp [Question.ask, Sight.hasMisfit, hfits]
  rw [operandSuffix, Suffix.firstOf, Suffix.read, if_neg hmisfit] at h
  have hno := Suffix.ask_of_firstOf (by
    intro arm harm
    simp only [List.mem_cons, List.mem_map] at harm
    rcases harm with rfl | rfl | rfl | rfl | rfl | ⟨entry, -, rfl⟩ <;> exact ⟨_, rfl⟩) h
  rw [List.forall_mem_cons, List.forall_mem_cons, List.forall_mem_cons, List.forall_mem_cons,
    List.forall_mem_cons, List.forall_mem_map] at hno
  simp only [Grammar.binarySuffix, Question.ask, Sight.isAtAny, List.contains_eq_mem, List.mem_cons,
    List.not_mem_nil, or_false, Bool.and_eq_false_iff, decide_eq_false_iff_not, not_or] at hno
  obtain ⟨hparen, htypeArgs, ⟨hdot, hquestionDot⟩, hbracket, hcast, hbinary⟩ := hno
  refine ⟨by simp [hparen, hdot, hquestionDot, hbracket], htypeArgs, fun hkind => ?_, fun level hlevel => ?_⟩
  · exact Nat.lt_of_not_le (hcast.resolve_right fun h => h hkind)
  · obtain ⟨kinds, hmem, hkind⟩ := exists_power hlevel
    exact Nat.lt_of_not_le ((hbinary _ hmem).resolve_right fun h => h hkind)

end Grammar

end

/-! ## What the rules read -/

/-- What each rule reads, and what is to come behind it. -/
def Rule.gives : Rule → Tree → Sight → Prop
  | .operand least, tree, s => tree.OperandAt least s ∧ s.Ends least
  | .primary, tree, s => ∀ least, tree.OperandAt least s
  | .statement, tree, _ | .expression, tree, _ | .type, tree, _ => tree.Grouped

theorem Rule.grouped_of_gives {rule : Rule} {tree : Tree} {s : Sight} (h : rule.gives tree s) :
    tree.Grouped := by
  cases rule with
  | operand least => exact h.1.grouped
  | primary => exact (h 0).grouped
  | statement | expression | type => exact h

/-- Rules that read grouped expressions. -/
structure Readings.Operands (readings : Readings) : Prop where
  fit : readings.Fit Grammar.forms
  gives : ∀ rule, (Phrase.call rule).Gives readings rule.gives

namespace Tree

theorem solid_append (trees others : List Tree) : solid (trees ++ others) = solid trees ++ solid others := by
  simp [solid]

theorem solid_leaves {blanks : List Token} (h : ∀ blank ∈ blanks, blank.isTrivia = true) :
    solid (blanks.map .leaf) = [] := by
  rw [solid, List.filter_eq_nil_iff]
  intro tree htree
  obtain ⟨blank, hblank, rfl⟩ := List.mem_map.mp htree
  have hkind : (Tree.leaf blank).isTrivia = true := h blank hblank
  simp [hkind]

theorem solid_cons {tree : Tree} (h : tree.isTrivia = false) (rest : List Tree) :
    solid (tree :: rest) = tree :: solid rest := by
  simp [solid, h]

end Tree

/-- Of a token that is taken only the token itself is solid. -/
theorem Sight.solid_take {s : Sight} {kinds : List TokenKind} (hat : s.isAtAny kinds = true)
    (heof : s.kind ≠ .eof) : ∃ token : Token, token.kind = s.kind ∧ solid (s.take kinds).1 = [.leaf token] := by
  obtain ⟨ahead, misfits⟩ := s
  cases ahead with
  | nil => exact absurd rfl heof
  | cons next rest =>
    have hsolid : (Tree.leaf next.token).isTrivia = false := next.token_solid
    have htrees : (Sight.take kinds ⟨next :: rest, misfits⟩).1 =
        next.leading.map .leaf ++ [.leaf next.token] := by
      rw [Sight.take, if_pos hat]
      simp [Sight.next, Lexeme.tokens]
    refine ⟨next.token, rfl, ?_⟩
    rw [htrees, solid_append, solid_leaves next.leading_trivia, solid_cons hsolid]
    rfl

namespace Readings.Operands

variable {readings : Readings}

/-- The operand behind an operator, with the operator. -/
theorem exists_operator (h : readings.Operands) {kinds : List TokenKind} {least : Nat} {s : Sight}
    (hat : s.isAtAny kinds = true) (heof : s.kind ≠ .eof)
    (hfits : ((Steps.all [.take kinds, .call (.operand least)]).read readings s).2.misfits = []) :
    ∃ operator operand, operator.kind = s.kind ∧
      solid ((Steps.all [.take kinds, .call (.operand least)]).read readings s).1 =
        [.leaf operator, operand] ∧
      (∀ tree ∈ ((Steps.all [.take kinds, .call (.operand least)]).read readings s).1, tree.Grouped) ∧
      operand.OperandAt least ((Steps.all [.take kinds, .call (.operand least)]).read readings s).2 ∧
      ((Steps.all [.take kinds, .call (.operand least)]).read readings s).2.Ends least := by
  obtain ⟨operator, hkind, hsolid⟩ := Sight.solid_take hat heof
  have hfound := h.fit.fits (.operand least) (s.take kinds).2 hfits
  have hgives := h.gives (.operand least) (s.take kinds).2
  have hread : (Steps.all [.take kinds, .call (.operand least)]).read readings s =
      ((s.take kinds).1 ++ ((readings (.operand least) (s.take kinds).2).1.trees ++ []),
        (readings (.operand least) (s.take kinds).2).2) := rfl
  rw [hread] at hfits ⊢
  cases hone : readings (.operand least) (s.take kinds).2 with
  | mk found behind =>
    rw [hone] at hfits hfound
    cases hfound with
    | @node blanks kind children htrivia _ _ =>
      obtain ⟨hoperand, hends⟩ := hgives blanks _ behind hone hfits
      refine ⟨operator, .node kind children, hkind, ?_, ?_, hoperand, hends⟩
      · rw [List.append_nil, solid_append, hsolid, Found.trees, solid_append, solid_leaves htrivia]
        rfl
      · intro tree htree
        rw [List.append_nil] at htree
        rcases List.mem_append.mp htree with htree | htree
        · obtain ⟨token, rfl⟩ := take_leaf _ _ _ htree
          exact .leaf token
        · rcases List.mem_append.mp htree with htree | htree
          · exact .of_mem_leaves htree
          · rw [List.mem_singleton.mp htree]
            exact hoperand.grouped

end Readings.Operands

/-! ## Calls, members and indices -/

/-- The nodes that are put around what is called, indexed or asked for a member. -/
def NodeKind.postfixes : List NodeKind := [.callExpr, .propertyAccess, .indexExpr]

/-- An operand with one of these nodes around it is an operand of any power. -/
theorem Tree.OperandAt.around {least other : Nat} {tree : Tree} {rest : List Tree} {s behind : Sight}
    {kind : NodeKind} (h : tree.OperandAt least s)
    (hgoesOn : s.kind ∈ [.lParen, .dot, .questionDot, .lBracket] ∨ s.isAtCallTypeArgs = true)
    (hkind : kind ∈ NodeKind.postfixes) (hrest : ∀ child ∈ rest, child.Grouped) :
    (Tree.node kind (tree :: rest)).OperandAt other behind := by
  have hgrouping : Grouping kind (Tree.solid (tree :: rest)) := by
    rw [solid_cons h.solid]
    simp only [NodeKind.postfixes, List.mem_cons, List.not_mem_nil, or_false] at hkind
    rcases hkind with rfl | rfl | rfl <;> exact ⟨tree, Tree.solid rest, rfl, h.receiver hgoesOn⟩
  have hatomic : kind.isAtomic = true := by
    revert hkind
    cases kind <;> decide
  exact .of_atomic hatomic (.node hgrouping (List.forall_mem_cons.mpr ⟨h.grouped, hrest⟩))

section

variable {readings : Readings}

theorem Sight.take_grouped (s : Sight) (kinds : List TokenKind) : ∀ tree ∈ (s.take kinds).1, tree.Grouped := by
  intro tree htree
  obtain ⟨token, rfl⟩ := take_leaf s kinds tree htree
  exact .leaf token

theorem Steps.mem_read_branch {question : Question} {yes no : Steps} {s : Sight} {tree : Tree}
    (h : tree ∈ ((Steps.branch question yes no).read readings s).1) :
    tree ∈ (yes.read readings s).1 ∨ tree ∈ (no.read readings s).1 := by
  rw [Steps.read] at h
  split at h
  · exact .inl h
  · exact .inr h

/-- Of a member only the tokens are read. -/
theorem propertyAccess_turns {least : Nat} {tree outer : Tree} {s behind : Sight}
    (htree : tree.OperandAt least s) (hkind : s.kind ∈ [.lParen, .dot, .questionDot, .lBracket])
    (hread : Grammar.propertyAccess.read readings tree s = (some outer, behind)) :
    outer.OperandAt least behind := by
  obtain ⟨rfl, rfl⟩ := Suffix.read_around hread
  refine htree.around (.inl hkind) (by decide) fun child hchild => ?_
  rcases List.mem_append.mp hchild with hchild | hchild
  · exact Sight.take_grouped _ _ child hchild
  · rcases List.mem_append.mp hchild with hchild | hchild
    · rcases Steps.mem_read_branch hchild with hchild | hchild
      · exact Sight.take_grouped _ _ child hchild
      · cases hchild
    · cases hchild

namespace Readings.Operands

variable (h : readings.Operands)

include h

theorem callee_gives : Grammar.newCallee.Gives readings fun tree _ => tree.Grouped := by
  have hprimary : (Phrase.call .primary).Gives readings (Tree.OperandAt 0) :=
    (h.gives .primary).mono fun tree s htree => htree 0
  have hturns : (Suffix.firstOf [(.both (.next [.dot]) (.not .misfit), Grammar.propertyAccess)]).Turns
      readings (Tree.OperandAt 0) (Tree.OperandAt 0) := by
    intro tree s outer behind htree hread hfits
    obtain ⟨arm, harm, hask, houter⟩ := Suffix.exists_of_firstOf hread
    obtain rfl := List.mem_singleton.mp harm
    have hdot : s.kind = .dot := by
      simp only [Question.ask, Sight.isAtAny, Bool.and_eq_true] at hask
      simpa using hask.1
    exact propertyAccess_turns htree (by rw [hdot]; decide) houter
  exact (Phrase.Gives.extend h.fit.leads (by decide +kernel) hprimary hturns).mono
    fun _ _ htree => htree.1.grouped

theorem groups : readings.Groups where
  leads := h.fit.leads
  rules rule := (h.gives rule).mono fun _ _ => Rule.grouped_of_gives
  callee := h.callee_gives

/-- What stands behind an operand makes an operand of it, of the same power. -/
theorem operandSuffix_turns (least : Nat) :
    (Grammar.operandSuffix least).Turns readings (Tree.OperandAt least) (Tree.OperandAt least) := by
  intro tree s outer behind htree hread hfits
  obtain ⟨arm, harm, hask, houter⟩ := Suffix.exists_of_firstOf hread
  simp only [List.mem_cons, List.mem_map] at harm
  rcases harm with rfl | rfl | rfl | rfl | rfl | rfl | ⟨⟨power, kinds⟩, hpower, rfl⟩
  · cases houter
  · -- a call
    have hopening : s.kind = .lParen := by simpa [Question.ask, Sight.isAtAny] using hask
    obtain ⟨rfl, rfl⟩ := Suffix.read_around houter
    exact htree.around (.inl (by rw [hopening]; decide)) (by decide)
      (Steps.groups h.groups _ (by decide +kernel) s hfits)
  · -- a call with type arguments
    obtain ⟨rfl, rfl⟩ := Suffix.read_around houter
    exact htree.around (.inr hask) (by decide) (Steps.groups h.groups _ (by decide +kernel) s hfits)
  · -- a member
    have hpoint : s.kind = .dot ∨ s.kind = .questionDot := by simpa [Question.ask, Sight.isAtAny] using hask
    exact propertyAccess_turns htree (by rcases hpoint with hpoint | hpoint <;> rw [hpoint] <;> decide) houter
  · -- an index
    have hopening : s.kind = .lBracket := by simpa [Question.ask, Sight.isAtAny] using hask
    obtain ⟨rfl, rfl⟩ := Suffix.read_around houter
    exact htree.around (.inl (by rw [hopening]; decide)) (by decide)
      (Steps.groups h.groups _ (by decide +kernel) s hfits)
  · -- a type
    simp only [Question.ask, Sight.isAtAny, Bool.and_eq_true, decide_eq_true_eq] at hask
    have hcast : s.kind = .asKw := by simpa using hask.2
    obtain ⟨rfl, rfl⟩ := Suffix.read_around houter
    have hbinds : tree.BindsBy Grammar.asPower := htree.bindsBy fun other hends => hends.cast hcast
    have hgrouped := Steps.groups h.groups
      (.all [.expect .asKw, .call .type]) (by decide +kernel) s hfits
    refine ⟨.node ?_ (List.forall_mem_cons.mpr ⟨htree.grouped, hgrouped⟩), ⟨⟨?_, ?_⟩, ?_⟩, ⟨?_, ?_⟩, _, rfl⟩
    · rw [Tree.solid_cons htree.solid]
      exact ⟨tree, _, rfl, hbinds⟩
    · rintro _ ⟨⟩
      rfl
    · rintro ⟨⟩
    · exact fun _ => hask.1
    · rintro level ⟨⟩
    · rintro ⟨⟩
  · -- a binary operator and its right operand
    simp only [Grammar.binarySuffix, Question.ask, Bool.and_eq_true, decide_eq_true_eq] at hask
    obtain ⟨rfl, rfl⟩ := Suffix.read_around houter
    have hkind : s.kind ∈ kinds := List.contains_iff_mem.mp hask.2
    have hlevel : s.kind.level? = some power := Grammar.level?_of_mem _ hpower _ hkind
    have heof : s.kind ≠ .eof := fun heof => by
      rw [heof] at hlevel
      cases hlevel
    obtain ⟨operator, operand, hoperator, hsolid, hgrouped, hoperand, hends⟩ :=
      h.exists_operator hask.2 heof hfits
    have hbinds : tree.BindsBy power := htree.bindsBy fun other hends => hends.operator power hlevel
    rw [← hoperator] at hlevel
    have hparts : Tree.solid (tree :: ((Steps.all [.take kinds, .call (.operand (power + 1))]).read readings s).1) =
        [tree, .leaf operator, operand] := by
      rw [Tree.solid_cons htree.solid, hsolid]
    have hown : (Tree.node .binaryExpr (tree ::
        ((Steps.all [.take kinds, .call (.operand (power + 1))]).read readings s).1)).level? = some power := by
      rw [Tree.level?, hparts]
      exact hlevel
    refine ⟨.node ?_ (List.forall_mem_cons.mpr ⟨htree.grouped, hgrouped⟩), ⟨⟨?_, ?_⟩, ?_⟩, ⟨?_, ?_⟩, _, rfl⟩
    · rw [hparts]
      exact ⟨tree, operator, operand, power, rfl, hlevel, hbinds, hoperand.operand⟩
    · rintro _ ⟨⟩
      rfl
    · exact fun _ => ⟨power, hown, hask.1⟩
    · rintro ⟨⟩
    · intro level hlevel'
      obtain rfl := Option.some_inj.mp (hown.symm.trans hlevel')
      exact hends
    · rintro ⟨⟩

/-- An operand is read until nothing goes on with it. -/
theorem operand_gives (least : Nat) : (Grammar.operand least).Gives readings (Rule.operand least).gives := by
  have hprimary : (Phrase.call .primary).Gives readings (Tree.OperandAt least) :=
    (h.gives .primary).mono fun tree s htree => htree least
  have htakes : (Grammar.operandSuffix least).takesEachRound = true :=
    ((Bool.and_eq_true _ _).mp (Grammar.phraseOf_proceeds (.operand least))).2
  intro s blanks tree behind hread hfits
  obtain ⟨htree, hstops⟩ := Phrase.Gives.extend h.fit.leads htakes hprimary (h.operandSuffix_turns least)
    s blanks tree behind hread hfits
  exact ⟨htree, Grammar.ends_of_operandSuffix hfits hstops⟩

/-- A prefix operator takes an operand that is neither a binary expression nor taken as a type. -/
theorem prefix_gives {s behind : Sight} {blanks : List Token} {tree : Tree}
    (hat : s.isAtAny Grammar.prefixOperators = true)
    (hread : (Phrase.nodeOf .prefixExpr [.take Grammar.prefixOperators,
      .call (.operand Grammar.prefixPower)]).read readings s = (some (blanks, tree), behind))
    (hfits : behind.misfits = []) (least : Nat) : tree.OperandAt least behind := by
  have hflush : s.flush.kind = s.kind := Sight.kind_of_kinds s.kinds_flush
  have heof : s.flush.kind ≠ .eof := fun heof => by
    rw [Sight.isAtAny, ← hflush, heof] at hat
    cases hat
  obtain ⟨operator, operand, -, hsolid, hgrouped, hoperand, hends⟩ :=
    h.exists_operator (by rwa [Sight.isAtAny, hflush]) heof
      (by simp only [Phrase.nodeOf, Phrase.read, Body.ofSteps, Body.read, Prod.mk.injEq] at hread
          rw [hread.2]
          exact hfits)
  simp only [Phrase.nodeOf, Phrase.read, Body.ofSteps, Body.read, List.append_nil, Prod.mk.injEq,
    Option.some_inj] at hread
  obtain ⟨⟨-, rfl⟩, rfl⟩ := hread
  refine ⟨.node ?_ hgrouped, ⟨⟨?_, ?_⟩, ?_⟩, ⟨?_, fun _ => hends⟩, _, rfl⟩
  · rw [hsolid]
    exact ⟨operator, operand, rfl, hoperand.operand⟩
  · rintro _ ⟨⟩
    rfl
  · rintro ⟨⟩
  · rintro ⟨⟩
  · rintro level ⟨⟩

end Readings.Operands

end

namespace Grammar

/-- An expression that starts with something else than a prefix operator. -/
def unprefixed : Phrase :=
  match primary with
  | .branch _ _ other => other
  | other => other

theorem unprefixed_atomic {kind : NodeKind} (h : unprefixed.makes kind = true) : kind.isAtomic = true := by
  have hall : ∀ kind ∈ NodeKind.all, unprefixed.makes kind = true → kind.isAtomic = true := by decide +kernel
  exact hall kind kind.mem_all h

theorem plain_phrases : [statement, type, unprefixed, arrowFunction].all Phrase.plain = true := by
  decide +kernel

theorem forms_unprefixed : unprefixed.forms ⊆ forms := fun _ hform =>
  phraseOf_forms .primary (List.mem_append_right _ hform)

end Grammar

namespace Readings.Operands

variable {readings : Readings} (h : readings.Operands)

include h

theorem primary_gives : Grammar.primary.Gives readings Rule.primary.gives := by
  intro s blanks tree behind hread hfits least
  have hprimary : Grammar.primary = .branch (.next Grammar.prefixOperators)
      (.nodeOf .prefixExpr [.take Grammar.prefixOperators, .call (.operand Grammar.prefixPower)])
      Grammar.unprefixed := rfl
  rw [hprimary, Phrase.read] at hread
  split at hread
  · rename_i hat
    exact h.prefix_gives hat hread hfits least
  · have hplain := List.all_eq_true.mp Grammar.plain_phrases Grammar.unprefixed (by simp)
    have hgrouped := Phrase.groups h.groups _ hplain s blanks tree behind hread hfits
    have htakes := ((Bool.and_eq_true _ _).mp (Grammar.phraseOf_takesOnly .primary)).2
    have hfound := Grammar.unprefixed.read_fits h.fit s htakes Grammar.forms_unprefixed
      (by rw [hread]; exact hfits)
    rw [hread] at hfound
    cases hfound with
    | node _ hmade _ => exact .of_atomic (Grammar.unprefixed_atomic hmade) hgrouped

/-- The condition of a conditional is an operand, so it is neither conditional nor an assignment. -/
theorem conditional_gives : Grammar.conditional.Gives readings fun tree _ =>
    tree.Grouped ∧ tree.isTrivia = false ∧ tree.kind ≠ .node .assignExpr ∧ tree.kind ≠ .node .arrowFunction := by
  refine Phrase.Gives.wrap h.fit.leads (h.gives (.operand 0)) (fun tree s htree => ?_) ?_
  · refine ⟨htree.1.grouped, htree.1.solid, fun hkind => ?_, fun hkind => ?_⟩
    · cases htree.1.operand.tight _ hkind
    · cases htree.1.operand.tight _ hkind
  · intro tree s outer behind htree hread hfits
    obtain ⟨arm, harm, -, houter⟩ := Suffix.exists_of_firstOf hread
    obtain rfl := List.mem_singleton.mp harm
    obtain ⟨rfl, rfl⟩ := Suffix.read_around houter
    have hgrouped := Steps.groups h.groups _ (by decide +kernel) s hfits
    refine ⟨.node ?_ (List.forall_mem_cons.mpr ⟨htree.1.grouped, hgrouped⟩), rfl, ?_, ?_⟩
    · rw [Tree.solid_cons htree.1.solid]
      exact ⟨tree, _, rfl, htree.1.operand.tight, fun hbinary => (htree.1.operand.binary hbinary)⟩
    · rintro ⟨⟩
    · rintro ⟨⟩

theorem expression_gives : Grammar.expression.Gives readings fun tree _ => tree.Grouped := by
  have harrow := List.all_eq_true.mp Grammar.plain_phrases Grammar.arrowFunction (by simp)
  refine Phrase.Gives.branch (Phrase.groups h.groups _ harrow)
    (Phrase.Gives.wrap h.fit.leads h.conditional_gives (fun tree s htree => htree.1) ?_)
  intro tree s outer behind htree hread hfits
  obtain ⟨arm, harm, -, houter⟩ := Suffix.exists_of_firstOf hread
  obtain rfl := List.mem_singleton.mp harm
  obtain ⟨rfl, rfl⟩ := Suffix.read_around houter
  have hgrouped := Steps.groups h.groups _ (by decide +kernel) s hfits
  refine .node ?_ (List.forall_mem_cons.mpr ⟨htree.1, hgrouped⟩)
  rw [Tree.solid_cons htree.2.1]
  exact ⟨tree, _, rfl, htree.2.2⟩

/-- Each rule reads grouped expressions, if the rules in it do. -/
theorem phraseOf_gives (rule : Rule) : (Grammar.phraseOf rule).Gives readings rule.gives := by
  cases rule with
  | statement =>
    exact Phrase.groups h.groups _ (List.all_eq_true.mp Grammar.plain_phrases _ (by simp [Grammar.phraseOf]))
  | expression => exact h.expression_gives
  | operand least => exact h.operand_gives least
  | primary => exact h.primary_gives
  | type => exact Phrase.groups h.groups _ (List.all_eq_true.mp Grammar.plain_phrases _ (by simp [Grammar.phraseOf]))

end Readings.Operands

theorem Grammar.readingsUpTo_operands (depth : Nat) : (readingsUpTo depth).Operands where
  fit := readingsUpTo_fit depth
  gives := by
    induction depth with
    | zero =>
      intro rule s blanks tree behind hread _
      cases hread
    | succ depth ih => exact fun rule => Readings.Operands.phraseOf_gives ⟨readingsUpTo_fit depth, ih⟩ rule

/-- In a program without misfits the parts of every expression are grouped. -/
theorem Program.grouped {text : String} (h : (Program.ofSource text).isOk = true) :
    (Program.ofSource text).tree.Grouped := by
  rw [ofSource_eq] at h ⊢
  have hfits : (Grammar.parts (Token.ofSource text)).2.misfits = [] := List.isEmpty_iff.mp h
  obtain ⟨-, hparts⟩ := Body.groups (Grammar.readingsUpTo_operands _).groups Grammar.program _
    (by decide +kernel) hfits
  exact .node trivial hparts

end RouteTypes
