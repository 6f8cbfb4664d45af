-- Conditionals as arguments. What three arguments are on their own, the parts of a conditional are, as long as
-- no look-ahead in the first two runs on into what stands behind them and is answered otherwise there.
import RouteTypes.Proofs.Grammar.Arguments
import RouteTypes.Proofs.Grammar.Operands

namespace RouteTypes

open Relation RouteTypes.Tree RouteTypes.Grammar

/-! ## Comparing trees -/

mutual

def Tree.decEq : (tree other : Tree) → Decidable (tree = other)
  | .leaf token, .leaf token' => decidable_of_iff (token = token') (by rw [Tree.leaf.injEq])
  | .leaf _, .node _ _ | .node _ _, .leaf _ => isFalse (fun h => nomatch h)
  | .node kind children, .node kind' children' =>
    have := Tree.decEqAll children children'
    decidable_of_iff (kind = kind' ∧ children = children') (by rw [Tree.node.injEq])

def Tree.decEqAll : (trees others : List Tree) → Decidable (trees = others)
  | [], [] => isTrue rfl
  | [], _ :: _ | _ :: _, [] => isFalse (fun h => nomatch h)
  | tree :: rest, tree' :: rest' =>
    have := Tree.decEq tree tree'
    have := Tree.decEqAll rest rest'
    decidable_of_iff (tree = tree' ∧ rest = rest') (by rw [List.cons.injEq])

end

instance : DecidableEq Tree := Tree.decEq

/-! ## What reading comes to stands in the text -/

/-- What is to come where reading comes to is a rest of what was to come before. -/
theorem Enters.leads {start next : Piece × Reader} (h : Enters unbounded start next) :
    Sight.Leads (fun _ => true) start.2.toSight next.2.toSight := by
  cases h with
  | rest first rest r | restOfBody first rest r =>
    dsimp only
    rw [(first.run_reads unbounded_finds r).1]
    exact first.read_leads unboundedReadings_leads_any r.toSight first.takesOnly_all
  | @again _ body r _ _ =>
    dsimp only
    rw [(body.run_reads unbounded_finds r).1]
    exact body.read_leads unboundedReadings_leads_any r.toSight body.takesOnly_all
  | node body r => exact .flush .here
  | @behindWrapped inner _ r behind _ hrun | @behindExtended inner _ r behind _ hrun =>
    dsimp only
    rw [inner.run_sight unbounded_finds hrun]
    exact inner.read_leads unboundedReadings_leads_any r.toSight inner.takesOnly_all
  | @againSuffixes suffix inner outer r behind hrun _ =>
    have hsight := (suffix.run_sight unbounded_finds inner default r).2
    rw [hrun] at hsight
    rw [hsight]
    exact suffix.read_leads unboundedReadings_leads_any default r.toSight suffix.takesOnly_all
  | _ => exact .here

theorem Enters.leads_all {start next : Piece × Reader} (h : ReflTransGen (Enters unbounded) start next) :
    Sight.Leads (fun _ => true) start.2.toSight next.2.toSight := by
  induction h with
  | refl => exact .here
  | tail _ hnext ih => exact ih.trans hnext.leads

/-- What is left of the front is the end of it. -/
theorem Sight.Shows.suffix {piece piece' : Piece} {r r' : Reader} {before front behind : List Token}
    (hr : r.toSight.Shows (before ++ behind)) (h : ReflTransGen (Enters unbounded) (piece, r) (piece', r'))
    (hr' : r'.toSight.Shows (front ++ behind)) : front <:+ before := by
  obtain ⟨taken, htaken⟩ := (Enters.leads_all h).tokens
  rw [hr.tokens, hr'.tokens, ← List.append_assoc] at htaken
  exact ⟨taken, (List.append_cancel_right htaken).symm⟩

namespace Grammar

/-! ## Look-aheads in an argument -/

/-- Every look-ahead that reading the argument comes to is answered alike with these tokens behind it. -/
def Unswayed (argument behind : List Token) : Prop :=
  ∀ r : Reader, r.toSight.Shows (argument ++ closing) → Steady closing behind (.phrase (.call .expression), r)

/-- It is enough to look ahead from everywhere in the argument. -/
theorem Unswayed.of_tails {argument behind : List Token} (hlast : behind.getLast? = some ⟨.eof, ""⟩)
    (h : ∀ front ∈ argument.tails, ∀ question ∈ [Question.arrow, .callTypeArgs],
      question.ask (.ofTokens (front ++ behind)) = question.ask (.ofTokens (front ++ closing))) :
    Unswayed argument behind := by
  obtain ⟨before, rfl⟩ := List.getLast?_eq_some_iff.mp hlast
  intro start hstart piece r question hreach _ hahead front hr
  have hfront : front ∈ argument.tails := (List.mem_tails _ _).mpr (hstart.suffix hreach hr)
  have hquestion : question ∈ [Question.arrow, .callTypeArgs] := by
    simpa [Question.looksAhead] using hahead
  let t := Sight.ofTokens (front ++ (before ++ [⟨.eof, ""⟩]))
  have hshows : t.Shows (front ++ (before ++ [⟨.eof, ""⟩])) :=
    ⟨rfl, Sight.tokens_ofTokens (List.append_assoc _ _ _).symm rfl⟩
  have hanswer : question.ask r.toSight = question.ask t :=
    (h front hfront question hquestion).symm ▸ (argument_shows front).answers question r.toSight hr
  exact hanswer ▸ hshows.answers question

/-- Without a `<` in the argument and an arrow behind it, no look-ahead runs on. -/
theorem Unswayed.of_noArrow {kind : TokenKind} {argument behind : List Token} (hswap : Swapped kind closing behind)
    (hless : ∀ token ∈ argument, token.kind ≠ .lt) (harrow : ∀ token ∈ behind, token.kind ≠ .fatArrow) :
    Unswayed argument behind := by
  intro start hstart piece r question hreach _ hahead front hr s hs
  have hfront := hstart.suffix hreach hr
  rw [Question.looksAhead, Bool.or_eq_true, beq_iff_eq, beq_iff_eq] at hahead
  by_cases hsolid : Token.solidKinds front = []
  · -- the end of the argument comes next, where nothing is looked ahead for
    obtain ⟨hkind, hkind'⟩ := hswap.atEnd hr hs hsolid
    have hends : ∀ kind ∈ TokenKind.ends, ∀ question ∈ [Question.arrow, .callTypeArgs],
        question.at? kind = some false := by decide
    have hquestion : question ∈ [Question.arrow, .callTypeArgs] := by simpa using hahead
    rw [Question.ask_at hr.fits (hkind ▸ hends .rParen (by decide) question hquestion),
      Question.ask_at hs.fits (hkind' ▸ hends kind hswap.ends question hquestion)]
  · rcases hahead with rfl | rfl
    · have hnone : .fatArrow ∉ Token.solidKinds behind := fun hmem => by
        obtain ⟨token, htoken, hkind⟩ := Token.exists_of_mem_solidKinds hmem
        exact harrow token htoken hkind
      exact hswap.arrow hr hs (by decide) hnone hsolid
    · obtain ⟨first, rest, hfirst⟩ := List.exists_cons_of_ne_nil hsolid
      have hnot : ∀ {s : Sight} {behind : List Token}, s.Shows (front ++ behind) → s.isAtCallTypeArgs = false := by
        intro s behind hs
        have hkind : s.kind = first := by
          rw [Sight.kind_eq, hs.kinds, Token.solidKinds_append, hfirst]
          rfl
        obtain ⟨token, htoken, rfl⟩ := Token.exists_of_mem_solidKinds (hfirst ▸ List.mem_cons_self)
        rw [Sight.isAtCallTypeArgs, hkind, beq_false_of_ne (hless token (hfront.subset htoken)), Bool.false_and]
      exact (hnot hs).trans (hnot hr).symm

/-! ## The parts of a conditional -/

/-- What stands behind the second part of a conditional that is an argument. -/
def behindThen (no : List Token) : List Token := ⟨.colon, ":"⟩ :: (no ++ closing)

/-- What stands behind its condition. -/
def behindCondition (yes no : List Token) : List Token := ⟨.question, "?"⟩ :: (yes ++ behindThen no)

/-- `condition ? yes : no` -/
def conditionalTokens (condition yes no : List Token) : List Token :=
  condition ++ ⟨.question, "?"⟩ :: (yes ++ ⟨.colon, ":"⟩ :: no)

section

variable {condition yes no blanks blanks' : List Token} {tree : Tree}

theorem conditionalTokens_closing (condition yes no : List Token) :
    conditionalTokens condition yes no ++ closing = condition ++ behindCondition yes no := by
  simp [conditionalTokens, behindCondition, behindThen]

theorem swapped_question (yes no : List Token) : Swapped .question closing (behindCondition yes no) :=
  ⟨⟨_, _, rfl, rfl⟩, ⟨_, _, rfl, rfl⟩, by decide⟩

theorem swapped_colon (no : List Token) : Swapped .colon closing (behindThen no) :=
  ⟨⟨_, _, rfl, rfl⟩, ⟨_, _, rfl, rfl⟩, by decide⟩

/-- The condition is read as the operand before a question mark. -/
theorem ReadsAs.beforeQuestion (h : ReadsAs condition blanks tree blanks')
    (htight : ∀ kind, tree.kind = .node kind → kind.isLoose = false)
    (hahead : Unswayed condition (behindCondition yes no)) :
    Question.arrow.Answers (condition ++ behindCondition yes no) false ∧
      Yields (unboundedReadings (.operand 0)) (condition ++ behindCondition yes no) (some (blanks, tree))
        (blanks' ++ behindCondition yes no) := by
  let s := Sight.ofTokens (condition ++ closing)
  have hs : s.Shows (condition ++ closing) := argument_shows condition
  obtain ⟨hfound, hbehind⟩ := h.reads s hs
  obtain ⟨harrow, hoperand⟩ := expression_operand (Prod.ext hfound rfl) htight
  let r : Reader := ⟨s, #[]⟩
  have hexpression : Steady closing (behindCondition yes no) (.phrase Grammar.expression, r) :=
    (hahead r hs).enters (.call .expression r)
  have hrest : Steady closing (behindCondition yes no) (.phrase (.call (.operand 0)), r) :=
    ((hexpression.enters (.noOfPhrase _ _ harrow)).enters (.wrapped _ _ r)).enters (.wrapped _ _ r)
  constructor
  · exact harrow ▸ hexpression (.phrase Grammar.expression) _ .arrow .refl rfl rfl condition hs
  · have hrest' : (unboundedReadings (.operand 0) s).2.Shows (blanks' ++ closing) := by
      rw [hoperand]
      exact hbehind
    have hyields : Yields (unboundedReadings (.operand 0)) (condition ++ behindCondition yes no)
        (unboundedReadings (.operand 0) s).1 (blanks' ++ behindCondition yes no) :=
      carried (swapped_question yes no) _ hrest 0 (by decide) rfl (by simp [Phrase.tellsTypes]) condition blanks' hs
        hrest' (Nat.zero_le _)
    rwa [hoperand] at hyields

/-- The second part is read as an expression before a colon. -/
theorem ReadsAs.beforeColon (h : ReadsAs yes blanks tree blanks') (hahead : Unswayed yes (behindThen no)) :
    Yields (unboundedReadings .expression) (yes ++ behindThen no) (some (blanks, tree))
      (blanks' ++ behindThen no) := by
  let s := Sight.ofTokens (yes ++ closing)
  have hs : s.Shows (yes ++ closing) := argument_shows yes
  obtain ⟨hfound, hbehind⟩ := h.reads s hs
  rw [← hfound]
  exact expression_carried (swapped_colon no) (by decide) (hahead ⟨s, #[]⟩ hs) hs hbehind

end

/-! ## The whole conditional -/

section

variable {condition yes no before behind before' behind' before'' behind'' : List Token}
  {tree tree' tree'' : Tree}

/-- The parts of a conditional with blanks and comments around its marks. -/
def conditionalParts (tree tree' tree'' : Tree) (behind before' behind' before'' : List Token) : List Tree :=
  tree :: (behind.map .leaf ++ .leaf ⟨.question, "?"⟩ ::
    (before'.map .leaf ++ tree' :: (behind'.map .leaf ++ .leaf ⟨.colon, ":"⟩ ::
      (before''.map .leaf ++ [tree'']))))

/-- An argument is not empty. -/
theorem ReadsAs.room (h : ReadsAs condition before tree behind) : 1 ≤ (Token.solidKinds condition).length := by
  have hless := h.less
  rw [Token.solidKinds_append, Token.solidKinds_append, List.length_append, List.length_append] at hless
  omega

/-- A conditional is read of its parts. -/
theorem ReadsAs.conditional (h : ReadsAs condition before tree behind) (h' : ReadsAs yes before' tree' behind')
    (h'' : ReadsAs no before'' tree'' behind'')
    (htight : ∀ kind, tree.kind = .node kind → kind.isLoose = false)
    (hahead : Unswayed condition (behindCondition yes no)) (hahead' : Unswayed yes (behindThen no)) :
    ReadsAs (conditionalTokens condition yes no) before
      (.node .conditionalExpr (conditionalParts tree tree' tree'' behind before' behind' before'')) behind'' := by
  obtain ⟨harrow, hcondition⟩ := h.beforeQuestion htight hahead
  have hyes := h'.beforeColon hahead'
  have hs := argument_shows condition
  have hmark : (Question.next [.question]).Answers (behind ++ behindCondition yes no) true :=
    .of_at h.trivia rfl rfl
  have hquestion : Yields ((Steps.expect .question).read unboundedReadings) (behind ++ behindCondition yes no)
      ((behind ++ [Token.mk .question "?"]).map .leaf) (yes ++ behindThen no) := .take h.trivia rfl (by decide)
  have hcolon : Yields ((Steps.expect .colon).read unboundedReadings) (behind' ++ behindThen no)
      ((behind' ++ [Token.mk .colon ":"]).map .leaf) (no ++ closing) := .take h'.trivia rfl (by decide)
  have hparts : Yields ((Steps.all [.expect .question, .call .expression, .expect .colon,
        .unlessMisfit (.call .expression)]).read unboundedReadings) (behind ++ behindCondition yes no) _
      (behind'' ++ closing) :=
    hquestion.seq (hyes.callRule.seq (hcolon.seq (h''.reads.callRule.unlessMisfit.seq .done)))
  have hconditional : Yields (Grammar.conditional.read unboundedReadings) (condition ++ behindCondition yes no)
      (some (before, .node .conditionalExpr (conditionalParts tree tree' tree'' behind before' behind' before'')))
      (behind'' ++ closing) := by
    have hnode : Yields (Grammar.conditional.read unboundedReadings) (condition ++ behindCondition yes no) _
        (behind'' ++ closing) := hcondition.call.wrap (.suffixBranch hmark (.around hparts.ofSteps))
    simpa [conditionalParts, Found.trees] using hnode
  constructor
  · rw [conditionalTokens_closing]
    exact h.noSpread _ hs ▸ Question.keeps_answers (swapped_question yes no) hs (Nat.zero_le _) rfl
  · rw [conditionalTokens_closing]
    exact h.inside _ hs ▸ Question.keeps_answers (swapped_question yes no) hs h.room rfl
  · rw [conditionalTokens_closing]
    exact reads_rule (.phraseBranch harrow (hconditional.wrap (no_suffix h''.trivia rfl (by decide))))
  · exact h''.trivia

end

/-- Three arguments are the parts of a conditional argument, if the condition binds tighter and no look-ahead in
the first two is answered otherwise before what stands behind them. -/
theorem conditional_argument {condition yes no : List Token} {tree tree' tree'' : Tree}
    (hcondition : IsArgument condition tree) (hyes : IsArgument yes tree') (hno : IsArgument no tree'')
    (htight : ∀ kind, tree.kind = .node kind → kind.isLoose = false)
    (hahead : Unswayed condition (behindCondition yes no)) (hahead' : Unswayed yes (behindThen no)) :
    ∃ parts, IsArgument (conditionalTokens condition yes no) (.node .conditionalExpr parts) ∧
      solid parts = [tree, .leaf ⟨.question, "?"⟩, tree', .leaf ⟨.colon, ":"⟩, tree''] := by
  obtain ⟨before, behind, hbefore, h⟩ := hcondition.readsAs
  obtain ⟨before', behind', hbefore', h'⟩ := hyes.readsAs
  obtain ⟨before'', behind'', hbefore'', h''⟩ := hno.readsAs
  refine ⟨_, (h.conditional h' h'' htight hahead hahead').isArgument hbefore ?_ ⟨_, rfl, by decide⟩, ?_⟩
  · intro token htoken
    simp only [conditionalTokens, List.mem_append, List.mem_cons] at htoken
    rcases htoken with htoken | rfl | htoken | rfl | htoken
    · exact hcondition.noEnd token htoken
    · decide
    · exact hyes.noEnd token htoken
    · decide
    · exact hno.noEnd token htoken
  · have hsolid : ∀ {argument : List Token} {tree : Tree}, IsArgument argument tree → tree.isTrivia = false := by
      rintro argument tree ⟨-, -, -, kind, hkind, -⟩
      rw [Tree.isTrivia, hkind]
      rfl
    have hmark : (Tree.leaf ⟨.question, "?"⟩).isTrivia = false := rfl
    have hmark' : (Tree.leaf ⟨.colon, ":"⟩).isTrivia = false := rfl
    rw [conditionalParts, solid_cons (hsolid hcondition), solid_append, solid_leaves h.trivia, List.nil_append,
      solid_cons hmark, solid_append, solid_leaves hbefore', List.nil_append, solid_cons (hsolid hyes),
      solid_append, solid_leaves h'.trivia, List.nil_append, solid_cons hmark', solid_append,
      solid_leaves hbefore'', List.nil_append, solid_cons (hsolid hno)]
    rfl

/-- A program that is a call with nothing but a node between its parentheses has it as its argument. -/
theorem IsArgument.of_call {argument : List Token} {tree : Tree} (hnoEnd : ∀ token ∈ argument, token.kind ≠ .eof)
    (hok : (Program.ofTokens (programTokens argument)).isOk = true)
    (htree : (Program.ofTokens (programTokens argument)).tree = programTree [tree])
    (hnode : ∃ kind, tree.kind = .node kind ∧ kind ≠ .spreadElement) : IsArgument argument tree :=
  ⟨hnoEnd, hok, ⟨[], [], (by intro blank hblank; cases hblank), htree⟩, hnode⟩

def nameTree (name : String) : Tree := .node .nameRef [.leaf ⟨.ident, name⟩]

/-- `g(a < b ? (c) => d : f(e))`: the look-aheads at `<` and at the parenthesis do not run on. -/
theorem comparison_with_arrow_is_conditional :
    let less := Tree.node .binaryExpr [nameTree "a", .leaf ⟨.lt, "<"⟩, nameTree "b"]
    let param := Tree.node .param [.node .name [.leaf ⟨.ident, "c"⟩]]
    let arrow := Tree.node .arrowFunction
      [.node .paramList [.leaf ⟨.lParen, "("⟩, param, .leaf ⟨.rParen, ")"⟩], .leaf ⟨.fatArrow, "=>"⟩, nameTree "d"]
    let call := Tree.node .callExpr
      [nameTree "f", .node .argList [.leaf ⟨.lParen, "("⟩, nameTree "e", .leaf ⟨.rParen, ")"⟩]]
    ∃ parts, IsArgument
        (conditionalTokens [⟨.ident, "a"⟩, ⟨.lt, "<"⟩, ⟨.ident, "b"⟩]
          [⟨.lParen, "("⟩, ⟨.ident, "c"⟩, ⟨.rParen, ")"⟩, ⟨.fatArrow, "=>"⟩, ⟨.ident, "d"⟩]
          [⟨.ident, "f"⟩, ⟨.lParen, "("⟩, ⟨.ident, "e"⟩, ⟨.rParen, ")"⟩])
        (.node .conditionalExpr parts) ∧
      solid parts = [less, .leaf ⟨.question, "?"⟩, arrow, .leaf ⟨.colon, ":"⟩, call] := by
  intro less param arrow call
  have hless : IsArgument [⟨.ident, "a"⟩, ⟨.lt, "<"⟩, ⟨.ident, "b"⟩] less :=
    .of_call (by decide) (by decide +kernel) (by decide +kernel) ⟨_, rfl, by decide⟩
  have harrow : IsArgument
      [⟨.lParen, "("⟩, ⟨.ident, "c"⟩, ⟨.rParen, ")"⟩, ⟨.fatArrow, "=>"⟩, ⟨.ident, "d"⟩] arrow :=
    .of_call (by decide) (by decide +kernel) (by decide +kernel) ⟨_, rfl, by decide⟩
  have hcall : IsArgument [⟨.ident, "f"⟩, ⟨.lParen, "("⟩, ⟨.ident, "e"⟩, ⟨.rParen, ")"⟩] call :=
    .of_call (by decide) (by decide +kernel) (by decide +kernel) ⟨_, rfl, by decide⟩
  have htight : ∀ kind, less.kind = .node kind → kind.isLoose = false := by
    rintro kind ⟨⟩
    rfl
  refine conditional_argument hless harrow hcall htight (.of_tails rfl ?_)
    (.of_noArrow (swapped_colon _) (by decide) (by decide))
  decide +kernel

/-- `g(a ? (b) : x => y)`: `(b) : x =>` is taken for the start of an arrow function. -/
theorem arrow_across_colon_is_no_conditional :
    ¬ ∀ (condition yes no : List Token) (tree tree' tree'' : Tree), IsArgument condition tree →
      IsArgument yes tree' → IsArgument no tree'' → (∀ kind, tree.kind = .node kind → kind.isLoose = false) →
      ∃ parts, IsArgument (conditionalTokens condition yes no) (.node .conditionalExpr parts) ∧
        solid parts = [tree, .leaf ⟨.question, "?"⟩, tree', .leaf ⟨.colon, ":"⟩, tree''] := by
  intro hall
  have hname : IsArgument [⟨.ident, "a"⟩] (nameTree "a") :=
    .of_call (by decide) (by decide +kernel) (by decide +kernel) ⟨_, rfl, by decide⟩
  have hparen : IsArgument [⟨.lParen, "("⟩, ⟨.ident, "b"⟩, ⟨.rParen, ")"⟩]
      (.node .parenExpr [.leaf ⟨.lParen, "("⟩, nameTree "b", .leaf ⟨.rParen, ")"⟩]) :=
    .of_call (by decide) (by decide +kernel) (by decide +kernel) ⟨_, rfl, by decide⟩
  have harrow : IsArgument [⟨.ident, "x"⟩, ⟨.fatArrow, "=>"⟩, ⟨.ident, "y"⟩]
      (.node .arrowFunction
        [.node .paramList [.node .param [.node .name [.leaf ⟨.ident, "x"⟩]]], .leaf ⟨.fatArrow, "=>"⟩,
          nameTree "y"]) :=
    .of_call (by decide) (by decide +kernel) (by decide +kernel) ⟨_, rfl, by decide⟩
  obtain ⟨parts, hargument, -⟩ := hall _ _ _ _ _ _ hname hparen harrow (by rintro kind ⟨⟩; rfl)
  have hnot : (Program.ofTokens (programTokens (conditionalTokens [⟨.ident, "a"⟩]
      [⟨.lParen, "("⟩, ⟨.ident, "b"⟩, ⟨.rParen, ")"⟩]
      [⟨.ident, "x"⟩, ⟨.fatArrow, "=>"⟩, ⟨.ident, "y"⟩]))).isOk = false := by decide +kernel
  rw [hargument.isOk] at hnot
  cases hnot

-- `g(a < b ? c > (d) : e)`: `< b ? c >` is taken for type arguments, as a call follows
example : (Program.ofTokens (programTokens (conditionalTokens [⟨.ident, "a"⟩, ⟨.lt, "<"⟩, ⟨.ident, "b"⟩]
    [⟨.ident, "c"⟩, ⟨.gt, ">"⟩, ⟨.lParen, "("⟩, ⟨.ident, "d"⟩, ⟨.rParen, ")"⟩]
    [⟨.ident, "e"⟩]))).isOk = false := by decide +kernel

end Grammar

end RouteTypes
