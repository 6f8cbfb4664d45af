-- Programs that are a call with one argument, `g(argument)`. The argument is read as an expression up to the
-- closing parenthesis, and a program is such a call if its argument is read like this.
import RouteTypes.Proofs.Grammar.Lookahead

namespace RouteTypes.Grammar

open RouteTypes.Tree

/-! ## Calls -/

/-- What stands behind the argument. -/
def closing : List Token := [⟨.rParen, ")"⟩, ⟨.eof, ""⟩]

/-- The tokens of `g(argument)`. -/
def programTokens (argument : List Token) : List Token :=
  ⟨.ident, "g"⟩ :: ⟨.lParen, "("⟩ :: (argument ++ closing)

/-- What is called. -/
def callee : Tree := .node .nameRef [.leaf ⟨.ident, "g"⟩]

/-- The call with these parts between its parentheses. -/
def callNode (parts : List Tree) : Tree :=
  .node .callExpr [callee, .node .argList (.leaf ⟨.lParen, "("⟩ :: (parts ++ [.leaf ⟨.rParen, ")"⟩]))]

/-- The tree of a program that is the call. -/
def programTree (parts : List Tree) : Tree :=
  .node .sourceFile [.node .stmtList [.node .exprStmt [callNode parts]], .leaf ⟨.eof, ""⟩]

/-- The argument is read without misfits, as one node that is not spread; only blanks and comments stand
around it. -/
structure IsArgument (argument : List Token) (tree : Tree) : Prop where
  noEnd : ∀ token ∈ argument, token.kind ≠ .eof
  isOk : (Program.ofTokens (programTokens argument)).isOk = true
  read : ∃ blanks blanks' : List Token, (∀ blank ∈ blanks ++ blanks', blank.isTrivia = true) ∧
    (Program.ofTokens (programTokens argument)).tree = programTree (blanks.map .leaf ++ tree :: blanks'.map .leaf)
  node : ∃ kind, tree.kind = .node kind ∧ kind ≠ .spreadElement

/-- A sight of any tokens before the closing parenthesis. -/
theorem argument_shows (argument : List Token) :
    (Sight.ofTokens (argument ++ closing)).Shows (argument ++ closing) :=
  ⟨rfl, @Sight.tokens_ofTokens _ (argument ++ [⟨.rParen, ")"⟩]) ⟨.eof, ""⟩ (by simp [closing]) rfl⟩

/-! ## From the argument to the program -/

/-- Between parentheses the tokens are read as an expression that is this tree. -/
structure ReadsAs (argument : List Token) (blanks : List Token) (tree : Tree) (blanks' : List Token) : Prop where
  noSpread : (Question.next [.dotDotDot]).Answers (argument ++ closing) false
  inside : (Question.inside [.rParen]).Answers (argument ++ closing) true
  reads : Yields (unboundedReadings .expression) (argument ++ closing) (some (blanks, tree)) (blanks' ++ closing)
  trivia : ∀ blank ∈ blanks', blank.isTrivia = true

/-- No suffix comes where the next token calls for none. -/
theorem no_suffix {readings : Readings} {inner : Tree} {blanks rest : List Token} {token : Token}
    (hblanks : ∀ blank ∈ blanks, blank.isTrivia = true) (hsolid : token.isTrivia = false)
    {choices : List (Question × Suffix)} (h : ∀ choice ∈ choices, choice.1.at? token.kind = some false) :
    Yields ((Suffix.firstOf choices).read readings inner) (blanks ++ token :: rest) none
      (blanks ++ token :: rest) := by
  induction choices with
  | nil => exact .stop
  | cons choice more ih =>
    have hno : choice.1.Answers (blanks ++ token :: rest) false := .of_at hblanks hsolid (h choice (by simp))
    exact .suffixBranch hno (ih fun other hother => h other (List.mem_cons_of_mem _ hother))

theorem no_suffix_next {readings : Readings} {inner : Tree} {rest : List Token} {token : Token}
    (hsolid : token.isTrivia = false) {choices : List (Question × Suffix)}
    (h : ∀ choice ∈ choices, choice.1.at? token.kind = some false) :
    Yields ((Suffix.firstOf choices).read readings inner) (token :: rest) none (token :: rest) :=
  @no_suffix readings inner [] rest token (by intro blank hblank; cases hblank) hsolid choices h

theorem read_firstOf_last {readings : Readings} {s : Sight} (hfits : s.misfits = []) {last : Phrase}
    {choices : List (Question × Phrase)} (h : ∀ choice ∈ choices, choice.1.at? s.kind = some false) :
    (Phrase.firstOf last choices).read readings s = last.read readings s := by
  induction choices with
  | nil => rfl
  | cons choice more ih =>
    have hno : choice.1.ask s = false := Question.ask_at hfits (h choice (by simp))
    rw [Phrase.firstOf, Phrase.read, hno]
    exact ih fun other hother => h other (List.mem_cons_of_mem _ hother)

theorem reads_rule {rule : Rule} {tokens behind : List Token} {found : Found}
    (h : Yields ((phraseOf rule).read unboundedReadings) tokens found behind) :
    Yields (unboundedReadings rule) tokens found behind := by
  intro s hs
  rw [unboundedReadings_eq]
  exact h s hs

theorem reads_node {kind : NodeKind} {steps : List Steps} {trees : List Tree} {token : Token}
    {rest behind : List Token} (hsolid : token.isTrivia = false)
    (h : Yields ((Steps.all steps).read unboundedReadings) (token :: rest) trees behind) :
    Yields ((Phrase.nodeOf kind steps).read unboundedReadings) (token :: rest) (some ([], .node kind trees))
      behind :=
  @Yields.node unboundedReadings behind _ kind trees [] rest token (by intro blank hblank; cases hblank) hsolid
    h.ofSteps

section

variable {s : Sight} {rest : List Token} (hs : s.Shows (⟨.ident, "g"⟩ :: ⟨.lParen, "("⟩ :: rest))

include hs

theorem callee_kinds : s.kinds = .ident :: .lParen :: Token.solidKinds rest := hs.kinds

theorem callee_word (word : String) (hword : word ≠ "g") : s.isAtWord word = false := by
  have hopening := s.opening_tokens
  rw [hs.tokens] at hopening
  have htoken : s.ahead.head?.map (·.token) = some ⟨.ident, "g"⟩ := (Prod.mk.inj hopening).2.symm
  obtain ⟨next, hnext, htext⟩ := Option.map_eq_some_iff.mp htoken
  rw [Sight.isAtWord, hnext, Option.any_some, htext]
  simp [hword.symm]

theorem callee_arrow : Question.arrow.ask s = false := by
  have hword := callee_word hs "async" (by decide)
  have hfirst : s.kindAt 0 = .ident := by rw [Sight.kindAt_eq, callee_kinds hs]; rfl
  have hsecond : s.kindAt 1 = .lParen := by rw [Sight.kindAt_eq, callee_kinds hs]; rfl
  rw [Question.ask, Sight.isAtArrow]
  simp [hword, hfirst, hsecond]

theorem statement_read {readings : Readings} :
    (phraseOf .statement).read readings s = exprStmt.read readings s := by
  have hkind : s.kind = .ident := by rw [Sight.kind_eq, callee_kinds hs]; rfl
  refine read_firstOf_last hs.fits ?_
  rw [hkind]
  decide

end

/-- A name before a parenthesis is read as what is called. -/
theorem callee_reads (rest : List Token) :
    Yields (unboundedReadings .primary) (⟨.ident, "g"⟩ :: ⟨.lParen, "("⟩ :: rest) (some ([], callee))
      (⟨.lParen, "("⟩ :: rest) := by
  have hname : Yields ((Steps.all [.take [.ident]]).read unboundedReadings)
      (⟨.ident, "g"⟩ :: ⟨.lParen, "("⟩ :: rest) [.leaf ⟨.ident, "g"⟩] (⟨.lParen, "("⟩ :: rest) :=
    (Yields.takeNext rfl (by decide)).seq .done
  have hasync : (Question.both (.word "async") (.second [.functionKw])).Answers
      (⟨.ident, "g"⟩ :: ⟨.lParen, "("⟩ :: rest) false := fun s hs => by
    have hword : (Question.word "async").ask s = false := callee_word hs "async" (by decide)
    rw [Question.ask, hword, Bool.false_and]
  exact reads_rule (.phraseBranch (.bare rfl rfl) (.phraseBranch (.bare rfl rfl) (.phraseBranch hasync
    (.phraseBranch (.bare rfl rfl) (reads_node rfl hname)))))

namespace ReadsAs

variable {argument blanks blanks' : List Token} {tree : Tree} (h : ReadsAs argument blanks tree blanks')

include h

/-- There is a token in the argument that is neither blank nor comment. -/
theorem less : (Token.solidKinds (blanks' ++ closing)).length < (Token.solidKinds (argument ++ closing)).length := by
  have hshows := argument_shows argument
  have hbehind := (h.reads _ hshows).2
  rw [← hshows.length, ← hbehind.length]
  exact (unboundedReadings_goesOn .expression _).less hbehind.fits

theorem argList : Yields (argList.read unboundedReadings) (⟨.lParen, "("⟩ :: (argument ++ closing))
    [.node .argList (.leaf ⟨.lParen, "("⟩ :: (blanks.map .leaf ++ tree :: blanks'.map .leaf ++
      [.leaf ⟨.rParen, ")"⟩]))] [⟨.eof, ""⟩] := by
  have hitem : Yields (element.read unboundedReadings) (argument ++ closing) (blanks.map .leaf ++ [tree])
      (blanks' ++ closing) := .branch h.noSpread (.callRule h.reads)
  have hitems : Yields ((Steps.separated .rParen element).read unboundedReadings) (argument ++ closing)
      (blanks.map .leaf ++ [tree]) (blanks' ++ closing) :=
    .separatedLast h.inside hitem h.trivia rfl rfl h.less
  have hopen : Yields ((Steps.expect .lParen).read unboundedReadings) (⟨.lParen, "("⟩ :: (argument ++ closing))
      [.leaf ⟨.lParen, "("⟩] (argument ++ closing) := .takeNext rfl (by decide)
  have hclose : Yields ((Steps.expect .rParen).read unboundedReadings) (blanks' ++ closing)
      ((blanks' ++ [Token.mk .rParen ")"]).map .leaf) [⟨.eof, ""⟩] := .take h.trivia rfl (by decide)
  have hall : Yields (Grammar.argList.read unboundedReadings) (⟨.lParen, "("⟩ :: (argument ++ closing))
      [.node .argList ([.leaf ⟨.lParen, "("⟩] ++ ((blanks.map .leaf ++ [tree]) ++
        ((blanks' ++ [Token.mk .rParen ")"]).map .leaf ++ [])))] [⟨.eof, ""⟩] :=
    .emitNext rfl (hopen.seq (hitems.seq (hclose.seq .done)))
  simpa using hall

theorem callNode : Yields (unboundedReadings (.operand 0)) (programTokens argument)
    (some ([], callNode (blanks.map .leaf ++ tree :: blanks'.map .leaf))) [⟨.eof, ""⟩] := by
  have hfits : Question.misfit.Answers (⟨.lParen, "("⟩ :: (argument ++ closing)) false := .bare rfl rfl
  have hparen : (Question.next [.lParen]).Answers (⟨.lParen, "("⟩ :: (argument ++ closing)) true :=
    .bare rfl rfl
  have hcall : Yields ((operandSuffix 0).read unboundedReadings callee) (⟨.lParen, "("⟩ :: (argument ++ closing))
      (some (Grammar.callNode (blanks.map .leaf ++ tree :: blanks'.map .leaf))) [⟨.eof, ""⟩] :=
    .suffixBranch hfits (.suffixBranch hparen (.around (.ofSteps (h.argList.seq .done))))
  have hend : Yields (Sight.wrapWhile ((operandSuffix 0).read unboundedReadings)
      (Grammar.callNode (blanks.map .leaf ++ tree :: blanks'.map .leaf))) [⟨.eof, ""⟩] _ [⟨.eof, ""⟩] :=
    .wrapEnd (no_suffix_next rfl (by decide))
  refine reads_rule ((callee_reads _).call.extend (hcall.wrapNext ?_ hend))
  exact Nat.succ_lt_succ (Nat.lt_of_le_of_lt (Nat.zero_le _) h.less)

theorem expression : Yields (unboundedReadings .expression) (programTokens argument)
    (some ([], Grammar.callNode (blanks.map .leaf ++ tree :: blanks'.map .leaf))) [⟨.eof, ""⟩] := by
  have hconditional : Yields (conditional.read unboundedReadings) (programTokens argument)
      (some ([], Grammar.callNode (blanks.map .leaf ++ tree :: blanks'.map .leaf))) [⟨.eof, ""⟩] :=
    h.callNode.call.wrap (no_suffix_next rfl (by decide))
  have harrow : Question.arrow.Answers (programTokens argument) false := fun _ => callee_arrow
  exact reads_rule (.phraseBranch harrow (hconditional.wrap (no_suffix_next rfl (by decide))))

theorem statement : Yields (unboundedReadings .statement) (programTokens argument)
    (some ([], .node .exprStmt [Grammar.callNode (blanks.map .leaf ++ tree :: blanks'.map .leaf)]))
      [⟨.eof, ""⟩] := by
  have hno : (Question.next [.semicolon]).Answers [⟨.eof, ""⟩] false := .bare rfl rfl
  have hnone : Yields ((Steps.skip .semicolon).read unboundedReadings) [⟨.eof, ""⟩] [] [⟨.eof, ""⟩] :=
    .branch hno .done
  have hnode : Yields (exprStmt.read unboundedReadings) (programTokens argument) _ _ :=
    reads_node rfl (h.expression.callRule.seq (hnone.seq .done))
  refine reads_rule fun s hs => ?_
  rw [statement_read hs]
  exact hnode s hs

theorem statements : Yields (statements.read unboundedReadings) (programTokens argument)
    [.node .stmtList [.node .exprStmt [Grammar.callNode (blanks.map .leaf ++ tree :: blanks'.map .leaf)]]]
      [⟨.eof, ""⟩] := by
  have hyes : (Question.inside []).Answers (programTokens argument) true := .bare rfl rfl
  have hno : (Question.inside []).Answers [⟨.eof, ""⟩] false := .bare rfl rfl
  have hend : (Question.not (.next [.eof])).Answers [⟨.eof, ""⟩] false := .bare rfl rfl
  have hless : (Token.solidKinds [⟨.eof, ""⟩]).length < (Token.solidKinds (programTokens argument)).length :=
    Nat.succ_lt_succ (Nat.zero_lt_succ _)
  have hrows := h.statement.callRule.loopNext hyes hless (.loopEnd hno)
  have hnothing : Yields (unread.read unboundedReadings) [⟨.eof, ""⟩] [] [⟨.eof, ""⟩] := .branch hend .done
  exact .emitNext rfl (hrows.seq (hnothing.seq .done))

theorem program : Yields (program.read unboundedReadings) (programTokens argument)
    (.sourceFile, (programTree (blanks.map .leaf ++ tree :: blanks'.map .leaf)).children) [] := by
  have hend : Yields ((Steps.expect .eof).read unboundedReadings) [⟨.eof, ""⟩] [.leaf ⟨.eof, ""⟩] [] :=
    .takeNext rfl (by decide)
  exact .ofSteps (h.statements.seq (hend.seq .done))

end ReadsAs

theorem programTokens_last (argument : List Token) : programTokens argument =
    (⟨.ident, "g"⟩ :: ⟨.lParen, "("⟩ :: (argument ++ [⟨.rParen, ")"⟩])) ++ [⟨.eof, ""⟩] := by
  simp [programTokens, closing]

theorem programTokens_shows (argument : List Token) :
    (Sight.ofTokens (programTokens argument)).Shows (programTokens argument) :=
  ⟨rfl, Sight.tokens_ofTokens (programTokens_last argument) rfl⟩

theorem programTokens_noEnd {argument : List Token} (hnoEnd : ∀ token ∈ argument, token.kind ≠ .eof) :
    ∀ token ∈ Token.mk .ident "g" :: ⟨.lParen, "("⟩ :: (argument ++ [⟨.rParen, ")"⟩]),
      token.kind ≠ .eof := by
  intro token htoken
  simp only [List.mem_cons, List.mem_append, List.not_mem_nil, or_false] at htoken
  rcases htoken with rfl | rfl | htoken | rfl
  · decide
  · decide
  · exact hnoEnd token htoken
  · decide

theorem programTokens_program {argument : List Token} (hnoEnd : ∀ token ∈ argument, token.kind ≠ .eof) :
    Program.ofTokens (programTokens argument) =
      ⟨.node .sourceFile (program.read unboundedReadings (.ofTokens (programTokens argument))).1.2,
        (program.read unboundedReadings (.ofTokens (programTokens argument))).2.misfits⟩ :=
  ofTokens_unbounded (programTokens_last argument) rfl (programTokens_noEnd hnoEnd)

/-- What is read as an expression between the parentheses is the argument of the program. -/
theorem ReadsAs.isArgument {argument blanks blanks' : List Token} {tree : Tree}
    (h : ReadsAs argument blanks tree blanks') (hblanks : ∀ blank ∈ blanks, blank.isTrivia = true)
    (hnoEnd : ∀ token ∈ argument, token.kind ≠ .eof)
    (hnode : ∃ kind, tree.kind = .node kind ∧ kind ≠ .spreadElement) : IsArgument argument tree := by
  obtain ⟨hread, hshows⟩ := h.program _ (programTokens_shows argument)
  have hprogram := programTokens_program hnoEnd
  rw [hread, hshows.fits] at hprogram
  refine ⟨hnoEnd, by rw [hprogram]; rfl, ⟨blanks, blanks', ?_, by rw [hprogram]; rfl⟩, hnode⟩
  intro blank hblank
  exact (List.mem_append.mp hblank).elim (hblanks blank) (h.trivia blank)

end RouteTypes.Grammar
