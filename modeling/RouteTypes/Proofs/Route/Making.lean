-- What is made is what its text says. Numbers, strings and objects are made as trees, without a text; yet as
-- the argument of a call the text of such a tree is cut into the tokens of the tree, whatever strings are the
-- keys and values in it, and these are read as the tree again.
import RouteTypes.Proofs.Route.Recutting

namespace RouteTypes

open RouteTypes.Tree RouteTypes.Route

/-! ## A call with one argument -/

/-- The tokens of a program that calls `f` with one argument. -/
def callTokens (arg : List Token) : List Token :=
  ⟨.ident, "f"⟩ :: ⟨.lParen, "("⟩ :: (arg ++ [⟨.rParen, ")"⟩, ⟨.semicolon, ";"⟩, ⟨.eof, ""⟩])

/-- The call of `f` with one argument. -/
def callTree (arg : Tree) : Tree :=
  .node .callExpr [.nameRef "f", .node .argList [.leaf ⟨.lParen, "("⟩, arg, .leaf ⟨.rParen, ")"⟩]]

/-- The program that is this call. -/
def callProgram (arg : Tree) : Tree :=
  .node .sourceFile [.node .stmtList [.node .exprStmt [callTree arg, .leaf ⟨.semicolon, ";"⟩]], .leaf ⟨.eof, ""⟩]

/-! ## Cutting -/

namespace Token

theorem cut_call {arg : List Token} (h : ∀ {tokens : List Token} {rest : List Char}, chars tokens = ')' :: rest →
    Cut tokens → Cut (arg ++ tokens)) : Cut (callTokens arg) := by
  have hend : Cut [⟨.semicolon, ";"⟩, ⟨.eof, ""⟩] := @cut_bracket _ ';' (by decide) .done
  have hclose : Cut [⟨.rParen, ")"⟩, ⟨.semicolon, ";"⟩, ⟨.eof, ""⟩] := @cut_bracket _ ')' (by decide) hend
  have hopen : Cut (⟨.lParen, "("⟩ :: (arg ++ [⟨.rParen, ")"⟩, ⟨.semicolon, ";"⟩, ⟨.eof, ""⟩])) :=
    @cut_bracket _ '(' (by decide) (h rfl hclose)
  exact @cut_word _ "f" (by decide) '(' _ rfl (by decide) hopen

/-- The text around an expression is cut into the tokens around those of the expression. -/
theorem ofSource_call (made : Made) : ofSource ("f(" ++ made.tree.text ++ ");") = callTokens made.tree.tokens := by
  have hcut := cut_call fun hnext h => cut_made made hnext (by decide) h
  have hchars : ("f(" ++ made.tree.text ++ ");").toList = chars (callTokens made.tree.tokens) := by
    rw [String.toList_append, String.toList_append, Tree.text, toList_join, callTokens, chars_cons, chars_cons,
      chars_append]
    simp [chars]
  rw [ofSource, hchars, hcut.scan]

end Token

/-! ## Depth -/

namespace Made

theorem solidKinds_assignment (key : String) (value : Tree) :
    Token.solidKinds (Grammar.assignmentTokens key value) =
      (keyToken key).kind :: .colon :: Token.solidKinds value.tokens := by
  rw [Grammar.assignmentTokens, Token.solidKinds_cons, Token.solidKinds_cons, keyToken_solid]
  rfl

mutual

/-- Objects are nested no deeper than there are tokens. -/
theorem depth_lt : ∀ made : Made, made.depth < (Token.solidKinds made.tree.tokens).length
  | .number _ | .string _ => Nat.zero_lt_one
  | .object members => by
    have hopen : (⟨.lBrace, "\x7b"⟩ : Token).isTrivia = false := rfl
    rw [tree, Grammar.objectLiteral_tokens, depth, Token.solidKinds_cons, hopen, if_neg Bool.false_ne_true,
      List.length_cons, Token.solidKinds_append, List.length_append]
    have hmembers := depthOf_le members
    omega

theorem depthOf_le : ∀ members : List (String × Made),
    depthOf members ≤ (Token.solidKinds (tokensOf (Grammar.spacedBefore (assignments members)))).length
  | [] => Nat.le_refl 0
  | [(key, value)] => by
    have hvalue := value.depth_lt
    have htokens : tokensOf (Grammar.spacedBefore (assignments [(key, value)])) =
        Grammar.assignmentTokens key value.tree := by
      simp [assignments, Grammar.spacedBefore, tokensOf, Tree.tokens, ← Grammar.assignment_tokens]
    rw [htokens, solidKinds_assignment, depthOf, depthOf, List.length_cons, List.length_cons]
    omega
  | (key, value) :: next :: rest => by
    have hvalue := value.depth_lt
    have hrest := depthOf_le (next :: rest)
    have htokens : tokensOf (Grammar.spacedBefore (assignments ((key, value) :: next :: rest))) =
        Grammar.assignmentTokens key value.tree ++
          ⟨.comma, ","⟩ :: tokensOf (Grammar.spacedBefore (assignments (next :: rest))) := by
      simp [assignments, Grammar.spacedBefore, tokensOf, Tree.tokens, ← Grammar.assignment_tokens]
    have hcomma : (⟨.comma, ","⟩ : Token).isTrivia = false := rfl
    rw [htokens, Token.solidKinds_append, solidKinds_assignment, Token.solidKinds_cons, hcomma,
      if_neg Bool.false_ne_true, depthOf, List.length_append, List.length_cons, List.length_cons,
      List.length_cons]
    omega

end

end Made

/-! ## Reading -/

/-- Whether a word is next depends on the next token. -/
theorem Sight.Shows.isAtWord {s : Sight} {token : Token} {rest : List Token} (h : s.Shows (token :: rest))
    (hsolid : token.isTrivia = false) (word : String) :
    s.isAtWord word = (token.kind == .ident && token.text == word) := by
  have hnone : ∀ blank ∈ ([] : List Token), blank.isTrivia = true := by decide
  obtain ⟨hkind, -, hnext, -, -⟩ := @Sight.Shows.next s [] rest token h hnone hsolid
  obtain ⟨ahead, misfits⟩ := s
  cases ahead with
  | nil => cases hnext
  | cons next more =>
    have htoken : next.token = token := (List.append_inj' (show next.leading ++ [next.token] = [] ++ [token] from hnext)
      rfl).2 |> List.singleton_inj.mp
    rw [Sight.isAtWord, hkind, ← htoken]
    rfl

namespace Grammar

variable {readings : Readings} {made : Made} {depth : Nat}

theorem noBlank : ∀ blank ∈ ([] : List Token), blank.isTrivia = true := by decide

/-- What is made is an argument. -/
theorem element_read {behind : List Token} (hends : Ends behind) (hdepth : 3 * (made.depth + 1) ≤ depth) :
    Yields (element.read (readingsUpTo depth)) (made.tree.tokens ++ behind) [made.tree] behind := by
  have hread := made_read made depth hdepth noBlank hends
  obtain ⟨token, rest, htokens, hkind⟩ := made.exists_first
  have hsolid : token.isTrivia = false := by
    have hall : ∀ kind ∈ [TokenKind.numberLiteral, .stringLiteral, .lBrace], kind.isTrivia = false := by decide
    exact hall _ hkind
  have hno : ∀ kind ∈ [TokenKind.numberLiteral, .stringLiteral, .lBrace],
      (Question.next [.dotDotDot]).at? kind = some false := by decide
  rw [List.nil_append, htokens, List.cons_append] at hread
  rw [htokens, List.cons_append]
  exact .branch (.bare hsolid (hno _ hkind)) hread.callRule

/-- The arguments are the one expression. -/
theorem arguments_read {behind : List Token} (hdepth : 3 * (made.depth + 1) ≤ depth) :
    Yields (argList.read (readingsUpTo depth))
      (⟨.lParen, "("⟩ :: (made.tree.tokens ++ ⟨.rParen, ")"⟩ :: behind))
      [.node .argList [.leaf ⟨.lParen, "("⟩, made.tree, .leaf ⟨.rParen, ")"⟩]] behind := by
  have hends : Ends ([] ++ ⟨.rParen, ")"⟩ :: behind) := ⟨[], _, behind, rfl, noBlank, by decide⟩
  have hinside : (Question.inside [.rParen]).Answers (made.tree.tokens ++ ([] ++ ⟨.rParen, ")"⟩ :: behind)) true := by
    obtain ⟨token, rest, htokens, hkind⟩ := made.exists_first
    have hall : ∀ kind ∈ [TokenKind.numberLiteral, .stringLiteral, .lBrace],
        kind.isTrivia = false ∧ (Question.inside [.rParen]).at? kind = some true := by decide
    rw [htokens, List.cons_append]
    exact .bare (hall _ hkind).1 (hall _ hkind).2
  have hsome : Token.solidKinds made.tree.tokens ≠ [] :=
    List.ne_nil_of_length_pos (Nat.zero_lt_of_lt made.depth_lt)
  have hone : Yields ((Steps.separated .rParen element).read (readingsUpTo depth))
      (made.tree.tokens ++ ([] ++ ⟨.rParen, ")"⟩ :: behind)) [made.tree] ([] ++ ⟨.rParen, ")"⟩ :: behind) :=
    Yields.separatedLast hinside (element_read hends hdepth) noBlank rfl rfl
      (Token.solidKinds_length_lt _ hsome)
  have hopen : ∀ rest, Yields ((Steps.expect .lParen).read (readingsUpTo depth))
      (⟨.lParen, "("⟩ :: rest) [.leaf ⟨.lParen, "("⟩] rest := fun rest =>
    .takeNext rfl (List.mem_singleton_self TokenKind.lParen)
  have hclose : ∀ rest, Yields ((Steps.expect .rParen).read (readingsUpTo depth))
      (⟨.rParen, ")"⟩ :: rest) [.leaf ⟨.rParen, ")"⟩] rest := fun rest =>
    .takeNext rfl (List.mem_singleton_self TokenKind.rParen)
  exact .emitNext rfl ((hopen _).seq (hone.seq ((hclose _).seq .done)))

theorem callTokens_kinds (arg : List Token) : Token.solidKinds (callTokens arg) =
    .ident :: .lParen :: (Token.solidKinds arg ++ [.rParen, .semicolon, .eof]) := by
  rw [callTokens, Token.solidKinds_cons, Token.solidKinds_cons, Token.solidKinds_append]
  rfl

/-- What is called is a name, and the call is a whole expression. -/
theorem call_read (hdepth : 3 * (made.depth + 1) ≤ depth) :
    Yields (readingsUpTo (depth + 3) .expression)
      (⟨.ident, "f"⟩ :: ⟨.lParen, "("⟩ :: (made.tree.tokens ++ [⟨.rParen, ")"⟩, ⟨.semicolon, ";"⟩, ⟨.eof, ""⟩]))
      (some ([], callTree made.tree)) [⟨.semicolon, ";"⟩, ⟨.eof, ""⟩] := by
  let last : List Token := [⟨.semicolon, ";"⟩, ⟨.eof, ""⟩]
  let behind : List Token := ⟨.lParen, "("⟩ :: (made.tree.tokens ++ ⟨.rParen, ")"⟩ :: last)
  -- The name could start an arrow function or a function, if it were `async` or another token were behind it.
  have hasync : (Question.both (.word "async") (.second [.functionKw])).Answers (⟨.ident, "f"⟩ :: behind) false :=
    fun s hs => by
      simp only [Question.ask, hs.isAtWord rfl]
      rfl
  have harrow : Question.arrow.Answers (⟨.ident, "f"⟩ :: behind) false := by
    intro s hs
    have hkinds : s.kinds = .ident :: .lParen :: Token.solidKinds (made.tree.tokens ++ ⟨.rParen, ")"⟩ :: last) := by
      rw [← Sight.solidKinds_tokens, hs.tokens]
      rfl
    have hfirst : s.kindAt 0 = .ident := by rw [Sight.kindAt_eq, hkinds]; rfl
    have hsecond : s.kindAt 1 = .lParen := by rw [Sight.kindAt_eq, hkinds]; rfl
    rw [Question.ask, Sight.isAtArrow, hs.isAtWord rfl]
    simp [hfirst, hsecond]
  have hname : Yields ((Phrase.nodeOf .nameRef [.take [.ident]]).read (readingsUpTo depth))
      (⟨.ident, "f"⟩ :: behind) (some ([], .nameRef "f")) behind := by
    refine .node noBlank rfl (.ofSteps ?_)
    exact (Yields.takeNext rfl (List.mem_singleton_self TokenKind.ident)).seq .done
  have hcallee : Yields ((Phrase.call .primary).read (readingsUpTo (depth + 1))) (⟨.ident, "f"⟩ :: behind)
      (some ([], .nameRef "f")) behind :=
    .pickNext rfl primary (.phraseBranch hasync (.pickNext rfl _ hname))
  have hargs : Yields ((Suffix.around (.ofSteps .callExpr [argList])).read (readingsUpTo (depth + 1)) (.nameRef "f"))
      behind (some (callTree made.tree)) last :=
    .around (.ofSteps ((arguments_read (Nat.le_succ_of_le hdepth)).seq .done))
  have hcall : Yields ((operandSuffix 0).read (readingsUpTo (depth + 1)) (.nameRef "f")) behind
      (some (callTree made.tree)) last :=
    .suffixBranch (.bare rfl rfl) (.suffixBranch (.bare rfl rfl) hargs)
  have hless : (Token.solidKinds last).length < (Token.solidKinds behind).length := by
    have hkinds : Token.solidKinds behind =
        .lParen :: (Token.solidKinds made.tree.tokens ++ .rParen :: Token.solidKinds last) := by
      rw [Token.solidKinds_cons, Token.solidKinds_append]
      rfl
    rw [hkinds, List.length_cons, List.length_append, List.length_cons]
    omega
  have hoperand : Yields ((Phrase.call (.operand 0)).read (readingsUpTo (depth + 2))) (⟨.ident, "f"⟩ :: behind)
      (some ([], callTree made.tree)) last :=
    hcallee.extend (.wrapNext hcall hless (.wrapEnd (.stopsNext rfl _ (by decide))))
  have hconditional : Yields (conditional.read (readingsUpTo (depth + 2))) (⟨.ident, "f"⟩ :: behind)
      (some ([], callTree made.tree)) last :=
    hoperand.wrap (.stopsNext rfl _ (by decide))
  exact .phraseBranch harrow (hconditional.wrap (.stopsNext rfl _ (by decide)))

theorem program_read (hdepth : 3 * (made.depth + 1) ≤ depth) :
    Yields (program.read (readingsUpTo (depth + 4))) (callTokens made.tree.tokens)
      (.sourceFile, [.node .stmtList [.node .exprStmt [callTree made.tree, .leaf ⟨.semicolon, ";"⟩]],
        .leaf ⟨.eof, ""⟩]) [] := by
  let last : List Token := [⟨.semicolon, ";"⟩, ⟨.eof, ""⟩]
  have hsemicolon : Yields ((Steps.skip .semicolon).read (readingsUpTo (depth + 3))) last [.leaf ⟨.semicolon, ";"⟩]
      [⟨.eof, ""⟩] :=
    .branch (.bare rfl rfl) ((Yields.takeNext rfl (List.mem_singleton_self TokenKind.semicolon)).seq .done)
  have hexpression : Yields (exprStmt.read (readingsUpTo (depth + 3))) (callTokens made.tree.tokens)
      (some ([], .node .exprStmt [callTree made.tree, .leaf ⟨.semicolon, ";"⟩])) [⟨.eof, ""⟩] :=
    .node noBlank rfl (.ofSteps ((call_read hdepth).callRule.seq (hsemicolon.seq .done)))
  have hstatement : Yields ((Phrase.call .statement).read (readingsUpTo (depth + 4))) (callTokens made.tree.tokens)
      (some ([], .node .exprStmt [callTree made.tree, .leaf ⟨.semicolon, ";"⟩])) [⟨.eof, ""⟩] :=
    .pickNext rfl statement hexpression
  have hless : (Token.solidKinds [⟨.eof, ""⟩]).length < (Token.solidKinds (callTokens made.tree.tokens)).length := by
    rw [callTokens_kinds]
    exact Nat.succ_lt_succ (Nat.succ_pos _)
  have hlist : Yields ((Steps.loop (.inside []) (.call .statement)).read (readingsUpTo (depth + 4)))
      (callTokens made.tree.tokens) [.node .exprStmt [callTree made.tree, .leaf ⟨.semicolon, ";"⟩]] [⟨.eof, ""⟩] :=
    .loopNext (.bare rfl rfl) hstatement.callRule hless (.loopEnd (.bare rfl rfl))
  have hunread : Yields (unread.read (readingsUpTo (depth + 4))) [⟨.eof, ""⟩] [] [⟨.eof, ""⟩] :=
    .branch (.bare rfl rfl) .done
  have heof : Yields ((Steps.expect .eof).read (readingsUpTo (depth + 4))) [⟨.eof, ""⟩] [.leaf ⟨.eof, ""⟩] [] :=
    .takeNext rfl (List.mem_singleton_self TokenKind.eof)
  have hstatements : Yields (statements.read (readingsUpTo (depth + 4))) (callTokens made.tree.tokens)
      [.node .stmtList [.node .exprStmt [callTree made.tree, .leaf ⟨.semicolon, ";"⟩]]] [⟨.eof, ""⟩] :=
    .emitNext rfl (hlist.seq (hunread.seq .done))
  exact .ofSteps (hstatements.seq (heof.seq .done))

end Grammar

/-! ## The whole program -/

/-- A number, a string or an object of such is made as a tree, with any strings as keys and values and at any
depth. As the argument of a call its text is read as exactly this tree, and nothing in it is misfit. -/
theorem made_is_read_back (made : Made) :
    let program := Program.ofSource ("f(" ++ made.tree.text ++ ");")
    program.isOk = true ∧ program.tree = callProgram made.tree ∧
      program.tree.calls.head? = some (callTree made.tree) ∧ (callTree made.tree).args = [made.tree] := by
  intro program
  have hends : callTokens made.tree.tokens = ⟨.ident, "f"⟩ :: ⟨.lParen, "("⟩ ::
      (made.tree.tokens ++ [⟨.rParen, ")"⟩, ⟨.semicolon, ";"⟩]) ++ [⟨.eof, ""⟩] := by
    simp [callTokens]
  have hsight : (Sight.ofTokens (callTokens made.tree.tokens)).Shows (callTokens made.tree.tokens) :=
    ⟨rfl, Sight.tokens_ofTokens hends rfl⟩
  obtain ⟨depth, hle, hdepth⟩ : ∃ depth, 3 * (made.depth + 1) ≤ depth ∧
      Grammar.depthFor (Sight.ofTokens (callTokens made.tree.tokens)).ahead.length = depth + 4 := by
    have hlt := made.depth_lt
    rw [hsight.length, Grammar.callTokens_kinds, Grammar.depthFor]
    simp only [List.length_cons, List.length_append, List.length_nil]
    exact ⟨5 * (Token.solidKinds made.tree.tokens).length + 26, by omega, by omega⟩
  obtain ⟨hread, hrest⟩ := Grammar.program_read hle _ hsight
  have hprogram : program = ⟨callProgram made.tree, []⟩ := by
    show Program.ofSource ("f(" ++ made.tree.text ++ ");") = _
    rw [Program.ofSource_eq, Token.ofSource_call, Grammar.parts, hdepth]
    dsimp only
    rw [hread, hrest.fits]
    rfl
  have hargument : made.tree.isNodeOf NodeKind.isElement = true := by
    cases made <;> rfl
  refine ⟨by rw [hprogram]; rfl, by rw [hprogram], ?_, ?_⟩
  · rw [hprogram, Tree.calls_eq]
    rfl
  · have hargs : (callTree made.tree).args =
        [.leaf ⟨.lParen, "("⟩, made.tree, .leaf ⟨.rParen, ")"⟩].filter (·.isNodeOf NodeKind.isElement) := by
      rw [callTree, Tree.args_eq]
      rfl
    rw [hargs, List.filter_cons_of_neg (by decide), List.filter_cons_of_pos hargument,
      List.filter_cons_of_neg (by decide), List.filter_nil]

end RouteTypes
