-- The argument of a call that has been read. Where a program is a call with one argument, its argument was read
-- as an expression up to the closing parenthesis; from the program down to it, each node is the first thing
-- that was read, and nothing was put around it.
import RouteTypes.Proofs.Grammar.Calls
import RouteTypes.Proofs.Grammar.Grouping
import RouteTypes.Proofs.Grammar.Respacing

namespace RouteTypes

open RouteTypes.Tree

/-! ## Where the same tokens are to come -/

theorem Sight.solid_tokens (s : Sight) : s.tokens.filter (!·.isTrivia) = s.ahead.map (·.token) := by
  obtain ⟨ahead, misfits⟩ := s
  induction ahead with
  | nil => rfl
  | cons next rest ih =>
    have hblanks : next.leading.filter (!·.isTrivia) = [] := List.filter_eq_nil_iff.mpr fun blank hblank => by
      simp [next.leading_trivia blank hblank]
    have hnext : next.tokens.filter (!·.isTrivia) = [next.token] := by
      rw [Lexeme.tokens, List.filter_append, hblanks]
      simp [next.token_solid]
    rw [tokens, List.flatMap_cons, List.filter_append, hnext]
    exact congrArg (next.token :: ·) ih

/-- Where the same tokens are to come, every question has the same answer. -/
theorem Sight.Shows.answers {s : Sight} {tokens : List Token} (hs : s.Shows tokens) (question : Question) :
    question.Answers tokens (question.ask s) := by
  intro s' hs'
  have halike : s.Respaced s' :=
    ⟨by rw [← solid_tokens, ← solid_tokens, hs.tokens, hs'.tokens], by rw [hs.fits, hs'.fits]⟩
  exact halike.ask question

namespace Grammar

/-! ## What is read first -/

/-- What the steps read starts with this. -/
structure Starts (steps : Steps) (s : Sight) (read : Found × Sight) : Prop where
  trees : ∃ more, (steps.read unboundedReadings s).1 = read.1.trees ++ more
  leads : Sight.Leads (fun _ => true) read.2 (steps.read unboundedReadings s).2

namespace Starts

variable {steps : Steps} {s : Sight} {read : Found × Sight}

theorem part (phrase : Phrase) (s : Sight) : Starts (.part phrase) s (phrase.read unboundedReadings s) :=
  ⟨⟨[], (List.append_nil _).symm⟩, .here⟩

theorem seq (h : Starts steps s read) (rest : Steps) : Starts (.seq steps rest) s read := by
  obtain ⟨⟨more, hmore⟩, hleads⟩ := h
  refine ⟨⟨more ++ (rest.read unboundedReadings (steps.read unboundedReadings s).2).1, ?_⟩, ?_⟩
  · rw [Steps.read, hmore, List.append_assoc]
  · exact hleads.trans (rest.read_leads unboundedReadings_leads_any _ rest.takesOnly_all)

theorem loop (h : Starts steps s read) {question : Question} (hask : question.ask s = true) :
    Starts (.loop question steps) s read := by
  obtain ⟨⟨more, hmore⟩, hleads⟩ := h
  have hloop := fun s => steps.read_leads unboundedReadings_leads_any s steps.takesOnly_all
  constructor <;> rw [Steps.read, Sight.collectWhile, if_pos hask] <;> dsimp only <;> split
  · exact ⟨_, by rw [hmore, List.append_assoc]⟩
  · exact ⟨more, hmore⟩
  · exact hleads.trans (.collectWhile hloop _)
  · exact hleads

theorem yes (h : Starts steps s read) {question : Question} (hask : question.ask s = true) {no : Steps} :
    Starts (.branch question steps no) s read := by
  have hsame : (Steps.branch question steps no).read unboundedReadings s = steps.read unboundedReadings s := by
    rw [Steps.read, if_pos hask]
  exact ⟨hsame ▸ h.trees, hsame ▸ h.leads⟩

theorem no (h : Starts steps s read) {question : Question} (hask : question.ask s = false) {yes : Steps} :
    Starts (.branch question yes steps) s read := by
  have hsame : (Steps.branch question yes steps).read unboundedReadings s = steps.read unboundedReadings s := by
    rw [Steps.read, if_neg (Bool.eq_false_iff.mp hask)]
  exact ⟨hsame ▸ h.trees, hsame ▸ h.leads⟩

theorem fits (h : Starts steps s read) (hfits : (steps.read unboundedReadings s).2.misfits = []) :
    read.2.misfits = [] := h.leads.fits hfits

end Starts

/-- A node behind leaves is the first one there. -/
theorem leaves_node {blanks blanks' : List Token} {tree tree' : Tree} {rest rest' : List Tree}
    (hnode : ∃ kind, tree.kind = .node kind) (hnode' : ∃ kind, tree'.kind = .node kind)
    (h : blanks.map .leaf ++ tree :: rest = blanks'.map .leaf ++ tree' :: rest') :
    blanks = blanks' ∧ tree = tree' := by
  induction blanks generalizing blanks' with
  | nil =>
    cases blanks' with
    | nil => exact ⟨rfl, (List.cons.inj h).1⟩
    | cons blank more =>
      obtain ⟨kind, hkind⟩ := hnode
      rw [(List.cons.inj h).1] at hkind
      cases hkind
  | cons blank more ih =>
    cases blanks' with
    | nil =>
      obtain ⟨kind, hkind⟩ := hnode'
      rw [← (List.cons.inj h).1] at hkind
      cases hkind
    | cons blank' more' =>
      obtain ⟨hblank, hmore⟩ := List.cons.inj h
      obtain ⟨rfl, rfl⟩ := ih hmore
      exact ⟨by rw [Tree.leaf.inj hblank], rfl⟩

/-- The node that the steps start with is the first one in what they read. -/
theorem Starts.node {steps : Steps} {s : Sight} {read : Found × Sight} (h : Starts steps s read)
    {blanks blanks' : List Token} {tree tree' : Tree} {rest : List Tree} (hfound : read.1 = some (blanks, tree))
    (hnode : ∃ kind, tree.kind = .node kind) (hnode' : ∃ kind, tree'.kind = .node kind)
    (htrees : (steps.read unboundedReadings s).1 = blanks'.map .leaf ++ tree' :: rest) :
    blanks = blanks' ∧ tree = tree' := by
  obtain ⟨more, hmore⟩ := h.trees
  rw [hfound, Found.trees, htrees, List.append_assoc] at hmore
  exact leaves_node hnode hnode' hmore.symm

theorem Starts.head {steps : Steps} {s : Sight} {read : Found × Sight} (h : Starts steps s read)
    {blanks : List Token} {tree tree' : Tree} {rest : List Tree} (hfound : read.1 = some (blanks, tree))
    (hnode : ∃ kind, tree.kind = .node kind) (hnode' : ∃ kind, tree'.kind = .node kind)
    (htrees : (steps.read unboundedReadings s).1 = tree' :: rest) : blanks = [] ∧ tree = tree' :=
  @Starts.node steps s read h blanks [] tree tree' rest hfound hnode hnode' htrees

/-- What a rule finds without misfits is a node behind blanks and comments. -/
theorem found_node {rule : Rule} {s : Sight} (hfits : (unboundedReadings rule s).2.misfits = []) :
    ∃ blanks tree, (unboundedReadings rule s).1 = some (blanks, tree) ∧
      (∀ blank ∈ blanks, blank.isTrivia = true) ∧ ∃ kind, tree.kind = .node kind := by
  have hfound := unboundedReadings_orderly.fit.fits rule s hfits
  generalize (unboundedReadings rule s).1 = found at hfound ⊢
  cases hfound with
  | node htrivia _ _ => exact ⟨_, _, rfl, htrivia, _, rfl⟩

/-! ## From the program to the call -/

section

variable {argument : List Token} {parts : List Tree} {s t : Sight}

/-- A program that is a call was read as an expression that is the call. -/
theorem program_expression (hs : s.Shows (programTokens argument))
    (hfits : (program.read unboundedReadings s).2.misfits = [])
    (htree : (program.read unboundedReadings s).1.2 = (programTree parts).children) :
    ∃ s' t, s'.Shows (programTokens argument) ∧
      unboundedReadings .expression s' = (some ([], callNode parts), t) ∧ t.misfits = [] := by
  obtain ⟨-, -, -, -, hflush⟩ := @Sight.Shows.next s [] _ _ hs (by intro blank hblank; cases hblank) rfl
  obtain ⟨-, -, -, -, hflush'⟩ := @Sight.Shows.next s.flush [] _ _ hflush (by intro blank hblank; cases hblank) rfl
  let rows := Steps.all [.loop (.inside []) (.call .statement), unread]
  let row := Steps.all [.call .expression, .skip .semicolon]
  have hprogram : ((Steps.all [statements, .expect .eof]).read unboundedReadings s).1 =
      .node .stmtList [.node .exprStmt [callNode parts]] :: [.leaf ⟨.eof, ""⟩] := by
    refine Eq.trans ?_ htree
    simp [program, Body.ofSteps, Body.read]
  have hstatements : Starts (Steps.all [statements, .expect .eof]) s
      (some (s.leading, .node .stmtList (rows.read unboundedReadings s.flush).1),
        (rows.read unboundedReadings s.flush).2) := by
    rw [← Phrase.read_nodeOf]
    exact (Starts.part (.nodeOf .stmtList [.loop (.inside []) (.call .statement), unread]) s).seq _
  have hrowsFit := hstatements.fits hfits
  have hrows := (hstatements.head rfl ⟨_, rfl⟩ ⟨_, rfl⟩ hprogram).2
  have hask : (Question.inside []).ask s.flush = true := Question.ask_at hflush.fits (by
    rw [Sight.kind_eq, callee_kinds hflush]
    rfl)
  have hstatement : Starts rows s.flush (unboundedReadings .statement s.flush) :=
    ((Starts.part (.call .statement) s.flush).loop hask).seq _
  have hone := unboundedReadings_eq .statement s.flush
  rw [statement_read hflush, exprStmt, Phrase.read_nodeOf] at hone
  have hrowFit := hstatement.fits hrowsFit
  rw [hone] at hstatement hrowFit
  have hrow := (hstatement.head rfl ⟨_, rfl⟩ ⟨_, rfl⟩ (Tree.node.inj hrows).2).2
  have hexpression : Starts row s.flush.flush (unboundedReadings .expression s.flush.flush) :=
    (Starts.part (.call .expression) s.flush.flush).seq _
  have hcallFit := hexpression.fits hrowFit
  obtain ⟨blanks, tree, hfound, -, hnode⟩ := found_node hcallFit
  obtain ⟨rfl, rfl⟩ := hexpression.head hfound hnode ⟨_, rfl⟩ (Tree.node.inj hrow).2
  exact ⟨s.flush.flush, _, hflush', Prod.ext hfound rfl, hcallFit⟩

/-! ## From the call to the argument -/

/-- Where no node was put around an expression, it was read before what could have been behind it. -/
theorem wrap_inner {inner : Phrase} {question : Question} {kind : NodeKind} {steps : List Steps}
    {blanks : List Token} {tree : Tree}
    (h : (Phrase.wrap inner (.firstOf [(question, .around (.ofSteps kind steps))])).read unboundedReadings s =
      (some (blanks, tree), t)) (hkind : tree.kind ≠ .node kind) :
    inner.read unboundedReadings s = (some (blanks, tree), t) := by
  rw [Phrase.read] at h
  generalize inner.read unboundedReadings s = found at h ⊢
  obtain ⟨_ | ⟨blanks', tree'⟩, behind⟩ := found
  · cases h
  · simp only [Suffix.firstOf, Suffix.read] at h
    split at h
    · obtain ⟨⟨rfl, rfl⟩, -⟩ : (blanks' = blanks ∧ _ = tree) ∧ _ := by simpa using h
      exact absurd (by simp [Body.ofSteps, Body.read, Tree.kind]) hkind
    · simpa using h

/-- An expression that is neither an arrow function nor an assignment or a conditional was read as an
operand. -/
theorem expression_operand {blanks : List Token} {tree : Tree}
    (h : unboundedReadings .expression s = (some (blanks, tree), t))
    (htight : ∀ kind, tree.kind = .node kind → kind.isLoose = false) :
    Question.arrow.ask s = false ∧ unboundedReadings (.operand 0) s = (some (blanks, tree), t) := by
  rw [unboundedReadings_eq, phraseOf, expression, Phrase.read] at h
  split at h
  · rw [arrowFunction, Phrase.read_nodeOf] at h
    obtain ⟨⟨rfl, rfl⟩, -⟩ : (s.leading = blanks ∧ _ = tree) ∧ _ := by simpa using h
    cases htight .arrowFunction rfl
  · rename_i harrow
    refine ⟨eq_false_of_ne_true harrow, wrap_inner (wrap_inner h fun hkind => ?_) fun hkind => ?_⟩
    · cases htight _ hkind
    · cases htight _ hkind

/-- Suffixes make a node around what they stand behind. -/
theorem suffix_around (tree : Tree) (s : Sight) (suffix : Suffix) :
    (suffix.read unboundedReadings tree s).1 = none ∨
      ∃ kind parts, (suffix.read unboundedReadings tree s).1 = some (.node kind (tree :: parts)) := by
  cases suffix with
  | stop => exact .inl rfl
  | around body => exact .inr ⟨_, _, rfl⟩
  | branch question yes no =>
    rw [Suffix.read]
    split
    · exact suffix_around tree s yes
    · exact suffix_around tree s no

/-- Nodes are put around others so that these are the first in them, or in one that is. -/
theorem wrapWhile_first (suffix : Suffix) (tree : Tree) (s : Sight) :
    (s.wrapWhile (suffix.read unboundedReadings) tree).1 = tree ∨
      ∃ kind inner parts, (s.wrapWhile (suffix.read unboundedReadings) tree).1 = .node kind (inner :: parts) ∧
        tree.tokens.length ≤ inner.tokens.length := by
  have hone := suffix_around tree s suffix
  rw [Sight.wrapWhile]
  generalize suffix.read unboundedReadings tree s = found at hone ⊢
  obtain ⟨_ | outer, behind⟩ := found
  · exact .inl rfl
  · obtain ⟨kind, parts, houter⟩ := hone.resolve_left (by simp)
    obtain rfl := Option.some_inj.mp houter
    have hle : tree.tokens.length ≤ (Tree.node kind (tree :: parts)).tokens.length := by
      rw [Tree.tokens, tokensOf, List.length_append]
      exact Nat.le_add_right _ _
    dsimp only
    split
    · rcases wrapWhile_first suffix (.node kind (tree :: parts)) behind with
        hsame | ⟨kind', inner, parts', hmore, hinner⟩
      · exact .inr ⟨kind, tree, parts, hsame, Nat.le_refl _⟩
      · exact .inr ⟨kind', inner, parts', hmore, Nat.le_trans hle hinner⟩
    · exact .inr ⟨kind, tree, parts, rfl, Nat.le_refl _⟩
termination_by s.ahead.length

/-- A call was read as what is called and its list of arguments. -/
theorem call_argList (hs : s.Shows (programTokens argument))
    (h : unboundedReadings .expression s = (some ([], callNode parts), t)) (hfits : t.misfits = []) :
    ∃ s', s'.Shows (⟨.lParen, "("⟩ :: (argument ++ closing)) ∧
      (argList.read unboundedReadings s').1 =
        [.node .argList (.leaf ⟨.lParen, "("⟩ :: (parts ++ [.leaf ⟨.rParen, ")"⟩]))] ∧
      (argList.read unboundedReadings s').2.misfits = [] := by
  obtain ⟨-, hoperand⟩ := expression_operand h (by rintro kind ⟨⟩; rfl)
  obtain ⟨hfound, hshows⟩ := callee_reads (argument ++ closing) s hs
  rw [unboundedReadings_eq, phraseOf, operand, Phrase.read, Phrase.read] at hoperand
  generalize unboundedReadings .primary s = primary at hfound hshows hoperand
  obtain ⟨found, s'⟩ := primary
  obtain rfl : found = some ([], callee) := hfound
  refine ⟨s', hshows, ?_⟩
  have hkind : s'.kind = .lParen := by rw [Sight.kind_eq, hshows.kinds]; rfl
  have hone : (operandSuffix 0).read unboundedReadings callee s' =
      (some (.node .callExpr (callee :: (argList.read unboundedReadings s').1)),
        (argList.read unboundedReadings s').2) := by
    have hmisfit : Question.misfit.ask s' = false := Question.ask_at hshows.fits rfl
    have hparen : (Question.next [.lParen]).ask s' = true := Question.ask_at hshows.fits (by rw [hkind]; rfl)
    rw [operandSuffix, Suffix.firstOf, Suffix.read, hmisfit, Suffix.firstOf]
    simp [Suffix.read, hparen, Body.ofSteps, Body.read, Steps.all, Steps.read]
  have hend : s'.wrapWhile ((operandSuffix 0).read unboundedReadings) callee = (callNode parts, t) := by
    rw [Prod.ext_iff]
    simpa using hoperand
  have hleads : ∀ tree s, Sight.Leads (fun _ => true) s ((operandSuffix 0).read unboundedReadings tree s).2 :=
    fun tree s => (operandSuffix 0).read_leads unboundedReadings_leads_any tree s (Suffix.takesOnly_all _)
  have hfirst := wrapWhile_first (operandSuffix 0) (.node .callExpr (callee :: (argList.read unboundedReadings s').1))
    (argList.read unboundedReadings s').2
  have hmore := Sight.Leads.wrapWhile hleads (.node .callExpr (callee :: (argList.read unboundedReadings s').1))
    (argList.read unboundedReadings s').2
  have hkept := argList.read_tokens unboundedReadings_tokens s'
  rw [Sight.wrapWhile, hone] at hend
  generalize argList.read unboundedReadings s' = list at *
  obtain ⟨trees, behind⟩ := list
  dsimp only at *
  split at hend
  · rename_i hless
    rw [hend] at hfirst hmore
    rcases hfirst with hsame | ⟨kind, inner, others, hsame, hle⟩
    · exact ⟨(List.cons.inj (Tree.node.inj hsame).2).2.symm, hmore.fits hfits⟩
    · -- what is called is too short to hold the parentheses
      obtain rfl : callee = inner := (List.cons.inj (Tree.node.inj hsame).2).1
      have hnone : tokensOf trees = [] := by
        rw [Tree.tokens, tokensOf, List.length_append] at hle
        exact List.length_eq_zero_iff.mp (by omega)
      rw [hnone, List.nil_append] at hkept
      rw [Sight.length_eq, Sight.length_eq s', hkept] at hless
      exact absurd hless (Nat.lt_irrefl _)
  · obtain ⟨hsame, rfl⟩ := Prod.mk.inj hend
    exact ⟨(List.cons.inj (Tree.node.inj hsame).2).2, hfits⟩

end

/-! ## The argument -/

/-- What a list of arguments holds behind the parenthesis. -/
def argItems : Steps := .all [.separated .rParen element, .expect .rParen]

section

variable {argument : List Token} {s : Sight}

/-- What a list of arguments holds is read behind the parenthesis. -/
theorem argList_items {parts : List Tree} (hs : s.Shows (⟨.lParen, "("⟩ :: (argument ++ closing)))
    (htrees : (argList.read unboundedReadings s).1 =
      [.node .argList (.leaf ⟨.lParen, "("⟩ :: (parts ++ [.leaf ⟨.rParen, ")"⟩]))])
    (hfits : (argList.read unboundedReadings s).2.misfits = []) :
    ∃ s', s'.Shows (argument ++ closing) ∧
      (argItems.read unboundedReadings s').1 = parts ++ [.leaf ⟨.rParen, ")"⟩] ∧
      (argItems.read unboundedReadings s').2.misfits = [] := by
  obtain ⟨-, hleading, -, -, hflush⟩ := @Sight.Shows.next s [] _ _ hs (by intro blank hblank; cases hblank) rfl
  have hopen : Yields ((Steps.expect .lParen).read unboundedReadings) (⟨.lParen, "("⟩ :: (argument ++ closing))
      [.leaf ⟨.lParen, "("⟩] (argument ++ closing) := .takeNext rfl (by decide)
  obtain ⟨hparen, hs'⟩ := hopen s.flush hflush
  rw [argList, Steps.emit, Steps.read, Phrase.read_nodeOf, hleading] at htrees
  rw [argList, Steps.emit, Steps.read, Phrase.read_nodeOf] at hfits
  have hparts := (Tree.node.inj (List.cons.inj htrees).1).2
  rw [Steps.all, Steps.read, hparen] at hparts
  exact ⟨_, hs', (List.cons.inj hparts).2, hfits⟩

/-- A node that is not spread is the first item, read as an expression. -/
theorem items_expression {blanks : List Token} {tree : Tree} {rest : List Tree}
    (htrees : (argItems.read unboundedReadings s).1 = blanks.map .leaf ++ tree :: rest)
    (hfits : (argItems.read unboundedReadings s).2.misfits = [])
    (hnode : ∃ kind, tree.kind = .node kind ∧ kind ≠ .spreadElement) :
    (Question.inside [.rParen]).ask s = true ∧ (Question.next [.dotDotDot]).ask s = false ∧
      (unboundedReadings .expression s).1 = some (blanks, tree) ∧
      (unboundedReadings .expression s).2.misfits = [] := by
  obtain ⟨kind, hkind, hspread⟩ := hnode
  have hinside : (Question.inside [.rParen]).ask s = true := by
    by_contra hno
    -- nothing is read but the parenthesis
    have hempty : (Steps.separated .rParen element).read unboundedReadings s = ([], s) := by
      rw [Steps.separated, Steps.read, Sight.collectWhile, if_neg hno]
    have hleaves : (argItems.read unboundedReadings s).1 = (s.take [.rParen]).1 := by
      simp [argItems, Steps.all, Steps.read, hempty, Steps.expect]
    obtain ⟨token, htoken⟩ : ∃ token, tree = .leaf token := by
      have hmem : tree ∈ (s.take [.rParen]).1 := by
        rw [← hleaves, htrees]
        simp
      rw [Sight.take] at hmem
      split at hmem
      · obtain ⟨token, -, htoken⟩ := List.mem_map.mp hmem
        exact ⟨token, htoken.symm⟩
      · cases hmem
    rw [htoken] at hkind
    cases hkind
  have hfirst : ∀ {read : Found × Sight}, Starts element s read → Starts argItems s read :=
    fun hstarts => ((hstarts.seq _).loop hinside).seq _
  have hdots : (Question.next [.dotDotDot]).ask s = false := by
    by_contra hdots
    have hpart := Starts.part (.nodeOf .spreadElement [.expect .dotDotDot, .call .expression]) s
    rw [Phrase.read_nodeOf] at hpart
    obtain ⟨-, rfl⟩ := (hfirst (hpart.yes (eq_true_of_ne_false hdots))).node rfl ⟨_, rfl⟩ ⟨_, hkind⟩ htrees
    exact hspread (Kind.node.inj hkind).symm
  have hstarts := hfirst ((Starts.part (.call .expression) s).no hdots)
  obtain ⟨blanks', tree', hfound, -, hnode⟩ := found_node (hstarts.fits hfits)
  obtain ⟨rfl, rfl⟩ := hstarts.node hfound hnode ⟨_, hkind⟩ htrees
  exact ⟨hinside, hdots, hfound, hstarts.fits hfits⟩

end

/-- What stands between the parentheses of a call is the argument. -/
theorem programTree_tokens {argument : List Token} (hnoEnd : ∀ token ∈ argument, token.kind ≠ .eof)
    {parts : List Tree} (h : (Program.ofTokens (programTokens argument)).tree = programTree parts) :
    argument = tokensOf parts := by
  have hkept := parts_keep (programTokens_last argument) rfl (programTokens_noEnd hnoEnd)
  rw [programTokens_program hnoEnd] at h
  rw [parts_unbounded, (Tree.node.inj h).2] at hkept
  simpa [programTokens, callNode, callee, closing, Tree.tokens, tokensOf, tokensOf_append] using hkept

/-- An expression before a closing parenthesis is read alike with other tokens behind, if the look-aheads in
it are answered alike. -/
theorem expression_carried {kind : TokenKind} {behind before front : List Token} {s : Sight}
    (hswap : Swapped kind closing behind) (hkind : kind ≠ .question)
    (hsteady : Steady closing behind (.phrase (.call .expression), ⟨s, #[]⟩))
    (hs : s.Shows (before ++ closing)) (ht : (unboundedReadings .expression s).2.Shows (front ++ closing)) :
    Yields (unboundedReadings .expression) (before ++ behind) (unboundedReadings .expression s).1
      (front ++ behind) := by
  have hkeeps : (Phrase.call .expression).keeps kind 0 = true := by simpa [Phrase.keeps, Rule.keeps] using hkind
  exact carried hswap _ hsteady 0 (by decide) hkeeps (by simp [Phrase.tellsTypes]) before front hs ht (Nat.zero_le _)

/-- The argument of a program was read as an expression up to the closing parenthesis. -/
theorem IsArgument.readsAs {argument : List Token} {tree : Tree} (h : IsArgument argument tree) :
    ∃ blanks blanks', (∀ blank ∈ blanks, blank.isTrivia = true) ∧ ReadsAs argument blanks tree blanks' := by
  obtain ⟨blanks, blanks', htrivia, hread⟩ := h.read
  have hfits := h.isOk
  have htree := hread
  rw [programTokens_program h.noEnd, Program.isOk, List.isEmpty_iff] at hfits
  rw [programTokens_program h.noEnd] at htree
  obtain ⟨call, behind, hcall, hfound, hcallFits⟩ :=
    program_expression (programTokens_shows argument) hfits (Tree.node.inj htree).2
  obtain ⟨list, hlist, hargs, hargsFit⟩ := call_argList hcall hfound hcallFits
  obtain ⟨s, hs, hitems, hitemsFit⟩ := argList_items hlist hargs hargsFit
  rw [List.append_assoc] at hitems
  obtain ⟨hinside, hdots, hexpression, hexpressionFits⟩ := items_expression hitems hitemsFit h.node
  have hargument : argument = blanks ++ (tree.tokens ++ blanks') := by
    rw [programTree_tokens h.noEnd hread, tokensOf_append, tokensOf_leaves, tokensOf, tokensOf_leaves]
  have hbehind : (unboundedReadings .expression s).2.Shows (blanks' ++ closing) := by
    have hkept := unboundedReadings_tokens .expression s
    rw [hexpression, Found.tokensOf_trees, hs.tokens, hargument] at hkept
    refine ⟨hexpressionFits, List.append_cancel_left (hkept.symm.trans ?_)⟩
    simp
  refine ⟨blanks, blanks', fun blank hblank => htrivia _ (List.mem_append_left _ hblank), ?_, ?_, ?_, ?_⟩
  · exact hdots ▸ hs.answers _
  · exact hinside ▸ hs.answers _
  · rw [← hexpression]
    have hsame : Swapped .rParen closing closing := ⟨⟨_, _, rfl, rfl⟩, ⟨_, _, rfl, rfl⟩, by decide⟩
    exact expression_carried hsame (by decide) (fun _ _ question _ _ _ _ hshows => hshows.answers question) hs
      hbehind
  · exact fun blank hblank => htrivia _ (List.mem_append_right _ hblank)

end Grammar

end RouteTypes
