-- Texts with other blanks and comments between the same tokens. What is read and which misfits are found depends
-- on the tokens alone that mean something, so such texts are read in the same way: their trees are the same but for
-- blanks and comments. A node never starts with one of these, unless it is the whole program.
import RouteTypes.Proofs.Grammar.Whole
import RouteTypes.Proofs.Grammar.Widening
import RouteTypes.Proofs.Tree.Related

namespace RouteTypes

open RouteTypes.Tree

/-! ## Trees -/

namespace Tree

/-- The first part means something, if there is one. -/
def Opens (children : List Tree) : Prop := ∀ first ∈ children.head?, first.isTrivia = false

mutual

/-- Two trees that are the same but for blanks and comments, which stand before no first part. -/
inductive Respaced : Tree → Tree → Prop
  | leaf {token : Token} (solid : token.isTrivia = false) : Respaced (.leaf token) (.leaf token)
  | node (kind : NodeKind) {children children' : List Tree} (opens : Opens children) (opens' : Opens children')
      (below : RespacedAll children children') : Respaced (.node kind children) (.node kind children')

inductive RespacedAll : List Tree → List Tree → Prop
  | nil : RespacedAll [] []
  | blank {token : Token} {trees trees' : List Tree} (trivia : token.isTrivia = true)
      (rest : RespacedAll trees trees') : RespacedAll (.leaf token :: trees) trees'
  | blank' {token : Token} {trees trees' : List Tree} (trivia : token.isTrivia = true)
      (rest : RespacedAll trees trees') : RespacedAll trees (.leaf token :: trees')
  | cons {tree tree' : Tree} {trees trees' : List Tree} (first : Respaced tree tree')
      (rest : RespacedAll trees trees') : RespacedAll (tree :: trees) (tree' :: trees')

end

theorem Respaced.solid {tree tree' : Tree} (h : Respaced tree tree') :
    tree.isTrivia = false ∧ tree'.isTrivia = false := by
  cases h with
  | leaf solid => exact ⟨solid, solid⟩
  | node => exact ⟨rfl, rfl⟩

theorem RespacedAll.append {front front' back back' : List Tree} :
    RespacedAll front front' → RespacedAll back back' → RespacedAll (front ++ back) (front' ++ back')
  | .nil, hback => hback
  | .blank trivia rest, hback => .blank trivia (rest.append hback)
  | .blank' trivia rest, hback => .blank' trivia (rest.append hback)
  | .cons first rest, hback => .cons first (rest.append hback)

/-- Blanks and comments do not count. -/
theorem RespacedAll.blanks {blanks blanks' : List Token} (h : ∀ blank ∈ blanks, blank.isTrivia = true)
    (h' : ∀ blank ∈ blanks', blank.isTrivia = true) {trees trees' : List Tree} (hrest : RespacedAll trees trees') :
    RespacedAll (blanks.map .leaf ++ trees) (blanks'.map .leaf ++ trees') := by
  induction blanks with
  | cons blank rest ih =>
    exact .blank (h blank List.mem_cons_self) (ih fun other hin => h other (List.mem_cons_of_mem _ hin))
  | nil =>
    induction blanks' with
    | cons blank rest ih =>
      exact .blank' (h' blank List.mem_cons_self) (ih fun other hin => h' other (List.mem_cons_of_mem _ hin))
    | nil => exact hrest

theorem RespacedAll.one {tree tree' : Tree} (h : Respaced tree tree') : RespacedAll [tree] [tree'] := .cons h .nil

mutual

theorem Respaced.withoutTrivia {tree tree' : Tree} :
    Respaced tree tree' → tree'.withoutTrivia = tree.withoutTrivia
  | .leaf _ => rfl
  | .node kind _ _ below => congrArg (Tree.node kind) below.withoutTriviaOf

theorem RespacedAll.withoutTriviaOf {trees trees' : List Tree} :
    RespacedAll trees trees' → Tree.withoutTriviaOf trees' = Tree.withoutTriviaOf trees
  | .nil => rfl
  | @RespacedAll.blank token _ _ trivia rest => by
    rw [rest.withoutTriviaOf, Tree.withoutTriviaOf, if_pos (show (Tree.leaf token).isTrivia = true from trivia)]
  | @RespacedAll.blank' token _ _ trivia rest => by
    rw [← rest.withoutTriviaOf, Tree.withoutTriviaOf, if_pos (show (Tree.leaf token).isTrivia = true from trivia)]
  | .cons first rest => by
    rw [Tree.withoutTriviaOf, Tree.withoutTriviaOf, if_neg (Bool.eq_false_iff.mp first.solid.1),
      if_neg (Bool.eq_false_iff.mp first.solid.2), first.withoutTrivia, rest.withoutTriviaOf]

end

/-- No node starts with a blank or a comment. -/
inductive Opened : Tree → Prop
  | leaf (token : Token) : Opened (.leaf token)
  | node {kind : NodeKind} {children : List Tree} (opens : Opens children) (below : ∀ child ∈ children, Opened child) :
      Opened (.node kind children)

mutual

theorem Respaced.opened {tree tree' : Tree} : Respaced tree tree' → tree.Opened
  | .leaf _ => .leaf _
  | .node _ opens _ below => .node opens below.opened

theorem RespacedAll.opened {trees trees' : List Tree} : RespacedAll trees trees' → ∀ tree ∈ trees, tree.Opened
  | .nil => fun _ hin => absurd hin List.not_mem_nil
  | .blank _ rest => List.forall_mem_cons.mpr ⟨.leaf _, rest.opened⟩
  | .blank' _ rest => rest.opened
  | .cons first rest => List.forall_mem_cons.mpr ⟨first.opened, rest.opened⟩

end

end Tree

/-! ## What is to come -/

namespace Sight

/-- The same tokens that mean something are to come, and the same has been said about those before. -/
structure Respaced (s s' : Sight) : Prop where
  tokens : s'.ahead.map (·.token) = s.ahead.map (·.token)
  messages : s'.misfits.map Misfit.message = s.misfits.map Misfit.message

namespace Respaced

variable {s s' : Sight} (h : s.Respaced s')

include h

theorem length : s'.ahead.length = s.ahead.length := by
  simpa using congrArg List.length h.tokens

theorem kinds : s'.kinds = s.kinds := by
  simpa [Sight.kinds, Lexeme.kind, Function.comp_def] using congrArg (List.map Token.kind) h.tokens

theorem kindAt (n : Nat) : s'.kindAt n = s.kindAt n := by
  rw [Sight.kindAt_eq, Sight.kindAt_eq, h.kinds]

theorem kind : s'.kind = s.kind := h.kindAt 0

theorem hasMisfit : s'.hasMisfit = s.hasMisfit := by
  rw [Sight.hasMisfit, Sight.hasMisfit, ← List.isEmpty_map, h.messages, List.isEmpty_map]

theorem isAtWord (word : String) : s'.isAtWord word = s.isAtWord word := by
  have hword : ∀ s : Sight, s.isAtWord word =
      (s.kind == .ident && (s.ahead.map (·.token)).head?.any (·.text == word)) := by
    rintro ⟨ahead, misfits⟩
    cases ahead <;> rfl
  rw [hword, h.tokens, h.kind, ← hword]

theorem isAtArrow : s'.isAtArrow = s.isAtArrow := by
  rw [Sight.isAtArrow, Sight.isAtArrow, h.isAtWord, h.kinds]
  simp only [h.kindAt]

/-- Every question has the same answer. -/
theorem ask : ∀ question : Question, question.ask s' = question.ask s
  | .sure _ => rfl
  | .next kinds => by rw [Question.ask, Question.ask, isAtAny, isAtAny, h.kind]
  | .second kinds => by rw [Question.ask, Question.ask, h.kindAt]
  | .word text => h.isAtWord text
  | .misfit => h.hasMisfit
  | .functionType => by rw [Question.ask, Question.ask, isAtFunctionType, isAtFunctionType, h.kinds]
  | .arrow => h.isAtArrow
  | .callTypeArgs => by rw [Question.ask, Question.ask, isAtCallTypeArgs, isAtCallTypeArgs, h.kind, h.kinds]
  | .not question => by rw [Question.ask, Question.ask, ask question]
  | .both first other => by rw [Question.ask, Question.ask, ask first, ask other]

/-! ### Moving on -/

theorem flush : s.flush.Respaced s'.flush := by
  have hflush : ∀ s : Sight, s.flush.ahead.map (·.token) = s.ahead.map (·.token) := by
    rintro ⟨ahead, misfits⟩
    cases ahead <;> rfl
  exact ⟨by rw [hflush, hflush, h.tokens], h.messages⟩

theorem advance : s.advance.Respaced s'.advance where
  tokens := by rw [Sight.advance, Sight.advance, List.map_tail, List.map_tail, h.tokens]
  messages := h.messages

theorem refuse {expected expected' : Expected} (hexpected : expected'.message = expected.message) :
    (s.refuse expected).Respaced (s'.refuse expected') := by
  rw [Sight.refuse, Sight.refuse, h.hasMisfit]
  split
  · exact h
  · refine ⟨h.tokens, ?_⟩
    rw [List.map_append, List.map_append, h.messages]
    simp [Misfit.message, hexpected]

/-- The next token is the same. -/
theorem next : RespacedAll (s.next.map .leaf) (s'.next.map .leaf) := by
  obtain ⟨ahead, misfits⟩ := s
  obtain ⟨ahead', misfits'⟩ := s'
  have htokens := h.tokens
  cases ahead with
  | nil =>
    obtain rfl : ahead' = [] := List.map_eq_nil_iff.mp htokens
    exact .nil
  | cons lexeme rest =>
    obtain ⟨lexeme', rest', rfl, htoken, -⟩ := List.map_eq_cons_iff.mp htokens
    have hnext : ∀ (lexeme : Lexeme) (rest : List Lexeme) (misfits : List Misfit),
        (Sight.next ⟨lexeme :: rest, misfits⟩).map Tree.leaf = lexeme.leading.map .leaf ++ [.leaf lexeme.token] := by
      simp [Sight.next, Lexeme.tokens]
    rw [hnext, hnext, htoken]
    exact .blanks lexeme.leading_trivia lexeme'.leading_trivia (.one (.leaf lexeme.token_solid))

end Respaced

/-- What a node starts with behind the blanks and comments means something. -/
theorem opens_of_tokens {s behind : Sight} {trees : List Tree}
    (h : s.flush.tokens = tokensOf trees ++ behind.tokens) : Tree.Opens trees := by
  intro first hfirst
  cases first with
  | node kind children => rfl
  | leaf token =>
    obtain ⟨rest, rfl⟩ := List.head?_eq_some_iff.mp hfirst
    obtain ⟨ahead, misfits⟩ := s
    cases ahead with
    | nil => cases h
    | cons lexeme _ =>
      obtain rfl : lexeme.token = token := (List.cons.inj h).1
      exact lexeme.token_solid

end Sight

/-! ## Reading -/

/-- The same node but for blanks and comments, or nothing. -/
def Found.Respaced : Found → Found → Prop :=
  Option.Rel fun one other => (∀ blank ∈ one.1, blank.isTrivia = true) ∧ (∀ blank ∈ other.1, blank.isTrivia = true) ∧
    Tree.Respaced one.2 other.2

theorem Found.Respaced.trees {found found' : Found} (h : found.Respaced found') :
    RespacedAll found.trees found'.trees := by
  cases h with
  | none => exact .nil
  | some h => exact .blanks h.1 h.2.1 (.one h.2.2)

/-- The same has been read, and the same is to come behind it. -/
def ReadAlike {α : Type} (R : α → α → Prop) (one other : α × Sight) : Prop := R one.1 other.1 ∧ one.2.Respaced other.2

/-- The parts of a node, and its kind. -/
def SameParts (one other : NodeKind × List Tree) : Prop := other.1 = one.1 ∧ RespacedAll one.2 other.2

namespace ReadAlike

theorem collectWhile {question : Sight → Bool} {step : Sight → List Tree × Sight}
    (hquestion : ∀ {s s' : Sight}, s.Respaced s' → question s' = question s)
    (hstep : ∀ {s s' : Sight}, s.Respaced s' → ReadAlike RespacedAll (step s) (step s')) {s s' : Sight}
    (h : s.Respaced s') : ReadAlike RespacedAll (s.collectWhile question step) (s'.collectWhile question step) := by
  have hone := hstep h
  rw [Sight.collectWhile, Sight.collectWhile, hquestion h]
  split
  · dsimp only
    rw [h.length, hone.2.length]
    split
    · have hrest := collectWhile hquestion hstep hone.2
      exact ⟨hone.1.append hrest.1, hrest.2⟩
    · exact hone
  · exact ⟨.nil, h⟩
termination_by s.ahead.length

theorem wrapWhile {step : Tree → Sight → Option Tree × Sight}
    (hstep : ∀ {inner inner' : Tree} {s s' : Sight}, Tree.Respaced inner inner' → s.Respaced s' →
      ReadAlike (Option.Rel Tree.Respaced) (step inner s) (step inner' s')) {inner inner' : Tree} {s s' : Sight}
    (hinner : Tree.Respaced inner inner') (h : s.Respaced s') :
    ReadAlike Tree.Respaced (s.wrapWhile step inner) (s'.wrapWhile step inner') := by
  have hone := hstep hinner h
  rw [Sight.wrapWhile, Sight.wrapWhile]
  generalize step inner s = one at hone ⊢
  generalize step inner' s' = other at hone ⊢
  obtain ⟨outer, behind⟩ := one
  obtain ⟨outer', behind'⟩ := other
  obtain ⟨houter, hbehind⟩ := hone
  cases houter with
  | none => exact ⟨hinner, hbehind⟩
  | some houter =>
    dsimp only
    rw [h.length, hbehind.length]
    split
    · exact wrapWhile hstep houter hbehind
    · exact ⟨houter, hbehind⟩
termination_by s.ahead.length

end ReadAlike

/-- The rules keep every token and read the same where there are other blanks and comments. -/
structure Readings.Respaced (readings : Readings) : Prop where
  keep : ∀ rule s, s.tokens = tokensOf (readings rule s).1.trees ++ (readings rule s).2.tokens
  alike : ∀ rule {s s' : Sight}, s.Respaced s' → ReadAlike Found.Respaced (readings rule s) (readings rule s')

section

variable {readings : Readings}

mutual

theorem Steps.read_respaced (hrules : readings.Respaced) : ∀ (steps : Steps) {s s' : Sight}, s.Respaced s' →
    ReadAlike RespacedAll (steps.read readings s) (steps.read readings s')
  | .done, _, _, h => ⟨.nil, h⟩
  | .take kinds, _, _, h => by
    rw [Steps.read, Steps.read, Sight.take, Sight.take, Sight.isAtAny, Sight.isAtAny, h.kind]
    split
    · exact ⟨h.next, h.advance⟩
    · exact ⟨.nil, h.refuse rfl⟩
  | .refuse _, _, _, h => ⟨.nil, h.refuse rfl⟩
  | .seq first rest, _, _, h =>
    have hfirst := first.read_respaced hrules h
    have hrest := rest.read_respaced hrules hfirst.2
    ⟨hfirst.1.append hrest.1, hrest.2⟩
  | .branch question yes no, _, _, h => by
    rw [Steps.read, Steps.read, h.ask question]
    split
    · exact yes.read_respaced hrules h
    · exact no.read_respaced hrules h
  | .loop question body, _, _, h => .collectWhile (fun h => h.ask question) (fun h => body.read_respaced hrules h) h
  | .part phrase, _, _, h =>
    have hfound := phrase.read_respaced hrules h
    ⟨hfound.1.trees, hfound.2⟩
  | .enclosed what inside, _, _, h => by
    have hinside := inside.read_respaced hrules h
    rw [Steps.read, Steps.read, hinside.2.hasMisfit, hinside.2.kind]
    split
    · exact hinside
    · split
      · exact ⟨hinside.1.append hinside.2.next, hinside.2.advance⟩
      · exact ⟨hinside.1, hinside.2.refuse rfl⟩

theorem Body.read_respaced (hrules : readings.Respaced) : ∀ (body : Body) {s s' : Sight}, s.Respaced s' →
    ReadAlike SameParts (body.read readings s) (body.read readings s')
  | .close _, _, _, h => ⟨⟨rfl, .nil⟩, h⟩
  | .seq first rest, _, _, h =>
    have hfirst := first.read_respaced hrules h
    have hrest := rest.read_respaced hrules hfirst.2
    ⟨⟨hrest.1.1, hfirst.1.append hrest.1.2⟩, hrest.2⟩
  | .branch question yes no, _, _, h => by
    rw [Body.read, Body.read, h.ask question]
    split
    · exact yes.read_respaced hrules h
    · exact no.read_respaced hrules h

theorem Phrase.read_respaced (hrules : readings.Respaced) : ∀ (phrase : Phrase) {s s' : Sight}, s.Respaced s' →
    ReadAlike Found.Respaced (phrase.read readings s) (phrase.read readings s')
  | .refuse _, _, _, h => ⟨.none, h.refuse rfl⟩
  | .node body, s, s', h => by
    obtain ⟨⟨hkind, hparts⟩, hbehind⟩ := body.read_respaced hrules h.flush
    rw [Phrase.read, Phrase.read]
    refine ⟨.some ⟨s.leading_trivia, s'.leading_trivia, ?_⟩, hbehind⟩
    dsimp only
    rw [hkind]
    exact .node _ (Sight.opens_of_tokens (body.read_tokens hrules.keep _))
      (Sight.opens_of_tokens (body.read_tokens hrules.keep _)) hparts
  | .branch question yes no, _, _, h => by
    rw [Phrase.read, Phrase.read, h.ask question]
    split
    · exact yes.read_respaced hrules h
    · exact no.read_respaced hrules h
  | .call rule, _, _, h => hrules.alike rule h
  | .wrap inner suffix, s, s', h => by
    obtain ⟨hfound, hbehind⟩ := inner.read_respaced hrules h
    rw [Phrase.read, Phrase.read]
    generalize inner.read readings s = one at hfound hbehind ⊢
    generalize inner.read readings s' = other at hfound hbehind ⊢
    obtain ⟨found, behind⟩ := one
    obtain ⟨found', behind'⟩ := other
    cases hfound with
    | none => exact ⟨.none, hbehind⟩
    | some hfound =>
      obtain ⟨hsuffix, hlast⟩ := suffix.read_respaced hrules hfound.2.2 hbehind
      exact ⟨.some ⟨hfound.1, hfound.2.1, hsuffix.getD hfound.2.2⟩, hlast⟩
  | .extend inner suffix, s, s', h => by
    obtain ⟨hfound, hbehind⟩ := inner.read_respaced hrules h
    rw [Phrase.read, Phrase.read]
    generalize inner.read readings s = one at hfound hbehind ⊢
    generalize inner.read readings s' = other at hfound hbehind ⊢
    obtain ⟨found, behind⟩ := one
    obtain ⟨found', behind'⟩ := other
    cases hfound with
    | none => exact ⟨.none, hbehind⟩
    | some hfound =>
      obtain ⟨hlast, hrest⟩ :=
        ReadAlike.wrapWhile (fun hinner h => suffix.read_respaced hrules hinner h) hfound.2.2 hbehind
      exact ⟨.some ⟨hfound.1, hfound.2.1, hlast⟩, hrest⟩

theorem Suffix.read_respaced (hrules : readings.Respaced) : ∀ (suffix : Suffix) {inner inner' : Tree}
    {s s' : Sight}, Tree.Respaced inner inner' → s.Respaced s' →
      ReadAlike (Option.Rel Tree.Respaced) (suffix.read readings inner s) (suffix.read readings inner' s')
  | .stop, _, _, _, _, _, h => ⟨.none, h⟩
  | .around body, inner, inner', _, _, hinner, h => by
    obtain ⟨⟨hkind, hparts⟩, hbehind⟩ := body.read_respaced hrules h
    have hopens : ∀ {tree : Tree} (rest : List Tree), tree.isTrivia = false → Tree.Opens (tree :: rest) :=
      fun rest hsolid first hfirst => by
        obtain rfl := Option.some.inj hfirst
        exact hsolid
    rw [Suffix.read, Suffix.read]
    refine ⟨.some ?_, hbehind⟩
    rw [hkind]
    exact .node _ (hopens _ hinner.solid.1) (hopens _ hinner.solid.2) (.cons hinner hparts)
  | .branch question yes no, _, _, _, _, hinner, h => by
    rw [Suffix.read, Suffix.read, h.ask question]
    split
    · exact yes.read_respaced hrules hinner h
    · exact no.read_respaced hrules hinner h

end

end

namespace Grammar

theorem readingsUpTo_respaced (depth : Nat) : (readingsUpTo depth).Respaced where
  keep := readingsUpTo_tokens depth
  alike := by
    induction depth with
    | zero => exact fun _ _ _ h => ⟨.none, h.refuse rfl⟩
    | succ depth ih => exact fun rule _ _ h => (phraseOf rule).read_respaced ⟨readingsUpTo_tokens depth, ih⟩ h

theorem parts_respaced {tokens tokens' : List Token} (h : tokens'.filter (!·.isTrivia) = tokens.filter (!·.isTrivia)) :
    ReadAlike RespacedAll (parts tokens) (parts tokens') := by
  have hstart : (Sight.ofTokens tokens).Respaced (Sight.ofTokens tokens') :=
    ⟨(Lexeme.group_solid 0 [] _ tokens').trans (h.trans (Lexeme.group_solid 0 [] _ tokens).symm), rfl⟩
  obtain ⟨⟨-, hparts⟩, hbehind⟩ := program.read_respaced (readingsUpTo_respaced _) hstart
  rw [parts, parts, hstart.length]
  exact ⟨hparts, hbehind⟩

end Grammar

/-! ## Programs -/

namespace Program

variable {text text' : String}

/-- Texts with the same tokens that mean something have the same parts but for blanks and comments. -/
theorem ofSource_respaced
    (h : (Token.ofSource text').filter (!·.isTrivia) = (Token.ofSource text).filter (!·.isTrivia)) :
    RespacedAll (ofSource text).tree.children (ofSource text').tree.children ∧
      (ofSource text').misfits.map Misfit.message = (ofSource text).misfits.map Misfit.message := by
  obtain ⟨hparts, hbehind⟩ := Grammar.parts_respaced h
  rw [ofSource_eq, ofSource_eq]
  exact ⟨hparts, hbehind.messages⟩

/-- No node of a program starts with a blank or a comment, apart from the outermost. -/
theorem ofSource_opened (text : String) : ∀ child ∈ (ofSource text).tree.children, child.Opened :=
  (ofSource_respaced rfl).1.opened

end Program

end RouteTypes
