-- What a piece of grammar makes of given tokens. It is told of tokens instead of sights: wherever these
-- tokens are to come and nothing was wrong before, the same trees are read and the same tokens are left.
-- One law for each construction of the grammar puts readings together.
import RouteTypes.Proofs.Grammar.Tails

namespace RouteTypes

open RouteTypes.Tree

/-! ## Tokens to come -/

/-- These tokens are to come, and everything before them fitted. -/
structure Sight.Shows (s : Sight) (tokens : List Token) : Prop where
  fits : s.misfits = []
  tokens : s.tokens = tokens

/-- Of the tokens the reading makes this, and leaves the rest. -/
def Yields {α : Type} (read : Sight → α × Sight) (tokens : List Token) (made : α) (rest : List Token) : Prop :=
  ∀ s : Sight, s.Shows tokens → (read s).1 = made ∧ (read s).2.Shows rest

/-- The question is answered like this where these tokens are to come. -/
def Question.Answers (question : Question) (tokens : List Token) (answer : Bool) : Prop :=
  ∀ s : Sight, s.Shows tokens → question.ask s = answer

theorem Token.of_opening {tokens blanks : List Token} {token : Token}
    (h : opening tokens = (blanks, some token)) :
    ∃ rest, tokens = blanks ++ token :: rest ∧ (∀ blank ∈ blanks, blank.isTrivia = true) ∧
      token.isTrivia = false := by
  rw [opening, Prod.mk.injEq] at h
  obtain ⟨rfl, hfind⟩ := h
  induction tokens with
  | nil => cases hfind
  | cons first more ih =>
    rw [List.find?_cons] at hfind
    rw [List.takeWhile_cons]
    cases hfirst : first.isTrivia with
    | false =>
      rw [hfirst] at hfind
      obtain rfl := Option.some_inj.mp hfind
      exact ⟨more, rfl, (by intro blank hblank; cases hblank), hfirst⟩
    | true =>
      rw [hfirst] at hfind
      obtain ⟨rest, hrest, hblanks, hsolid⟩ := ih hfind
      refine ⟨rest, congrArg (first :: ·) hrest, fun blank hblank => ?_, hsolid⟩
      rcases List.mem_cons.mp hblank with rfl | hblank
      · exact hfirst
      · exact hblanks blank hblank

namespace Sight

/-- A sight whose first token that is neither blank nor comment is known. -/
theorem Shows.next {s : Sight} {blanks rest : List Token} {token : Token}
    (h : s.Shows (blanks ++ token :: rest)) (hblanks : ∀ blank ∈ blanks, blank.isTrivia = true)
    (hsolid : token.isTrivia = false) :
    s.kind = token.kind ∧ s.leading = blanks ∧ s.next = blanks ++ [token] ∧ s.advance.Shows rest ∧
      s.flush.Shows (token :: rest) := by
  have hopening := s.opening_tokens
  rw [h.tokens, Token.opening_append _ hblanks hsolid, Prod.mk.injEq] at hopening
  obtain ⟨rfl, htoken⟩ := hopening
  obtain ⟨htokens, hfits⟩ := h.tokens, h.fits
  obtain ⟨ahead, misfits⟩ := s
  cases ahead with
  | nil => cases htoken
  | cons next more =>
    obtain rfl : token = next.token := Option.some_inj.mp htoken
    have hrest : more.flatMap Lexeme.tokens = rest := by
      have hsplit : next.leading ++ next.token :: more.flatMap Lexeme.tokens =
          next.leading ++ next.token :: rest := by
        refine Eq.trans ?_ htokens
        simp [Sight.tokens, Lexeme.tokens]
      exact (List.cons.inj (List.append_cancel_left hsplit)).2
    refine ⟨rfl, rfl, rfl, ⟨hfits, hrest⟩, hfits, ?_⟩
    rw [← hrest]
    simp [flush, Sight.tokens, Lexeme.tokens, Lexeme.bare]

/-- The next token that is neither blank nor comment, if there is one. -/
theorem exists_next {s : Sight} (h : s.kind ≠ .eof) : ∃ token rest,
    s.tokens = s.leading ++ token :: rest ∧ token.isTrivia = false ∧ token.kind = s.kind := by
  obtain ⟨ahead, misfits⟩ := s
  cases ahead with
  | nil => exact absurd rfl h
  | cons next more =>
    refine ⟨next.token, more.flatMap Lexeme.tokens, ?_, next.token_solid, rfl⟩
    simp [tokens, leading, Lexeme.tokens]

theorem Shows.length {s : Sight} {tokens : List Token} (h : s.Shows tokens) :
    s.ahead.length = (Token.solidKinds tokens).length := by
  rw [Sight.length_eq, h.tokens]

end Sight

/-! ## Questions -/

namespace Question.Answers

variable {question : Question} {blanks rest : List Token} {token : Token} {answer : Bool}

theorem of_at (hblanks : ∀ blank ∈ blanks, blank.isTrivia = true) (hsolid : token.isTrivia = false)
    (h : question.at? token.kind = some answer) : question.Answers (blanks ++ token :: rest) answer :=
  fun s hs => ask_at hs.fits (by rw [(hs.next hblanks hsolid).1, h])

theorem bare (hsolid : token.isTrivia = false) (h : question.at? token.kind = some answer) :
    question.Answers (token :: rest) answer :=
  @of_at question [] rest token answer (by intro blank hblank; cases hblank) hsolid h

end Question.Answers

/-! ## Steps -/

section

variable {readings : Readings} {tokens middle behind : List Token}

namespace Yields

theorem done : Yields (Steps.done.read readings) tokens [] tokens :=
  fun _ hs => ⟨rfl, hs⟩

theorem take {kinds : List TokenKind} {blanks rest : List Token} {token : Token}
    (hblanks : ∀ blank ∈ blanks, blank.isTrivia = true) (hsolid : token.isTrivia = false)
    (hkind : token.kind ∈ kinds) : Yields ((Steps.take kinds).read readings)
      (blanks ++ token :: rest) ((blanks ++ [token]).map .leaf) rest := by
  intro s hs
  obtain ⟨hnext, -, htaken, hadvance, -⟩ := hs.next hblanks hsolid
  have hat : s.isAtAny kinds = true := by
    rw [Sight.isAtAny, hnext]
    exact List.contains_iff_mem.mpr hkind
  rw [Steps.read, Sight.take, if_pos hat, htaken]
  exact ⟨rfl, hadvance⟩

/-- The next token is taken, with nothing before it. -/
theorem takeNext {kinds : List TokenKind} {rest : List Token} {token : Token}
    (hsolid : token.isTrivia = false) (hkind : token.kind ∈ kinds) :
    Yields ((Steps.take kinds).read readings) (token :: rest) [.leaf token] rest :=
  @take readings kinds [] rest token (by intro blank hblank; cases hblank) hsolid hkind

theorem seq {first rest : Steps} {trees others : List Tree}
    (h : Yields (first.read readings) tokens trees middle)
    (h' : Yields (rest.read readings) middle others behind) :
    Yields ((Steps.seq first rest).read readings) tokens (trees ++ others) behind := by
  intro s hs
  obtain ⟨hfirst, hmiddle⟩ := h s hs
  obtain ⟨hrest, hbehind⟩ := h' _ hmiddle
  refine ⟨?_, hbehind⟩
  rw [← hfirst, ← hrest]
  rfl

theorem branch {question : Question} {yes no : Steps} {answer : Bool} {trees : List Tree}
    (hask : question.Answers tokens answer)
    (h : Yields ((bif answer then yes else no).read readings) tokens trees behind) :
    Yields ((Steps.branch question yes no).read readings) tokens trees behind := by
  intro s hs
  rw [Steps.read, hask s hs]
  cases answer <;> exact h s hs

/-- Everything has fitted so far. -/
theorem unlessMisfit {steps : Steps} {trees : List Tree} (h : Yields (steps.read readings) tokens trees behind) :
    Yields ((Steps.unlessMisfit steps).read readings) tokens trees behind := by
  have hsure : (Question.not .misfit).Answers tokens true := by
    intro s hs
    rw [Question.ask, Question.ask, Sight.hasMisfit, hs.fits]
    rfl
  exact .branch hsure h

theorem part {phrase : Phrase} {found : Found} (h : Yields (phrase.read readings) tokens found behind) :
    Yields ((Steps.part phrase).read readings) tokens found.trees behind := by
  intro s hs
  obtain ⟨hfound, hbehind⟩ := h s hs
  refine ⟨?_, hbehind⟩
  rw [← hfound]
  rfl

theorem enclosed {what : Enclosure} {inside : Steps} {trees : List Tree} {blanks rest : List Token}
    {token : Token} (h : Yields (inside.read readings) tokens trees (blanks ++ token :: rest))
    (hblanks : ∀ blank ∈ blanks, blank.isTrivia = true) (hbrace : token.kind = .rBrace) :
    Yields ((Steps.enclosed what inside).read readings) tokens
      (trees ++ (blanks ++ [token]).map .leaf) rest := by
  intro s hs
  have hsolid : token.isTrivia = false := by rw [Token.isTrivia, hbrace]; rfl
  obtain ⟨hinside, hmiddle⟩ := h s hs
  obtain ⟨hnext, -, htaken, hadvance, -⟩ := hmiddle.next hblanks hsolid
  have hfits : (inside.read readings s).2.hasMisfit = false := by
    rw [Sight.hasMisfit, hmiddle.fits]
    rfl
  rw [Steps.read]
  simp only [hfits, hnext, hbrace, hinside, htaken]
  exact ⟨rfl, hadvance⟩

/-- What is repeated makes something of one more token at least, and goes on. -/
theorem loopNext {question : Question} {body : Steps} {trees others : List Tree}
    (hask : question.Answers tokens true) (h : Yields (body.read readings) tokens trees middle)
    (hless : (Token.solidKinds middle).length < (Token.solidKinds tokens).length)
    (h' : Yields ((Steps.loop question body).read readings) middle others behind) :
    Yields ((Steps.loop question body).read readings) tokens (trees ++ others) behind := by
  intro s hs
  obtain ⟨hone, hmiddle⟩ := h s hs
  obtain ⟨hother, hbehind⟩ := h' _ hmiddle
  rw [Steps.read] at hother hbehind ⊢
  rw [Sight.collectWhile, if_pos (hask s hs)]
  dsimp only
  rw [if_pos (by rw [hmiddle.length, hs.length]; exact hless)]
  exact ⟨by rw [hone, hother], hbehind⟩

/-- What is repeated makes nothing of a token, so it ends. -/
theorem loopLast {question : Question} {body : Steps} {trees : List Tree}
    (hask : question.Answers tokens true) (h : Yields (body.read readings) tokens trees behind)
    (hsame : (Token.solidKinds tokens).length ≤ (Token.solidKinds behind).length) :
    Yields ((Steps.loop question body).read readings) tokens trees behind := by
  intro s hs
  obtain ⟨hone, hbehind⟩ := h s hs
  rw [Steps.read, Sight.collectWhile, if_pos (hask s hs)]
  dsimp only
  rw [if_neg (by rw [hbehind.length, hs.length]; exact Nat.not_lt.mpr hsame)]
  exact ⟨hone, hbehind⟩

theorem loopEnd {question : Question} {body : Steps} (hask : question.Answers tokens false) :
    Yields ((Steps.loop question body).read readings) tokens [] tokens := by
  intro s hs
  rw [Steps.read, Sight.collectWhile, if_neg (by rw [hask s hs]; exact Bool.noConfusion)]
  exact ⟨rfl, hs⟩

/-! ## Lists -/

section

variable {closing : TokenKind} {item : Steps} {blanks rest : List Token} {close comma : Token}

theorem inside_closing (hblanks : ∀ blank ∈ blanks, blank.isTrivia = true)
    (hsolid : close.isTrivia = false) (hclose : close.kind = closing) :
    (Question.inside [closing]).Answers (blanks ++ close :: rest) false := by
  refine .of_at hblanks hsolid ?_
  rw [hclose]
  simp [Question.inside, Question.at?]

/-- A list is at its end. -/
theorem separatedEnd (hblanks : ∀ blank ∈ blanks, blank.isTrivia = true)
    (hsolid : close.isTrivia = false) (hclose : close.kind = closing) :
    Yields ((Steps.separated closing item).read readings) (blanks ++ close :: rest) []
      (blanks ++ close :: rest) :=
  .loopEnd (inside_closing hblanks hsolid hclose)

/-- The last item has no comma behind it. -/
theorem separatedLast {trees : List Tree} (hask : (Question.inside [closing]).Answers tokens true)
    (h : Yields (item.read readings) tokens trees (blanks ++ close :: rest))
    (hblanks : ∀ blank ∈ blanks, blank.isTrivia = true) (hsolid : close.isTrivia = false)
    (hclose : close.kind = closing)
    (hless : (Token.solidKinds (blanks ++ close :: rest)).length < (Token.solidKinds tokens).length) :
    Yields ((Steps.separated closing item).read readings) tokens trees (blanks ++ close :: rest) := by
  have hcomma : Yields ((Steps.given (.not (.next [closing])) (.expect .comma)).read readings)
      (blanks ++ close :: rest) [] (blanks ++ close :: rest) := by
    have hno : (Question.not (.next [closing])).Answers (blanks ++ close :: rest) false := by
      refine .of_at hblanks hsolid ?_
      rw [hclose]
      simp [Question.at?]
    exact .branch hno .done
  have hone := (h.seq hcomma).loopNext hask hless (.separatedEnd hblanks hsolid hclose)
  rwa [List.append_nil, List.append_nil] at hone

/-- An item with a comma behind it, and the other ones. -/
theorem separatedNext {trees others : List Tree} (hask : (Question.inside [closing]).Answers tokens true)
    (h : Yields (item.read readings) tokens trees (blanks ++ comma :: rest))
    (hblanks : ∀ blank ∈ blanks, blank.isTrivia = true) (hcomma : comma.kind = .comma)
    (hclosing : closing ≠ .comma)
    (hle : (Token.solidKinds (blanks ++ comma :: rest)).length ≤ (Token.solidKinds tokens).length)
    (h' : Yields ((Steps.separated closing item).read readings) rest others behind) :
    Yields ((Steps.separated closing item).read readings) tokens
      (trees ++ ((blanks ++ [comma]).map .leaf ++ others)) behind := by
  have hsolid : comma.isTrivia = false := by rw [Token.isTrivia, hcomma]; rfl
  have hyes : (Question.not (.next [closing])).Answers (blanks ++ comma :: rest) true := by
    refine .of_at hblanks hsolid ?_
    rw [hcomma]
    simpa [Question.at?] using hclosing.symm
  have htaken : Yields ((Steps.given (.not (.next [closing])) (.expect .comma)).read readings)
      (blanks ++ comma :: rest) ((blanks ++ [comma]).map .leaf) rest :=
    .branch hyes (.take hblanks hsolid (by rw [hcomma]; exact List.mem_singleton_self _))
  have hless : (Token.solidKinds rest).length < (Token.solidKinds (blanks ++ comma :: rest)).length := by
    rw [Token.solidKinds_append, Token.solidKinds_trivia hblanks, Token.solidKinds_cons, hsolid]
    exact Nat.lt_succ_self _
  rw [← List.append_assoc]
  exact (h.seq htaken).loopNext hask (Nat.lt_of_lt_of_le hless hle) h'

end

/-! ## Nodes -/

theorem close {kind : NodeKind} : Yields ((Body.close kind).read readings) tokens (kind, []) tokens :=
  fun _ hs => ⟨rfl, hs⟩

theorem bodySeq {first : Steps} {rest : Body} {kind : NodeKind} {trees others : List Tree}
    (h : Yields (first.read readings) tokens trees middle)
    (h' : Yields (rest.read readings) middle (kind, others) behind) :
    Yields ((Body.seq first rest).read readings) tokens (kind, trees ++ others) behind := by
  intro s hs
  obtain ⟨hfirst, hmiddle⟩ := h s hs
  obtain ⟨hrest, hbehind⟩ := h' _ hmiddle
  refine ⟨?_, hbehind⟩
  rw [Body.read]
  simp only [hfirst, hrest]

theorem bodyBranch {question : Question} {yes no : Body} {answer : Bool} {made : NodeKind × List Tree}
    (hask : question.Answers tokens answer)
    (h : Yields ((bif answer then yes else no).read readings) tokens made behind) :
    Yields ((Body.branch question yes no).read readings) tokens made behind := by
  intro s hs
  rw [Body.read, hask s hs]
  cases answer <;> exact h s hs

theorem ofSteps {kind : NodeKind} {steps : List Steps} {trees : List Tree}
    (h : Yields ((Steps.all steps).read readings) tokens trees behind) :
    Yields ((Body.ofSteps kind steps).read readings) tokens (kind, trees) behind := by
  have hclose : Yields ((Body.close kind).read readings) behind (kind, []) behind := close
  have hboth := h.bodySeq hclose
  rwa [List.append_nil] at hboth

/-- A node begins at the next token. -/
theorem node {body : Body} {kind : NodeKind} {trees : List Tree} {blanks rest : List Token} {token : Token}
    (hblanks : ∀ blank ∈ blanks, blank.isTrivia = true) (hsolid : token.isTrivia = false)
    (h : Yields (body.read readings) (token :: rest) (kind, trees) behind) :
    Yields ((Phrase.node body).read readings) (blanks ++ token :: rest)
      (some (blanks, .node kind trees)) behind := by
  intro s hs
  obtain ⟨-, hleading, -, -, hflush⟩ := hs.next hblanks hsolid
  obtain ⟨hbody, hbehind⟩ := h _ hflush
  refine ⟨?_, hbehind⟩
  rw [Phrase.read, hbody, hleading]

/-- A node that is put into the open one, with the blanks and comments before it. -/
theorem emit {kind : NodeKind} {steps : List Steps} {trees : List Tree} {blanks rest : List Token}
    {token : Token} (hblanks : ∀ blank ∈ blanks, blank.isTrivia = true) (hsolid : token.isTrivia = false)
    (h : Yields ((Steps.all steps).read readings) (token :: rest) trees behind) :
    Yields ((Steps.emit kind steps).read readings) (blanks ++ token :: rest)
      (blanks.map .leaf ++ [.node kind trees]) behind :=
  (h.ofSteps.node hblanks hsolid).part

theorem emitNext {kind : NodeKind} {steps : List Steps} {trees : List Tree} {rest : List Token}
    {token : Token} (hsolid : token.isTrivia = false)
    (h : Yields ((Steps.all steps).read readings) (token :: rest) trees behind) :
    Yields ((Steps.emit kind steps).read readings) (token :: rest) [.node kind trees] behind :=
  @emit readings behind kind steps trees [] rest token (by intro blank hblank; cases hblank) hsolid h

theorem phraseBranch {question : Question} {yes no : Phrase} {answer : Bool} {found : Found}
    (hask : question.Answers tokens answer)
    (h : Yields ((bif answer then yes else no).read readings) tokens found behind) :
    Yields ((Phrase.branch question yes no).read readings) tokens found behind := by
  intro s hs
  rw [Phrase.read, hask s hs]
  cases answer <;> exact h s hs

theorem call {rule : Rule} {found : Found} (h : Yields (readings rule) tokens found behind) :
    Yields ((Phrase.call rule).read readings) tokens found behind := h

/-- What a rule reads is put into the open node. -/
theorem callRule {rule : Rule} {found : Found} (h : Yields (readings rule) tokens found behind) :
    Yields ((Steps.call rule).read readings) tokens found.trees behind :=
  h.call.part

/-- A phrase, and what its suffix makes around it or not. -/
theorem wrap {inner : Phrase} {suffix : Suffix} {blanks : List Token} {tree : Tree} {outer : Option Tree}
    (h : Yields (inner.read readings) tokens (some (blanks, tree)) middle)
    (h' : Yields (suffix.read readings tree) middle outer behind) :
    Yields ((Phrase.wrap inner suffix).read readings) tokens (some (blanks, outer.getD tree)) behind := by
  intro s hs
  obtain ⟨hinner, hmiddle⟩ := h s hs
  rw [Phrase.read]
  generalize inner.read readings s = answer at hinner hmiddle ⊢
  obtain ⟨found, t⟩ := answer
  obtain rfl : found = some (blanks, tree) := hinner
  obtain ⟨houter, hbehind⟩ := h' t hmiddle
  dsimp only
  exact ⟨by rw [houter], hbehind⟩

theorem extend {inner : Phrase} {suffix : Suffix} {blanks : List Token} {tree last : Tree}
    (h : Yields (inner.read readings) tokens (some (blanks, tree)) middle)
    (h' : Yields (Sight.wrapWhile (suffix.read readings) tree) middle last behind) :
    Yields ((Phrase.extend inner suffix).read readings) tokens (some (blanks, last)) behind := by
  intro s hs
  obtain ⟨hinner, hmiddle⟩ := h s hs
  rw [Phrase.read]
  generalize inner.read readings s = answer at hinner hmiddle ⊢
  obtain ⟨found, t⟩ := answer
  obtain rfl : found = some (blanks, tree) := hinner
  obtain ⟨hlast, hbehind⟩ := h' t hmiddle
  dsimp only
  exact ⟨by rw [hlast], hbehind⟩

/-! ## Suffixes -/

theorem stop {inner : Tree} : Yields (Suffix.stop.read readings inner) tokens none tokens :=
  fun _ hs => ⟨rfl, hs⟩

theorem around {body : Body} {inner : Tree} {kind : NodeKind} {trees : List Tree}
    (h : Yields (body.read readings) tokens (kind, trees) behind) :
    Yields ((Suffix.around body).read readings inner) tokens (some (.node kind (inner :: trees))) behind := by
  intro s hs
  obtain ⟨hbody, hbehind⟩ := h s hs
  exact ⟨by rw [Suffix.read, hbody], hbehind⟩

theorem suffixBranch {question : Question} {yes no : Suffix} {answer : Bool} {inner : Tree}
    {outer : Option Tree} (hask : question.Answers tokens answer)
    (h : Yields ((bif answer then yes else no).read readings inner) tokens outer behind) :
    Yields ((Suffix.branch question yes no).read readings inner) tokens outer behind := by
  intro s hs
  rw [Suffix.read, hask s hs]
  cases answer <;> exact h s hs

theorem wrapEnd {step : Tree → Sight → Option Tree × Sight} {inner : Tree}
    (h : Yields (step inner) tokens none behind) : Yields (Sight.wrapWhile step inner) tokens inner behind := by
  intro s hs
  obtain ⟨hone, hbehind⟩ := h s hs
  rw [Sight.wrapWhile]
  generalize step inner s = answer at hone hbehind ⊢
  obtain ⟨outer, t⟩ := answer
  obtain rfl : outer = none := hone
  exact ⟨rfl, hbehind⟩

theorem wrapNext {step : Tree → Sight → Option Tree × Sight} {inner outer last : Tree}
    (h : Yields (step inner) tokens (some outer) middle)
    (hless : (Token.solidKinds middle).length < (Token.solidKinds tokens).length)
    (h' : Yields (Sight.wrapWhile step outer) middle last behind) :
    Yields (Sight.wrapWhile step inner) tokens last behind := by
  intro s hs
  obtain ⟨hone, hmiddle⟩ := h s hs
  rw [Sight.wrapWhile]
  generalize step inner s = answer at hone hmiddle ⊢
  obtain ⟨found, t⟩ := answer
  obtain rfl : found = some outer := hone
  dsimp only
  rw [if_pos (by rw [hmiddle.length, hs.length]; exact hless)]
  exact h' t hmiddle

end Yields

end

end RouteTypes
