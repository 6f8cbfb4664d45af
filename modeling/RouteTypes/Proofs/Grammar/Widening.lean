-- What looking ahead sees of an object that is put in as a last argument. The tokens to come are the same
-- apart from objects before closing parentheses, each with a comma that divides it from the arguments
-- before it. Brackets in it match, so the search for a closing bracket goes on behind it as it did.
import RouteTypes.Proofs.Grammar.Progress

namespace RouteTypes

/-! ## Kinds of tokens -/

namespace TokenKind

/-- Neither a bracket nor the end of the text: the search for a closing bracket goes past it. -/
def isPlain (kind : TokenKind) : Bool :=
  !([.lParen, .rParen, .lBracket, .rBracket, .lBrace, .rBrace, .lt, .gt, .eof] : List TokenKind).contains kind

/-- The tokens to come without and with objects before closing parentheses. Where there is a comma already
the object stands behind it and has another one behind it. -/
inductive Widened : List TokenKind → List TokenKind → Prop
  | nil : Widened [] []
  | keep (kind : TokenKind) {kinds kinds' : List TokenKind} (h : Widened kinds kinds') :
      Widened (kind :: kinds) (kind :: kinds')
  | put {inner kinds kinds' : List TokenKind} (plain : ∀ kind ∈ inner, kind.isPlain = true)
      (h : Widened (.rParen :: kinds) kinds') :
      Widened (.rParen :: kinds) (.comma :: .lBrace :: (inner ++ .rBrace :: kinds'))
  | putBehind {inner kinds kinds' : List TokenKind} (plain : ∀ kind ∈ inner, kind.isPlain = true)
      (h : Widened (.rParen :: kinds) kinds') :
      Widened (.comma :: .rParen :: kinds) (.comma :: .lBrace :: (inner ++ .rBrace :: .comma :: kinds'))

namespace Widened

variable {kinds kinds' : List TokenKind}

theorem refl : ∀ kinds : List TokenKind, Widened kinds kinds
  | [] => .nil
  | kind :: rest => .keep kind (refl rest)

theorem append (front : List TokenKind) (h : Widened kinds kinds') :
    Widened (front ++ kinds) (front ++ kinds') := by
  induction front with
  | nil => exact h
  | cons kind front ih => exact .keep kind ih

/-- The first token is the same one, or an object stands before the closing parenthesis. -/
theorem head (h : Widened kinds kinds') :
    kinds'.head? = kinds.head? ∨ kinds.head? = some .rParen ∧ kinds'.head? = some .comma := by
  cases h with
  | nil | keep _ _ | putBehind _ _ => exact .inl rfl
  | put _ _ => exact .inr ⟨rfl, rfl⟩

theorem head_iff {kind : TokenKind} (hparen : kind ≠ .rParen) (hcomma : kind ≠ .comma)
    (h : Widened kinds kinds') : kinds'.head? = some kind ↔ kinds.head? = some kind := by
  rcases h.head with heq | ⟨heq, heq'⟩
  · rw [heq]
  · rw [heq, heq', Option.some_inj, Option.some_inj]
    exact ⟨fun h => absurd h.symm hcomma, fun h => absurd h.symm hparen⟩

/-- What is neither a closing parenthesis nor a comma has nothing put in before or behind it. -/
theorem tail {kind : TokenKind} (hparen : kind ≠ .rParen) (hcomma : kind ≠ .comma)
    (h : Widened (kind :: kinds) kinds') : ∃ rest, kinds' = kind :: rest ∧ Widened kinds rest := by
  cases h with
  | keep _ h => exact ⟨_, rfl, h⟩
  | put _ _ => exact absurd rfl hparen
  | putBehind _ _ => exact absurd rfl hcomma

/-- The second token is the same one, or an object stands before it. -/
theorem second {first : TokenKind} {rest rest' : List TokenKind}
    (h : Widened (first :: rest) (first :: rest')) :
    rest'.head? = rest.head? ∨ rest.head? = some .rParen ∧
      (rest'.head? = some .comma ∨ first = .comma ∧ rest'.head? = some .lBrace) := by
  cases h with
  | keep _ h =>
    rcases h.head with heq | ⟨heq, heq'⟩
    · exact .inl heq
    · exact .inr ⟨heq, .inl heq'⟩
  | putBehind _ _ => exact .inr ⟨rfl, .inr ⟨rfl, rfl⟩⟩

end Widened

/-! ## Closing parentheses -/

theorem behindParens_plain {inner : List TokenKind} (h : ∀ kind ∈ inner, kind.isPlain = true) (depth : Nat)
    (rest : List TokenKind) : behindParens depth (inner ++ rest) = behindParens depth rest := by
  induction inner with
  | nil => rfl
  | cons kind inner ih =>
    have hplain := h kind List.mem_cons_self
    have hinner := ih fun kind hkind => h kind (List.mem_cons_of_mem _ hkind)
    cases kind <;> first | exact hinner | cases hplain

/-- The same parenthesis closes the innermost one, and what stands behind it has objects put in as well. -/
theorem Widened.behindParens {kinds kinds' : List TokenKind} (h : Widened kinds kinds') (depth : Nat) :
    TokenKind.behindParens depth kinds = none ∧ TokenKind.behindParens depth kinds' = none ∨
      ∃ rest rest', TokenKind.behindParens depth kinds = some rest ∧
        TokenKind.behindParens depth kinds' = some rest' ∧ Widened rest rest' := by
  induction h generalizing depth with
  | nil => exact .inl ⟨rfl, rfl⟩
  | keep kind h ih =>
    cases kind with
    | lParen => exact ih (depth + 1)
    | rParen =>
      simp only [TokenKind.behindParens]
      split
      · exact .inr ⟨_, _, rfl, rfl, h⟩
      · exact ih (depth - 1)
    | eof => exact .inl ⟨rfl, rfl⟩
    | _ => exact ih depth
  | @put inner _ kinds' plain _ ih =>
    have hskip : TokenKind.behindParens depth (.comma :: .lBrace :: (inner ++ .rBrace :: kinds')) =
        TokenKind.behindParens depth kinds' :=
      behindParens_plain plain depth (.rBrace :: kinds')
    rw [hskip]
    exact ih depth
  | @putBehind inner kinds kinds' plain _ ih =>
    have hskip : TokenKind.behindParens depth (.comma :: .lBrace :: (inner ++ .rBrace :: .comma :: kinds')) =
        TokenKind.behindParens depth kinds' :=
      behindParens_plain plain depth (.rBrace :: .comma :: kinds')
    have hcomma : TokenKind.behindParens depth (.comma :: .rParen :: kinds) =
        TokenKind.behindParens depth (.rParen :: kinds) := rfl
    rw [hskip, hcomma]
    exact ih depth

/-! ## Return types -/

theorem arrowBehindType_plain {inner : List TokenKind} (h : ∀ kind ∈ inner, kind.isPlain = true)
    (depth : Nat) (rest : List TokenKind) :
    arrowBehindType (depth + 1) (inner ++ rest) = arrowBehindType (depth + 1) rest := by
  induction inner with
  | nil => rfl
  | cons kind inner ih =>
    have hplain := h kind List.mem_cons_self
    have hinner := ih fun kind hkind => h kind (List.mem_cons_of_mem _ hkind)
    cases kind <;> first | exact hinner | cases hplain

/-- Brackets are open around a group that is put in, or a comma ends the search as the parenthesis does. -/
theorem Widened.arrowBehindType {kinds kinds' : List TokenKind} (h : Widened kinds kinds') (depth : Nat) :
    TokenKind.arrowBehindType depth kinds' = TokenKind.arrowBehindType depth kinds := by
  induction h generalizing depth with
  | nil => rfl
  | keep kind h ih =>
    cases kind <;> simp only [TokenKind.arrowBehindType, ih]
  | @put inner kinds kinds' plain _ ih =>
    cases depth with
    | zero => rfl
    | succ depth =>
      have hskip : TokenKind.arrowBehindType (depth + 1) (.comma :: .lBrace :: (inner ++ .rBrace :: kinds')) =
          TokenKind.arrowBehindType (depth + 1) kinds' :=
        arrowBehindType_plain plain (depth + 1) (.rBrace :: kinds')
      rw [hskip]
      exact ih (depth + 1)
  | @putBehind inner kinds kinds' plain _ ih =>
    cases depth with
    | zero => rfl
    | succ depth =>
      have hskip : TokenKind.arrowBehindType (depth + 1)
          (.comma :: .lBrace :: (inner ++ .rBrace :: .comma :: kinds')) =
          TokenKind.arrowBehindType (depth + 1) kinds' :=
        arrowBehindType_plain plain (depth + 1) (.rBrace :: .comma :: kinds')
      rw [hskip]
      exact ih (depth + 1)

/-! ## Type arguments -/

theorem callBehindTypeArgs_plain {inner : List TokenKind} (h : ∀ kind ∈ inner, kind.isPlain = true)
    (depth : Nat) (rest : List TokenKind) (htrue : callBehindTypeArgs depth (inner ++ rest) = true) :
    callBehindTypeArgs depth rest = true := by
  induction inner with
  | nil => exact htrue
  | cons kind inner ih =>
    have hplain := h kind List.mem_cons_self
    rw [List.cons_append, callBehindTypeArgs] at htrue
    have hlt : kind ≠ .lt := by
      rintro rfl
      cases hplain
    have hgt : kind ≠ .gt := by
      rintro rfl
      cases hplain
    rw [if_neg hlt, if_neg hgt] at htrue
    split at htrue
    · exact ih (fun kind hkind => h kind (List.mem_cons_of_mem _ hkind)) htrue
    · cases htrue

/-- What compares is not taken for type arguments because of an object that is put in. -/
theorem Widened.callBehindTypeArgs {kinds kinds' : List TokenKind} (h : Widened kinds kinds') (depth : Nat)
    (htrue : TokenKind.callBehindTypeArgs depth kinds' = true) :
    TokenKind.callBehindTypeArgs depth kinds = true := by
  induction h generalizing depth with
  | nil => exact htrue
  | keep kind h ih =>
    rw [TokenKind.callBehindTypeArgs] at htrue ⊢
    split at htrue
    · rename_i hlt
      rw [if_pos hlt]
      exact ih _ htrue
    · rename_i hlt
      rw [if_neg hlt]
      split at htrue
      · rename_i hgt
        rw [if_pos hgt]
        split at htrue
        · rename_i hdepth
          rw [if_pos hdepth]
          exact beq_iff_eq.mpr ((h.head_iff (by decide) (by decide)).mp (beq_iff_eq.mp htrue))
        · rename_i hdepth
          rw [if_neg hdepth]
          exact ih _ htrue
      · rename_i hgt
        rw [if_neg hgt]
        split at htrue
        · rename_i htype
          rw [if_pos htype]
          exact ih _ htrue
        · cases htrue
  | @put inner kinds kinds' plain _ ih =>
    have hplain : ∀ kind ∈ inner, kind.isPlain = true := plain
    exact ih depth (callBehindTypeArgs_plain hplain depth (.rBrace :: kinds') htrue)
  | @putBehind inner kinds kinds' plain _ ih =>
    exact ih depth (callBehindTypeArgs_plain plain depth (.rBrace :: .comma :: kinds') htrue)

end TokenKind

/-! ## What is to come -/

namespace Token

/-- The kinds of the tokens that are neither blanks nor comments. -/
def solidKinds (tokens : List Token) : List TokenKind := (tokens.filter (!·.isTrivia)).map (·.kind)

/-- What tokens open with: blanks and comments, and the first token that is neither. -/
def opening (tokens : List Token) : List Token × Option Token :=
  (tokens.takeWhile (·.isTrivia), tokens.find? (!·.isTrivia))

theorem solidKinds_cons (token : Token) (rest : List Token) : solidKinds (token :: rest) =
    if token.isTrivia then solidKinds rest else token.kind :: solidKinds rest := by
  rw [solidKinds, List.filter_cons]
  cases token.isTrivia <;> rfl

theorem solidKinds_append (tokens others : List Token) :
    solidKinds (tokens ++ others) = solidKinds tokens ++ solidKinds others := by
  simp [solidKinds]

theorem solidKinds_length_le (tokens others : List Token) :
    (solidKinds others).length ≤ (solidKinds (tokens ++ others)).length := by
  rw [solidKinds_append, List.length_append]
  exact Nat.le_add_left _ _

/-- Fewer tokens that mean something stand behind one of them. -/
theorem solidKinds_length_lt {tokens : List Token} (others : List Token) (h : solidKinds tokens ≠ []) :
    (solidKinds others).length < (solidKinds (tokens ++ others)).length := by
  rw [solidKinds_append, List.length_append]
  exact Nat.lt_add_of_pos_left (List.length_pos_iff.mpr h)

theorem solidKinds_trivia {blanks : List Token} (h : ∀ blank ∈ blanks, blank.isTrivia = true) :
    solidKinds blanks = [] := by
  have hnone : blanks.filter (!·.isTrivia) = [] :=
    List.filter_eq_nil_iff.mpr fun blank hblank => by simp [h blank hblank]
  rw [solidKinds, hnone, List.map_nil]

theorem opening_append {blanks : List Token} {token : Token} (rest : List Token)
    (hblanks : ∀ blank ∈ blanks, blank.isTrivia = true) (hsolid : token.isTrivia = false) :
    opening (blanks ++ token :: rest) = (blanks, some token) := by
  have hnone : ∀ blank ∈ blanks, ¬ (!blank.isTrivia) = true := fun blank hblank => by
    simp [hblanks blank hblank]
  rw [opening, List.takeWhile_append_of_pos hblanks, List.takeWhile_cons, hsolid, List.find?_append,
    List.find?_eq_none.mpr hnone, List.find?_cons, hsolid]
  simp

/-- Tokens that are not all blanks and comments open alike whatever stands behind them. -/
theorem opening_of_solid {tokens : List Token} (others : List Token) (h : solidKinds tokens ≠ []) :
    opening (tokens ++ others) = opening tokens := by
  obtain ⟨token, htoken, hsolid⟩ : ∃ token ∈ tokens, token.isTrivia = false := by
    have hfilter : tokens.filter (!·.isTrivia) ≠ [] := fun hnil => h (by rw [solidKinds, hnil, List.map_nil])
    obtain ⟨token, htoken⟩ := List.exists_mem_of_ne_nil _ hfilter
    exact ⟨token, (List.mem_filter.mp htoken).1, by simpa using (List.mem_filter.mp htoken).2⟩
  clear h
  induction tokens with
  | nil => cases htoken
  | cons first rest ih =>
    cases hfirst : first.isTrivia with
    | false => simp [opening, hfirst]
    | true =>
      have hrest : token ∈ rest := by
        rcases List.mem_cons.mp htoken with rfl | hrest
        · rw [hsolid] at hfirst
          cases hfirst
        · exact hrest
      have hsame := ih hrest
      rw [opening, opening, Prod.mk.injEq] at hsame
      simp [opening, hfirst, hsame.1, hsame.2]

theorem opening_congr (tokens : List Token) {others others' : List Token}
    (h : opening others' = opening others) : opening (tokens ++ others') = opening (tokens ++ others) := by
  rw [opening, opening, Prod.mk.injEq] at h
  induction tokens with
  | nil => rw [opening, opening, Prod.mk.injEq]; exact h
  | cons first rest ih =>
    rw [opening, opening, Prod.mk.injEq] at ih
    cases hfirst : first.isTrivia <;> simp [opening, hfirst, ih.1, ih.2]

end Token

namespace Sight

theorem solidKinds_tokens (s : Sight) : Token.solidKinds s.tokens = s.kinds := by
  obtain ⟨ahead, misfits⟩ := s
  induction ahead with
  | nil => rfl
  | cons next rest ih =>
    have hnext : Token.solidKinds next.tokens = [next.kind] := by
      rw [Lexeme.tokens, Token.solidKinds_append, Token.solidKinds_trivia next.leading_trivia]
      simp [Token.solidKinds, next.token_solid, Lexeme.kind]
    rw [tokens, List.flatMap_cons, Token.solidKinds_append, hnext]
    exact congrArg (next.kind :: ·) ih

theorem opening_tokens (s : Sight) :
    Token.opening s.tokens = (s.leading, s.ahead.head?.map (·.token)) := by
  obtain ⟨ahead, misfits⟩ := s
  cases ahead with
  | nil => rfl
  | cons next rest =>
    have htokens : (Sight.mk (next :: rest) misfits).tokens =
        next.leading ++ next.token :: rest.flatMap Lexeme.tokens := by
      simp [tokens, Lexeme.tokens]
    rw [htokens, Token.opening_append _ next.leading_trivia next.token_solid]
    rfl

theorem kindAt_eq (s : Sight) (n : Nat) : s.kindAt n = s.kinds[n]?.getD .eof := by
  rw [kindAt, kinds, List.getElem?_map]

end Sight

/-! ## Questions -/

namespace Question

/-- The answer where the next token is of that kind, as long as everything fits, if this is enough to
know it. -/
def at? (kind : TokenKind) : Question → Option Bool
  | .sure answer => some answer
  | .next kinds => some (kinds.contains kind)
  | .second _ | .functionType => none
  | .word _ => if kind = .ident then none else some false
  | .misfit => some false
  | .arrow => if kind = .ident ∨ kind = .lt ∨ kind = .lParen then none else some false
  | .callTypeArgs => if kind = .lt then none else some false
  | .not question => (question.at? kind).map (!·)
  | .both first other =>
    match other.at? kind, first.at? kind with
    | some false, _ | _, some false => some false
    | some true, some true => some true
    | _, _ => none

theorem ask_at {s : Sight} (hfits : s.misfits = []) {question : Question} {answer : Bool}
    (h : question.at? s.kind = some answer) : question.ask s = answer := by
  induction question generalizing answer with
  | sure own => exact Option.some_inj.mp h
  | next kinds => exact Option.some_inj.mp h
  | second kinds => cases h
  | functionType => cases h
  | word text =>
    rw [at?] at h
    split at h
    · cases h
    · rename_i hkind
      cases h
      simp [ask, Sight.isAtWord, hkind]
  | misfit =>
    cases h
    simp [ask, Sight.hasMisfit, hfits]
  | arrow =>
    rw [at?] at h
    split at h
    · cases h
    · rename_i hkind
      cases h
      simp only [not_or] at hkind
      obtain ⟨hident, hlt, hparen⟩ := hkind
      have hword : s.isAtWord "async" = false := by simp [Sight.isAtWord, hident]
      rw [ask, Sight.isAtArrow, hword]
      simp only [Bool.false_and, Bool.false_eq_true, if_false]
      split
      · rename_i heq
        exact absurd heq hident
      · rename_i heq
        exact absurd heq hlt
      · rename_i heq
        exact absurd heq hparen
      · rfl
  | callTypeArgs =>
    rw [at?] at h
    split at h
    · cases h
    · rename_i hkind
      cases h
      simp [ask, Sight.isAtCallTypeArgs, hkind]
  | not question ih =>
    obtain ⟨inner, hinner, rfl⟩ := Option.map_eq_some_iff.mp h
    rw [ask, ih hinner]
  | both first other hfirst hother =>
    rw [at?] at h
    split at h
    · rename_i heq
      cases h
      rw [ask, hother heq, Bool.and_false]
    · rename_i heq _
      cases h
      rw [ask, hfirst heq, Bool.false_and]
    · rename_i heq heq'
      cases h
      rw [ask, hfirst heq', hother heq]
      rfl
    · cases h

/-- Whether the answer stays the same with objects put in before closing parentheses, if the next token
does. The answer is given for a next token that may be a comma, and for one that is none. -/
def steady (comma : Bool) : Question → Bool
  | .sure _ | .next _ | .word _ | .misfit | .functionType | .arrow => true
  | .second kinds =>
    kinds.contains .rParen == kinds.contains .comma &&
      (!comma || kinds.contains .rParen == kinds.contains .lBrace)
  | .callTypeArgs => false
  | .not question => question.steady comma
  | .both first other =>
    first.steady comma && other.steady (comma && first.at? .comma != some false)

end Question

/-- The same next token, and objects put in behind it at most. -/
structure Sight.Beside (s s' : Sight) : Prop where
  wider : TokenKind.Widened s.kinds s'.kinds
  opening : Token.opening s'.tokens = Token.opening s.tokens
  fits : s.misfits = []
  fits' : s'.misfits = []

namespace Sight.Beside

variable {s s' : Sight}

theorem token (h : s.Beside s') : s'.ahead.head?.map (·.token) = s.ahead.head?.map (·.token) := by
  have hopening := h.opening
  rw [opening_tokens, opening_tokens] at hopening
  exact (Prod.mk.inj hopening).2

theorem kind (h : s.Beside s') : s'.kind = s.kind := by
  have hkind : ∀ s : Sight, s.kind = ((s.ahead.head?.map (·.token)).map (·.kind)).getD .eof := by
    rintro ⟨ahead, misfits⟩
    cases ahead <;> rfl
  rw [hkind, h.token, ← hkind]

theorem isAtWord (h : s.Beside s') (text : String) : s'.isAtWord text = s.isAtWord text := by
  have hword : ∀ s : Sight, s.isAtWord text =
      (s.kind == .ident && (s.ahead.head?.map (·.token)).any (·.text == text)) := by
    rintro ⟨ahead, misfits⟩
    cases ahead <;> rfl
  rw [hword, h.token, h.kind, ← hword]

/-- The token behind the next one is the same, or an object stands before it. -/
theorem second (h : s.Beside s') : s'.kindAt 1 = s.kindAt 1 ∨
    s.kindAt 1 = .rParen ∧ (s'.kindAt 1 = .comma ∨ s.kind = .comma ∧ s'.kindAt 1 = .lBrace) := by
  have hkind := h.kind
  have hwider := h.wider
  rw [kind_eq, kind_eq] at hkind
  rw [kindAt_eq, kindAt_eq, kind_eq]
  generalize s.kinds = kinds at hkind hwider ⊢
  generalize s'.kinds = kinds' at hkind hwider ⊢
  cases kinds with
  | nil =>
    cases hwider
    exact .inl rfl
  | cons first rest =>
    cases kinds' with
    | nil => cases hwider
    | cons first' rest' =>
      obtain rfl : first' = first := hkind
      simp only [List.getElem?_cons_succ, List.headD_cons, ← List.head?_eq_getElem?]
      rcases hwider.second with heq | ⟨heq, heq' | ⟨hcomma, heq'⟩⟩
      · rw [heq]
        exact .inl rfl
      · rw [heq, heq']
        exact .inr ⟨rfl, .inl rfl⟩
      · rw [heq, heq']
        exact .inr ⟨rfl, .inr ⟨hcomma, rfl⟩⟩

/-- The token behind the next one is of one of these kinds as before, if none of them can come or go. -/
theorem second_mem (h : s.Beside s') {kinds : List TokenKind} (comma : Bool)
    (hkinds : (Question.second kinds).steady comma = true) (hcomma : comma = false → s.kind ≠ .comma) :
    kinds.contains (s'.kindAt 1) = kinds.contains (s.kindAt 1) := by
  rw [Question.steady, Bool.and_eq_true, beq_iff_eq, Bool.or_eq_true, Bool.not_eq_true', beq_iff_eq] at hkinds
  rcases h.second with heq | ⟨hparen, heq | ⟨hfirst, heq⟩⟩
  · rw [heq]
  · rw [hparen, heq, hkinds.1]
  · rcases hkinds.2 with hno | hbrace
    · exact absurd hfirst (hcomma hno)
    · rw [hparen, heq, hbrace]

theorem isAtFunctionType (h : s.Beside s') : s'.isAtFunctionType = s.isAtFunctionType := by
  rw [Sight.isAtFunctionType, Sight.isAtFunctionType]
  rcases h.wider.behindParens 0 with ⟨heq, heq'⟩ | ⟨rest, rest', heq, heq', hrest⟩
  · rw [heq, heq']
  · rw [heq, heq', Option.any_some, Option.any_some, Bool.eq_iff_iff, beq_iff_eq, beq_iff_eq]
    exact hrest.head_iff (by decide) (by decide)

end Sight.Beside

namespace TokenKind

/-- An arrow, or a return type and an arrow. -/
def arrowFollows : List TokenKind → Bool
  | .fatArrow :: _ => true
  | .colon :: rest => arrowBehindType 0 rest
  | _ => false

/-- Whether an arrow function starts with these tokens; one with type parameters only where this may be. -/
def arrowStarts (typed : Bool) : List TokenKind → Bool
  | .ident :: rest => rest.head? == some .fatArrow
  | .lt :: _ => typed
  | .lParen :: rest => (behindParens 0 (.lParen :: rest)).any arrowFollows
  | _ => false

theorem Widened.arrowFollows {kinds kinds' : List TokenKind} (h : Widened kinds kinds') :
    TokenKind.arrowFollows kinds' = TokenKind.arrowFollows kinds := by
  cases h with
  | nil | put _ _ | putBehind _ _ => rfl
  | keep kind h =>
    cases kind with
    | colon => exact h.arrowBehindType 0
    | _ => rfl

theorem Widened.arrowStarts {kinds kinds' : List TokenKind} (h : Widened kinds kinds') (typed : Bool) :
    TokenKind.arrowStarts typed kinds' = TokenKind.arrowStarts typed kinds := by
  cases h with
  | nil | put _ _ | putBehind _ _ => rfl
  | keep kind h =>
    cases kind with
    | ident =>
      rw [TokenKind.arrowStarts, TokenKind.arrowStarts, Bool.eq_iff_iff, beq_iff_eq, beq_iff_eq]
      exact h.head_iff (by decide) (by decide)
    | lParen =>
      rw [TokenKind.arrowStarts, TokenKind.arrowStarts]
      rcases (h.keep .lParen).behindParens 0 with ⟨heq, heq'⟩ | ⟨rest, rest', heq, heq', hrest⟩
      · rw [heq, heq']
      · rw [heq, heq', Option.any_some, Option.any_some]
        exact hrest.arrowFollows
    | _ => rfl

end TokenKind

namespace Sight

/-- Whether `async` stands before what may be an arrow function. -/
def isAtAsync (s : Sight) : Bool :=
  s.isAtWord "async" && (s.kindAt 1 == .ident || s.kindAt 1 == .lParen)

theorem arrowFollows_any (found : Option (List TokenKind)) : (match found with
    | some (.fatArrow :: _) => true
    | some (.colon :: behind) => TokenKind.arrowBehindType 0 behind
    | _ => false) = found.any TokenKind.arrowFollows := by
  rcases found with _ | _ | ⟨kind, behind⟩
  · rfl
  · rfl
  · cases kind <;> rfl

theorem isAtArrow_def (s : Sight) : s.isAtArrow = (
    let skipped := if s.isAtAsync then 1 else 0
    match s.kindAt skipped with
    | .ident => s.kindAt (skipped + 1) == .fatArrow
    | .lt => !s.isAtAsync
    | .lParen =>
      match TokenKind.behindParens 0 (s.kinds.drop skipped) with
      | some (.fatArrow :: _) => true
      | some (.colon :: behind) => TokenKind.arrowBehindType 0 behind
      | _ => false
    | _ => false) := rfl

theorem isAtArrow_eq (s : Sight) : s.isAtArrow =
    TokenKind.arrowStarts (!s.isAtAsync) (s.kinds.drop (if s.isAtAsync then 1 else 0)) := by
  rw [isAtArrow_def]
  generalize s.isAtAsync = isAsync
  dsimp only
  generalize (if isAsync = true then 1 else 0) = skipped
  have hfirst : s.kindAt skipped = (s.kinds.drop skipped).headD .eof := by
    rw [kindAt_eq, List.headD_eq_head?_getD, List.head?_drop]
  have hsecond : s.kindAt (skipped + 1) = (s.kinds.drop skipped).tail.headD .eof := by
    rw [kindAt_eq, List.tail_drop, List.headD_eq_head?_getD, List.head?_drop]
  rw [hfirst, hsecond]
  cases s.kinds.drop skipped with
  | nil => rfl
  | cons first rest =>
    cases first with
    | ident =>
      cases rest with
      | nil => rfl
      | cons second rest => rfl
    | lParen => exact arrowFollows_any _
    | _ => rfl

theorem Beside.isAtAsync {s s' : Sight} (h : s.Beside s') : s'.isAtAsync = s.isAtAsync := by
  have hsecond : ∀ s : Sight, (s.kindAt 1 == .ident || s.kindAt 1 == .lParen) =
      [TokenKind.ident, .lParen].contains (s.kindAt 1) := fun s => by
    rw [List.contains_cons, List.contains_cons, List.contains_nil, Bool.or_false]
  rw [Sight.isAtAsync, h.isAtWord, hsecond, h.second_mem true rfl Bool.noConfusion, ← hsecond,
    ← Sight.isAtAsync]

theorem Beside.isAtArrow {s s' : Sight} (h : s.Beside s') : s'.isAtArrow = s.isAtArrow := by
  rw [isAtArrow_eq, isAtArrow_eq, h.isAtAsync]
  cases hasync : s.isAtAsync with
  | false => exact h.wider.arrowStarts true
  | true =>
    have hkind : s.kinds.headD .eof = .ident := by
      rw [Sight.isAtAsync, Sight.isAtWord, Bool.and_eq_true, Bool.and_eq_true, beq_iff_eq] at hasync
      rw [← kind_eq]
      exact hasync.1.1
    cases hkinds : s.kinds with
    | nil =>
      rw [hkinds] at hkind
      cases hkind
    | cons first rest =>
      rw [hkinds] at hkind
      obtain rfl : first = .ident := hkind
      obtain ⟨rest', hkinds', hrest⟩ := (hkinds ▸ h.wider).tail (by decide) (by decide)
      rw [hkinds']
      exact hrest.arrowStarts false

end Sight

/-- A steady question has the same answer. -/
theorem Question.ask_steady {s s' : Sight} (h : s.Beside s') {question : Question} {comma : Bool}
    (hsteady : question.steady comma = true) (hcomma : comma = false → s.kind ≠ .comma) :
    question.ask s' = question.ask s := by
  induction question generalizing comma with
  | sure own => rfl
  | next kinds => rw [ask, ask, Sight.isAtAny, Sight.isAtAny, h.kind]
  | second kinds => exact h.second_mem comma hsteady hcomma
  | functionType => exact h.isAtFunctionType
  | word text => exact h.isAtWord text
  | misfit => rw [ask, ask, Sight.hasMisfit, Sight.hasMisfit, h.fits, h.fits']
  | arrow => exact h.isAtArrow
  | callTypeArgs => cases hsteady
  | not question ih => rw [ask, ask, ih hsteady hcomma]
  | both first other hfirst hother =>
    rw [steady, Bool.and_eq_true] at hsteady
    rw [ask, ask, hfirst hsteady.1 hcomma]
    cases hask : first.ask s with
    | false => rfl
    | true =>
      rw [Bool.true_and, Bool.true_and]
      refine hother hsteady.2 fun hno hkind => ?_
      rw [Bool.and_eq_false_iff, bne_eq_false_iff_eq] at hno
      rcases hno with hno | hno
      · exact hcomma hno hkind
      · rw [ask_at h.fits (hkind ▸ hno)] at hask
        cases hask

end RouteTypes
