-- Parentheses. What is read without misfits closes the parentheses that it opens and no other ones, so what
-- comes behind a parenthesis that it opens is found in it, whatever is to come behind.
import RouteTypes.Proofs.Grammar.Nesting
import RouteTypes.Proofs.Grammar.Widening

namespace RouteTypes

open RouteTypes.Tree

/-! ## Parentheses in a row of tokens -/

/-- Of the parentheses that are open before the tokens, `closed` are closed in them, and `opened` others are
open behind. -/
def TokenKind.Parens (closed opened : Nat) (kinds : List TokenKind) : Prop :=
  ∀ depth rest, behindParens (depth + closed + 1) (kinds ++ rest) = behindParens (depth + opened + 1) rest

/-- Every parenthesis in the tokens has its other one there. -/
def Token.Even (tokens : List Token) : Prop := TokenKind.Parens 0 0 (solidKinds tokens)

namespace TokenKind.Parens

variable {closed middle opened : Nat} {kinds others : List TokenKind}

theorem nil (depth : Nat) : Parens depth depth [] := fun _ _ => rfl

theorem append (h : Parens closed middle kinds) (h' : Parens middle opened others) :
    Parens closed opened (kinds ++ others) := fun depth rest => by
  rw [List.append_assoc, h, h']

/-- With some more parentheses open before and behind. -/
theorem within (h : Parens 0 0 kinds) (depth : Nat) : Parens depth depth kinds := fun more rest =>
  h (more + depth) rest

theorem opening (depth : Nat) : Parens depth (depth + 1) [.lParen] := fun _ _ => rfl

theorem closing (depth : Nat) : Parens (depth + 1) depth [.rParen] := fun more rest => by
  rw [List.singleton_append, behindParens, if_neg (by omega)]
  rfl

theorem other {kind : TokenKind} (hopen : kind ≠ .lParen) (hclose : kind ≠ .rParen) (heof : kind ≠ .eof)
    (depth : Nat) : Parens depth depth [kind] := fun more rest => by
  cases kind <;> first | rfl | contradiction

/-- What is behind a parenthesis is what is behind the one that closes it. -/
theorem behind (h : Parens 0 0 kinds) (rest : List TokenKind) :
    behindParens 0 (.lParen :: (kinds ++ .rParen :: rest)) = some rest := by
  have hinner := h 0 (.rParen :: rest)
  rw [behindParens]
  exact hinner

end TokenKind.Parens

namespace Token.Even

variable {tokens others : List Token}

theorem append (h : Even tokens) (h' : Even others) : Even (tokens ++ others) := by
  rw [Even, solidKinds_append]
  exact TokenKind.Parens.append h h'

theorem blanks {blanks : List Token} (h : ∀ blank ∈ blanks, blank.isTrivia = true) : Even blanks := by
  rw [Even, solidKinds_trivia h]
  exact .nil 0

end Token.Even

/-- The first parenthesis that is opened in the tokens is closed in them. -/
def Token.Closes (tokens : List Token) : Prop :=
  ∃ kinds, ∀ rest, TokenKind.behindParens 0 (solidKinds tokens ++ rest) = some (kinds ++ rest)

namespace Token.Closes

variable {tokens : List Token}

theorem append (h : Closes tokens) (others : List Token) : Closes (tokens ++ others) := by
  obtain ⟨kinds, h⟩ := h
  refine ⟨kinds ++ solidKinds others, fun rest => ?_⟩
  rw [solidKinds_append, List.append_assoc, h, List.append_assoc]

theorem behind {blanks : List Token} (hblanks : ∀ blank ∈ blanks, blank.isTrivia = true) (h : Closes tokens) :
    Closes (blanks ++ tokens) := by
  rwa [Closes, solidKinds_append, solidKinds_trivia hblanks, List.nil_append]

end Token.Closes

/-! ## Parentheses in the grammar -/

mutual

/-- How many parentheses are open behind the steps, if so many are before; no other ones are closed. -/
def Steps.opens (depth : Nat) : Steps → Option Nat
  | .done | .refuse _ => some depth
  | .take kinds =>
    if kinds = [.lParen] then some (depth + 1)
    else if kinds = [.rParen] then if depth = 0 then none else some (depth - 1)
    else if .lParen ∈ kinds ∨ .rParen ∈ kinds ∨ .eof ∈ kinds then none
    else some depth
  | .seq first rest => (first.opens depth).bind rest.opens
  | .branch _ yes no => if yes.opens depth = no.opens depth then yes.opens depth else none
  | .loop _ body => if body.opens depth = some depth then some depth else none
  | .part phrase => if phrase.even then some depth else none
  | .enclosed _ inside => inside.opens depth

def Body.opens (depth : Nat) : Body → Option Nat
  | .close _ => some depth
  | .seq first rest => (first.opens depth).bind rest.opens
  | .branch _ yes no => if yes.opens depth = no.opens depth then yes.opens depth else none

/-- Whether every parenthesis in the node has its other one there. -/
def Phrase.even : Phrase → Bool
  | .refuse _ | .call _ => true
  | .node body => body.opens 0 == some 0
  | .branch _ yes no => yes.even && no.even
  | .wrap inner suffix | .extend inner suffix => inner.even && suffix.even

def Suffix.even : Suffix → Bool
  | .stop => true
  | .around body => body.opens 0 == some 0
  | .branch _ yes no => yes.even && no.even

end

theorem Grammar.phraseOf_even (rule : Rule) : (phraseOf rule).even = true := by
  have hall : ∀ rule ∈ [Rule.statement, .expression, .operand 0, .primary, .type],
      (phraseOf rule).even = true := by decide +kernel
  cases rule with
  | operand least => exact hall (.operand 0) (by decide)
  | _ => exact hall _ (by decide)

/-! ## Parentheses in what is read -/

theorem Sight.solidKinds_next {s : Sight} (h : s.kind ≠ .eof) : Token.solidKinds s.next = [s.kind] := by
  obtain ⟨ahead, misfits⟩ := s
  cases ahead with
  | nil => exact absurd rfl h
  | cons next rest =>
    rw [Sight.next, List.head?_cons, Option.map_some, Option.getD_some, Lexeme.tokens,
      Token.solidKinds_append, Token.solidKinds_trivia next.leading_trivia, Token.solidKinds_cons, next.token_solid]
    rfl

theorem Phrase.read_nodeOf (readings : Readings) (kind : NodeKind) (steps : List Steps) (s : Sight) :
    (Phrase.nodeOf kind steps).read readings s =
      (some (s.leading, .node kind ((Steps.all steps).read readings s.flush).1),
        ((Steps.all steps).read readings s.flush).2) := by
  simp [Phrase.nodeOf, Phrase.read, Body.ofSteps, Body.read]

/-- Rules that read nodes in which every parenthesis has its other one. -/
structure Readings.Even (readings : Readings) : Prop where
  leads : ∀ rule s, Sight.Leads (fun _ => true) s (readings rule s).2
  even : ∀ rule s, (readings rule s).2.misfits = [] → Token.Even (tokensOf (readings rule s).1.trees)

section

variable {readings : Readings}

/-- A token that fitted is of one of the kinds. -/
theorem Sight.take_kinds {kinds : List TokenKind} {s : Sight} (heof : .eof ∉ kinds)
    (hfits : (s.take kinds).2.misfits = []) :
    ∃ kind ∈ kinds, Token.solidKinds (tokensOf (s.take kinds).1) = [kind] := by
  unfold Sight.take at hfits ⊢
  split at hfits
  · rename_i hat
    have hmem : s.kind ∈ kinds := List.contains_iff_mem.mp hat
    rw [if_pos hat, tokensOf_leaves]
    exact ⟨s.kind, hmem, Sight.solidKinds_next fun h => heof (h ▸ hmem)⟩
  · exact absurd hfits (s.misfits_refuse _)

theorem Sight.take_parens {kinds : List TokenKind} {s : Sight} {closed opened : Nat}
    (hopens : (Steps.take kinds).opens closed = some opened) (hfits : (s.take kinds).2.misfits = []) :
    TokenKind.Parens closed opened (Token.solidKinds (tokensOf (s.take kinds).1)) := by
  rw [Steps.opens] at hopens
  split at hopens
  · rename_i hkinds
    obtain ⟨kind, hkind, htokens⟩ := Sight.take_kinds (by rw [hkinds]; decide) hfits
    obtain rfl : kind = .lParen := by simpa [hkinds] using hkind
    obtain rfl := Option.some_inj.mp hopens
    rw [htokens]
    exact .opening closed
  · split at hopens
    · rename_i hkinds
      obtain ⟨kind, hkind, htokens⟩ := Sight.take_kinds (by rw [hkinds]; decide) hfits
      obtain rfl : kind = .rParen := by simpa [hkinds] using hkind
      rw [htokens]
      split at hopens
      · cases hopens
      · obtain rfl := Option.some_inj.mp hopens
        obtain ⟨depth, rfl⟩ := Nat.exists_eq_succ_of_ne_zero ‹closed ≠ 0›
        exact .closing depth
    · split at hopens
      · cases hopens
      · rename_i hnone
        obtain ⟨hopen, hclose, heof⟩ := not_or.mp hnone |>.imp_right not_or.mp
        obtain ⟨kind, hkind, htokens⟩ := Sight.take_kinds heof hfits
        obtain rfl := Option.some_inj.mp hopens
        rw [htokens]
        exact .other (fun h => hopen (h ▸ hkind)) (fun h => hclose (h ▸ hkind)) (fun h => heof (h ▸ hkind)) closed

theorem Sight.collectWhile_parens {question : Sight → Bool} {step : Sight → List Tree × Sight} {depth : Nat}
    (hleads : ∀ s, Sight.Leads (fun _ => true) s (step s).2)
    (hstep : ∀ s, (step s).2.misfits = [] →
      TokenKind.Parens depth depth (Token.solidKinds (tokensOf (step s).1))) (s : Sight)
    (hfits : (s.collectWhile question step).2.misfits = []) :
    TokenKind.Parens depth depth (Token.solidKinds (tokensOf (s.collectWhile question step).1)) := by
  rw [collectWhile] at hfits ⊢
  split at hfits
  · rename_i hquestion
    rw [if_pos hquestion]
    dsimp only at hfits ⊢
    split at hfits
    · rename_i hless
      rw [if_pos hless, tokensOf_append, Token.solidKinds_append]
      have hrest := collectWhile_parens hleads hstep (step s).2 hfits
      exact (hstep s ((Sight.Leads.collectWhile hleads (step s).2).fits hfits)).append hrest
    · rename_i hless
      rw [if_neg hless]
      exact hstep s hfits
  · rename_i hquestion
    rw [if_neg hquestion]
    exact .nil depth
termination_by s.ahead.length

theorem Sight.wrapWhile_even {step : Tree → Sight → Option Tree × Sight}
    (hleads : ∀ inner s, Sight.Leads (fun _ => true) s (step inner s).2)
    {front : List Token} (hstep : ∀ inner s, (step inner s).2.misfits = [] →
      Token.Even (front ++ inner.tokens) → Token.Even (front ++ ((step inner s).1.getD inner).tokens))
    (inner : Tree) (s : Sight) (hfits : (s.wrapWhile step inner).2.misfits = [])
    (hinner : Token.Even (front ++ inner.tokens)) :
    Token.Even (front ++ (s.wrapWhile step inner).1.tokens) := by
  have hone := hstep inner s
  rw [wrapWhile] at hfits ⊢
  generalize step inner s = answer at hone hfits ⊢
  obtain ⟨_ | outer, behind⟩ := answer
  · exact hinner
  · dsimp only at hone hfits ⊢
    split at hfits
    · rename_i hless
      rw [if_pos hless]
      have houter := hone ((Sight.Leads.wrapWhile hleads outer behind).fits hfits) hinner
      exact wrapWhile_even hleads hstep outer behind hfits houter
    · rename_i hless
      rw [if_neg hless]
      exact hone hfits hinner
termination_by s.ahead.length

mutual

theorem Steps.read_parens (h : readings.Even) : ∀ (steps : Steps) {closed opened : Nat} (s : Sight),
    steps.opens closed = some opened → (steps.read readings s).2.misfits = [] →
      TokenKind.Parens closed opened (Token.solidKinds (tokensOf (steps.read readings s).1))
  | .done, closed, opened, s, hopens, _ => Option.some_inj.mp hopens ▸ .nil closed
  | .take kinds, closed, opened, s, hopens, hfits => Sight.take_parens hopens hfits
  | .refuse expected, closed, opened, s, _, hfits => absurd hfits (s.misfits_refuse expected)
  | .seq first rest, closed, opened, s, hopens, hfits => by
    obtain ⟨middle, hfirst, hrest⟩ := Option.bind_eq_some_iff.mp hopens
    have hmiddle := (rest.read_leads h.leads _ rest.takesOnly_all).fits hfits
    rw [Steps.read, tokensOf_append, Token.solidKinds_append]
    exact (first.read_parens h s hfirst hmiddle).append (rest.read_parens h _ hrest hfits)
  | .branch question yes no, closed, opened, s, hopens, hfits => by
    rw [Steps.opens] at hopens
    split at hopens
    · rename_i hsame
      rw [Steps.read] at hfits ⊢
      split
      · rename_i hask
        rw [if_pos hask] at hfits
        exact yes.read_parens h s hopens hfits
      · rename_i hask
        rw [if_neg hask] at hfits
        exact no.read_parens h s (hsame ▸ hopens) hfits
    · cases hopens
  | .loop question body, closed, opened, s, hopens, hfits => by
    rw [Steps.opens] at hopens
    split at hopens
    · rename_i hsame
      obtain rfl := Option.some_inj.mp hopens
      exact Sight.collectWhile_parens (fun s => body.read_leads h.leads s body.takesOnly_all)
        (fun s => body.read_parens h s hsame) s hfits
    · cases hopens
  | .part phrase, closed, opened, s, hopens, hfits => by
    rw [Steps.opens] at hopens
    split at hopens
    · rename_i heven
      obtain rfl := Option.some_inj.mp hopens
      exact TokenKind.Parens.within (phrase.read_even h s heven hfits) closed
    · cases hopens
  | .enclosed what inside, closed, opened, s, hopens, hfits => by
    rw [Steps.read] at hfits ⊢
    have hinside := inside.read_parens h s hopens
    split at hfits
    · rename_i hmisfit
      rw [if_pos hmisfit]
      exact hinside hfits
    · rename_i hmisfit
      rw [if_neg hmisfit]
      split at hfits
      · rename_i hbrace
        have hkind := beq_iff_eq.mp hbrace
        rw [if_pos hbrace, tokensOf_append, Token.solidKinds_append, tokensOf_leaves,
          Sight.solidKinds_next (by rw [hkind]; decide), hkind]
        exact (hinside hfits).append (.other (by decide) (by decide) (by decide) opened)
      · exact absurd hfits (Sight.misfits_refuse _ _)

theorem Body.read_parens (h : readings.Even) : ∀ (body : Body) {closed opened : Nat} (s : Sight),
    body.opens closed = some opened → (body.read readings s).2.misfits = [] →
      TokenKind.Parens closed opened (Token.solidKinds (tokensOf (body.read readings s).1.2))
  | .close _, closed, opened, s, hopens, _ => Option.some_inj.mp hopens ▸ .nil closed
  | .seq first rest, closed, opened, s, hopens, hfits => by
    obtain ⟨middle, hfirst, hrest⟩ := Option.bind_eq_some_iff.mp hopens
    have hmiddle := (rest.read_leads h.leads _ rest.takesOnly_all).fits hfits
    rw [Body.read, tokensOf_append, Token.solidKinds_append]
    exact (first.read_parens h s hfirst hmiddle).append (rest.read_parens h _ hrest hfits)
  | .branch question yes no, closed, opened, s, hopens, hfits => by
    rw [Body.opens] at hopens
    split at hopens
    · rename_i hsame
      rw [Body.read] at hfits ⊢
      split
      · rename_i hask
        rw [if_pos hask] at hfits
        exact yes.read_parens h s hopens hfits
      · rename_i hask
        rw [if_neg hask] at hfits
        exact no.read_parens h s (hsame ▸ hopens) hfits
    · cases hopens

theorem Phrase.read_even (h : readings.Even) : ∀ (phrase : Phrase) (s : Sight), phrase.even = true →
    (phrase.read readings s).2.misfits = [] → Token.Even (tokensOf (phrase.read readings s).1.trees)
  | .refuse expected, s, _, hfits => absurd hfits (s.misfits_refuse expected)
  | .node body, s, heven, hfits => by
    have hbody := body.read_parens h s.flush (beq_iff_eq.mp heven) hfits
    rw [Phrase.read, Found.tokensOf_trees, Tree.tokens]
    exact (Token.Even.blanks s.leading_trivia).append hbody
  | .branch question yes no, s, heven, hfits => by
    rw [Phrase.even, Bool.and_eq_true] at heven
    rw [Phrase.read] at hfits ⊢
    split
    · rename_i hask
      rw [if_pos hask] at hfits
      exact yes.read_even h s heven.1 hfits
    · rename_i hask
      rw [if_neg hask] at hfits
      exact no.read_even h s heven.2 hfits
  | .call rule, s, _, hfits => h.even rule s hfits
  | .wrap inner suffix, s, heven, hfits => by
    rw [Phrase.even, Bool.and_eq_true] at heven
    have hinner := inner.read_even h s heven.1
    rw [Phrase.read] at hfits ⊢
    generalize inner.read readings s = answer at hinner hfits ⊢
    obtain ⟨_ | ⟨blanks, tree⟩, behind⟩ := answer
    · exact hinner hfits
    · have hmiddle := (suffix.read_leads h.leads tree behind suffix.takesOnly_all).fits hfits
      rw [Found.tokensOf_trees] at hinner ⊢
      exact suffix.read_even h blanks tree behind heven.2 hfits (hinner hmiddle)
  | .extend inner suffix, s, heven, hfits => by
    rw [Phrase.even, Bool.and_eq_true] at heven
    have hinner := inner.read_even h s heven.1
    rw [Phrase.read] at hfits ⊢
    generalize inner.read readings s = answer at hinner hfits ⊢
    obtain ⟨_ | ⟨blanks, tree⟩, behind⟩ := answer
    · exact hinner hfits
    · have hleads : ∀ inner s, Sight.Leads (fun _ => true) s (suffix.read readings inner s).2 :=
        fun inner s => suffix.read_leads h.leads inner s suffix.takesOnly_all
      have hmiddle := (Sight.Leads.wrapWhile hleads tree behind).fits hfits
      rw [Found.tokensOf_trees] at hinner ⊢
      exact Sight.wrapWhile_even hleads (fun inner s => suffix.read_even h blanks inner s heven.2) tree behind
        hfits (hinner hmiddle)

theorem Suffix.read_even (h : readings.Even) : ∀ (suffix : Suffix) (front : List Token) (inner : Tree) (s : Sight),
    suffix.even = true → (suffix.read readings inner s).2.misfits = [] → Token.Even (front ++ inner.tokens) →
      Token.Even (front ++ ((suffix.read readings inner s).1.getD inner).tokens)
  | .stop, _, _, _, _, _, hinner => hinner
  | .around body, front, inner, s, heven, hfits, hinner => by
    have hbody := body.read_parens h s (beq_iff_eq.mp heven) hfits
    rw [Suffix.read, Option.getD_some, Tree.tokens, tokensOf, ← List.append_assoc]
    exact hinner.append hbody
  | .branch question yes no, front, inner, s, heven, hfits, hinner => by
    rw [Suffix.even, Bool.and_eq_true] at heven
    rw [Suffix.read] at hfits ⊢
    split
    · rename_i hask
      rw [if_pos hask] at hfits
      exact yes.read_even h front inner s heven.1 hfits hinner
    · rename_i hask
      rw [if_neg hask] at hfits
      exact no.read_even h front inner s heven.2 hfits hinner

end

end

namespace Grammar

theorem readingsUpTo_even (depth : Nat) : (readingsUpTo depth).Even where
  leads := readingsUpTo_leads (fun rule => (phraseOf rule).takesOnly_all) depth
  even rule s := by
    induction depth generalizing rule s with
    | zero => exact fun hfits => absurd hfits (s.misfits_refuse _)
    | succ depth ih =>
      have hleads := readingsUpTo_leads (fun rule => (phraseOf rule).takesOnly_all) depth
      exact (phraseOf rule).read_even ⟨hleads, ih⟩ s (phraseOf_even rule)

theorem unboundedReadings_even : unboundedReadings.Even where
  leads := unboundedReadings_leads_any
  even rule s := (readingsUpTo_even _).even rule s

/-! ## Function types -/

section

variable {readings : Readings} {s : Sight}

/-- Steps between parentheses. -/
theorem parens_close (h : readings.Even) {inner rest : Steps} (hinner : inner.opens 0 = some 0)
    (hfits : ((Steps.seq (.expect .lParen) (.seq inner (.seq (.expect .rParen) rest))).read readings
      s).2.misfits = []) :
    Token.Closes (tokensOf ((Steps.seq (.expect .lParen) (.seq inner (.seq (.expect .rParen) rest))).read
      readings s).1) := by
  let opened := ((Steps.expect .lParen).read readings s).2
  let closing := (inner.read readings opened).2
  let closed := ((Steps.expect .rParen).read readings closing).2
  have hclosed : closed.misfits = [] := (rest.read_leads h.leads closed rest.takesOnly_all).fits hfits
  have hclosing : closing.misfits = [] :=
    ((Steps.expect .rParen).read_leads h.leads closing (Steps.takesOnly_all _)).fits hclosed
  have hopened : opened.misfits = [] := (inner.read_leads h.leads opened inner.takesOnly_all).fits hclosing
  obtain ⟨_, hkind, hopen⟩ := @Sight.take_kinds [.lParen] s (by decide) hopened
  obtain rfl := List.mem_singleton.mp hkind
  obtain ⟨_, hkind, hclose⟩ := @Sight.take_kinds [.rParen] closing (by decide) hclosed
  obtain rfl := List.mem_singleton.mp hkind
  refine ⟨Token.solidKinds (tokensOf (rest.read readings closed).1), fun more => ?_⟩
  have hbehind := TokenKind.Parens.behind (inner.read_parens h opened hinner hclosing)
    (Token.solidKinds (tokensOf (rest.read readings closed).1) ++ more)
  have htokens : tokensOf ((Steps.seq (.expect .lParen) (.seq inner (.seq (.expect .rParen) rest))).read
        readings s).1 = tokensOf (s.take [.lParen]).1 ++ (tokensOf (inner.read readings opened).1 ++
      (tokensOf (closing.take [.rParen]).1 ++ tokensOf (rest.read readings closed).1)) := by
    simp only [Steps.read, tokensOf_append]
    rfl
  rw [← hbehind, htokens]
  simp only [Token.solidKinds_append, hopen, hclose, List.cons_append, List.nil_append, List.append_assoc]

/-- A node of which the steps have parentheses around something first. -/
theorem node_closes {kind : NodeKind} {steps : List Steps}
    (h : ∀ s, ((Steps.all steps).read readings s).2.misfits = [] →
      Token.Closes (tokensOf ((Steps.all steps).read readings s).1))
    (hfits : ((Phrase.nodeOf kind steps).read readings s).2.misfits = []) :
    Token.Closes (tokensOf ((Phrase.nodeOf kind steps).read readings s).1.trees) := by
  rw [Phrase.read_nodeOf] at hfits ⊢
  rw [Found.tokensOf_trees, Tree.tokens]
  exact (h s.flush hfits).behind s.leading_trivia

theorem parenType_closes (h : readings.Even) (hfits : (parenType.read readings s).2.misfits = []) :
    Token.Closes (tokensOf (parenType.read readings s).1.trees) :=
  node_closes (fun _ => parens_close h (by decide)) hfits

theorem paramList_closes (h : readings.Even) (hfits : (paramList.read readings s).2.misfits = []) :
    Token.Closes (tokensOf (paramList.read readings s).1) := by
  have hinner : (Steps.separated .rParen param).opens 0 = some 0 := by decide +kernel
  exact node_closes (fun _ => parens_close h hinner) hfits

/-- Without type parameters before. -/
theorem functionType_closes (h : readings.Even) (hkind : s.kind = .lParen)
    (hfits : (functionType.read readings s).2.misfits = []) :
    Token.Closes (tokensOf (functionType.read readings s).1.trees) := by
  rw [functionType, Phrase.read_nodeOf] at hfits ⊢
  rw [Found.tokensOf_trees, Tree.tokens]
  refine .behind s.leading_trivia ?_
  have hnone : typeParamListIfAny.read readings s.flush = ([], s.flush) := by
    have hno : (Question.next [.lt]).ask s.flush = false := by
      rw [Question.ask, Sight.isAtAny, Sight.kind_of_kinds s.kinds_flush, hkind]
      rfl
    rw [typeParamListIfAny, Steps.given, Steps.read, hno]
    rfl
  let rest := Steps.all [.expect .fatArrow, .unlessMisfit (.call .type)]
  have hsteps : (Steps.all [typeParamListIfAny, paramList, .expect .fatArrow, .unlessMisfit (.call .type)]).read
      readings s.flush = (Steps.seq paramList rest).read readings s.flush := by
    rw [Steps.all, Steps.read, hnone]
    rfl
  rw [hsteps] at hfits ⊢
  rw [Steps.read, tokensOf_append]
  exact (paramList_closes h ((rest.read_leads h.leads _ rest.takesOnly_all).fits hfits)).append _

end

end Grammar

end RouteTypes
