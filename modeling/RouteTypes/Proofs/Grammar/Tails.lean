-- What of the grammar is sure to read on alike when objects are put in as last arguments: which questions
-- are asked where an object may stand, and what can be read last in an argument. All of it can be seen
-- from the text of the grammar.
import RouteTypes.Proofs.Grammar.Ending
import RouteTypes.Proofs.Grammar.Widening

namespace RouteTypes

open RouteTypes.Tree

deriving instance DecidableEq for Steps, Body, Phrase, Suffix

deriving instance DecidableEq for NodeForm

/-! ## Sure questions -/

/-- Whether the answer at a closing parenthesis is known, and is the same at a comma. -/
def Question.idle (question : Question) : Bool :=
  (question.at? .rParen).isSome && question.at? .comma == question.at? .rParen

namespace Grammar

/-- Whether these are type arguments where there are some. -/
def asksTypeArgs (question : Question) (yes : Steps) : Bool :=
  question == .callTypeArgs && yes == typeArgList

/-- Whether this tells a shorthand property from one with a value. -/
def asksShorthand (question : Question) (no : Steps) : Bool :=
  question == .both (.next [.ident]) (.second [.comma, .rBrace]) && no == propertyAssignment

/-- Whether this is a call with type arguments. -/
def asksTypedCall (question : Question) (yes : Suffix) : Bool :=
  question == .callTypeArgs && yes == .around (.ofSteps .callExpr [typeArgList, argList])

end Grammar

/-- Whether the body can be that of a node of that kind. -/
def Body.canBe (kind : NodeKind) : Body → Bool
  | .close own => own == kind
  | .seq _ rest => rest.canBe kind
  | .branch _ yes no => yes.canBe kind || no.canBe kind

mutual

/-- Whether the same is read with objects put in behind the next token. Where a question is not steady by
itself, what is read behind it tells the answer. -/
def Steps.steady : Steps → Bool
  | .done | .refuse _ => true
  | .take kinds => kinds.all (· != .eof)
  | .seq first rest => first.steady && rest.steady
  | .branch question yes no =>
    (question.steady true || Grammar.asksTypeArgs question yes || Grammar.asksShorthand question no) &&
      yes.steady && no.steady
  | .loop question body => question.steady true && body.steady
  | .part phrase => phrase.takesSome && phrase.steady
  | .enclosed _ inside => inside.steady

def Body.steady : Body → Bool
  | .close _ => true
  | .seq first rest => first.steady && rest.steady
  | .branch question yes no => question.steady true && yes.steady && no.steady

def Phrase.steady : Phrase → Bool
  | .refuse _ | .call _ => true
  | .node body => body.steady && (!body.canBe .argList || body == Grammar.argListBody)
  | .branch question yes no => question.steady true && yes.steady && no.steady
  | .wrap inner suffix | .extend inner suffix => inner.steady && suffix.steady

def Suffix.steady : Suffix → Bool
  | .stop => true
  | .around body => body.steady && body.takesSome && !body.canBe .argList
  | .branch question yes no =>
    (question.steady true || Grammar.asksTypedCall question yes) && yes.steady && no.steady

end

mutual

/-- Whether the steps end at a comma as they end at a closing parenthesis. -/
def Steps.tailSafe : Steps → Bool
  | .done | .take _ | .refuse _ | .enclosed _ _ => true
  | .seq first rest => rest.tailSafe && (rest.takesSome || first.tailSafe)
  | .branch question yes no =>
    (yes.takesSome && no.takesSome || question.idle) && yes.tailSafe && no.tailSafe
  | .loop question body =>
    question.at? .rParen == some false && question.at? .comma == some false && body.tailSafe
  | .part phrase => phrase.tailSafe

def Body.tailSafe : Body → Bool
  | .close _ => true
  | .seq first rest => rest.tailSafe && (rest.takesSome || first.tailSafe)
  | .branch question yes no =>
    (yes.takesSome && no.takesSome || question.idle) && yes.tailSafe && no.tailSafe

def Phrase.tailSafe : Phrase → Bool
  | .refuse _ => true
  | .node body => body.tailSafe
  | .branch _ yes no => yes.tailSafe && no.tailSafe
  | .call rule => rule != .statement
  | .wrap inner suffix | .extend inner suffix => inner.tailSafe && suffix.tailSafe

def Suffix.tailSafe : Suffix → Bool
  | .stop => true
  | .around body => body.tailSafe
  | .branch question yes no => question.idle && yes.tailSafe && no.tailSafe

end

namespace Grammar

theorem phraseOf_steady (rule : Rule) : (phraseOf rule).steady = true := by
  cases rule <;> rfl

/-- Whatever is read as an argument ends at a comma as it ends at a closing parenthesis. -/
theorem phraseOf_tailSafe (rule : Rule) (h : rule ≠ .statement) : (phraseOf rule).tailSafe = true := by
  cases rule <;> first | rfl | exact absurd rfl h

end Grammar

mutual

/-- Steady steps do not take the end of the text. -/
theorem Steps.takesOnly_of_steady : ∀ steps : Steps, steps.steady = true →
    steps.takesOnly (· != .eof) = true
  | .done, _ | .refuse _, _ => rfl
  | .take _, h => h
  | .seq first rest, h => by
    rw [Steps.steady, Bool.and_eq_true] at h
    rw [Steps.takesOnly, first.takesOnly_of_steady h.1, rest.takesOnly_of_steady h.2]
    rfl
  | .branch _ yes no, h => by
    rw [Steps.steady, Bool.and_eq_true, Bool.and_eq_true] at h
    rw [Steps.takesOnly, yes.takesOnly_of_steady h.1.2, no.takesOnly_of_steady h.2]
    rfl
  | .loop _ body, h => by
    rw [Steps.steady, Bool.and_eq_true] at h
    exact body.takesOnly_of_steady h.2
  | .part phrase, h => by
    rw [Steps.steady, Bool.and_eq_true] at h
    exact phrase.takesOnly_of_steady h.2
  | .enclosed _ inside, h => by
    rw [Steps.takesOnly, inside.takesOnly_of_steady h]
    rfl

theorem Body.takesOnly_of_steady : ∀ body : Body, body.steady = true → body.takesOnly (· != .eof) = true
  | .close _, _ => rfl
  | .seq first rest, h => by
    rw [Body.steady, Bool.and_eq_true] at h
    rw [Body.takesOnly, first.takesOnly_of_steady h.1, rest.takesOnly_of_steady h.2]
    rfl
  | .branch _ yes no, h => by
    rw [Body.steady, Bool.and_eq_true, Bool.and_eq_true] at h
    rw [Body.takesOnly, yes.takesOnly_of_steady h.1.2, no.takesOnly_of_steady h.2]
    rfl

theorem Phrase.takesOnly_of_steady : ∀ phrase : Phrase, phrase.steady = true →
    phrase.takesOnly (· != .eof) = true
  | .refuse _, _ | .call _, _ => rfl
  | .node body, h => by
    rw [Phrase.steady, Bool.and_eq_true] at h
    exact body.takesOnly_of_steady h.1
  | .branch _ yes no, h => by
    rw [Phrase.steady, Bool.and_eq_true, Bool.and_eq_true] at h
    rw [Phrase.takesOnly, yes.takesOnly_of_steady h.1.2, no.takesOnly_of_steady h.2]
    rfl
  | .wrap inner suffix, h => by
    rw [Phrase.steady, Bool.and_eq_true] at h
    rw [Phrase.takesOnly, inner.takesOnly_of_steady h.1, suffix.takesOnly_of_steady h.2]
    rfl
  | .extend inner suffix, h => by
    rw [Phrase.steady, Bool.and_eq_true] at h
    rw [Phrase.takesOnly, inner.takesOnly_of_steady h.1, suffix.takesOnly_of_steady h.2]
    rfl

theorem Suffix.takesOnly_of_steady : ∀ suffix : Suffix, suffix.steady = true →
    suffix.takesOnly (· != .eof) = true
  | .stop, _ => rfl
  | .around body, h => by
    rw [Suffix.steady, Bool.and_eq_true, Bool.and_eq_true] at h
    exact body.takesOnly_of_steady h.1.1
  | .branch _ yes no, h => by
    rw [Suffix.steady, Bool.and_eq_true, Bool.and_eq_true] at h
    rw [Suffix.takesOnly, yes.takesOnly_of_steady h.1.2, no.takesOnly_of_steady h.2]
    rfl

end

/-! ## Reading something or nothing -/

/-- What the rules keep to: no token is lost, and each rule takes one. -/
structure Readings.Orderly (readings : Readings) : Prop where
  tokens : ∀ rule s, s.tokens = tokensOf (readings rule s).1.trees ++ (readings rule s).2.tokens
  leads : ∀ rule s, Sight.Leads (· != .eof) s (readings rule s).2
  goesOn : ∀ rule s, Sight.GoneOn s (readings rule s).2
  fit : readings.Fit Grammar.forms

theorem Grammar.readingsUpTo_orderly (depth : Nat) : (readingsUpTo depth).Orderly where
  tokens := readingsUpTo_tokens depth
  leads := readingsUpTo_leads phraseOf_takesOnly depth
  goesOn := readingsUpTo_goesOn depth
  fit := readingsUpTo_fit depth

theorem Sight.length_eq (s : Sight) : s.ahead.length = (Token.solidKinds s.tokens).length := by
  rw [solidKinds_tokens, kinds, List.length_map]

/-- What takes a token puts out one that is neither blank nor comment. -/
theorem solid_of_goneOn {s behind : Sight} {trees : List Tree}
    (htokens : s.tokens = tokensOf trees ++ behind.tokens) (hgone : Sight.GoneOn s behind)
    (hfits : behind.misfits = []) : Token.solidKinds (tokensOf trees) ≠ [] := by
  intro hnone
  rcases hgone with hmisfit | hless
  · simp [Sight.hasMisfit, hfits] at hmisfit
  · rw [Sight.length_eq, Sight.length_eq, htokens, Token.solidKinds_append, hnone, List.nil_append] at hless
    exact Nat.lt_irrefl _ hless

section

variable {readings : Readings}

/-- A phrase that fits reads a node. -/
theorem Phrase.read_found (h : readings.Orderly) : ∀ (phrase : Phrase) (s : Sight),
    (phrase.read readings s).2.misfits = [] → ∃ blanks tree, (phrase.read readings s).1 = some (blanks, tree)
  | .refuse expected, s, hfits => absurd hfits (Sight.misfits_refuse s _)
  | .node body, s, _ => ⟨_, _, rfl⟩
  | .branch question yes no, s, hfits => by
    rw [Phrase.read] at hfits ⊢
    split
    · rename_i hask
      rw [if_pos hask] at hfits
      exact yes.read_found h s hfits
    · rename_i hask
      rw [if_neg hask] at hfits
      exact no.read_found h s hfits
  | .call rule, s, hfits => by
    have hfound := h.fit.fits rule s hfits
    rw [Phrase.read]
    cases hone : (readings rule s).1 with
    | none =>
      rw [hone] at hfound
      cases hfound
    | some found => exact ⟨found.1, found.2, rfl⟩
  | .wrap inner suffix, s, hfits => by
    have hinner := inner.read_found h s
    rw [Phrase.read] at hfits ⊢
    split
    · rename_i behind heq
      rw [heq] at hfits hinner
      obtain ⟨_, _, hnone⟩ := hinner hfits
      cases hnone
    · exact ⟨_, _, rfl⟩
  | .extend inner suffix, s, hfits => by
    have hinner := inner.read_found h s
    rw [Phrase.read] at hfits ⊢
    split
    · rename_i behind heq
      rw [heq] at hfits hinner
      obtain ⟨_, _, hnone⟩ := hinner hfits
      cases hnone
    · exact ⟨_, _, rfl⟩

theorem Steps.fits_before (h : readings.Orderly) (steps : Steps) {s : Sight}
    (hfits : (steps.read readings s).2.misfits = []) : s.misfits = [] :=
  (steps.read_leads h.fit.leads s steps.takesOnly_all).fits hfits

/-- A steady phrase that has to take a token puts out one. -/
theorem Phrase.read_solid (h : readings.Orderly) {phrase : Phrase} (hsteady : phrase.steady = true)
    (hsome : phrase.takesSome = true) {s : Sight} (hfits : (phrase.read readings s).2.misfits = []) :
    Token.solidKinds (tokensOf (phrase.read readings s).1.trees) ≠ [] :=
  solid_of_goneOn (phrase.read_tokens h.tokens s)
    (phrase.read_goesOn h.leads h.goesOn s (phrase.takesOnly_of_steady hsteady) hsome) hfits

theorem nil_or_solid_append {trees others : List Tree}
    (h : trees = [] ∨ Token.solidKinds (tokensOf trees) ≠ [])
    (h' : others = [] ∨ Token.solidKinds (tokensOf others) ≠ []) :
    trees ++ others = [] ∨ Token.solidKinds (tokensOf (trees ++ others)) ≠ [] := by
  rcases h with rfl | h
  · exact h'
  · refine .inr fun hnone => h ?_
    rw [tokensOf_append, Token.solidKinds_append] at hnone
    exact (List.append_eq_nil_iff.mp hnone).1

theorem collectWhile_solid {question : Sight → Bool} {step : Sight → List Tree × Sight}
    (hleads : ∀ s, Sight.Leads (fun _ => true) s (step s).2)
    (hstep : ∀ s, (step s).2.misfits = [] →
      (step s).1 = [] ∨ Token.solidKinds (tokensOf (step s).1) ≠ []) (s : Sight)
    (hfits : (s.collectWhile question step).2.misfits = []) :
    (s.collectWhile question step).1 = [] ∨
      Token.solidKinds (tokensOf (s.collectWhile question step).1) ≠ [] := by
  rw [Sight.collectWhile] at hfits ⊢
  split at hfits
  · rename_i hquestion
    rw [if_pos hquestion]
    dsimp only at hfits ⊢
    split at hfits
    · rename_i hless
      rw [if_pos hless]
      have hone := hstep s ((Sight.Leads.collectWhile hleads (step s).2).fits hfits)
      exact nil_or_solid_append hone (collectWhile_solid hleads hstep (step s).2 hfits)
    · rename_i hless
      rw [if_neg hless]
      exact hstep s hfits
  · rename_i hquestion
    rw [if_neg hquestion]
    exact .inl rfl
termination_by s.ahead.length

/-- Steps put out nothing at all, or a token that is neither blank nor comment. -/
theorem Steps.read_solid (h : readings.Orderly) : ∀ (steps : Steps) (s : Sight), steps.steady = true →
    (steps.read readings s).2.misfits = [] →
      (steps.read readings s).1 = [] ∨ Token.solidKinds (tokensOf (steps.read readings s).1) ≠ []
  | .done, s, _, _ => .inl rfl
  | .take kinds, s, hsteady, hfits =>
    .inr (solid_of_goneOn (s.tokens_take kinds) (.take hsteady s) hfits)
  | .refuse expected, s, _, hfits => absurd hfits (Sight.misfits_refuse s _)
  | .seq first rest, s, hsteady, hfits => by
    rw [Steps.steady, Bool.and_eq_true] at hsteady
    have hone := first.read_solid h s hsteady.1 (rest.fits_before h hfits)
    exact nil_or_solid_append hone (rest.read_solid h _ hsteady.2 hfits)
  | .branch question yes no, s, hsteady, hfits => by
    rw [Steps.steady, Bool.and_eq_true, Bool.and_eq_true] at hsteady
    rw [Steps.read] at hfits ⊢
    split
    · rename_i hask
      rw [if_pos hask] at hfits
      exact yes.read_solid h s hsteady.1.2 hfits
    · rename_i hask
      rw [if_neg hask] at hfits
      exact no.read_solid h s hsteady.2 hfits
  | .loop question body, s, hsteady, hfits => by
    rw [Steps.steady, Bool.and_eq_true] at hsteady
    exact collectWhile_solid (body.read_leads h.fit.leads · body.takesOnly_all)
      (fun s => body.read_solid h s hsteady.2) s hfits
  | .part phrase, s, hsteady, hfits => by
    rw [Steps.steady, Bool.and_eq_true] at hsteady
    exact .inr (phrase.read_solid h hsteady.2 hsteady.1 hfits)
  | .enclosed what inside, s, hsteady, hfits => .inr (solid_of_goneOn
      ((Steps.enclosed what inside).read_tokens h.tokens s)
      ((Steps.enclosed what inside).read_goesOn h.leads h.goesOn s
        ((Steps.enclosed what inside).takesOnly_of_steady hsteady) rfl) hfits)

end

end RouteTypes
