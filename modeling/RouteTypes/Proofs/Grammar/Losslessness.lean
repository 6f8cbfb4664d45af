-- Nothing is lost and nothing is made up: what is read holds the tokens that are gone, in their order.
-- Only tokens that the grammar names are taken, so the end of the text stays until it is asked for. The
-- first misfit stays the only one.
import RouteTypes.Proofs.Grammar.Reading

namespace RouteTypes

open RouteTypes.Tree

/-! ## Tokens -/

theorem Tree.tokensOf_leaves (tokens : List Token) : tokensOf (tokens.map .leaf) = tokens := by
  induction tokens with
  | nil => rfl
  | cons token rest ih => simp [tokensOf, Tree.tokens, ih]

theorem Found.tokensOf_trees (blanks : List Token) (tree : Tree) :
    tokensOf (Found.trees (some (blanks, tree))) = blanks ++ tree.tokens := by
  rw [Found.trees, tokensOf_append, tokensOf_leaves, tokensOf, tokensOf, List.append_nil]

namespace Sight

theorem tokens_advance (s : Sight) : s.tokens = s.next ++ s.advance.tokens := by
  obtain ⟨ahead, misfits⟩ := s
  cases ahead with
  | nil => rfl
  | cons next rest => simp [Sight.tokens, Sight.next, Sight.advance]

theorem tokens_flush (s : Sight) : s.tokens = s.leading ++ s.flush.tokens := by
  obtain ⟨ahead, misfits⟩ := s
  cases ahead with
  | nil => rfl
  | cons next rest =>
    simp [Sight.tokens, Sight.leading, Sight.flush, Lexeme.tokens, Lexeme.bare]

theorem leading_trivia (s : Sight) : ∀ blank ∈ s.leading, blank.isTrivia = true := by
  obtain ⟨ahead, misfits⟩ := s
  cases ahead with
  | nil => intro blank hblank; cases hblank
  | cons next rest => exact next.leading_trivia

theorem ahead_refuse (s : Sight) (expected : Expected) : (s.refuse expected).ahead = s.ahead := by
  unfold refuse
  split <;> rfl

theorem tokens_refuse (s : Sight) (expected : Expected) : (s.refuse expected).tokens = s.tokens := by
  rw [tokens, ahead_refuse, ← tokens]

theorem tokens_take (s : Sight) (kinds : List TokenKind) :
    s.tokens = tokensOf (s.take kinds).1 ++ (s.take kinds).2.tokens := by
  unfold take
  split
  · rw [tokensOf_leaves]
    exact tokens_advance s
  · exact (tokens_refuse s _).symm

theorem tokens_collectWhile (question : Sight → Bool) {step : Sight → List Tree × Sight}
    (hstep : ∀ s, s.tokens = tokensOf (step s).1 ++ (step s).2.tokens) (s : Sight) :
    s.tokens =
      tokensOf (s.collectWhile question step).1 ++ (s.collectWhile question step).2.tokens := by
  rw [collectWhile]
  split
  · dsimp only
    split
    · rename_i hless
      rw [tokensOf_append, List.append_assoc, ← tokens_collectWhile question hstep (step s).2]
      exact hstep s
    · exact hstep s
  · rfl
termination_by s.ahead.length

theorem tokens_wrapWhile {step : Tree → Sight → Option Tree × Sight}
    (hstep : ∀ inner s, inner.tokens ++ s.tokens =
      ((step inner s).1.getD inner).tokens ++ (step inner s).2.tokens) (inner : Tree) (s : Sight) :
    inner.tokens ++ s.tokens =
      (s.wrapWhile step inner).1.tokens ++ (s.wrapWhile step inner).2.tokens := by
  have hone := hstep inner s
  rw [wrapWhile]
  split
  · rename_i behind heq
    rw [heq] at hone
    exact hone
  · rename_i outer behind heq
    rw [heq] at hone
    split
    · exact hone.trans (tokens_wrapWhile hstep outer behind)
    · exact hone
termination_by s.ahead.length

end Sight

section

variable {readings : Readings}

mutual

/-- Steps put the tokens into the open node that they take from what is to come. -/
theorem Steps.read_tokens
    (hrules : ∀ rule s, s.tokens = tokensOf (readings rule s).1.trees ++ (readings rule s).2.tokens) :
    ∀ (steps : Steps) (s : Sight), s.tokens =
      tokensOf (steps.read readings s).1 ++ (steps.read readings s).2.tokens
  | .done, s => rfl
  | .take kinds, s => s.tokens_take kinds
  | .refuse expected, s => (s.tokens_refuse expected).symm
  | .seq first rest, s => by
    rw [Steps.read, tokensOf_append, List.append_assoc, ← rest.read_tokens hrules]
    exact first.read_tokens hrules s
  | .branch question yes no, s => by
    rw [Steps.read]
    split
    · exact yes.read_tokens hrules s
    · exact no.read_tokens hrules s
  | .loop question body, s => s.tokens_collectWhile _ (body.read_tokens hrules)
  | .part phrase, s => phrase.read_tokens hrules s
  | .enclosed what inside, s => by
    have hinside := inside.read_tokens hrules s
    rw [Steps.read]
    split
    · exact hinside
    · split
      · rw [tokensOf_append, tokensOf_leaves, List.append_assoc, ← Sight.tokens_advance]
        exact hinside
      · rw [Sight.tokens_refuse]
        exact hinside

theorem Body.read_tokens
    (hrules : ∀ rule s, s.tokens = tokensOf (readings rule s).1.trees ++ (readings rule s).2.tokens) :
    ∀ (body : Body) (s : Sight), s.tokens =
      tokensOf (body.read readings s).1.2 ++ (body.read readings s).2.tokens
  | .close kind, s => rfl
  | .seq first rest, s => by
    rw [Body.read, tokensOf_append, List.append_assoc, ← rest.read_tokens hrules]
    exact first.read_tokens hrules s
  | .branch question yes no, s => by
    rw [Body.read]
    split
    · exact yes.read_tokens hrules s
    · exact no.read_tokens hrules s

theorem Phrase.read_tokens
    (hrules : ∀ rule s, s.tokens = tokensOf (readings rule s).1.trees ++ (readings rule s).2.tokens) :
    ∀ (phrase : Phrase) (s : Sight), s.tokens =
      tokensOf (phrase.read readings s).1.trees ++ (phrase.read readings s).2.tokens
  | .refuse expected, s => (s.tokens_refuse expected).symm
  | .node body, s => by
    rw [Phrase.read, Found.tokensOf_trees, Tree.tokens, List.append_assoc,
      ← body.read_tokens hrules s.flush]
    exact s.tokens_flush
  | .branch question yes no, s => by
    rw [Phrase.read]
    split
    · exact yes.read_tokens hrules s
    · exact no.read_tokens hrules s
  | .call rule, s => hrules rule s
  | .wrap inner suffix, s => by
    have hinner := inner.read_tokens hrules s
    rw [Phrase.read]
    split
    · rename_i behind heq
      rw [heq] at hinner
      exact hinner
    · rename_i blanks tree behind heq
      rw [heq, Found.tokensOf_trees] at hinner
      rw [Found.tokensOf_trees, hinner, List.append_assoc, List.append_assoc,
        suffix.read_tokens hrules tree behind]
  | .extend inner suffix, s => by
    have hinner := inner.read_tokens hrules s
    rw [Phrase.read]
    split
    · rename_i behind heq
      rw [heq] at hinner
      exact hinner
    · rename_i blanks tree behind heq
      rw [heq, Found.tokensOf_trees] at hinner
      rw [Found.tokensOf_trees, hinner, List.append_assoc, List.append_assoc,
        Sight.tokens_wrapWhile (suffix.read_tokens hrules) tree behind]

theorem Suffix.read_tokens
    (hrules : ∀ rule s, s.tokens = tokensOf (readings rule s).1.trees ++ (readings rule s).2.tokens) :
    ∀ (suffix : Suffix) (inner : Tree) (s : Sight), inner.tokens ++ s.tokens =
      ((suffix.read readings inner s).1.getD inner).tokens ++ (suffix.read readings inner s).2.tokens
  | .stop, inner, s => rfl
  | .around body, inner, s => by
    rw [Suffix.read, Option.getD_some, Tree.tokens, tokensOf, List.append_assoc,
      ← body.read_tokens hrules s]
  | .branch question yes no, inner, s => by
    rw [Suffix.read]
    split
    · exact yes.read_tokens hrules inner s
    · exact no.read_tokens hrules inner s

end

end

theorem Grammar.readingsUpTo_tokens (depth : Nat) (rule : Rule) (s : Sight) :
    s.tokens = tokensOf (readingsUpTo depth rule s).1.trees ++ (readingsUpTo depth rule s).2.tokens := by
  induction depth generalizing rule s with
  | zero => exact (s.tokens_refuse .expression).symm
  | succ depth ih => exact (phraseOf rule).read_tokens ih s

/-! ## Which tokens are taken -/

mutual

/-- Whether the steps take only tokens of these kinds, apart from what rules take. -/
def Steps.takesOnly (allowed : TokenKind → Bool) : Steps → Bool
  | .done | .refuse _ => true
  | .take kinds => kinds.all allowed
  | .seq first rest => first.takesOnly allowed && rest.takesOnly allowed
  | .branch _ yes no => yes.takesOnly allowed && no.takesOnly allowed
  | .loop _ body => body.takesOnly allowed
  | .part phrase => phrase.takesOnly allowed
  | .enclosed _ inside => inside.takesOnly allowed && allowed .rBrace

def Body.takesOnly (allowed : TokenKind → Bool) : Body → Bool
  | .close _ => true
  | .seq first rest => first.takesOnly allowed && rest.takesOnly allowed
  | .branch _ yes no => yes.takesOnly allowed && no.takesOnly allowed

def Phrase.takesOnly (allowed : TokenKind → Bool) : Phrase → Bool
  | .refuse _ | .call _ => true
  | .node body => body.takesOnly allowed
  | .branch _ yes no => yes.takesOnly allowed && no.takesOnly allowed
  | .wrap inner suffix | .extend inner suffix => inner.takesOnly allowed && suffix.takesOnly allowed

def Suffix.takesOnly (allowed : TokenKind → Bool) : Suffix → Bool
  | .stop => true
  | .around body => body.takesOnly allowed
  | .branch _ yes no => yes.takesOnly allowed && no.takesOnly allowed

end

namespace Sight

/-- What is to come can become that by taking tokens of these kinds and finding misfits. -/
inductive Leads (allowed : TokenKind → Bool) (s : Sight) : Sight → Prop
  | here : Leads allowed s s
  | flush {s' : Sight} (h : Leads allowed s s') : Leads allowed s s'.flush
  | advance {s' : Sight} (h : Leads allowed s s') (kind : allowed s'.kind = true) :
      Leads allowed s s'.advance
  | refuse {s' : Sight} (h : Leads allowed s s') (expected : Expected) :
      Leads allowed s (s'.refuse expected)

variable {allowed : TokenKind → Bool}

theorem Leads.trans {s s' s'' : Sight} (h : Leads allowed s s') (h' : Leads allowed s' s'') :
    Leads allowed s s'' := by
  induction h' with
  | here => exact h
  | flush _ ih => exact .flush ih
  | advance _ kind ih => exact .advance ih kind
  | refuse _ expected ih => exact .refuse ih expected

theorem Leads.take {s : Sight} {kinds : List TokenKind} (hkinds : kinds.all allowed = true) :
    Leads allowed s (s.take kinds).2 := by
  unfold Sight.take
  split
  · rename_i hnext
    exact .advance .here (List.all_eq_true.mp hkinds _ (List.contains_iff_mem.mp hnext))
  · exact .refuse .here _

theorem Leads.collectWhile {question : Sight → Bool} {step : Sight → List Tree × Sight}
    (hstep : ∀ s, Leads allowed s (step s).2) (s : Sight) :
    Leads allowed s (s.collectWhile question step).2 := by
  rw [Sight.collectWhile]
  split
  · dsimp only
    split
    · exact (hstep s).trans (Leads.collectWhile hstep (step s).2)
    · exact hstep s
  · exact .here
termination_by s.ahead.length

theorem Leads.wrapWhile {step : Tree → Sight → Option Tree × Sight}
    (hstep : ∀ inner s, Leads allowed s (step inner s).2) (inner : Tree) (s : Sight) :
    Leads allowed s (s.wrapWhile step inner).2 := by
  have hone := hstep inner s
  rw [Sight.wrapWhile]
  split
  · rename_i behind heq
    rw [heq] at hone
    exact hone
  · rename_i outer behind heq
    rw [heq] at hone
    split
    · exact hone.trans (Leads.wrapWhile hstep outer behind)
    · exact hone
termination_by s.ahead.length

theorem ahead_flush (s : Sight) : s.flush.ahead.length = s.ahead.length := by
  rw [flush, List.length_modifyHead]

/-- No token comes back. -/
theorem Leads.length_le {s s' : Sight} (h : Leads allowed s s') :
    s'.ahead.length ≤ s.ahead.length := by
  induction h with
  | here => exact Nat.le_refl _
  | flush _ ih => rwa [ahead_flush]
  | advance _ _ ih =>
    rw [Sight.advance, List.length_tail]
    omega
  | refuse _ expected ih => rwa [ahead_refuse]

/-- A misfit is not forgotten. -/
theorem Leads.hasMisfit {s s' : Sight} (h : Leads allowed s s') (hs : s.hasMisfit = true) :
    s'.hasMisfit = true := by
  induction h with
  | here => exact hs
  | flush _ ih => exact ih
  | advance _ _ ih => exact ih
  | refuse _ expected ih =>
    rw [Sight.refuse, if_pos ih]
    exact ih

theorem Leads.fits {s s' : Sight} (h : Leads allowed s s') (hfits : s'.misfits = []) :
    s.misfits = [] := by
  cases hs : s.misfits with
  | nil => rfl
  | cons misfit rest =>
    have := h.hasMisfit (by simp [Sight.hasMisfit, hs])
    simp [Sight.hasMisfit, hfits] at this

/-- The first misfit stays the only one. -/
theorem Leads.misfits {s s' : Sight} (h : Leads allowed s s') (hs : s.misfits.length ≤ 1) :
    s'.misfits.length ≤ 1 := by
  induction h with
  | here => exact hs
  | flush _ ih => exact ih
  | advance _ _ ih => exact ih
  | @refuse s' _ expected ih =>
    unfold Sight.refuse Sight.hasMisfit
    cases h : s'.misfits with
    | nil => simp
    | cons misfit rest =>
      rw [h] at ih
      simpa [h] using ih

theorem kinds_flush (s : Sight) : s.flush.kinds = s.kinds := by
  obtain ⟨ahead, misfits⟩ := s
  cases ahead <;> rfl

theorem kinds_advance (s : Sight) : s.advance.kinds = s.kinds.tail := by
  rw [kinds, advance, List.map_tail, ← kinds]

theorem kinds_refuse (s : Sight) (expected : Expected) : (s.refuse expected).kinds = s.kinds := by
  rw [kinds, ahead_refuse, ← kinds]

theorem kind_eq (s : Sight) : s.kind = s.kinds.headD .eof := by
  obtain ⟨ahead, misfits⟩ := s
  cases ahead <;> rfl

/-- A token of a kind that is not taken stays. -/
theorem Leads.mem_kinds {s s' : Sight} {kind : TokenKind} (h : Leads allowed s s')
    (hkind : allowed kind = false) (hs : kind ∈ s.kinds) : kind ∈ s'.kinds := by
  induction h with
  | here => exact hs
  | flush _ ih => rwa [kinds_flush]
  | @advance s' _ hnext ih =>
    rw [kinds_advance]
    rw [kind_eq] at hnext
    cases hkinds : s'.kinds with
    | nil =>
      rw [hkinds] at ih
      exact ih
    | cons first rest =>
      rw [hkinds] at ih hnext
      rcases List.mem_cons.mp ih with hfirst | hrest
      · subst hfirst
        rw [List.headD_cons, hkind] at hnext
        cases hnext
      · exact hrest
  | refuse _ expected ih => rwa [kinds_refuse]

end Sight

section

variable {readings : Readings} {allowed : TokenKind → Bool}

mutual

theorem Steps.read_leads (hrules : ∀ rule s, Sight.Leads allowed s (readings rule s).2) :
    ∀ (steps : Steps) (s : Sight), steps.takesOnly allowed = true →
      Sight.Leads allowed s (steps.read readings s).2
  | .done, s, _ => .here
  | .take kinds, s, h => .take h
  | .refuse expected, s, _ => .refuse .here expected
  | .seq first rest, s, h => by
    rw [Steps.takesOnly, Bool.and_eq_true] at h
    exact (first.read_leads hrules s h.1).trans (rest.read_leads hrules _ h.2)
  | .branch question yes no, s, h => by
    rw [Steps.takesOnly, Bool.and_eq_true] at h
    rw [Steps.read]
    split
    · exact yes.read_leads hrules s h.1
    · exact no.read_leads hrules s h.2
  | .loop question body, s, h => .collectWhile (fun s => body.read_leads hrules s h) s
  | .part phrase, s, h => phrase.read_leads hrules s h
  | .enclosed what inside, s, h => by
    rw [Steps.takesOnly, Bool.and_eq_true] at h
    have hinside := inside.read_leads hrules s h.1
    rw [Steps.read]
    split
    · exact hinside
    · split
      · rename_i hbrace
        exact .advance hinside (by rw [beq_iff_eq.mp hbrace]; exact h.2)
      · exact .refuse hinside _

theorem Body.read_leads (hrules : ∀ rule s, Sight.Leads allowed s (readings rule s).2) :
    ∀ (body : Body) (s : Sight), body.takesOnly allowed = true →
      Sight.Leads allowed s (body.read readings s).2
  | .close kind, s, _ => .here
  | .seq first rest, s, h => by
    rw [Body.takesOnly, Bool.and_eq_true] at h
    exact (first.read_leads hrules s h.1).trans (rest.read_leads hrules _ h.2)
  | .branch question yes no, s, h => by
    rw [Body.takesOnly, Bool.and_eq_true] at h
    rw [Body.read]
    split
    · exact yes.read_leads hrules s h.1
    · exact no.read_leads hrules s h.2

theorem Phrase.read_leads (hrules : ∀ rule s, Sight.Leads allowed s (readings rule s).2) :
    ∀ (phrase : Phrase) (s : Sight), phrase.takesOnly allowed = true →
      Sight.Leads allowed s (phrase.read readings s).2
  | .refuse expected, s, _ => .refuse .here expected
  | .node body, s, h => (Sight.Leads.flush .here).trans (body.read_leads hrules s.flush h)
  | .branch question yes no, s, h => by
    rw [Phrase.takesOnly, Bool.and_eq_true] at h
    rw [Phrase.read]
    split
    · exact yes.read_leads hrules s h.1
    · exact no.read_leads hrules s h.2
  | .call rule, s, _ => hrules rule s
  | .wrap inner suffix, s, h => by
    rw [Phrase.takesOnly, Bool.and_eq_true] at h
    have hinner := inner.read_leads hrules s h.1
    rw [Phrase.read]
    split
    · rename_i behind heq
      rw [heq] at hinner
      exact hinner
    · rename_i blanks tree behind heq
      rw [heq] at hinner
      exact hinner.trans (suffix.read_leads hrules tree behind h.2)
  | .extend inner suffix, s, h => by
    rw [Phrase.takesOnly, Bool.and_eq_true] at h
    have hinner := inner.read_leads hrules s h.1
    rw [Phrase.read]
    split
    · rename_i behind heq
      rw [heq] at hinner
      exact hinner
    · rename_i blanks tree behind heq
      rw [heq] at hinner
      exact hinner.trans
        (.wrapWhile (fun inner s => suffix.read_leads hrules inner s h.2) tree behind)

theorem Suffix.read_leads (hrules : ∀ rule s, Sight.Leads allowed s (readings rule s).2) :
    ∀ (suffix : Suffix) (inner : Tree) (s : Sight), suffix.takesOnly allowed = true →
      Sight.Leads allowed s (suffix.read readings inner s).2
  | .stop, inner, s, _ => .here
  | .around body, inner, s, h => body.read_leads hrules s h
  | .branch question yes no, inner, s, h => by
    rw [Suffix.takesOnly, Bool.and_eq_true] at h
    rw [Suffix.read]
    split
    · exact yes.read_leads hrules inner s h.1
    · exact no.read_leads hrules inner s h.2

end

end

mutual

theorem Steps.takesOnly_all : ∀ steps : Steps, steps.takesOnly (fun _ => true) = true
  | .done | .refuse _ => rfl
  | .take kinds => List.all_eq_true.mpr fun _ _ => rfl
  | .seq first rest => by rw [Steps.takesOnly, first.takesOnly_all, rest.takesOnly_all]; rfl
  | .branch _ yes no => by rw [Steps.takesOnly, yes.takesOnly_all, no.takesOnly_all]; rfl
  | .loop _ body => body.takesOnly_all
  | .part phrase => phrase.takesOnly_all
  | .enclosed _ inside => by rw [Steps.takesOnly, inside.takesOnly_all]; rfl

theorem Body.takesOnly_all : ∀ body : Body, body.takesOnly (fun _ => true) = true
  | .close _ => rfl
  | .seq first rest => by rw [Body.takesOnly, first.takesOnly_all, rest.takesOnly_all]; rfl
  | .branch _ yes no => by rw [Body.takesOnly, yes.takesOnly_all, no.takesOnly_all]; rfl

theorem Phrase.takesOnly_all : ∀ phrase : Phrase, phrase.takesOnly (fun _ => true) = true
  | .refuse _ | .call _ => rfl
  | .node body => body.takesOnly_all
  | .branch _ yes no => by rw [Phrase.takesOnly, yes.takesOnly_all, no.takesOnly_all]; rfl
  | .wrap inner suffix => by
    rw [Phrase.takesOnly, inner.takesOnly_all, suffix.takesOnly_all]; rfl
  | .extend inner suffix => by
    rw [Phrase.takesOnly, inner.takesOnly_all, suffix.takesOnly_all]; rfl

theorem Suffix.takesOnly_all : ∀ suffix : Suffix, suffix.takesOnly (fun _ => true) = true
  | .stop => rfl
  | .around body => body.takesOnly_all
  | .branch _ yes no => by rw [Suffix.takesOnly, yes.takesOnly_all, no.takesOnly_all]; rfl

end

namespace Grammar

theorem readingsUpTo_leads {allowed : TokenKind → Bool}
    (h : ∀ rule, (phraseOf rule).takesOnly allowed = true) (depth : Nat) (rule : Rule) (s : Sight) :
    Sight.Leads allowed s (readingsUpTo depth rule s).2 := by
  induction depth generalizing rule s with
  | zero => exact .refuse .here _
  | succ depth ih => exact (phraseOf rule).read_leads ih s (h rule)

/-- No rule takes the end of the text. -/
theorem phraseOf_takesOnly (rule : Rule) : (phraseOf rule).takesOnly (· != .eof) = true := by
  cases rule <;> rfl

end Grammar

end RouteTypes
