-- Reading goes on: what has to take a token takes one, or finds that the next one does not fit. So no
-- repetition of the grammar stands still.
import RouteTypes.Proofs.Grammar.Losslessness

namespace RouteTypes

/-! ## What has to take a token -/

mutual

/-- Whether the steps cannot be gone without a token or a misfit. Every rule is one that takes a token. -/
def Steps.takesSome : Steps → Bool
  | .done | .loop _ _ => false
  | .take _ | .refuse _ | .enclosed _ _ => true
  | .seq first rest => first.takesSome || rest.takesSome
  | .branch _ yes no => yes.takesSome && no.takesSome
  | .part phrase => phrase.takesSome

def Body.takesSome : Body → Bool
  | .close _ => false
  | .seq first rest => first.takesSome || rest.takesSome
  | .branch _ yes no => yes.takesSome && no.takesSome

def Phrase.takesSome : Phrase → Bool
  | .refuse _ | .call _ => true
  | .node body => body.takesSome
  | .branch _ yes no => yes.takesSome && no.takesSome
  | .wrap inner _ | .extend inner _ => inner.takesSome

end

namespace Sight

/-- A token has been taken since, or there is a misfit. -/
def GoneOn (s s' : Sight) : Prop := s'.hasMisfit = true ∨ s'.ahead.length < s.ahead.length

variable {allowed : TokenKind → Bool} {s s' s'' : Sight}

theorem GoneOn.before (h : GoneOn s' s'') (hs : Leads allowed s s') : GoneOn s s'' := by
  rcases h with h | h
  · exact .inl h
  · exact .inr (Nat.lt_of_lt_of_le h hs.length_le)

theorem GoneOn.behind (h : GoneOn s s') (hs : Leads allowed s' s'') : GoneOn s s'' := by
  rcases h with h | h
  · exact .inl (hs.hasMisfit h)
  · exact .inr (Nat.lt_of_le_of_lt hs.length_le h)

theorem hasMisfit_refuse (s : Sight) (expected : Expected) : (s.refuse expected).hasMisfit = true := by
  unfold refuse
  split
  · assumption
  · simp [hasMisfit]

theorem misfits_refuse (s : Sight) (expected : Expected) : (s.refuse expected).misfits ≠ [] := by
  intro h
  have := hasMisfit_refuse s expected
  simp [hasMisfit, h] at this

theorem length_advance {s : Sight} (h : s.kind ≠ .eof) : s.advance.ahead.length < s.ahead.length := by
  obtain ⟨ahead, misfits⟩ := s
  cases ahead with
  | nil => exact absurd rfl h
  | cons next rest => exact Nat.lt_succ_self _

theorem GoneOn.take {kinds : List TokenKind} (hkinds : kinds.all (· != .eof) = true) (s : Sight) :
    GoneOn s (s.take kinds).2 := by
  unfold Sight.take
  split
  · rename_i hnext
    have hkind := List.all_eq_true.mp hkinds _ (List.contains_iff_mem.mp hnext)
    exact .inr (length_advance (bne_iff_ne.mp hkind))
  · exact .inl (hasMisfit_refuse s _)

/-- What is repeated ends with the question answered with no, or with a misfit. -/
theorem collectWhile_ends {question : Sight → Bool} {step : Sight → List Tree × Sight}
    (hstep : ∀ s, GoneOn s (step s).2) (s : Sight)
    (hfits : (s.collectWhile question step).2.misfits = []) :
    question (s.collectWhile question step).2 = false := by
  rw [collectWhile] at hfits ⊢
  split at hfits
  · rename_i hquestion
    rw [if_pos hquestion]
    dsimp only at hfits ⊢
    split at hfits
    · rename_i hless
      rw [if_pos hless]
      exact collectWhile_ends hstep (step s).2 hfits
    · rename_i hless
      rcases hstep s with h | h
      · simp [hasMisfit, hfits] at h
      · exact absurd h hless
  · rename_i hquestion
    rw [if_neg hquestion]
    exact eq_false_of_ne_true hquestion
termination_by s.ahead.length

end Sight

section

variable {readings : Readings}

mutual

theorem Steps.read_goesOn (hleads : ∀ rule s, Sight.Leads (· != .eof) s (readings rule s).2)
    (hrules : ∀ rule s, Sight.GoneOn s (readings rule s).2) :
    ∀ (steps : Steps) (s : Sight), steps.takesOnly (· != .eof) = true → steps.takesSome = true →
      Sight.GoneOn s (steps.read readings s).2
  | .take kinds, s, h, _ => .take h s
  | .refuse expected, s, _, _ => .inl (Sight.hasMisfit_refuse s expected)
  | .seq first rest, s, h, hsome => by
    rw [Steps.takesOnly, Bool.and_eq_true] at h
    rw [Steps.takesSome, Bool.or_eq_true] at hsome
    rcases hsome with hsome | hsome
    · exact (first.read_goesOn hleads hrules s h.1 hsome).behind (rest.read_leads hleads _ h.2)
    · exact (rest.read_goesOn hleads hrules _ h.2 hsome).before (first.read_leads hleads s h.1)
  | .branch question yes no, s, h, hsome => by
    rw [Steps.takesOnly, Bool.and_eq_true] at h
    rw [Steps.takesSome, Bool.and_eq_true] at hsome
    rw [Steps.read]
    split
    · exact yes.read_goesOn hleads hrules s h.1 hsome.1
    · exact no.read_goesOn hleads hrules s h.2 hsome.2
  | .part phrase, s, h, hsome => phrase.read_goesOn hleads hrules s h hsome
  | .enclosed what inside, s, h, _ => by
    rw [Steps.takesOnly, Bool.and_eq_true] at h
    have hinside := inside.read_leads hleads s h.1
    rw [Steps.read]
    split
    · rename_i hmisfit
      exact .inl hmisfit
    · split
      · rename_i hbrace
        have hkind : (inside.read readings s).2.kind ≠ .eof := by
          rw [beq_iff_eq.mp hbrace]
          decide
        exact .before (.inr (Sight.length_advance hkind)) hinside
      · exact .inl (Sight.hasMisfit_refuse _ _)

theorem Body.read_goesOn (hleads : ∀ rule s, Sight.Leads (· != .eof) s (readings rule s).2)
    (hrules : ∀ rule s, Sight.GoneOn s (readings rule s).2) :
    ∀ (body : Body) (s : Sight), body.takesOnly (· != .eof) = true → body.takesSome = true →
      Sight.GoneOn s (body.read readings s).2
  | .seq first rest, s, h, hsome => by
    rw [Body.takesOnly, Bool.and_eq_true] at h
    rw [Body.takesSome, Bool.or_eq_true] at hsome
    rcases hsome with hsome | hsome
    · exact (first.read_goesOn hleads hrules s h.1 hsome).behind (rest.read_leads hleads _ h.2)
    · exact (rest.read_goesOn hleads hrules _ h.2 hsome).before (first.read_leads hleads s h.1)
  | .branch question yes no, s, h, hsome => by
    rw [Body.takesOnly, Bool.and_eq_true] at h
    rw [Body.takesSome, Bool.and_eq_true] at hsome
    rw [Body.read]
    split
    · exact yes.read_goesOn hleads hrules s h.1 hsome.1
    · exact no.read_goesOn hleads hrules s h.2 hsome.2

theorem Phrase.read_goesOn (hleads : ∀ rule s, Sight.Leads (· != .eof) s (readings rule s).2)
    (hrules : ∀ rule s, Sight.GoneOn s (readings rule s).2) :
    ∀ (phrase : Phrase) (s : Sight), phrase.takesOnly (· != .eof) = true → phrase.takesSome = true →
      Sight.GoneOn s (phrase.read readings s).2
  | .refuse expected, s, _, _ => .inl (Sight.hasMisfit_refuse s expected)
  | .node body, s, h, hsome => by
    have hflush : Sight.Leads (· != .eof) s s.flush := .flush .here
    exact (body.read_goesOn hleads hrules s.flush h hsome).before hflush
  | .branch question yes no, s, h, hsome => by
    rw [Phrase.takesOnly, Bool.and_eq_true] at h
    rw [Phrase.takesSome, Bool.and_eq_true] at hsome
    rw [Phrase.read]
    split
    · exact yes.read_goesOn hleads hrules s h.1 hsome.1
    · exact no.read_goesOn hleads hrules s h.2 hsome.2
  | .call rule, s, _, _ => hrules rule s
  | .wrap inner suffix, s, h, hsome => by
    rw [Phrase.takesOnly, Bool.and_eq_true] at h
    have hinner := inner.read_goesOn hleads hrules s h.1 hsome
    rw [Phrase.read]
    split
    · rename_i behind heq
      rw [heq] at hinner
      exact hinner
    · rename_i blanks tree behind heq
      rw [heq] at hinner
      exact hinner.behind (suffix.read_leads hleads tree behind h.2)
  | .extend inner suffix, s, h, hsome => by
    rw [Phrase.takesOnly, Bool.and_eq_true] at h
    have hinner := inner.read_goesOn hleads hrules s h.1 hsome
    rw [Phrase.read]
    split
    · rename_i behind heq
      rw [heq] at hinner
      exact hinner
    · rename_i blanks tree behind heq
      rw [heq] at hinner
      exact hinner.behind
        (.wrapWhile (fun inner s => suffix.read_leads hleads inner s h.2) tree behind)

end

end

namespace Grammar

theorem phraseOf_takesSome (rule : Rule) : (phraseOf rule).takesSome = true := by
  cases rule <;> rfl

/-- Every rule takes a token or finds that the next one does not fit. -/
theorem readingsUpTo_goesOn (depth : Nat) (rule : Rule) (s : Sight) :
    Sight.GoneOn s (readingsUpTo depth rule s).2 := by
  induction depth generalizing rule s with
  | zero => exact .inl (Sight.hasMisfit_refuse s _)
  | succ depth ih =>
    exact (phraseOf rule).read_goesOn (readingsUpTo_leads phraseOf_takesOnly depth) ih s
      (phraseOf_takesOnly rule) (phraseOf_takesSome rule)

end Grammar

end RouteTypes
