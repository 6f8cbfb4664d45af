-- Reading ends, whatever the tokens are. The limit on the depth of the rules is never reached, so they could
-- as well be nested without one; each round of a repetition takes a token or finds the first misfit; and
-- nothing is read inside itself before a token is taken.
import RouteTypes.Proofs.Grammar.Descent

namespace RouteTypes

open Relation

/-! ## The rules without a limit -/

theorem Rule.rank_le (rule : Rule) : rule.rank ≤ 5 := by
  cases rule <;> simp [rank]

theorem Rule.rank_pos (rule : Rule) : 0 < rule.rank := by
  cases rule <;> simp [rank]

namespace Grammar

theorem rulesUpTo_stable {depth depth' : Nat} {rule : Rule} {r : Reader}
    (h : 5 * r.ahead.length + rule.rank ≤ depth) (h' : 5 * r.ahead.length + rule.rank ≤ depth') :
    rulesUpTo depth rule r = rulesUpTo depth' rule r := by
  have hrank := rule.rank_pos
  induction depth generalizing depth' rule r with
  | zero => omega
  | succ depth ih =>
    obtain _ | depth' := depth'
    · omega
    · refine (phraseOf rule).run_agrees r fun called r' hcall => ?_
      have hlower := Enters.lower (rulesUpTo_finds depth)
        (readingsUpTo_leads (fun rule => (phraseOf rule).takesOnly_all) depth) hcall
      have hcalled := called.rank_le
      have hneed : 5 * r'.ahead.length + called.rank < 5 * r.ahead.length + rule.rank := by
        rcases hlower with hless | ⟨hkinds, hless⟩
        · omega
        · rw [Sight.length_of_kinds hkinds]
          omega
      exact ih (by omega) (by omega) called.rank_pos

/-- The rules, nested as deep as they come to be. -/
def unbounded : Rules := fun rule r => rulesUpTo (depthFor r.ahead.length) rule r

theorem rulesUpTo_unbounded {depth : Nat} {rule : Rule} {r : Reader}
    (h : 5 * r.ahead.length + rule.rank ≤ depth) : rulesUpTo depth rule r = unbounded rule r :=
  rulesUpTo_stable h (by have := rule.rank_le; unfold depthFor; omega)

/-- Each rule reads what the grammar says, with the rules in it nested as deep as they come to be. -/
theorem unbounded_eq (rule : Rule) (r : Reader) : unbounded rule r = (phraseOf rule).run unbounded r := by
  have hdepth : depthFor r.ahead.length = 5 * r.ahead.length + 4 + 1 := by unfold depthFor; omega
  rw [unbounded, hdepth]
  refine (phraseOf rule).run_agrees r fun called r' hcall => rulesUpTo_unbounded ?_
  have hlower := Enters.lower (rulesUpTo_finds _)
    (readingsUpTo_leads (fun rule => (phraseOf rule).takesOnly_all) _) hcall
  have hcalled := called.rank_le
  have hrank := rule.rank_le
  rcases hlower with hless | ⟨hkinds, hless⟩
  · omega
  · rw [Sight.length_of_kinds hkinds]
    omega

/-- The readings of the rules without a limit. -/
def unboundedReadings : Readings := fun rule s => readingsUpTo (depthFor s.ahead.length) rule s

theorem unbounded_finds (rule : Rule) (r : Reader) :
    r.Finds (unbounded rule r) (unboundedReadings rule r.toSight) :=
  rulesUpTo_finds _ rule r

theorem unboundedReadings_leads (rule : Rule) (s : Sight) :
    Sight.Leads (· != .eof) s (unboundedReadings rule s).2 :=
  readingsUpTo_leads phraseOf_takesOnly _ rule s

theorem unboundedReadings_leads_any (rule : Rule) (s : Sight) :
    Sight.Leads (fun _ => true) s (unboundedReadings rule s).2 :=
  readingsUpTo_leads (fun rule => (phraseOf rule).takesOnly_all) _ rule s

theorem unboundedReadings_goesOn (rule : Rule) (s : Sight) : s.GoneOn (unboundedReadings rule s).2 :=
  readingsUpTo_goesOn _ rule s

theorem closer_of_enters {start next : Piece × Reader} (h : TransGen (Enters unbounded) start next) :
    Closer start next :=
  .of_transGen (fun _ _ => Enters.closer unbounded_finds unboundedReadings_leads_any) h

/-- What a program is read like without a limit. -/
theorem program_unbounded (tokens : List Token) :
    program.run (rulesUpTo (depthFor (Reader.ofTokens tokens).ahead.length)) (Reader.ofTokens tokens).begin =
      program.run unbounded (Reader.ofTokens tokens).begin := by
  refine program.run_agrees _ fun called r' hcall => rulesUpTo_unbounded ?_
  have hlength : r'.ahead.length ≤ (Reader.ofTokens tokens).ahead.length := by
    rcases reflTransGen_iff_eq_or_transGen.mp hcall with heq | hcall
    · cases heq
    · rcases Closer.of_transGen (fun _ _ => Enters.closer (rulesUpTo_finds _)
        (readingsUpTo_leads (fun rule => (phraseOf rule).takesOnly_all) _)) hcall with hless | ⟨hkinds, -⟩
      · exact Nat.le_of_lt hless
      · exact Nat.le_of_eq (Sight.length_of_kinds hkinds)
  have hcalled := called.rank_le
  unfold depthFor
  omega

end Grammar

/-! ## Repetitions -/

/-- Whether the answer is yes only where everything fitted before. -/
def Question.needsFit : Question → Bool
  | .not .misfit => true
  | .both first other => first.needsFit || other.needsFit
  | _ => false

theorem Question.fits_of_ask {question : Question} {s : Sight} (hneeds : question.needsFit = true)
    (h : question.ask s = true) : s.hasMisfit = false := by
  induction question with
  | not inner =>
    cases inner with
    | misfit => simpa [ask] using h
    | _ => cases hneeds
  | both first other hfirst hother =>
    rw [needsFit, Bool.or_eq_true] at hneeds
    rw [ask, Bool.and_eq_true] at h
    exact hneeds.elim (hfirst · h.1) (hother · h.2)
  | _ => cases hneeds

/-- Whether a round takes a token wherever the question is answered with yes. -/
def Steps.takesEachRound (question : Question) (body : Steps) : Bool :=
  TokenKind.all.all fun kind => question.anyway kind == some false || body.takesAt kind

/-- Whether the suffix takes a token wherever it makes a node. -/
def Suffix.takesEachRound (suffix : Suffix) : Bool := TokenKind.all.all suffix.takesAt

mutual

/-- Whether each round of every repetition in the steps takes a token, or finds the first one that does
not fit. -/
def Steps.proceeds : Steps → Bool
  | .done | .take _ | .refuse _ => true
  | .seq first rest => first.proceeds && rest.proceeds
  | .branch _ yes no => yes.proceeds && no.proceeds
  | .loop question body =>
    body.proceeds && (question.needsFit && body.takesOnly (· != .eof) && body.takesSome ||
      body.takesEachRound question)
  | .part phrase => phrase.proceeds
  | .enclosed _ inside => inside.proceeds

def Body.proceeds : Body → Bool
  | .close _ => true
  | .seq first rest => first.proceeds && rest.proceeds
  | .branch _ yes no => yes.proceeds && no.proceeds

def Phrase.proceeds : Phrase → Bool
  | .refuse _ | .call _ => true
  | .node body => body.proceeds
  | .branch _ yes no => yes.proceeds && no.proceeds
  | .wrap inner suffix => inner.proceeds && suffix.proceeds
  | .extend inner suffix => inner.proceeds && suffix.proceeds && suffix.takesEachRound

def Suffix.proceeds : Suffix → Bool
  | .stop => true
  | .around body => body.proceeds
  | .branch _ yes no => yes.proceeds && no.proceeds

end

def Piece.proceeds : Piece → Bool
  | .steps piece => piece.proceeds
  | .body piece => piece.proceeds
  | .phrase piece => piece.proceeds
  | .suffix piece => piece.proceeds
  | .suffixes piece => piece.proceeds && piece.takesEachRound

namespace Grammar

theorem phraseOf_proceeds (rule : Rule) : (phraseOf rule).proceeds = true := by
  have hall : ∀ rule ∈ [Rule.statement, .expression, .operand 0, .primary, .type],
      (phraseOf rule).proceeds = true := by decide +kernel
  cases rule with
  | operand least => exact hall (.operand 0) (by decide)
  | _ => exact hall _ (by decide)

theorem program_proceeds : program.proceeds = true := by decide +kernel

end Grammar

theorem Enters.proceeds {rules : Rules} {start next : Piece × Reader} (h : Enters rules start next)
    (hstart : start.1.proceeds = true) : next.1.proceeds = true := by
  cases h with
  | call rule r => exact Grammar.phraseOf_proceeds rule
  | _ =>
    simp only [Piece.proceeds, Steps.proceeds, Body.proceeds, Phrase.proceeds, Suffix.proceeds,
      Bool.and_eq_true] at hstart ⊢
    simp only [hstart, and_self]

/-- A token has been taken since, or the first misfit has been found. -/
def Sight.Proceeds (s s' : Sight) : Prop :=
  s'.ahead.length < s.ahead.length ∨ s.hasMisfit = false ∧ s'.hasMisfit = true

namespace Grammar

theorem round_proceeds {question : Question} {body : Steps} {r : Reader}
    (hproceeds : (Steps.loop question body).proceeds = true) (hquestion : question.ask r.toSight = true) :
    (body.run unbounded r).ahead.length < r.ahead.length ∨
      question.needsFit = true ∧ r.hasMisfit = false ∧ (body.run unbounded r).hasMisfit = true := by
  simp only [Steps.proceeds, Bool.and_eq_true, Bool.or_eq_true] at hproceeds
  rw [(body.run_reads unbounded_finds r).1]
  rcases hproceeds.2 with ⟨⟨hneeds, htakes⟩, hsome⟩ | hround
  · rcases body.read_goesOn unboundedReadings_leads unboundedReadings_goesOn r.toSight htakes hsome with
      hmisfit | hless
    · exact .inr ⟨hneeds, Question.fits_of_ask hneeds hquestion, hmisfit⟩
    · exact .inl hless
  · have htakes := Question.taken_yes hquestion (List.all_eq_true.mp hround r.kind r.kind.mem_all)
    exact .inl (body.read_takes unboundedReadings_leads_any r.toSight htakes)

/-- A repetition goes on as long as the question is answered with yes, whatever the rounds take. -/
theorem loop_goesOn {question : Question} {body : Steps} {r : Reader}
    (hproceeds : (Steps.loop question body).proceeds = true) (hquestion : question.ask r.toSight = true) :
    (Steps.loop question body).run unbounded r =
      (Steps.loop question body).run unbounded (body.run unbounded r) := by
  rw [Steps.run, Reader.repeatWhile, if_pos hquestion]
  dsimp only
  split
  · rfl
  · rename_i hstays
    rcases round_proceeds hproceeds hquestion with hless | ⟨hneeds, -, hmisfit⟩
    · exact absurd hless hstays
    · have hno : ¬question.ask (body.run unbounded r).toSight = true := fun hyes => by
        rw [Question.fits_of_ask hneeds hyes] at hmisfit
        cases hmisfit
      rw [Steps.run, Reader.repeatWhile, if_neg hno]

/-- Where reading the tokens of a program comes to. -/
def Entered (tokens : List Token) (piece : Piece) (r : Reader) : Prop :=
  ReflTransGen (Enters unbounded) (.body program, (Reader.ofTokens tokens).begin) (piece, r)

theorem Entered.proceeds {tokens : List Token} {piece : Piece} {r : Reader}
    (h : Entered tokens piece r) : piece.proceeds = true := by
  have hall : ∀ next, ReflTransGen (Enters unbounded)
      (.body program, (Reader.ofTokens tokens).begin) next → next.1.proceeds = true := by
    intro next h
    induction h with
    | refl => exact program_proceeds
    | tail _ hnext ih => exact hnext.proceeds ih
  exact hall _ h

/-- A rule, whatever its operators have to bind at least. -/
def anyPower : Rule → Rule
  | .operand _ => .operand 0
  | rule => rule

theorem rank_anyPower (rule : Rule) : (anyPower rule).rank = rule.rank := by
  cases rule <;> rfl

/-- Nothing is inside itself at one place. -/
theorem entered_again {piece : Piece} {r r' : Reader}
    (h : TransGen (Enters unbounded) (piece, r) (piece, r')) : r'.ahead.length < r.ahead.length := by
  rcases closer_of_enters h with hless | ⟨-, hcloser⟩
  · exact hless
  · simp only [Nat.lt_irrefl, and_false, or_self] at hcloser

theorem called_again {rule called : Rule} {r r' : Reader} (hsame : anyPower called = anyPower rule)
    (h : TransGen (Enters unbounded) (.phrase (.call rule), r) (.phrase (.call called), r')) :
    r'.ahead.length < r.ahead.length := by
  obtain ⟨next, hcall, hrest⟩ := TransGen.head'_iff.mp h
  cases hcall with
  | call =>
    rcases Enters.lower unbounded_finds unboundedReadings_leads_any hrest with hless | ⟨-, hless⟩
    · exact hless
    · rw [← rank_anyPower called, hsame, rank_anyPower] at hless
      exact absurd hless (Nat.lt_irrefl _)

/-- Reading ends, whether the tokens are a program or not. The rules are nested without a limit, and there
is no endless way down into them. Each round of a repetition takes a token or finds the first misfit, each
node around others takes a token, and so they are repeated as long as there are more. What is read inside
itself is read behind a token. -/
theorem reading_terminates (tokens : List Token) :
    (∀ rule r, unbounded rule r = (phraseOf rule).run unbounded r) ∧
      readAll tokens = (program.run unbounded (Reader.ofTokens tokens).begin).2.finish
        (Reader.ofTokens tokens).here (program.run unbounded (Reader.ofTokens tokens).begin).1 ∧
      (WellFounded fun next start => Enters unbounded start next) ∧
      (∀ question body r, Entered tokens (.steps (.loop question body)) r →
        question.ask r.toSight = true →
          r.toSight.Proceeds (body.run unbounded r).toSight ∧
            (Steps.loop question body).run unbounded r =
              (Steps.loop question body).run unbounded (body.run unbounded r)) ∧
      (∀ suffix r inner outer behind, Entered tokens (.suffixes suffix) r →
        suffix.run unbounded inner r = (some outer, behind) →
          behind.ahead.length < r.ahead.length ∧
            r.repeatOn (suffix.run unbounded) inner = behind.repeatOn (suffix.run unbounded) outer) ∧
      (∀ piece r r', TransGen (Enters unbounded) (piece, r) (piece, r') →
        r'.ahead.length < r.ahead.length) ∧
      ∀ rule called r r', anyPower called = anyPower rule →
        TransGen (Enters unbounded) (.phrase (.call rule), r) (.phrase (.call called), r') →
          r'.ahead.length < r.ahead.length := by
  refine ⟨unbounded_eq, ?_, ?_, ?_, ?_, fun _ _ _ => entered_again, fun _ _ _ _ => called_again⟩
  · rw [readAll, program_unbounded]
  · exact Subrelation.wf (fun h => closer_of_enters (.single h)) Closer.wellFounded
  · intro question body r hentered hquestion
    refine ⟨?_, loop_goesOn hentered.proceeds hquestion⟩
    exact (round_proceeds hentered.proceeds hquestion).imp_right fun h => h.2
  · intro suffix r inner outer behind hentered hrun
    have hproceeds := hentered.proceeds
    rw [Piece.proceeds, Bool.and_eq_true] at hproceeds
    have htakes := List.all_eq_true.mp hproceeds.2 r.kind r.kind.mem_all
    have hsight := suffix.run_sight unbounded_finds inner default r
    have hless := suffix.read_takes unboundedReadings_leads_any default r.toSight htakes
      (by rw [← hsight.1, hrun]; rfl)
    rw [← hsight.2, hrun] at hless
    refine ⟨hless, ?_⟩
    rw [Reader.repeatOn, hrun]
    dsimp only
    rw [if_pos hless]

end Grammar

end RouteTypes
