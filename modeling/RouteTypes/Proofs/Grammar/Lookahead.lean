-- Reading with other tokens behind. An argument is read before a closing parenthesis; with other tokens
-- instead the same is read of it, as long as every look-ahead that the reading comes to is answered alike.
-- The proof goes along what the reading comes to.
import RouteTypes.Proofs.Grammar.Boundary

namespace RouteTypes

open Relation RouteTypes.Tree RouteTypes.Grammar

/-! ## Look-aheads -/

/-- What is asked first to read the piece. -/
def Piece.question? : Piece → Option Question
  | .steps (.branch question _ _) | .steps (.loop question _) | .body (.branch question _ _)
  | .phrase (.branch question _ _) | .suffix (.branch question _ _) => some question
  | _ => none

/-- Every look-ahead that reading comes to has the same answer with the other tokens behind. -/
def Steady (behind behind' : List Token) (start : Piece × Reader) : Prop :=
  ∀ piece r question, ReflTransGen (Enters unbounded) start (piece, r) → piece.question? = some question →
    question.looksAhead = true → ∀ front, r.toSight.Shows (front ++ behind) →
      question.Answers (front ++ behind') (question.ask r.toSight)

theorem Steady.enters {behind behind' : List Token} {start next : Piece × Reader}
    (h : Steady behind behind' start) (hnext : Enters unbounded start next) : Steady behind behind' next :=
  fun piece r question hreach => h piece r question (.head hnext hreach)

/-! ## Reading something of the front -/

/-- With that much room behind it, the reading makes the same of the front with the other tokens behind. -/
def Carries {α : Type} (behind behind' : List Token) (room : Nat) (read : Sight → α × Sight) (s : Sight) : Prop :=
  ∀ before front, s.Shows (before ++ behind) → (read s).2.Shows (front ++ behind) →
    room ≤ (Token.solidKinds front).length → Yields read (before ++ behind') (read s).1 (front ++ behind')

section

variable {behind : List Token} {s t : Sight} {front : List Token} {room : Nat}

theorem Sight.Leads.tokens {allowed : TokenKind → Bool} (h : s.Leads allowed t) :
    ∃ taken, s.tokens = taken ++ t.tokens := by
  induction h with
  | here => exact ⟨[], rfl⟩
  | @flush t _ ih =>
    obtain ⟨taken, ih⟩ := ih
    exact ⟨taken ++ t.leading, by rw [ih, t.tokens_flush, List.append_assoc]⟩
  | @advance t _ _ ih =>
    obtain ⟨taken, ih⟩ := ih
    exact ⟨taken ++ t.next, by rw [ih, t.tokens_advance, List.append_assoc]⟩
  | refuse _ expected ih => rwa [Sight.tokens_refuse]

/-- Between a place and what is left behind it stands a part of the front. -/
theorem Sight.Leads.between {allowed : TokenKind → Bool} (h : s.Leads allowed t)
    (ht : t.Shows (front ++ behind)) : ∃ before, s.Shows (before ++ behind) := by
  obtain ⟨taken, htaken⟩ := h.tokens
  exact ⟨taken ++ front, h.fits ht.fits, by rw [htaken, ht.tokens, List.append_assoc]⟩

section

variable {before : List Token} (hs : s.Shows (before ++ behind)) (ht : t.Shows (front ++ behind))

include hs ht

theorem Sight.Shows.length_lt_iff : t.ahead.length < s.ahead.length ↔
    (Token.solidKinds front).length < (Token.solidKinds before).length := by
  rw [hs.length, ht.length, Token.solidKinds_append, Token.solidKinds_append, List.length_append,
    List.length_append]
  omega

theorem Sight.Shows.length_le_iff : t.ahead.length ≤ s.ahead.length ↔
    (Token.solidKinds front).length ≤ (Token.solidKinds before).length := by
  rw [← Nat.not_lt, ← Nat.not_lt, not_iff_not]
  exact ht.length_lt_iff hs

/-- There is more room before what takes a token. -/
theorem Sight.Shows.moreRoom {takes : Bool} (hle : t.ahead.length ≤ s.ahead.length)
    (htakes : takes = true → t.ahead.length < s.ahead.length) (hroom : room ≤ (Token.solidKinds front).length) :
    roomBefore takes room ≤ (Token.solidKinds before).length := by
  rw [hs.length_le_iff ht] at hle
  rw [hs.length_lt_iff ht] at htakes
  unfold roomBefore
  split
  · rename_i h
    have := htakes h
    omega
  · omega

end

end

/-- What is made around something of no token is the last. -/
theorem Yields.wrapLast {step : Tree → Sight → Option Tree × Sight} {inner outer : Tree}
    {tokens behind : List Token} (h : Yields (step inner) tokens (some outer) behind)
    (hsame : (Token.solidKinds tokens).length ≤ (Token.solidKinds behind).length) :
    Yields (Sight.wrapWhile step inner) tokens outer behind := by
  intro s hs
  obtain ⟨hone, hbehind⟩ := h s hs
  rw [Sight.wrapWhile]
  generalize step inner s = answer at hone hbehind ⊢
  obtain ⟨found, t⟩ := answer
  obtain rfl : found = some outer := hone
  dsimp only
  rw [if_neg (by rw [hbehind.length, hs.length]; exact Nat.not_lt.mpr hsame)]
  exact ⟨rfl, hbehind⟩

/-! ## What is behind the node inside -/

theorem Suffix.leads_while (suffix : Suffix) (tree : Tree) (s : Sight) :
    Sight.Leads (fun _ => true) s (s.wrapWhile (suffix.read unboundedReadings) tree).2 :=
  .wrapWhile (fun tree s => suffix.read_leads unboundedReadings_leads_any tree s suffix.takesOnly_all) tree s

theorem Phrase.leads_wrap (inner : Phrase) (suffix : Suffix) (s : Sight) : Sight.Leads (fun _ => true)
    (inner.read unboundedReadings s).2 ((Phrase.wrap inner suffix).read unboundedReadings s).2 := by
  rw [Phrase.read]
  obtain ⟨_ | ⟨blanks, tree⟩, behind⟩ := inner.read unboundedReadings s
  · exact .here
  · exact suffix.read_leads unboundedReadings_leads_any tree behind suffix.takesOnly_all

theorem Phrase.leads_extend (inner : Phrase) (suffix : Suffix) (s : Sight) : Sight.Leads (fun _ => true)
    (inner.read unboundedReadings s).2 ((Phrase.extend inner suffix).read unboundedReadings s).2 := by
  rw [Phrase.read]
  obtain ⟨_ | ⟨blanks, tree⟩, behind⟩ := inner.read unboundedReadings s
  · exact .here
  · exact suffix.leads_while tree behind

/-- A phrase that fits makes a node. -/
theorem Phrase.run_node {phrase : Phrase} {r : Reader}
    (hfits : (phrase.read unboundedReadings r.toSight).2.misfits = []) : ∃ place r' blanks tree,
      phrase.run unbounded r = (some place, r') ∧
        phrase.read unboundedReadings r.toSight = (some (blanks, tree), r'.toSight) := by
  have hfinds := phrase.run_finds unbounded_finds r
  obtain ⟨blanks, tree, hfound⟩ := phrase.read_found unboundedReadings_orderly r.toSight hfits
  generalize phrase.run unbounded r = answer at hfinds
  generalize phrase.read unboundedReadings r.toSight = found at hfinds hfound ⊢
  cases hfinds with
  | nothing hevents => cases hfound
  | node hstands => exact ⟨_, _, _, _, rfl, rfl⟩

/-! ## The pieces of the grammar -/

/-- With that much room behind it, the piece is read alike with the other tokens behind, if the text of the
grammar says so. -/
def Piece.Carried (kind : TokenKind) (behind behind' : List Token) : Piece × Reader → Prop
  | (.steps piece, r) => ∀ room ≤ 2, piece.keeps kind room = true →
    Carries behind behind' room (piece.read unboundedReadings) r.toSight
  | (.body piece, r) => ∀ room ≤ 2, piece.keeps kind room = true →
    Carries behind behind' room (piece.read unboundedReadings) r.toSight
  | (.phrase piece, r) => ∀ room ≤ 2, piece.keeps kind room = true →
    (piece.tellsTypes = true → r.kind = .lParen) →
      Carries behind behind' room (piece.read unboundedReadings) r.toSight
  | (.suffix piece, r) => ∀ room ≤ 2, piece.keeps kind room = true → ∀ tree,
    Carries behind behind' room (piece.read unboundedReadings tree) r.toSight
  | (.suffixes piece, r) => ∀ room ≤ 2, piece.keeps kind room = true → ∀ tree,
    Carries behind behind' room (Sight.wrapWhile (piece.read unboundedReadings) tree) r.toSight

section

variable {kind : TokenKind} {behind behind' : List Token} (hswap : Swapped kind behind behind') {r : Reader}

/-- The next token where it is the last one before what is left. -/
theorem Swapped.next (hswap : Swapped kind behind behind') {s : Sight} {before front : List Token}
    (hs : s.Shows (before ++ behind)) (ht : s.advance.Shows (front ++ behind)) : ∃ token,
      token.isTrivia = false ∧ token.kind = s.kind ∧ s.next = s.leading ++ [token] ∧
        before = s.leading ++ token :: front := by
  obtain ⟨rest, hclosing⟩ := hswap.kinds
  have hsome : s.kinds ≠ [] := by
    rw [hs.kinds, Token.solidKinds_append, hclosing]
    simp
  obtain ⟨ahead, misfits⟩ := s
  cases ahead with
  | nil => exact absurd rfl hsome
  | cons next more =>
    refine ⟨next.token, next.token_solid, rfl, rfl, List.append_cancel_right (hs.tokens.symm.trans ?_)⟩
    rw [Sight.tokens_advance, ht.tokens]
    simp [Sight.next, Sight.leading, Lexeme.tokens]

/-- What starts a node is a token, or what stands behind. -/
theorem Swapped.opens (hswap : Swapped kind behind behind') {s : Sight} {before : List Token}
    (hs : s.flush.Shows (before ++ behind)) :
    ∃ token rest, before ++ behind' = token :: rest ∧ token.isTrivia = false := by
  cases before with
  | nil =>
    obtain ⟨token, rest, rfl, hkind⟩ := hswap.instead
    exact ⟨token, rest, rfl, hswap.solid hkind⟩
  | cons first more =>
    refine ⟨first, more ++ behind', rfl, ?_⟩
    have htokens := hs.tokens
    obtain ⟨ahead, misfits⟩ := s
    cases ahead with
    | nil => cases htokens
    | cons next rest =>
      have hsame : next.token = first := (List.cons.inj htokens).1
      exact hsame ▸ next.token_solid

/-- A question that tells the ways to go on is answered alike, whether it looks ahead or is kept. -/
theorem Steady.answers {piece : Piece} {question : Question} {room : Nat} {before : List Token}
    (hswap : Swapped kind behind behind') (hsteady : Steady behind behind' (piece, r))
    (hquestion : piece.question? = some question) (hs : r.toSight.Shows (before ++ behind))
    (hroom : room ≤ (Token.solidKinds before).length)
    (hkeeps : question.looksAhead = true ∨ question.keeps kind room = true) :
    question.Answers (before ++ behind') (question.ask r.toSight) := by
  rcases hkeeps with hahead | hkeeps
  · exact hsteady piece r question .refl hquestion hahead before hs
  · exact Question.keeps_answers hswap hs hroom hkeeps

include hswap

theorem Steps.carried {steps : Steps} (hsteady : Steady behind behind' (.steps steps, r))
    (h : ∀ next, Enters unbounded (.steps steps, r) next → Piece.Carried kind behind behind' next) :
    Piece.Carried kind behind behind' (.steps steps, r) := by
  intro room hle hkeeps before front hs ht hroom
  cases steps with
  | done =>
    obtain rfl := List.append_cancel_right (hs.tokens.symm.trans ht.tokens)
    exact .done
  | take kinds =>
    have hfits : (r.toSight.take kinds).2.misfits = [] := ht.fits
    rw [Steps.read, Sight.take] at ht ⊢
    rw [Sight.take] at hfits
    split at hfits
    · rename_i hat
      rw [if_pos hat] at ht ⊢
      obtain ⟨token, hsolid, hkind, hnext, rfl⟩ := hswap.next hs ht
      rw [hnext, List.append_assoc]
      exact .take r.leading_trivia hsolid (hkind ▸ List.contains_iff_mem.mp hat)
    · exact absurd hfits (r.toSight.misfits_refuse _)
  | refuse expected => exact absurd ht.fits (r.toSight.misfits_refuse expected)
  | seq first rest =>
    rw [Steps.keeps, Bool.and_eq_true] at hkeeps
    have hfirst := h _ (.first first rest r) _ (roomBefore_le hle) hkeeps.1
    have hrest := h _ (.rest first rest r) room hle hkeeps.2
    rw [(first.run_reads unbounded_finds r).1] at hrest
    have hleads := rest.read_leads unboundedReadings_leads_any (first.read unboundedReadings r.toSight).2
      rest.takesOnly_all
    obtain ⟨middle, hmiddle⟩ := hleads.between ht
    have hmore := hmiddle.moreRoom ht hleads.length_le (fun h => rest.shorter_of_fills h ht.fits) hroom
    exact (hfirst before middle hs hmiddle hmore).seq (hrest middle front hmiddle ht hroom)
  | branch question yes no =>
    rw [Steps.keeps, Bool.and_eq_true, Bool.and_eq_true, Bool.or_eq_true] at hkeeps
    have hleads := (Steps.branch question yes no).read_leads unboundedReadings_leads_any r.toSight
      (Steps.takesOnly_all _)
    have hmore := hs.moreRoom ht hleads.length_le
      (fun h => (Steps.branch question yes no).shorter_of_fills (Steps.fills_branch h) ht.fits) hroom
    have hanswers := hsteady.answers hswap rfl hs hmore hkeeps.1.1
    refine .branch hanswers ?_
    rw [Steps.read] at ht ⊢
    cases hask : question.ask r.toSight with
    | true =>
      rw [hask] at ht
      exact h _ (.yes yes no hask) room hle hkeeps.1.2 before front hs ht hroom
    | false =>
      rw [hask] at ht
      exact h _ (.no yes no hask) room hle hkeeps.2 before front hs ht hroom
  | loop question body =>
    rw [Steps.keeps, Bool.and_eq_true] at hkeeps
    have hloop := (Steps.loop question body).read_leads unboundedReadings_leads_any
    have hle' := (hs.length_le_iff ht).mp (hloop r.toSight (Steps.takesOnly_all _)).length_le
    have hanswers := hsteady.answers hswap rfl hs (Nat.le_trans hroom hle') (.inr hkeeps.1)
    rw [Steps.read, Sight.collectWhile] at ht ⊢
    cases hask : question.ask r.toSight with
    | false =>
      rw [hask] at ht hanswers
      obtain rfl := List.append_cancel_right (hs.tokens.symm.trans ht.tokens)
      exact .loopEnd hanswers
    | true =>
      rw [hask] at ht hanswers
      have hbody := h _ (.round body hask) room hle hkeeps.2
      dsimp only at ht ⊢
      rw [if_pos rfl] at ht ⊢
      split
      · rename_i hless
        rw [if_pos hless] at ht
        have hsight := (body.run_reads unbounded_finds r).1
        have hrest := h _ (.again hask (by rw [hsight]; exact hless)) room hle (by
          rw [Steps.keeps, hkeeps.1, hkeeps.2]
          rfl)
        rw [hsight] at hrest
        have hleads := hloop (body.read unboundedReadings r.toSight).2 (Steps.takesOnly_all _)
        obtain ⟨middle, hmiddle⟩ := hleads.between ht
        have hmore := Nat.le_trans hroom ((hmiddle.length_le_iff ht).mp hleads.length_le)
        refine .loopNext hanswers (hbody before middle hs hmiddle hmore) ?_ (hrest middle front hmiddle ht hroom)
        rw [hs.length_lt_iff hmiddle] at hless
        simpa [Token.solidKinds_append] using hless
      · rename_i hless
        rw [if_neg hless] at ht
        refine .loopLast hanswers (hbody before front hs ht hroom) ?_
        rw [hs.length_lt_iff ht, Nat.not_lt] at hless
        simpa [Token.solidKinds_append] using hless
  | part phrase =>
    rw [Steps.keeps, Bool.and_eq_true, Bool.not_eq_true'] at hkeeps
    have hphrase := h _ (.part phrase r) room hle hkeeps.1 fun htells => by
      rw [hkeeps.2] at htells
      cases htells
    exact (hphrase before front hs ht hroom).part
  | enclosed what inside =>
    have hinside := h _ (.inside what inside r) _ (roomBefore_le hle) hkeeps
    have hfits := ht.fits
    rw [Steps.read] at hfits ht ⊢
    split at hfits
    · rename_i hmisfit
      simp [Sight.hasMisfit, hfits] at hmisfit
    · rename_i hmisfit
      rw [if_neg hmisfit] at ht ⊢
      split at hfits
      · rename_i hbrace
        rw [if_pos hbrace] at ht ⊢
        let inner := (inside.read unboundedReadings r.toSight).2
        have hless : inner.advance.ahead.length < inner.ahead.length := Sight.length_advance (by
          rw [beq_iff_eq.mp hbrace]
          decide)
        obtain ⟨middle, hmiddle⟩ := (@Sight.Leads.advance (fun _ => true) inner inner .here rfl).between ht
        have hmore : roomBefore true room ≤ _ := hmiddle.moreRoom ht (Nat.le_of_lt hless) (fun _ => hless) hroom
        obtain ⟨token, hsolid, hkind, hnext, rfl⟩ := hswap.next hmiddle ht
        have hyields := hinside before _ hs hmiddle hmore
        rw [List.append_assoc] at hyields
        rw [hnext]
        exact hyields.enclosed inner.leading_trivia (hkind.trans (beq_iff_eq.mp hbrace))
      · exact absurd hfits (Sight.misfits_refuse _ _)

theorem Body.carried {body : Body} (hsteady : Steady behind behind' (.body body, r))
    (h : ∀ next, Enters unbounded (.body body, r) next → Piece.Carried kind behind behind' next) :
    Piece.Carried kind behind behind' (.body body, r) := by
  intro room hle hkeeps before front hs ht hroom
  cases body with
  | close own =>
    obtain rfl := List.append_cancel_right (hs.tokens.symm.trans ht.tokens)
    exact .close
  | seq first rest =>
    rw [Body.keeps, Bool.and_eq_true] at hkeeps
    have hfirst := h _ (.firstOfBody first rest r) _ (roomBefore_le hle) hkeeps.1
    have hrest := h _ (.restOfBody first rest r) room hle hkeeps.2
    rw [(first.run_reads unbounded_finds r).1] at hrest
    have hleads := rest.read_leads unboundedReadings_leads_any (first.read unboundedReadings r.toSight).2
      rest.takesOnly_all
    obtain ⟨middle, hmiddle⟩ := hleads.between ht
    have hmore := hmiddle.moreRoom ht hleads.length_le
      (fun h : rest.fills = true => Body.shorter_of_fills h ht.fits) hroom
    exact (hfirst before middle hs hmiddle hmore).bodySeq (hrest middle front hmiddle ht hroom)
  | branch question yes no =>
    rw [Body.keeps, Bool.and_eq_true, Bool.and_eq_true, Bool.or_eq_true] at hkeeps
    have hleads := (Body.branch question yes no).read_leads unboundedReadings_leads_any r.toSight
      (Body.takesOnly_all _)
    have hmore := hs.moreRoom ht hleads.length_le
      (fun h => Body.shorter_of_fills (Body.fills_branch h) ht.fits) hroom
    have hanswers := hsteady.answers hswap rfl hs hmore hkeeps.1.1
    refine .bodyBranch hanswers ?_
    rw [Body.read] at ht ⊢
    cases hask : question.ask r.toSight with
    | true =>
      rw [hask] at ht
      exact h _ (.yesOfBody yes no hask) room hle hkeeps.1.2 before front hs ht hroom
    | false =>
      rw [hask] at ht
      exact h _ (.noOfBody yes no hask) room hle hkeeps.2 before front hs ht hroom

/-- Which type comes is told by what stands behind a parenthesis that is closed in it. -/
theorem tellsTypes_answers {question : Question} {yes no : Phrase} {before front : List Token}
    (htells : question.tellsTypes yes no = true) (hkind : r.kind = .lParen)
    (hs : r.toSight.Shows (before ++ behind))
    (ht : ((Phrase.branch question yes no).read unboundedReadings r.toSight).2.Shows (front ++ behind)) :
    question.Answers (before ++ behind') (question.ask r.toSight) := by
  rw [Question.tellsTypes, Bool.and_eq_true, Bool.and_eq_true, beq_iff_eq, beq_iff_eq, beq_iff_eq] at htells
  obtain ⟨⟨rfl, rfl⟩, rfl⟩ := htells
  have hclosed : Token.Closes (tokensOf ((Phrase.branch .functionType functionType parenType).read
      unboundedReadings r.toSight).1.trees) := by
    have hfits := ht.fits
    rw [Phrase.read] at hfits ⊢
    split
    · rename_i hask
      rw [if_pos hask] at hfits
      exact functionType_closes unboundedReadings_even hkind hfits
    · rename_i hask
      rw [if_neg hask] at hfits
      exact parenType_closes unboundedReadings_even hfits
  have hkept := (Phrase.branch .functionType functionType parenType).read_tokens unboundedReadings_tokens
    r.toSight
  rw [ht.tokens, hs.tokens, ← List.append_assoc] at hkept
  obtain rfl := List.append_cancel_right hkept
  rw [List.append_assoc] at hs ⊢
  exact hclosed.answers hswap hs

theorem Phrase.carried {phrase : Phrase} (hsteady : Steady behind behind' (.phrase phrase, r))
    (h : ∀ next, Enters unbounded (.phrase phrase, r) next → Piece.Carried kind behind behind' next) :
    Piece.Carried kind behind behind' (.phrase phrase, r) := by
  intro room hle hkeeps htypes before front hs ht hroom
  cases phrase with
  | refuse expected => exact absurd ht.fits (r.toSight.misfits_refuse expected)
  | node body =>
    have hbody := h _ (.node body r) room hle hkeeps
    have hleads := body.read_leads unboundedReadings_leads_any r.toSight.flush body.takesOnly_all
    obtain ⟨middle, hmiddle⟩ := hleads.between ht
    have hsplit := r.toSight.tokens_flush
    rw [hs.tokens, hmiddle.tokens, ← List.append_assoc] at hsplit
    obtain rfl := List.append_cancel_right hsplit
    obtain ⟨token, rest, hfirst, hsolid⟩ := hswap.opens hmiddle
    have hyields := hbody middle front hmiddle ht hroom
    rw [List.append_assoc]
    rw [hfirst] at hyields ⊢
    exact .node r.leading_trivia hsolid hyields
  | branch question yes no =>
    simp only [Phrase.keeps, Bool.and_eq_true, Bool.or_eq_true, Bool.not_eq_true', beq_iff_eq] at hkeeps
    obtain ⟨⟨⟨⟨hquestion, hyes⟩, hno⟩, hyesTells⟩, hnoTells⟩ := hkeeps
    have hleads := (Phrase.branch question yes no).read_leads unboundedReadings_leads_any r.toSight
      (Phrase.takesOnly_all _)
    have hmore := hs.moreRoom ht hleads.length_le
      (fun h => Phrase.shorter_of_fills (Phrase.fills_branch h) ht.fits) hroom
    have hanswers : question.Answers (before ++ behind') (question.ask r.toSight) := by
      rcases hquestion with (hahead | htells) | hkept
      · exact hsteady.answers hswap rfl hs hmore (.inl hahead)
      · exact tellsTypes_answers hswap htells (htypes htells) hs ht
      · exact hsteady.answers hswap rfl hs hmore (.inr hkept)
    refine .phraseBranch hanswers ?_
    rw [Phrase.read] at ht ⊢
    cases hask : question.ask r.toSight with
    | true =>
      rw [hask] at ht
      refine h _ (.yesOfPhrase yes no hask) room hle hyes (fun htells => ?_) before front hs ht hroom
      obtain rfl := hyesTells.resolve_right fun hnone => by rw [hnone] at htells; cases htells
      exact List.mem_singleton.mp (List.contains_iff_mem.mp hask)
    | false =>
      rw [hask] at ht
      refine h _ (.noOfPhrase yes no hask) room hle hno (fun htells => ?_) before front hs ht hroom
      rw [hnoTells] at htells
      cases htells
  | call rule =>
    obtain ⟨hrule, htells⟩ := phraseOf_keeps hswap.ends hle hkeeps
    have hphrase := h _ (.call rule r) room hle hrule fun hyes => by
      rw [htells] at hyes
      cases hyes
    have hsame : (Phrase.call rule).read unboundedReadings = (phraseOf rule).read unboundedReadings :=
      funext fun s => unboundedReadings_eq rule s
    rw [hsame] at ht ⊢
    exact hphrase before front hs ht hroom
  | wrap inner suffix =>
    simp only [Phrase.keeps, Bool.and_eq_true, Bool.not_eq_true'] at hkeeps
    obtain ⟨⟨hinnerKeeps, hsuffixKeeps⟩, hinnerTells⟩ := hkeeps
    have hinner := h _ (.wrapped inner suffix r) room hle hinnerKeeps (by simp [hinnerTells])
    obtain ⟨place, r', blanks, tree, hrun, hread⟩ := inner.run_node ((inner.leads_wrap suffix _).fits ht.fits)
    rw [Phrase.read, hread] at ht ⊢
    have hleads := suffix.read_leads unboundedReadings_leads_any tree r'.toSight suffix.takesOnly_all
    obtain ⟨middle, hmiddle⟩ := hleads.between ht
    have hmore := Nat.le_trans hroom ((hmiddle.length_le_iff ht).mp hleads.length_le)
    have hyields := hinner before middle hs (by rw [hread]; exact hmiddle) hmore
    rw [hread] at hyields
    have hsuffix := h _ (.behindWrapped suffix hrun) room hle hsuffixKeeps tree
    exact hyields.wrap (hsuffix middle front hmiddle ht hroom)
  | extend inner suffix =>
    simp only [Phrase.keeps, Bool.and_eq_true, Bool.not_eq_true'] at hkeeps
    obtain ⟨⟨hinnerKeeps, hsuffixKeeps⟩, hinnerTells⟩ := hkeeps
    have hinner := h _ (.extended inner suffix r) room hle hinnerKeeps (by simp [hinnerTells])
    obtain ⟨place, r', blanks, tree, hrun, hread⟩ := inner.run_node ((inner.leads_extend suffix _).fits ht.fits)
    rw [Phrase.read, hread] at ht ⊢
    have hleads := suffix.leads_while tree r'.toSight
    obtain ⟨middle, hmiddle⟩ := hleads.between ht
    have hmore := Nat.le_trans hroom ((hmiddle.length_le_iff ht).mp hleads.length_le)
    have hyields := hinner before middle hs (by rw [hread]; exact hmiddle) hmore
    rw [hread] at hyields
    have hsuffixes := h _ (.behindExtended suffix hrun) room hle hsuffixKeeps tree
    exact hyields.extend (hsuffixes middle front hmiddle ht hroom)

theorem Suffix.carried {suffix : Suffix} (hsteady : Steady behind behind' (.suffix suffix, r))
    (h : ∀ next, Enters unbounded (.suffix suffix, r) next → Piece.Carried kind behind behind' next) :
    Piece.Carried kind behind behind' (.suffix suffix, r) := by
  intro room hle hkeeps tree before front hs ht hroom
  cases suffix with
  | stop =>
    obtain rfl := List.append_cancel_right (hs.tokens.symm.trans ht.tokens)
    exact .stop
  | around body =>
    have hbody := h _ (.around body ⟨0⟩ r) room hle hkeeps
    exact (hbody before front hs ht hroom).around
  | branch question yes no =>
    simp only [Suffix.keeps, Bool.and_eq_true, Bool.or_eq_true] at hkeeps
    have hleads := (Suffix.branch question yes no).read_leads unboundedReadings_leads_any tree r.toSight
      (Suffix.takesOnly_all _)
    have hmore := Nat.le_trans hroom ((hs.length_le_iff ht).mp hleads.length_le)
    have hanswers := hsteady.answers hswap rfl hs hmore hkeeps.1.1
    refine .suffixBranch hanswers ?_
    rw [Suffix.read] at ht ⊢
    cases hask : question.ask r.toSight with
    | true =>
      rw [hask] at ht
      exact h _ (.yesOfSuffix yes no hask) room hle hkeeps.1.2 tree before front hs ht hroom
    | false =>
      rw [hask] at ht
      exact h _ (.noOfSuffix yes no hask) room hle hkeeps.2 tree before front hs ht hroom

omit hswap in
theorem Suffix.carriedWhile {suffix : Suffix}
    (h : ∀ next, Enters unbounded (.suffixes suffix, r) next → Piece.Carried kind behind behind' next) :
    Piece.Carried kind behind behind' (.suffixes suffix, r) := by
  intro room hle hkeeps tree before front hs ht hroom
  have hone := h _ (.roundOfSuffixes suffix r) room hle hkeeps tree
  have hruns := suffix.run_sight unbounded_finds ⟨0⟩ tree r
  rw [Sight.wrapWhile] at ht ⊢
  generalize hread : suffix.read unboundedReadings tree r.toSight = found at ht hruns ⊢
  obtain ⟨_ | outer, t⟩ := found
  · have hyields := hone before front hs (by rw [hread]; exact ht) hroom
    rw [hread] at hyields
    exact hyields.wrapEnd
  · dsimp only at ht hruns ⊢
    split
    · rename_i hless
      rw [if_pos hless] at ht
      obtain ⟨outer', hrun⟩ := Option.isSome_iff_exists.mp hruns.1
      have hagain : Enters unbounded (.suffixes suffix, r) (.suffixes suffix, (suffix.run unbounded ⟨0⟩ r).2) :=
        .againSuffixes (Prod.ext hrun rfl) (by rw [hruns.2]; exact hless)
      have hrest := h _ hagain room hle hkeeps outer
      rw [hruns.2] at hrest
      have hleads := suffix.leads_while outer t
      obtain ⟨middle, hmiddle⟩ := hleads.between ht
      have hmore := Nat.le_trans hroom ((hmiddle.length_le_iff ht).mp hleads.length_le)
      have hyields := hone before middle hs (by rw [hread]; exact hmiddle) hmore
      rw [hread] at hyields
      refine hyields.wrapNext ?_ (hrest middle front hmiddle ht hroom)
      rw [hs.length_lt_iff hmiddle] at hless
      simpa [Token.solidKinds_append] using hless
    · rename_i hless
      rw [if_neg hless] at ht
      have hyields := hone before front hs (by rw [hread]; exact ht) hroom
      rw [hread] at hyields
      refine hyields.wrapLast ?_
      rw [hs.length_lt_iff ht, Nat.not_lt] at hless
      simpa [Token.solidKinds_append] using hless

/-- Every piece of the grammar is read alike with the other tokens behind, if the look-aheads that reading it
comes to are answered alike. -/
theorem carried (start : Piece × Reader) (hsteady : Steady behind behind' start) :
    Piece.Carried kind behind behind' start := by
  have hwf : WellFounded fun next start => Enters unbounded start next :=
    Subrelation.wf (fun h => closer_of_enters (.single h)) Closer.wellFounded
  induction start using hwf.induction with
  | h start ih =>
    have h := fun next hnext => ih next hnext (hsteady.enters hnext)
    obtain ⟨piece, r⟩ := start
    cases piece with
    | steps piece => exact Steps.carried hswap hsteady h
    | body piece => exact Body.carried hswap hsteady h
    | phrase piece => exact Phrase.carried hswap hsteady h
    | suffix piece => exact Suffix.carried hswap hsteady h
    | suffixes piece => exact Suffix.carriedWhile h

end

end RouteTypes
