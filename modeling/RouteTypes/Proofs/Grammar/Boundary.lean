-- What reading sees at the end of an argument. A question about one token or two is answered by what stands
-- in the argument, or by the token behind it; that is a closing parenthesis, or what separates the parts of a
-- conditional. The text of the grammar tells where both have the same answer.
import RouteTypes.Proofs.Grammar.Parens
import RouteTypes.Proofs.Grammar.Tails
import RouteTypes.Proofs.Grammar.Yielding

namespace RouteTypes

open RouteTypes.Tree RouteTypes.Grammar

/-! ## Taking a token -/

def Body.fills (body : Body) : Bool := body.takesSome && body.takesOnly (· != .eof)

def Phrase.fills (phrase : Phrase) : Bool := phrase.takesSome && phrase.takesOnly (· != .eof)

/-- Whether the steps take a token wherever everything fits. -/
def Steps.fills : Steps → Bool
  | .done | .loop _ _ => false
  | .take kinds => kinds.all (· != .eof)
  | .refuse _ | .enclosed _ _ => true
  | .seq first rest => first.fills || rest.fills
  | .branch question yes no => question.ways (· && ·) yes.fills no.fills
  | .part phrase => phrase.fills

theorem Sight.GoneOn.less {s t : Sight} (h : s.GoneOn t) (hfits : t.misfits = []) :
    t.ahead.length < s.ahead.length := by
  rcases h with h | h
  · simp [Sight.hasMisfit, hfits] at h
  · exact h

theorem Body.shorter_of_fills {body : Body} {s : Sight} (h : body.fills = true)
    (hfits : (body.read unboundedReadings s).2.misfits = []) :
    (body.read unboundedReadings s).2.ahead.length < s.ahead.length := by
  rw [fills, Bool.and_eq_true] at h
  exact (body.read_goesOn unboundedReadings_leads unboundedReadings_goesOn s h.2 h.1).less hfits

theorem Phrase.shorter_of_fills {phrase : Phrase} {s : Sight} (h : phrase.fills = true)
    (hfits : (phrase.read unboundedReadings s).2.misfits = []) :
    (phrase.read unboundedReadings s).2.ahead.length < s.ahead.length := by
  rw [fills, Bool.and_eq_true] at h
  exact (phrase.read_goesOn unboundedReadings_leads unboundedReadings_goesOn s h.2 h.1).less hfits

theorem Question.fills_yes {question : Question} {yes no : Bool} {s : Sight} (hfits : s.misfits = [])
    (hask : question.ask s = true) (h : question.ways (· && ·) yes no = true) : yes = true := by
  unfold ways at h
  split at h
  · exact h
  · rename_i hsettled
    rw [ask_of_settled hsettled hfits] at hask
    cases hask
  · exact (Bool.and_eq_true _ _ ▸ h).1

theorem Question.fills_no {question : Question} {yes no : Bool} {s : Sight} (hfits : s.misfits = [])
    (hask : question.ask s = false) (h : question.ways (· && ·) yes no = true) : no = true := by
  unfold ways at h
  split at h
  · rename_i hsettled
    rw [ask_of_settled hsettled hfits] at hask
    cases hask
  · exact h
  · exact (Bool.and_eq_true _ _ ▸ h).2

theorem Steps.shorter_of_fills : ∀ (steps : Steps) {s : Sight}, steps.fills = true →
    (steps.read unboundedReadings s).2.misfits = [] →
      (steps.read unboundedReadings s).2.ahead.length < s.ahead.length
  | .take kinds, s, h, hfits => (Sight.GoneOn.take h s).less hfits
  | .refuse expected, s, _, hfits => absurd hfits (s.misfits_refuse expected)
  | .seq first rest, s, h, hfits => by
    have hone := first.read_leads unboundedReadings_leads_any s first.takesOnly_all
    have hother := rest.read_leads unboundedReadings_leads_any (first.read unboundedReadings s).2
      rest.takesOnly_all
    rw [fills, Bool.or_eq_true] at h
    rcases h with h | h
    · exact Nat.lt_of_le_of_lt hother.length_le (first.shorter_of_fills h (hother.fits hfits))
    · exact Nat.lt_of_lt_of_le (rest.shorter_of_fills h hfits) hone.length_le
  | .branch question yes no, s, h, hfits => by
    have hs := ((Steps.branch question yes no).read_leads unboundedReadings_leads_any s
      (Steps.takesOnly_all _)).fits hfits
    rw [fills] at h
    rw [Steps.read] at hfits ⊢
    cases hask : question.ask s with
    | true =>
      rw [hask] at hfits
      exact yes.shorter_of_fills (Question.fills_yes hs hask h) hfits
    | false =>
      rw [hask] at hfits
      exact no.shorter_of_fills (Question.fills_no hs hask h) hfits
  | .part phrase, s, h, hfits => Phrase.shorter_of_fills h hfits
  | .enclosed what inside, s, _, hfits => by
    have hinside := inside.read_leads unboundedReadings_leads_any s inside.takesOnly_all
    rw [Steps.read] at hfits ⊢
    split at hfits
    · rename_i hmisfit
      simp [Sight.hasMisfit, hfits] at hmisfit
    · rename_i hmisfit
      rw [if_neg hmisfit]
      split at hfits
      · rename_i hbrace
        rw [if_pos hbrace]
        have hkind : (inside.read unboundedReadings s).2.kind ≠ .eof := by
          rw [beq_iff_eq.mp hbrace]
          decide
        exact Nat.lt_of_lt_of_le (Sight.length_advance hkind) hinside.length_le
      · exact absurd hfits (Sight.misfits_refuse _ _)

theorem Body.fills_branch {question : Question} {yes no : Body} (h : (yes.fills && no.fills) = true) :
    (Body.branch question yes no).fills = true := by
  simp only [fills, Bool.and_eq_true, takesSome, takesOnly] at h ⊢
  exact ⟨⟨h.1.1, h.2.1⟩, h.1.2, h.2.2⟩

theorem Phrase.fills_branch {question : Question} {yes no : Phrase} (h : (yes.fills && no.fills) = true) :
    (Phrase.branch question yes no).fills = true := by
  simp only [fills, Bool.and_eq_true, takesSome, takesOnly] at h ⊢
  exact ⟨⟨h.1.1, h.2.1⟩, h.1.2, h.2.2⟩

theorem Steps.fills_branch {question : Question} {yes no : Steps} (h : (yes.fills && no.fills) = true) :
    (Steps.branch question yes no).fills = true := by
  rw [fills, Question.ways]
  split
  · exact (Bool.and_eq_true _ _ ▸ h).1
  · exact (Bool.and_eq_true _ _ ▸ h).2
  · exact h

/-! ## Room -/

/-- What is sure to stand between a place and the end of an argument, if so much stands behind what takes a
token, or does not; more than two tokens do not matter. -/
def roomBefore (takes : Bool) (room : Nat) : Nat := if takes then min (room + 1) 2 else room

theorem roomBefore_le {takes : Bool} {room : Nat} (h : room ≤ 2) : roomBefore takes room ≤ 2 := by
  unfold roomBefore
  split <;> omega

namespace Question

/-- Whether the question is about the next token, or about the one behind it and has the same answer at both
ends where that is the first one behind. -/
def near (kind : TokenKind) (room : Nat) : Question → Bool
  | .sure _ | .next _ | .word _ | .misfit => true
  | .second kinds => 2 ≤ room || kinds.contains .rParen == kinds.contains kind
  | .functionType | .arrow | .callTypeArgs => false
  | .not question => question.near kind room
  | .both first other => first.near kind room && other.near kind room

/-- Whether the question has the same answer before a token of that kind as before a closing parenthesis,
with that much room before it. -/
def keeps (kind : TokenKind) (room : Nat) (question : Question) : Bool :=
  question.near kind room &&
    (room != 0 || (question.at? .rParen).isSome && question.at? kind == question.at? .rParen)

/-- Whether the question looks ahead without a limit, for an arrow function or the type arguments of a
call. -/
def looksAhead (question : Question) : Bool := question == .arrow || question == .callTypeArgs

/-- Whether this tells a function type from a type in parentheses. -/
def tellsTypes (question : Question) (yes no : Phrase) : Bool :=
  question == .functionType && yes == Grammar.functionType && no == parenType

end Question

/-- Whether the phrase is one of two types, told by what is behind a parenthesis. -/
def Phrase.tellsTypes : Phrase → Bool
  | .branch question yes no => question.tellsTypes yes no
  | _ => false

/-- Whether the rule can be read last in an argument; the condition of a conditional is an operand. -/
def Rule.keeps (kind : TokenKind) (room : Nat) : Rule → Bool
  | .statement => room != 0
  | .expression => room != 0 || kind != .question
  | _ => true

mutual

/-- Whether the steps are read alike before a token of that kind and before a closing parenthesis, with that
much room behind them, as long as the look-aheads have the same answer. -/
def Steps.keeps (kind : TokenKind) (room : Nat) : Steps → Bool
  | .done | .take _ | .refuse _ => true
  | .seq first rest => first.keeps kind (roomBefore rest.fills room) && rest.keeps kind room
  | .branch question yes no =>
    (question.looksAhead || question.keeps kind (roomBefore (yes.fills && no.fills) room)) &&
      yes.keeps kind room && no.keeps kind room
  | .loop question body => question.keeps kind room && body.keeps kind room
  | .part phrase => phrase.keeps kind room && !phrase.tellsTypes
  | .enclosed _ inside => inside.keeps kind (roomBefore true room)

def Body.keeps (kind : TokenKind) (room : Nat) : Body → Bool
  | .close _ => true
  | .seq first rest => first.keeps kind (roomBefore rest.fills room) && rest.keeps kind room
  | .branch question yes no =>
    (question.looksAhead || question.keeps kind (roomBefore (yes.fills && no.fills) room)) &&
      yes.keeps kind room && no.keeps kind room

def Phrase.keeps (kind : TokenKind) (room : Nat) : Phrase → Bool
  | .refuse _ => true
  | .node body => body.keeps kind room
  | .branch question yes no =>
    (question.looksAhead || question.tellsTypes yes no ||
        question.keeps kind (roomBefore (yes.fills && no.fills) room)) &&
      yes.keeps kind room && no.keeps kind room && (question == .next [.lParen] || !yes.tellsTypes) &&
      !no.tellsTypes
  | .call rule => rule.keeps kind room
  | .wrap inner suffix | .extend inner suffix =>
    inner.keeps kind room && suffix.keeps kind room && !inner.tellsTypes

def Suffix.keeps (kind : TokenKind) (room : Nat) : Suffix → Bool
  | .stop => true
  | .around body => body.keeps kind room
  | .branch question yes no =>
    (question.looksAhead || question.keeps kind room) && yes.keeps kind room && no.keeps kind room

end

/-- What can be the first token behind an argument or a part of a conditional. -/
def TokenKind.ends : List TokenKind := [.rParen, .question, .colon]

namespace Grammar

theorem phraseOf_keeps {kind : TokenKind} {room : Nat} (hkind : kind ∈ TokenKind.ends) (hroom : room ≤ 2)
    {rule : Rule} (h : rule.keeps kind room = true) :
    (phraseOf rule).keeps kind room = true ∧ (phraseOf rule).tellsTypes = false := by
  have hall : ∀ kind ∈ TokenKind.ends, ∀ room ∈ List.range 3,
      ∀ rule ∈ [Rule.statement, .expression, .operand 0, .primary, .type], rule.keeps kind room = true →
        (phraseOf rule).keeps kind room = true ∧ (phraseOf rule).tellsTypes = false := by decide +kernel
  have hrange : room ∈ List.range 3 := List.mem_range.mpr (by omega)
  have hown := hall kind hkind room hrange
  cases rule with
  | operand least =>
    -- the power does not matter where the next token is no operator
    have hsame : (phraseOf (.operand least)).keeps kind room = (phraseOf (.operand 0)).keeps kind room := by
      simp only [TokenKind.ends, List.mem_cons, List.not_mem_nil, or_false] at hkind
      rcases hkind with rfl | rfl | rfl <;> rfl
    rw [hsame]
    exact hown (.operand 0) (by decide) h
  | _ => exact hown _ (by decide) h

end Grammar

/-! ## Questions at the end of an argument -/

/-- Behind something stands a closing parenthesis, and a token of that kind instead. -/
structure Swapped (kind : TokenKind) (behind behind' : List Token) : Prop where
  closing : ∃ token rest, behind = token :: rest ∧ token.kind = .rParen
  instead : ∃ token rest, behind' = token :: rest ∧ token.kind = kind
  ends : kind ∈ TokenKind.ends

namespace Swapped

variable {kind : TokenKind} {behind behind' : List Token}

theorem solid (h : Swapped kind behind behind') {token : Token} (htoken : token.kind = kind) :
    token.isTrivia = false := by
  have hall : ∀ kind ∈ TokenKind.ends, kind.isTrivia = false := by decide
  exact hall token.kind (htoken ▸ h.ends)

theorem kinds (h : Swapped kind behind behind') : ∃ rest, Token.solidKinds behind = .rParen :: rest := by
  obtain ⟨token, rest, rfl, hkind⟩ := h.closing
  have hsolid : token.isTrivia = false := by rw [Token.isTrivia, hkind]; rfl
  exact ⟨_, by rw [Token.solidKinds_cons, hsolid, ← hkind]; rfl⟩

theorem kinds' (h : Swapped kind behind behind') : ∃ rest, Token.solidKinds behind' = kind :: rest := by
  obtain ⟨token, rest, rfl, hkind⟩ := h.instead
  exact ⟨_, by rw [Token.solidKinds_cons, h.solid hkind, ← hkind]; rfl⟩

end Swapped

theorem Sight.Shows.kinds {s : Sight} {tokens : List Token} (h : s.Shows tokens) :
    s.kinds = Token.solidKinds tokens := by
  rw [← Sight.solidKinds_tokens, h.tokens]

section

variable {kind : TokenKind} {behind behind' before : List Token} {s s' : Sight}

theorem Swapped.second (hswap : Swapped kind behind behind') (hs : s.Shows (before ++ behind))
    (hs' : s'.Shows (before ++ behind')) (hsolid : Token.solidKinds before ≠ []) :
    s'.kindAt 1 = s.kindAt 1 ∨
      (Token.solidKinds before).length = 1 ∧ s.kindAt 1 = .rParen ∧ s'.kindAt 1 = kind := by
  obtain ⟨rest, hclosing⟩ := hswap.kinds
  obtain ⟨rest', hinstead⟩ := hswap.kinds'
  rw [Sight.kindAt_eq, Sight.kindAt_eq, hs.kinds, hs'.kinds, Token.solidKinds_append, Token.solidKinds_append,
    hclosing, hinstead]
  rcases hbefore : Token.solidKinds before with _ | ⟨first, _ | ⟨second, more⟩⟩
  · exact absurd hbefore hsolid
  · exact .inr ⟨rfl, rfl, rfl⟩
  · exact .inl rfl

theorem Swapped.atEnd (hswap : Swapped kind behind behind') (hs : s.Shows (before ++ behind))
    (hs' : s'.Shows (before ++ behind')) (hsolid : Token.solidKinds before = []) :
    s.kind = .rParen ∧ s'.kind = kind := by
  obtain ⟨rest, hclosing⟩ := hswap.kinds
  obtain ⟨rest', hinstead⟩ := hswap.kinds'
  rw [Sight.kind_eq, Sight.kind_eq, hs.kinds, hs'.kinds, Token.solidKinds_append, Token.solidKinds_append,
    hsolid, hclosing, hinstead]
  exact ⟨rfl, rfl⟩

theorem Question.near_ask (hswap : Swapped kind behind behind') (hs : s.Shows (before ++ behind))
    (hs' : s'.Shows (before ++ behind')) (hsolid : Token.solidKinds before ≠ []) {room : Nat}
    (hroom : room ≤ (Token.solidKinds before).length) {question : Question}
    (hnear : question.near kind room = true) : question.ask s' = question.ask s := by
  have hkind : s'.kind = s.kind := by
    rw [Sight.kind_eq, Sight.kind_eq, hs.kinds, hs'.kinds, Token.solidKinds_append, Token.solidKinds_append]
    obtain ⟨first, rest, hbefore⟩ := List.exists_cons_of_ne_nil hsolid
    rw [hbefore]
    rfl
  induction question with
  | sure answer => rfl
  | next kinds => rw [ask, ask, Sight.isAtAny, Sight.isAtAny, hkind]
  | second kinds =>
    rw [ask, ask]
    rcases hswap.second hs hs' hsolid with hsame | ⟨hone, hparen, hother⟩
    · rw [hsame]
    · rw [near, Bool.or_eq_true, decide_eq_true_eq, beq_iff_eq] at hnear
      rw [hparen, hother]
      exact (hnear.resolve_left (by omega)).symm
  | word text =>
    have hopening : (s'.leading, s'.ahead.head?.map (·.token)) = (s.leading, s.ahead.head?.map (·.token)) := by
      rw [← Sight.opening_tokens, ← Sight.opening_tokens, hs.tokens, hs'.tokens,
        Token.opening_of_solid _ hsolid, Token.opening_of_solid _ hsolid]
    have hword : ∀ s : Sight, s.isAtWord text =
        (s.kind == .ident && (s.ahead.head?.map (·.token)).any (·.text == text)) := by
      rintro ⟨_ | ⟨next, rest⟩, misfits⟩ <;> rfl
    rw [ask, ask, hword, hword, hkind, (Prod.mk.inj hopening).2]
  | misfit => rw [ask, ask, Sight.hasMisfit, Sight.hasMisfit, hs.fits, hs'.fits]
  | functionType => cases hnear
  | arrow => cases hnear
  | callTypeArgs => cases hnear
  | not question ih => rw [ask, ask, ih hnear]
  | both first other hfirst hother =>
    rw [near, Bool.and_eq_true] at hnear
    rw [ask, ask, hfirst hnear.1, hother hnear.2]

/-- A question that is kept has the same answer with the other tokens behind. -/
theorem Question.keeps_answers (hswap : Swapped kind behind behind') (hs : s.Shows (before ++ behind))
    {room : Nat} (hroom : room ≤ (Token.solidKinds before).length) {question : Question}
    (hkeeps : question.keeps kind room = true) : question.Answers (before ++ behind') (question.ask s) := by
  intro s' hs'
  rw [keeps, Bool.and_eq_true, Bool.or_eq_true, bne_iff_ne] at hkeeps
  by_cases hsolid : Token.solidKinds before = []
  · -- the end of the argument comes next
    rw [hsolid, List.length_nil, Nat.le_zero] at hroom
    have hends := hkeeps.2.resolve_left fun h => h hroom
    rw [Bool.and_eq_true, beq_iff_eq, Option.isSome_iff_exists] at hends
    obtain ⟨⟨answer, hanswer⟩, hsame⟩ := hends
    obtain ⟨hkind, hkind'⟩ := hswap.atEnd hs hs' hsolid
    rw [ask_at hs.fits (hkind ▸ hanswer), ask_at hs'.fits (hkind' ▸ hsame.trans hanswer)]
  · exact Question.near_ask hswap hs hs' hsolid hroom hkeeps.1

/-- What comes behind a parenthesis that is closed before the end. -/
theorem Token.Closes.answers {taken front : List Token} (h : Token.Closes taken)
    (hswap : Swapped kind behind behind') (hs : s.Shows (taken ++ (front ++ behind))) :
    Question.functionType.Answers (taken ++ (front ++ behind')) (Question.functionType.ask s) := by
  intro s' hs'
  obtain ⟨kinds, hkinds⟩ := h
  obtain ⟨rest, hclosing⟩ := hswap.kinds
  obtain ⟨rest', hinstead⟩ := hswap.kinds'
  rw [Question.ask, Question.ask, Sight.isAtFunctionType, Sight.isAtFunctionType, hs.kinds, hs'.kinds,
    Token.solidKinds_append, Token.solidKinds_append taken, hkinds, hkinds, Token.solidKinds_append,
    Token.solidKinds_append, hclosing, hinstead]
  rcases hmore : kinds ++ Token.solidKinds front with _ | ⟨first, more⟩
  · have hkind := hswap.ends
    simp only [TokenKind.ends, List.mem_cons, List.not_mem_nil, or_false] at hkind
    rw [← List.append_assoc, ← List.append_assoc, hmore]
    rcases hkind with rfl | rfl | rfl <;> rfl
  · rw [← List.append_assoc, ← List.append_assoc, hmore]
    rfl

end

/-! ## Arrows behind an argument -/

theorem Token.exists_of_mem_solidKinds {tokens : List Token} {kind : TokenKind}
    (h : kind ∈ Token.solidKinds tokens) : ∃ token ∈ tokens, token.kind = kind := by
  obtain ⟨token, htoken, hkind⟩ := List.mem_map.mp h
  exact ⟨token, (List.mem_filter.mp htoken).1, hkind⟩

namespace TokenKind

variable {behind : List TokenKind}

theorem arrowBehindType_of_noArrow (h : .fatArrow ∉ behind) (depth : Nat) :
    arrowBehindType depth behind = false := by
  fun_induction arrowBehindType depth behind <;> simp_all

theorem arrowBehindType_append (h : .fatArrow ∉ behind) (depth : Nat) (kinds : List TokenKind) :
    arrowBehindType depth (kinds ++ behind) = arrowBehindType depth kinds := by
  fun_induction arrowBehindType depth kinds with
  | case1 depth => exact arrowBehindType_of_noArrow h depth
  | _ => simp_all [arrowBehindType]

theorem arrowFollows_of_noArrow (h : .fatArrow ∉ behind) : arrowFollows behind = false := by
  rcases behind with _ | ⟨next, rest⟩
  · rfl
  · cases next with
    | colon => exact arrowBehindType_of_noArrow (fun hmem => h (List.mem_cons_of_mem _ hmem)) 0
    | fatArrow => exact absurd List.mem_cons_self h
    | _ => rfl

theorem arrowFollows_append (h : .fatArrow ∉ behind) (kinds : List TokenKind) :
    arrowFollows (kinds ++ behind) = arrowFollows kinds := by
  rcases kinds with _ | ⟨next, rest⟩
  · exact arrowFollows_of_noArrow h
  · cases next with
    | colon => exact arrowBehindType_append h 0 rest
    | _ => rfl

theorem mem_of_behindParens {kinds rest : List TokenKind} {depth : Nat} (h : behindParens depth kinds = some rest) :
    ∀ kind ∈ rest, kind ∈ kinds := by
  fun_induction behindParens depth kinds <;> simp_all

/-- A parenthesis closes in front, or what comes behind it stands behind. -/
theorem behindParens_append (behind : List TokenKind) (depth : Nat) (kinds : List TokenKind) :
    behindParens depth (kinds ++ behind) = (behindParens depth kinds).map (· ++ behind) ∨
      behindParens depth kinds = none ∧
        ∀ rest, behindParens depth (kinds ++ behind) = some rest → ∀ kind ∈ rest, kind ∈ behind := by
  fun_induction behindParens depth kinds with
  | case1 depth => exact .inr ⟨rfl, fun rest hrest => mem_of_behindParens hrest⟩
  | case4 depth rest h ih => simpa [behindParens, h] using ih
  | _ => simp_all [behindParens]

/-- Whether an arrow function starts in front is known there, if no arrow comes behind. -/
theorem arrowStarts_append (h : .fatArrow ∉ behind) (typed : Bool) (first : TokenKind) (kinds : List TokenKind) :
    arrowStarts typed (first :: kinds ++ behind) = arrowStarts typed (first :: kinds) := by
  cases first with
  | ident =>
    rcases kinds with _ | ⟨next, rest⟩
    · have hhead : behind.head? ≠ some .fatArrow := fun heq => h (List.mem_of_mem_head? heq)
      simpa [arrowStarts] using hhead
    · rfl
  | lParen =>
    rw [List.cons_append, arrowStarts, arrowStarts, ← List.cons_append]
    rcases behindParens_append behind 0 (.lParen :: kinds) with hsame | ⟨hopen, hbehind⟩
    · rw [hsame, Option.any_map]
      simp only [arrowFollows_append h]
    · rw [hopen]
      cases hparens : behindParens 0 (.lParen :: kinds ++ behind) with
      | none => rfl
      | some rest => exact arrowFollows_of_noArrow fun hmem => h (hbehind rest hparens _ hmem)
  | _ => rfl

theorem arrowStarts_of_ends {kind : TokenKind} (h : kind ∈ ends) (typed : Bool) (rest : List TokenKind) :
    arrowStarts typed (kind :: rest) = false := by
  simp only [ends, List.mem_cons, List.not_mem_nil, or_false] at h
  rcases h with rfl | rfl | rfl <;> rfl

end TokenKind

/-- Whether `async` stands before what may be an arrow function. -/
def Question.async : Question := .both (.word "async") (.second [.ident, .lParen])

theorem Question.ask_async (s : Sight) : async.ask s = s.isAtAsync := by
  rw [async, ask, ask, ask, List.contains_cons, List.contains_cons, List.contains_nil, Bool.or_false]
  rfl

section

variable {kind : TokenKind} {behind behind' before : List Token} {s s' : Sight}

/-- Whether an arrow function starts in before does not depend on what stands behind, if no arrow does. -/
theorem Swapped.arrow (hswap : Swapped kind behind behind') (hs : s.Shows (before ++ behind))
    (hs' : s'.Shows (before ++ behind')) (harrow : .fatArrow ∉ Token.solidKinds behind)
    (harrow' : .fatArrow ∉ Token.solidKinds behind') (hsolid : Token.solidKinds before ≠ []) :
    s'.isAtArrow = s.isAtArrow := by
  have hnear : ∀ kind ∈ TokenKind.ends, Question.async.near kind 0 = true := by decide
  have hasync := Question.near_ask hswap hs hs' hsolid (Nat.zero_le _) (hnear kind hswap.ends)
  rw [Question.ask_async, Question.ask_async] at hasync
  have hkinds := hs.kinds
  have hkinds' := hs'.kinds
  rw [Token.solidKinds_append] at hkinds hkinds'
  obtain ⟨first, rest, hbefore⟩ := List.exists_cons_of_ne_nil hsolid
  rw [Sight.isAtArrow_eq, Sight.isAtArrow_eq, hasync, hkinds, hkinds', hbefore]
  cases s.isAtAsync with
  | false =>
    exact (TokenKind.arrowStarts_append harrow' true first rest).trans
      (TokenKind.arrowStarts_append harrow true first rest).symm
  | true =>
    rcases rest with _ | ⟨second, rest⟩
    · obtain ⟨more, hmore⟩ := hswap.kinds
      obtain ⟨more', hmore'⟩ := hswap.kinds'
      rw [hmore, hmore']
      exact (TokenKind.arrowStarts_of_ends hswap.ends false more').trans
        (TokenKind.arrowStarts_of_ends (by decide) false more).symm
    · exact (TokenKind.arrowStarts_append harrow' false second rest).trans
        (TokenKind.arrowStarts_append harrow false second rest).symm

end

end RouteTypes
