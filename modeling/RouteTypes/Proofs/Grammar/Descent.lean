-- How reading goes down. The kind of the next token tells of a piece of grammar whether it takes that token
-- and how deep rules can be nested in it before. Until a token is taken, reading comes to smaller pieces and
-- to lower rules only, so it comes to a piece again no earlier than behind a token.
import Mathlib.Order.RelClasses
import RouteTypes.Proofs.Grammar.Entering
import RouteTypes.Proofs.Grammar.Progress
import RouteTypes.Proofs.Grammar.Widening

namespace RouteTypes

open Relation

/-! ## What the next token tells -/

/-- The answer where the next token is of that kind, whether everything fitted before or not, if this is
enough to know it. -/
def Question.anyway (kind : TokenKind) : Question → Option Bool
  | .sure _ | .misfit => none
  | .not question => (question.anyway kind).map (!·)
  | .both first other =>
    match other.anyway kind, first.anyway kind with
    | some false, _ | _, some false => some false
    | some true, some true => some true
    | _, _ => none
  | question => question.at? kind

theorem Question.ask_anyway {s : Sight} {question : Question} {answer : Bool}
    (h : question.anyway s.kind = some answer) : question.ask s = answer := by
  induction question generalizing answer with
  | sure own => cases h
  | misfit => cases h
  | next kinds => exact @ask_at ⟨s.ahead, []⟩ rfl _ _ h
  | second kinds => cases h
  | word text => exact @ask_at ⟨s.ahead, []⟩ rfl (.word text) _ h
  | functionType => cases h
  | arrow => exact @ask_at ⟨s.ahead, []⟩ rfl .arrow _ h
  | callTypeArgs => exact @ask_at ⟨s.ahead, []⟩ rfl .callTypeArgs _ h
  | not question ih =>
    obtain ⟨inner, hinner, rfl⟩ := Option.map_eq_some_iff.mp h
    rw [ask, ih hinner]
  | both first other hfirst hother =>
    rw [anyway] at h
    split at h
    · rename_i heq
      cases h
      rw [ask, hother heq, Bool.and_false]
    · rename_i heq _
      cases h
      rw [ask, hfirst heq, Bool.false_and]
    · rename_i heq heq'
      cases h
      rw [ask, hfirst heq', hother heq]
      rfl
    · cases h

mutual

/-- Whether the steps take a token wherever the next one is of that kind. -/
def Steps.takesAt (kind : TokenKind) : Steps → Bool
  | .done | .refuse _ | .loop _ _ => false
  | .take kinds => kinds.contains kind && kind != .eof
  | .seq first rest => first.takesAt kind || rest.takesAt kind
  | .branch question yes no =>
    (question.anyway kind == some false || yes.takesAt kind) &&
      (question.anyway kind == some true || no.takesAt kind)
  | .part phrase => phrase.takesAt kind
  | .enclosed _ inside => inside.takesAt kind

def Body.takesAt (kind : TokenKind) : Body → Bool
  | .close _ => false
  | .seq first rest => first.takesAt kind || rest.takesAt kind
  | .branch question yes no =>
    (question.anyway kind == some false || yes.takesAt kind) &&
      (question.anyway kind == some true || no.takesAt kind)

def Phrase.takesAt (kind : TokenKind) : Phrase → Bool
  | .refuse _ | .call _ => false
  | .node body => body.takesAt kind
  | .branch question yes no =>
    (question.anyway kind == some false || yes.takesAt kind) &&
      (question.anyway kind == some true || no.takesAt kind)
  | .wrap inner _ | .extend inner _ => inner.takesAt kind

end

/-- Whether the suffix takes a token wherever it makes a node before a token of that kind. -/
def Suffix.takesAt (kind : TokenKind) : Suffix → Bool
  | .stop => true
  | .around body => body.takesAt kind
  | .branch question yes no =>
    (question.anyway kind == some false || yes.takesAt kind) &&
      (question.anyway kind == some true || no.takesAt kind)

/-- How deep rules may be nested in a rule before a token is taken, with the rule itself. -/
def Rule.rank : Rule → Nat
  | .type => 1
  | .primary => 2
  | .operand _ => 3
  | .expression => 4
  | .statement => 5

mutual

/-- How deep rules may be nested in the steps before a token is taken, if the next one is of that
kind. -/
def Steps.depthAt (kind : TokenKind) : Steps → Nat
  | .done | .take _ | .refuse _ => 0
  | .seq first rest => max (first.depthAt kind) (if first.takesAt kind then 0 else rest.depthAt kind)
  | .branch question yes no =>
    max (if question.anyway kind = some false then 0 else yes.depthAt kind)
      (if question.anyway kind = some true then 0 else no.depthAt kind)
  | .loop question body => if question.anyway kind = some false then 0 else body.depthAt kind
  | .part phrase => phrase.depthAt kind
  | .enclosed _ inside => inside.depthAt kind

def Body.depthAt (kind : TokenKind) : Body → Nat
  | .close _ => 0
  | .seq first rest => max (first.depthAt kind) (if first.takesAt kind then 0 else rest.depthAt kind)
  | .branch question yes no =>
    max (if question.anyway kind = some false then 0 else yes.depthAt kind)
      (if question.anyway kind = some true then 0 else no.depthAt kind)

def Phrase.depthAt (kind : TokenKind) : Phrase → Nat
  | .refuse _ => 0
  | .node body => body.depthAt kind
  | .branch question yes no =>
    max (if question.anyway kind = some false then 0 else yes.depthAt kind)
      (if question.anyway kind = some true then 0 else no.depthAt kind)
  | .call rule => rule.rank
  | .wrap inner suffix | .extend inner suffix =>
    max (inner.depthAt kind) (if inner.takesAt kind then 0 else suffix.depthAt kind)

def Suffix.depthAt (kind : TokenKind) : Suffix → Nat
  | .stop => 0
  | .around body => body.depthAt kind
  | .branch question yes no =>
    max (if question.anyway kind = some false then 0 else yes.depthAt kind)
      (if question.anyway kind = some true then 0 else no.depthAt kind)

end

def Piece.depthAt (kind : TokenKind) : Piece → Nat
  | .steps piece => piece.depthAt kind
  | .body piece => piece.depthAt kind
  | .phrase piece => piece.depthAt kind
  | .suffix piece | .suffixes piece => piece.depthAt kind

/-- How large a piece is. Several suffixes are larger than one. -/
noncomputable def Piece.size : Piece → Nat
  | .steps piece => 2 * sizeOf piece
  | .body piece => 2 * sizeOf piece
  | .phrase piece => 2 * sizeOf piece
  | .suffix piece => 2 * sizeOf piece
  | .suffixes piece => 2 * sizeOf piece + 1

namespace Grammar

/-- Before a token is taken a rule calls lower ones only. -/
theorem phraseOf_depthAt (rule : Rule) (kind : TokenKind) :
    (phraseOf rule).depthAt kind < rule.rank := by
  have hall : ∀ rule ∈ [Rule.statement, .expression, .operand 0, .primary, .type],
      ∀ kind ∈ TokenKind.all, (phraseOf rule).depthAt kind < rule.rank := by decide +kernel
  cases rule with
  | operand least => exact hall (.operand 0) (by decide) kind kind.mem_all
  | _ => exact hall _ (by decide) kind kind.mem_all

end Grammar

/-! ## Tokens that are taken -/

/-- Tokens have been taken, or the same ones are to come. -/
theorem Sight.Leads.further {allowed : TokenKind → Bool} {s s' : Sight} (h : Leads allowed s s') :
    s'.ahead.length < s.ahead.length ∨ s'.kinds = s.kinds := by
  induction h with
  | here => exact .inr rfl
  | flush _ ih => rwa [ahead_flush, kinds_flush]
  | @advance s' hs _ ih =>
    by_cases hkind : s'.ahead = []
    · have hstays : s'.advance.ahead = s'.ahead := by simp [Sight.advance, hkind]
      rwa [kinds, hstays, ← kinds]
    · have hless : s'.advance.ahead.length < s'.ahead.length := by
        rw [Sight.advance, List.length_tail]
        exact Nat.sub_one_lt (by simpa using hkind)
      exact .inl (Nat.lt_of_lt_of_le hless hs.length_le)
  | refuse _ expected ih => rwa [ahead_refuse, kinds_refuse]

theorem Sight.kind_of_kinds {s s' : Sight} (h : s'.kinds = s.kinds) : s'.kind = s.kind := by
  rw [kind_eq, kind_eq, h]

theorem Sight.length_of_kinds {s s' : Sight} (h : s'.kinds = s.kinds) :
    s'.ahead.length = s.ahead.length := by
  simpa [kinds] using congrArg List.length h

namespace Question

variable {question : Question} {s : Sight} {taken : Bool}

theorem taken_yes (h : question.ask s = true)
    (htaken : (question.anyway s.kind == some false || taken) = true) : taken = true := by
  rcases Bool.or_eq_true _ _ ▸ htaken with hno | htaken
  · rw [ask_anyway (beq_iff_eq.mp hno)] at h
    cases h
  · exact htaken

theorem taken_no (h : question.ask s = false)
    (htaken : (question.anyway s.kind == some true || taken) = true) : taken = true := by
  rcases Bool.or_eq_true _ _ ▸ htaken with hyes | htaken
  · rw [ask_anyway (beq_iff_eq.mp hyes)] at h
    cases h
  · exact htaken

theorem depth_round (h : question.ask s = true) (depth : Nat) :
    depth ≤ if question.anyway s.kind = some false then 0 else depth := by
  have hyes : ¬question.anyway s.kind = some false := fun hno => by
    rw [ask_anyway hno] at h
    cases h
  simp only [if_neg hyes, Nat.le_refl]

theorem depth_yes (h : question.ask s = true) (depth other : Nat) :
    depth ≤ max (if question.anyway s.kind = some false then 0 else depth) other :=
  Nat.le_trans (depth_round h depth) (Nat.le_max_left _ _)

theorem depth_no (h : question.ask s = false) (depth other : Nat) :
    depth ≤ max other (if question.anyway s.kind = some true then 0 else depth) := by
  rw [if_neg fun hyes => by rw [ask_anyway hyes] at h; cases h]
  exact Nat.le_max_right _ _

end Question

section

variable {readings : Readings}

mutual

theorem Steps.read_takes (hrules : ∀ rule s, Sight.Leads (fun _ => true) s (readings rule s).2) :
    ∀ (steps : Steps) (s : Sight), steps.takesAt s.kind = true →
      (steps.read readings s).2.ahead.length < s.ahead.length
  | .take kinds, s, h => by
    rw [Steps.takesAt, Bool.and_eq_true] at h
    rw [Steps.read, Sight.take, Sight.isAtAny, if_pos h.1]
    exact Sight.length_advance (bne_iff_ne.mp h.2)
  | .seq first rest, s, h => by
    rw [Steps.takesAt, Bool.or_eq_true] at h
    have hfirst := first.read_leads hrules s first.takesOnly_all
    have hrest := (rest.read_leads hrules (first.read readings s).2 rest.takesOnly_all).length_le
    rcases h with h | h
    · exact Nat.lt_of_le_of_lt hrest (first.read_takes hrules s h)
    · rcases hfirst.further with hless | hkinds
      · exact Nat.lt_of_le_of_lt hrest hless
      · have hless := rest.read_takes hrules (first.read readings s).2
          (by rwa [Sight.kind_of_kinds hkinds])
        exact Nat.lt_of_lt_of_le hless hfirst.length_le
  | .branch question yes no, s, h => by
    rw [Steps.takesAt, Bool.and_eq_true] at h
    rw [Steps.read]
    split
    · rename_i hquestion
      exact yes.read_takes hrules s (Question.taken_yes hquestion h.1)
    · rename_i hquestion
      exact no.read_takes hrules s (Question.taken_no (eq_false_of_ne_true hquestion) h.2)
  | .part phrase, s, h => phrase.read_takes hrules s h
  | .enclosed what inside, s, h => by
    have hinside := inside.read_takes hrules s h
    rw [Steps.read]
    split
    · exact hinside
    · split
      · refine Nat.lt_of_le_of_lt ?_ hinside
        rw [Sight.advance, List.length_tail]
        exact Nat.sub_le _ _
      · rwa [Sight.ahead_refuse]

theorem Body.read_takes (hrules : ∀ rule s, Sight.Leads (fun _ => true) s (readings rule s).2) :
    ∀ (body : Body) (s : Sight), body.takesAt s.kind = true →
      (body.read readings s).2.ahead.length < s.ahead.length
  | .seq first rest, s, h => by
    rw [Body.takesAt, Bool.or_eq_true] at h
    have hfirst := first.read_leads hrules s first.takesOnly_all
    have hrest := (rest.read_leads hrules (first.read readings s).2 rest.takesOnly_all).length_le
    rcases h with h | h
    · exact Nat.lt_of_le_of_lt hrest (first.read_takes hrules s h)
    · rcases hfirst.further with hless | hkinds
      · exact Nat.lt_of_le_of_lt hrest hless
      · have hless := rest.read_takes hrules (first.read readings s).2
          (by rwa [Sight.kind_of_kinds hkinds])
        exact Nat.lt_of_lt_of_le hless hfirst.length_le
  | .branch question yes no, s, h => by
    rw [Body.takesAt, Bool.and_eq_true] at h
    rw [Body.read]
    split
    · rename_i hquestion
      exact yes.read_takes hrules s (Question.taken_yes hquestion h.1)
    · rename_i hquestion
      exact no.read_takes hrules s (Question.taken_no (eq_false_of_ne_true hquestion) h.2)

theorem Phrase.read_takes (hrules : ∀ rule s, Sight.Leads (fun _ => true) s (readings rule s).2) :
    ∀ (phrase : Phrase) (s : Sight), phrase.takesAt s.kind = true →
      (phrase.read readings s).2.ahead.length < s.ahead.length
  | .node body, s, h => by
    have hbody := body.read_takes hrules s.flush
      (by rwa [Sight.kind_of_kinds s.kinds_flush])
    rwa [Sight.ahead_flush] at hbody
  | .branch question yes no, s, h => by
    rw [Phrase.takesAt, Bool.and_eq_true] at h
    rw [Phrase.read]
    split
    · rename_i hquestion
      exact yes.read_takes hrules s (Question.taken_yes hquestion h.1)
    · rename_i hquestion
      exact no.read_takes hrules s (Question.taken_no (eq_false_of_ne_true hquestion) h.2)
  | .wrap inner suffix, s, h => by
    have hinner := inner.read_takes hrules s h
    rw [Phrase.read]
    split
    · rename_i behind heq
      rwa [heq] at hinner
    · rename_i blanks tree behind heq
      rw [heq] at hinner
      exact Nat.lt_of_le_of_lt
        (suffix.read_leads hrules tree behind suffix.takesOnly_all).length_le hinner
  | .extend inner suffix, s, h => by
    have hinner := inner.read_takes hrules s h
    rw [Phrase.read]
    split
    · rename_i behind heq
      rwa [heq] at hinner
    · rename_i blanks tree behind heq
      rw [heq] at hinner
      have hsuffix := Sight.Leads.wrapWhile
        (fun inner s => suffix.read_leads hrules inner s suffix.takesOnly_all) tree behind
      exact Nat.lt_of_le_of_lt hsuffix.length_le hinner

end

theorem Suffix.read_takes (hrules : ∀ rule s, Sight.Leads (fun _ => true) s (readings rule s).2) :
    ∀ (suffix : Suffix) (inner : Tree) (s : Sight), suffix.takesAt s.kind = true →
      (suffix.read readings inner s).1.isSome = true →
      (suffix.read readings inner s).2.ahead.length < s.ahead.length
  | .stop, _, _, _, h => nomatch h
  | .around body, _, s, hs, _ => body.read_takes hrules s hs
  | .branch question yes no, inner, s, hs, h => by
    rw [Suffix.takesAt, Bool.and_eq_true] at hs
    rw [Suffix.read] at h ⊢
    split at h
    · rename_i hquestion
      rw [if_pos hquestion]
      exact yes.read_takes hrules inner s (Question.taken_yes hquestion hs.1) h
    · rename_i hquestion
      rw [if_neg hquestion]
      exact no.read_takes hrules inner s (Question.taken_no (eq_false_of_ne_true hquestion) hs.2) h

end

/-! ## Nothing is entered twice at one place -/

/-- A token has been taken, or lower rules can be nested in what is read, or as low ones in a smaller
piece. -/
def Closer (start next : Piece × Reader) : Prop :=
  next.2.ahead.length < start.2.ahead.length ∨
    next.2.kinds = start.2.kinds ∧
      (next.1.depthAt start.2.kind < start.1.depthAt start.2.kind ∨
        next.1.depthAt start.2.kind ≤ start.1.depthAt start.2.kind ∧ next.1.size < start.1.size)

namespace Closer

variable {start middle next : Piece × Reader}

theorem trans (h : Closer start middle) (h' : Closer middle next) : Closer start next := by
  rcases h with h | ⟨hkinds, h⟩ <;> rcases h' with h' | ⟨hkinds', h'⟩
  · exact .inl (Nat.lt_trans h' h)
  · exact .inl (by rwa [Sight.length_of_kinds hkinds'])
  · exact .inl (by rwa [Sight.length_of_kinds hkinds] at h')
  · rw [Sight.kind_of_kinds hkinds] at h'
    exact .inr ⟨hkinds'.trans hkinds, by omega⟩

/-- A smaller piece at the same place. -/
theorem here {piece part : Piece} {r : Reader} (hdepth : part.depthAt r.kind ≤ piece.depthAt r.kind)
    (hsize : part.size < piece.size) : Closer (piece, r) (part, r) :=
  .inr ⟨rfl, .inr ⟨hdepth, hsize⟩⟩

/-- A smaller piece behind one that need not take a token. -/
theorem behind {piece part : Piece} {r r' : Reader} {takes : Bool}
    (hfurther : r'.ahead.length < r.ahead.length ∨ r'.kinds = r.kinds)
    (htakes : takes = true → r'.ahead.length < r.ahead.length)
    (hdepth : (if takes = true then 0 else part.depthAt r.kind) ≤ piece.depthAt r.kind)
    (hsize : part.size < piece.size) : Closer (piece, r) (part, r') := by
  cases takes with
  | true => exact .inl (htakes rfl)
  | false =>
    rcases hfurther with hless | hkinds
    · exact .inl hless
    · exact .inr ⟨hkinds, .inr ⟨hdepth, hsize⟩⟩

theorem of_transGen {enters : Piece × Reader → Piece × Reader → Prop}
    (henters : ∀ start next, enters start next → Closer start next) (h : TransGen enters start next) :
    Closer start next := by
  induction h with
  | single h => exact henters _ _ h
  | tail _ h ih => exact ih.trans (henters _ _ h)

theorem wellFounded : WellFounded fun next start => Closer start next := by
  let load : Piece × Reader → Nat × Nat × Nat := fun visit =>
    (visit.2.ahead.length, visit.1.depthAt visit.2.kind, visit.1.size)
  have hload : WellFounded (InvImage (Prod.Lex (· < ·) (Prod.Lex (· < ·) (· < ·))) load) :=
    InvImage.wf load (Nat.lt_wfRel.wf.prod_lex (Nat.lt_wfRel.wf.prod_lex Nat.lt_wfRel.wf))
  refine Subrelation.wf (fun {next start} h => ?_) hload
  rcases h with hless | ⟨hkinds, h⟩
  · exact .left _ _ hless
  · rw [← Sight.kind_of_kinds hkinds] at h
    simp only [InvImage, load, Prod.lex_def, Sight.length_of_kinds hkinds, true_and, Nat.lt_irrefl,
      false_or, ← Sight.kind_of_kinds hkinds]
    omega

end Closer

section

variable {rules : Rules} {readings : Readings}

theorem Steps.run_further (hfinds : ∀ rule r, Reader.Finds r (rules rule r) (readings rule r.toSight))
    (hleads : ∀ rule s, Sight.Leads (fun _ => true) s (readings rule s).2) (steps : Steps) (r : Reader) :
    (steps.run rules r).ahead.length < r.ahead.length ∨ (steps.run rules r).kinds = r.kinds := by
  rw [(steps.run_reads hfinds r).1]
  exact (steps.read_leads hleads r.toSight steps.takesOnly_all).further

theorem Steps.run_takes (hfinds : ∀ rule r, Reader.Finds r (rules rule r) (readings rule r.toSight))
    (hleads : ∀ rule s, Sight.Leads (fun _ => true) s (readings rule s).2) (steps : Steps) (r : Reader)
    (h : steps.takesAt r.kind = true) : (steps.run rules r).ahead.length < r.ahead.length := by
  rw [(steps.run_reads hfinds r).1]
  exact steps.read_takes hleads r.toSight h

theorem Phrase.run_sight (hfinds : ∀ rule r, Reader.Finds r (rules rule r) (readings rule r.toSight))
    (phrase : Phrase) {r : Reader} {answer : Option Beginning × Reader}
    (h : phrase.run rules r = answer) : answer.2.toSight = (phrase.read readings r.toSight).2 := by
  rw [← h]
  exact (Reader.Reads.ofFinds (phrase.run_finds hfinds r)).1

/-- Wherever the node inside begins, a suffix makes a node where it does without events, and sees the same
behind it. -/
theorem Suffix.run_sight (hfinds : ∀ rule r, Reader.Finds r (rules rule r) (readings rule r.toSight)) :
    ∀ (suffix : Suffix) (inner : Beginning) (tree : Tree) (r : Reader),
      (suffix.run rules inner r).1.isSome = (suffix.read readings tree r.toSight).1.isSome ∧
        (suffix.run rules inner r).2.toSight = (suffix.read readings tree r.toSight).2
  | .stop, _, _, _ => ⟨rfl, rfl⟩
  | .around body, inner, _, r => ⟨rfl, (body.run_reads hfinds (r.beginAround inner)).2.1⟩
  | .branch question yes no, inner, tree, r => by
    rw [Suffix.run, Suffix.read]
    split
    · exact yes.run_sight hfinds inner tree r
    · exact no.run_sight hfinds inner tree r

/-- What reading comes to is closer. -/
theorem Enters.closer (hfinds : ∀ rule r, Reader.Finds r (rules rule r) (readings rule r.toSight))
    (hleads : ∀ rule s, Sight.Leads (fun _ => true) s (readings rule s).2) {start next : Piece × Reader}
    (h : Enters rules start next) : Closer start next := by
  cases h with
  | first first rest r => exact .here (Nat.le_max_left _ _) (by simp +arith [Piece.size])
  | rest first rest r =>
    exact .behind (first.run_further hfinds hleads r) (first.run_takes hfinds hleads r)
      (Nat.le_max_right _ _) (by simp +arith [Piece.size])
  | yes yes no h => exact .here (Question.depth_yes h _ _) (by simp +arith [Piece.size])
  | no yes no h => exact .here (Question.depth_no h _ _) (by simp +arith [Piece.size])
  | round body h => exact .here (Question.depth_round h _) (by simp +arith [Piece.size])
  | again _ taken => exact .inl taken
  | part phrase r => exact .here (Nat.le_refl _) (by simp [Piece.size])
  | inside what inside r => exact .here (Nat.le_refl _) (by simp +arith [Piece.size])
  | firstOfBody first rest r => exact .here (Nat.le_max_left _ _) (by simp +arith [Piece.size])
  | restOfBody first rest r =>
    exact .behind (first.run_further hfinds hleads r) (first.run_takes hfinds hleads r)
      (Nat.le_max_right _ _) (by simp +arith [Piece.size])
  | yesOfBody yes no h => exact .here (Question.depth_yes h _ _) (by simp +arith [Piece.size])
  | noOfBody yes no h => exact .here (Question.depth_no h _ _) (by simp +arith [Piece.size])
  | node body r => exact .inr ⟨r.kinds_flush, .inr ⟨Nat.le_refl _, by simp [Piece.size]⟩⟩
  | yesOfPhrase yes no h => exact .here (Question.depth_yes h _ _) (by simp +arith [Piece.size])
  | noOfPhrase yes no h => exact .here (Question.depth_no h _ _) (by simp +arith [Piece.size])
  | call rule r => exact .inr ⟨rfl, .inl (Grammar.phraseOf_depthAt rule r.kind)⟩
  | wrapped inner suffix r => exact .here (Nat.le_max_left _ _) (by simp +arith [Piece.size])
  | @behindWrapped inner suffix r behind place h =>
    have hsight := inner.run_sight hfinds h
    refine .behind ?_ ?_ (Nat.le_max_right _ _) (by simp +arith [Piece.size])
    · rw [hsight]
      exact (inner.read_leads hleads r.toSight inner.takesOnly_all).further
    · rw [hsight]
      exact inner.read_takes hleads r.toSight
  | extended inner suffix r => exact .here (Nat.le_max_left _ _) (by simp +arith [Piece.size])
  | @behindExtended inner suffix r behind place h =>
    have hsight := inner.run_sight hfinds h
    refine .behind ?_ ?_ (Nat.le_max_right _ _) (by simp +arith [Piece.size])
    · rw [hsight]
      exact (inner.read_leads hleads r.toSight inner.takesOnly_all).further
    · rw [hsight]
      exact inner.read_takes hleads r.toSight
  | roundOfSuffixes suffix r => exact .here (Nat.le_refl _) (by simp [Piece.size])
  | againSuffixes _ taken => exact .inl taken
  | around body inner r => exact .inr ⟨rfl, .inr ⟨Nat.le_refl _, by simp [Piece.size]⟩⟩
  | yesOfSuffix yes no h => exact .here (Question.depth_yes h _ _) (by simp +arith [Piece.size])
  | noOfSuffix yes no h => exact .here (Question.depth_no h _ _) (by simp +arith [Piece.size])

/-- A rule comes to another one behind a token, or to a lower one. -/
theorem Enters.lower (hfinds : ∀ rule r, Reader.Finds r (rules rule r) (readings rule r.toSight))
    (hleads : ∀ rule s, Sight.Leads (fun _ => true) s (readings rule s).2) {rule called : Rule}
    {r r' : Reader}
    (h : ReflTransGen (Enters rules) (.phrase (Grammar.phraseOf rule), r) (.phrase (.call called), r')) :
    r'.ahead.length < r.ahead.length ∨ r'.kinds = r.kinds ∧ called.rank < rule.rank := by
  have hdepth := Grammar.phraseOf_depthAt rule r.kind
  rcases reflTransGen_iff_eq_or_transGen.mp h with heq | h
  · obtain ⟨hphrase, rfl⟩ := Prod.mk.inj heq
    rw [← Piece.phrase.inj hphrase] at hdepth
    exact .inr ⟨rfl, hdepth⟩
  · rcases Closer.of_transGen (fun _ _ => Enters.closer hfinds hleads) h with hless | ⟨hkinds, hcloser⟩
    · exact .inl hless
    · simp only [Piece.depthAt, Phrase.depthAt] at hcloser
      exact .inr ⟨hkinds, by omega⟩

end

end RouteTypes
