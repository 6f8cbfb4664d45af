-- What is refused. A text with anything in it that is no token of the language has a misfit, since no piece
-- of the grammar takes such a token. A misfit is noted at the next token, and where it goes back to a brace
-- that is not closed, that brace was the next token once: so a misfit is where the text has a token.
import RouteTypes.Proofs.Grammar.Ending
import RouteTypes.Proofs.Token.Broken

namespace RouteTypes

open Text RouteTypes.Tree

/-! ## What misfits may name -/

/-- Whether what was expected names no place of the text. -/
def Expected.isPlain : Expected → Bool
  | .closingBrace _ _ => false
  | _ => true

mutual

/-- Whether the steps refuse nothing by a place that is written into them. -/
def Steps.refusesPlainly : Steps → Bool
  | .done | .take _ => true
  | .refuse expected => expected.isPlain
  | .seq first rest => first.refusesPlainly && rest.refusesPlainly
  | .branch _ yes no => yes.refusesPlainly && no.refusesPlainly
  | .loop _ body => body.refusesPlainly
  | .part phrase => phrase.refusesPlainly
  | .enclosed _ inside => inside.refusesPlainly

def Body.refusesPlainly : Body → Bool
  | .close _ => true
  | .seq first rest => first.refusesPlainly && rest.refusesPlainly
  | .branch _ yes no => yes.refusesPlainly && no.refusesPlainly

def Phrase.refusesPlainly : Phrase → Bool
  | .refuse expected => expected.isPlain
  | .call _ => true
  | .node body => body.refusesPlainly
  | .branch _ yes no => yes.refusesPlainly && no.refusesPlainly
  | .wrap inner suffix | .extend inner suffix => inner.refusesPlainly && suffix.refusesPlainly

def Suffix.refusesPlainly : Suffix → Bool
  | .stop => true
  | .around body => body.refusesPlainly
  | .branch _ yes no => yes.refusesPlainly && no.refusesPlainly

end

/-! ## What reading keeps -/

namespace Sight

/-- A property of what is to come that no step of the reading ends, as long as the end of the text is not
taken. -/
structure Kept (good : Sight → Prop) : Prop where
  flush {s : Sight} (h : good s) : good s.flush
  advance {s : Sight} (h : good s) (hnext : s.kind ≠ .eof) : good s.advance
  refuse {s : Sight} {expected : Expected} (h : good s) (hplain : expected.isPlain = true) :
    good (s.refuse expected)
  /-- The brace that was not closed was the next token once. -/
  unclosed {s s' : Sight} (what : Enclosure) (h : good s) (h' : good s') :
    good (s'.refuse (.closingBrace what s.span))

namespace Kept

variable {good : Sight → Prop}

theorem take (hkept : Kept good) {kinds : List TokenKind} (hkinds : kinds.all (· != .eof) = true) {s : Sight}
    (h : good s) : good (s.take kinds).2 := by
  unfold Sight.take
  split
  · rename_i hnext
    have hkind := List.all_eq_true.mp hkinds _ (List.contains_iff_mem.mp hnext)
    exact hkept.advance h (bne_iff_ne.mp hkind)
  · exact hkept.refuse h rfl

theorem collectWhile {question : Sight → Bool} {step : Sight → List Tree × Sight}
    (hstep : ∀ s, question s = true → good s → good (step s).2) (s : Sight) (h : good s) :
    good (s.collectWhile question step).2 := by
  rw [Sight.collectWhile]
  split
  · rename_i hquestion
    dsimp only
    split
    · exact collectWhile hstep (step s).2 (hstep s hquestion h)
    · exact hstep s hquestion h
  · exact h
termination_by s.ahead.length

theorem wrapWhile {step : Tree → Sight → Option Tree × Sight}
    (hstep : ∀ inner s, good s → good (step inner s).2) (inner : Tree) (s : Sight) (h : good s) :
    good (s.wrapWhile step inner).2 := by
  have hone := hstep inner s h
  rw [Sight.wrapWhile]
  split
  · rename_i behind heq
    rw [heq] at hone
    exact hone
  · rename_i outer behind heq
    rw [heq] at hone
    split
    · exact wrapWhile hstep outer behind hone
    · exact hone
termination_by s.ahead.length

end Kept

end Sight

section

variable {readings : Readings} {good : Sight → Prop}

mutual

theorem Steps.read_keeps (hkept : Sight.Kept good) (hrules : ∀ rule s, good s → good (readings rule s).2) :
    ∀ (steps : Steps) (s : Sight), steps.takesOnly (· != .eof) = true → steps.refusesPlainly = true →
      good s → good (steps.read readings s).2
  | .done, s, _, _, h => h
  | .take kinds, s, htakes, _, h => hkept.take htakes h
  | .refuse expected, s, _, hplain, h => hkept.refuse h hplain
  | .seq first rest, s, htakes, hplain, h => by
    rw [Steps.takesOnly, Bool.and_eq_true] at htakes
    rw [Steps.refusesPlainly, Bool.and_eq_true] at hplain
    exact rest.read_keeps hkept hrules _ htakes.2 hplain.2 (first.read_keeps hkept hrules s htakes.1 hplain.1 h)
  | .branch question yes no, s, htakes, hplain, h => by
    rw [Steps.takesOnly, Bool.and_eq_true] at htakes
    rw [Steps.refusesPlainly, Bool.and_eq_true] at hplain
    rw [Steps.read]
    split
    · exact yes.read_keeps hkept hrules s htakes.1 hplain.1 h
    · exact no.read_keeps hkept hrules s htakes.2 hplain.2 h
  | .loop question body, s, htakes, hplain, h =>
    Sight.Kept.collectWhile (fun s _ => body.read_keeps hkept hrules s htakes hplain) s h
  | .part phrase, s, htakes, hplain, h => phrase.read_keeps hkept hrules s htakes hplain h
  | .enclosed what inside, s, htakes, hplain, h => by
    rw [Steps.takesOnly, Bool.and_eq_true] at htakes
    have hinside := inside.read_keeps hkept hrules s htakes.1 hplain h
    rw [Steps.read]
    split
    · exact hinside
    · split
      · rename_i hbrace
        exact hkept.advance hinside (by rw [beq_iff_eq.mp hbrace]; decide)
      · exact hkept.unclosed what h hinside

theorem Body.read_keeps (hkept : Sight.Kept good) (hrules : ∀ rule s, good s → good (readings rule s).2) :
    ∀ (body : Body) (s : Sight), body.takesOnly (· != .eof) = true → body.refusesPlainly = true →
      good s → good (body.read readings s).2
  | .close kind, s, _, _, h => h
  | .seq first rest, s, htakes, hplain, h => by
    rw [Body.takesOnly, Bool.and_eq_true] at htakes
    rw [Body.refusesPlainly, Bool.and_eq_true] at hplain
    exact rest.read_keeps hkept hrules _ htakes.2 hplain.2 (first.read_keeps hkept hrules s htakes.1 hplain.1 h)
  | .branch question yes no, s, htakes, hplain, h => by
    rw [Body.takesOnly, Bool.and_eq_true] at htakes
    rw [Body.refusesPlainly, Bool.and_eq_true] at hplain
    rw [Body.read]
    split
    · exact yes.read_keeps hkept hrules s htakes.1 hplain.1 h
    · exact no.read_keeps hkept hrules s htakes.2 hplain.2 h

theorem Phrase.read_keeps (hkept : Sight.Kept good) (hrules : ∀ rule s, good s → good (readings rule s).2) :
    ∀ (phrase : Phrase) (s : Sight), phrase.takesOnly (· != .eof) = true → phrase.refusesPlainly = true →
      good s → good (phrase.read readings s).2
  | .refuse expected, s, _, hplain, h => hkept.refuse h hplain
  | .node body, s, htakes, hplain, h => body.read_keeps hkept hrules s.flush htakes hplain (hkept.flush h)
  | .branch question yes no, s, htakes, hplain, h => by
    rw [Phrase.takesOnly, Bool.and_eq_true] at htakes
    rw [Phrase.refusesPlainly, Bool.and_eq_true] at hplain
    rw [Phrase.read]
    split
    · exact yes.read_keeps hkept hrules s htakes.1 hplain.1 h
    · exact no.read_keeps hkept hrules s htakes.2 hplain.2 h
  | .call rule, s, _, _, h => hrules rule s h
  | .wrap inner suffix, s, htakes, hplain, h => by
    rw [Phrase.takesOnly, Bool.and_eq_true] at htakes
    rw [Phrase.refusesPlainly, Bool.and_eq_true] at hplain
    have hinner := inner.read_keeps hkept hrules s htakes.1 hplain.1 h
    rw [Phrase.read]
    split
    · rename_i behind heq
      rw [heq] at hinner
      exact hinner
    · rename_i blanks tree behind heq
      rw [heq] at hinner
      exact suffix.read_keeps hkept hrules tree behind htakes.2 hplain.2 hinner
  | .extend inner suffix, s, htakes, hplain, h => by
    rw [Phrase.takesOnly, Bool.and_eq_true] at htakes
    rw [Phrase.refusesPlainly, Bool.and_eq_true] at hplain
    have hinner := inner.read_keeps hkept hrules s htakes.1 hplain.1 h
    rw [Phrase.read]
    split
    · rename_i behind heq
      rw [heq] at hinner
      exact hinner
    · rename_i blanks tree behind heq
      rw [heq] at hinner
      exact Sight.Kept.wrapWhile
        (fun inner s => suffix.read_keeps hkept hrules inner s htakes.2 hplain.2) tree behind hinner

theorem Suffix.read_keeps (hkept : Sight.Kept good) (hrules : ∀ rule s, good s → good (readings rule s).2) :
    ∀ (suffix : Suffix) (inner : Tree) (s : Sight), suffix.takesOnly (· != .eof) = true →
      suffix.refusesPlainly = true → good s → good (suffix.read readings inner s).2
  | .stop, inner, s, _, _, h => h
  | .around body, inner, s, htakes, hplain, h => body.read_keeps hkept hrules s htakes hplain h
  | .branch question yes no, inner, s, htakes, hplain, h => by
    rw [Suffix.takesOnly, Bool.and_eq_true] at htakes
    rw [Suffix.refusesPlainly, Bool.and_eq_true] at hplain
    rw [Suffix.read]
    split
    · exact yes.read_keeps hkept hrules inner s htakes.1 hplain.1 h
    · exact no.read_keeps hkept hrules inner s htakes.2 hplain.2 h

end

end

namespace Grammar

theorem phraseOf_refusesPlainly (rule : Rule) : (phraseOf rule).refusesPlainly = true := by
  cases rule <;> rfl

section

variable {good : Sight → Prop}

theorem readingsUpTo_keeps (hkept : Sight.Kept good) (depth : Nat) (rule : Rule) (s : Sight) (h : good s) :
    good (readingsUpTo depth rule s).2 := by
  induction depth generalizing rule s with
  | zero => exact hkept.refuse h rfl
  | succ depth ih =>
    exact (phraseOf rule).read_keeps hkept ih s (phraseOf_takesOnly rule) (phraseOf_refusesPlainly rule) h

/-- What was not read is swept up token by token, but not the end of the text. -/
theorem unread_keeps (hkept : Sight.Kept good) (readings : Readings) (s : Sight) (h : good s) :
    good (unread.read readings s).2 := by
  rw [unread, Steps.given, Steps.read]
  split
  · refine Sight.Kept.collectWhile (fun s hquestion hs => ?_) s.flush (hkept.flush h)
    have hkind : s.kind ≠ .eof := by simpa [Question.ask, Sight.isAtAny] using hquestion
    have hany : s.isAtAny TokenKind.all = true := List.contains_iff_mem.mpr (TokenKind.mem_all _)
    rw [Steps.read, Sight.take, if_pos hany]
    exact hkept.advance hs hkind
  · exact h

/-- What reading keeps holds behind the statements of a program if it holds of the whole text. -/
theorem statementsOf_keeps (hkept : Sight.Kept good) {tokens : List Token} (h : good (.ofTokens tokens)) :
    good (statementsOf tokens).2 :=
  unread_keeps hkept _ _ (statementRow.read_keeps hkept (readingsUpTo_keeps hkept _) _ rfl rfl (hkept.flush h))

end

end Grammar

/-! ## Places of misfits -/

namespace Token

/-- Whether the span is that of a token of the text which is neither blank nor comment. -/
def Stands (source : String) (span : Span) : Prop :=
  ∃ placed ∈ placeAll 0 (ofSource source), placed.token.isTrivia = false ∧ placed.span = span

end Token

theorem Lexeme.group_span (start : Nat) (leading : List Token)
    (hleading : ∀ blank ∈ leading, blank.isTrivia = true) (tokens : List Token) :
    ∀ lexeme ∈ group start leading hleading tokens, ∃ placed ∈ Token.placeAll start tokens,
      placed.token.isTrivia = false ∧ placed.span = lexeme.span := by
  induction tokens generalizing start leading with
  | nil =>
    intro lexeme hlexeme
    cases hlexeme
  | cons token rest ih =>
    intro lexeme hlexeme
    have hbehind : ∀ placed ∈ Token.placeAll (start + token.size) rest,
        placed ∈ Token.placeAll start (token :: rest) := fun _ => List.mem_cons_of_mem _
    rw [group] at hlexeme
    split at hlexeme
    · obtain ⟨placed, hplaced, hspan⟩ := ih _ _ _ lexeme hlexeme
      exact ⟨placed, hbehind placed hplaced, hspan⟩
    · rename_i hsolid
      rcases List.mem_cons.mp hlexeme with rfl | hlexeme
      · exact ⟨_, List.mem_cons_self, eq_false_of_ne_true hsolid, rfl⟩
      · obtain ⟨placed, hplaced, hspan⟩ := ih _ _ _ lexeme hlexeme
        exact ⟨placed, hbehind placed hplaced, hspan⟩

namespace Sight

/-- The end of the text is to come, and all tokens to come and all misfits are at such places. -/
structure Marked (place : Span → Prop) (s : Sight) : Prop where
  eof : .eof ∈ s.kinds
  ahead : ∀ lexeme ∈ s.ahead, place lexeme.span
  misfits : ∀ misfit ∈ s.misfits, place misfit.span ∧ ∀ note ∈ misfit.related, place note.2

namespace Marked

variable {place : Span → Prop} {s s' : Sight}

/-- There is a next token, so its place is one. -/
theorem span (h : Marked place s) : place s.span := by
  obtain ⟨ahead, misfits⟩ := s
  cases ahead with
  | nil => cases h.eof
  | cons next rest => exact h.ahead next List.mem_cons_self

theorem refuse {expected : Expected} (h : Marked place s)
    (hrelated : ∀ note ∈ (Misfit.mk expected s.span).related, place note.2) :
    Marked place (s.refuse expected) := by
  refine ⟨by rw [kinds_refuse]; exact h.eof, by rw [ahead_refuse]; exact h.ahead, ?_⟩
  unfold Sight.refuse
  split
  · exact h.misfits
  · intro misfit hmisfit
    rcases List.mem_append.mp hmisfit with hmisfit | hmisfit
    · exact h.misfits misfit hmisfit
    · rw [List.mem_singleton.mp hmisfit]
      exact ⟨h.span, hrelated⟩

theorem kept : Kept (Marked place) where
  flush {s} h := by
    refine ⟨by rw [kinds_flush]; exact h.eof, ?_, h.misfits⟩
    obtain ⟨ahead, misfits⟩ := s
    cases ahead with
    | nil => exact h.ahead
    | cons next rest =>
      intro lexeme hlexeme
      rcases List.mem_cons.mp hlexeme with rfl | hlexeme
      · exact h.ahead next List.mem_cons_self
      · exact h.ahead lexeme (List.mem_cons_of_mem _ hlexeme)
  advance {s} h hnext := by
    obtain ⟨ahead, misfits⟩ := s
    cases ahead with
    | nil => exact h
    | cons next rest =>
      refine ⟨?_, fun lexeme hlexeme => h.ahead lexeme (List.mem_cons_of_mem _ hlexeme), h.misfits⟩
      exact (List.mem_cons.mp h.eof).resolve_left fun heof => hnext heof.symm
  refuse {s expected} h hplain := by
    refine h.refuse fun note hnote => ?_
    cases expected <;> first | exact absurd hplain Bool.false_ne_true | cases hnote
  unclosed {s s'} what h h' := by
    refine h'.refuse fun note hnote => ?_
    obtain rfl : (what.opened, s.span) = note := Option.some_inj.mp hnote
    exact h.span

end Marked

end Sight

/-- Wherever something in a text does not fit there is a token, and at the place that explains it too. -/
theorem Program.misfits_stand (source : String) : ∀ misfit ∈ (Program.ofSource source).misfits,
    Token.Stands source misfit.span ∧ ∀ note ∈ misfit.related, Token.Stands source note.2 := by
  obtain ⟨before, htokens, hbefore⟩ := Token.ofSource_ends source
  have hstart : Sight.Marked (Token.Stands source) (.ofTokens (Token.ofSource source)) := by
    refine ⟨?_, Lexeme.group_span 0 [] _ (Token.ofSource source), fun misfit hmisfit => by cases hmisfit⟩
    rw [Sight.kinds_ofTokens, htokens]
    simp [Token.isTrivia, TokenKind.isTrivia]
  rw [ofSource_eq, Grammar.parts_ending htokens rfl hbefore]
  exact (Grammar.statementsOf_keeps Sight.Marked.kept hstart).misfits

/-! ## Texts with more than tokens -/

namespace Tree

theorem mem_kindsOf {kind : Kind} {trees : List Tree} :
    kind ∈ kindsOf trees ↔ ∃ tree ∈ trees, kind ∈ tree.kinds := by
  induction trees with
  | nil => simp [kindsOf]
  | cons tree trees ih => simp [kindsOf, ih]

mutual

theorem mem_kinds_of_token {token : Token} : ∀ tree : Tree, token ∈ tree.tokens → .token token.kind ∈ tree.kinds
  | .leaf _, h => by
    rw [List.mem_singleton.mp h]
    exact List.mem_singleton_self _
  | .node _ children, h => List.mem_cons_of_mem _ (mem_kindsOf_of_token children h)

theorem mem_kindsOf_of_token {token : Token} :
    ∀ trees : List Tree, token ∈ tokensOf trees → .token token.kind ∈ kindsOf trees
  | [], h => by cases h
  | tree :: rest, h => by
    rw [kindsOf, List.mem_append]
    exact (List.mem_append.mp h).imp tree.mem_kinds_of_token (mem_kindsOf_of_token rest)

end

/-- All that is in a tree has a property if the grammar gives nothing else. -/
theorem Sound.all_kinds {forms : List NodeForm} {ok : Kind → Bool}
    (hforms : forms.all (·.allIn ok) = true) (hblank : ∀ kind : Kind, kind.isTrivia = true → ok kind = true)
    {tree : Tree} (h : tree.Sound forms) (hkind : ok tree.kind = true) : ∀ kind ∈ tree.kinds, ok kind = true := by
  induction h with
  | leaf token =>
    intro kind hmem
    rw [List.mem_singleton.mp hmem]
    exact hkind
  | @node own children form hform hrow _ _ ih =>
    intro kind hmem
    rcases List.mem_cons.mp hmem with rfl | hmem
    · exact hkind
    · obtain ⟨child, hchild, hmem⟩ := mem_kindsOf.mp hmem
      refine ih child hchild ?_ kind hmem
      cases htrivia : child.isTrivia with
      | true => exact hblank child.kind htrivia
      | false =>
        refine NodeForm.all_of_row (List.all_eq_true.mp hforms form hform) hrow child.kind ?_
        exact List.mem_map_of_mem (List.mem_filter.mpr ⟨hchild, by rw [htrivia]; rfl⟩)

end Tree

namespace Grammar

/-- Neither a token that is none of the language nor a node with what was not read. -/
def isSound (kind : Kind) : Bool := kind != .token .error && kind != .node .errorNode

theorem forms_isSound : forms.all (·.allIn isSound) = true := by
  decide +kernel

theorem isSound_of_isTrivia (kind : Kind) (h : kind.isTrivia = true) : isSound kind = true := by
  cases kind with
  | token kind => cases kind <;> first | rfl | cases h
  | node | tombstone => cases h

end Grammar

/-- In a program without misfits every token is one of the language, and no part of the text was given up.
The other tokens are the strings and comments that are not closed and the characters that start nothing, so a
text with one of these anywhere in it is refused. A misfit is where the text has a token, at its end at the
latest, and so is the brace that a misfit goes back to. -/
theorem broken_texts_are_refused (source : String) :
    ((Program.ofSource source).isOk = true → .node .errorNode ∉ (Program.ofSource source).tree.kinds ∧
      .token .error ∉ (Program.ofSource source).tree.kinds) ∧
    (∀ token ∈ Token.ofSource source, token.kind = .error ↔ Token.Broken token.text.toList) ∧
    ((∃ token ∈ Token.ofSource source, Token.Broken token.text.toList) →
      (Program.ofSource source).isOk = false) ∧
    ∀ misfit ∈ (Program.ofSource source).misfits,
      Token.Stands source misfit.span ∧ ∀ note ∈ misfit.related, Token.Stands source note.2 := by
  have hsound (hread : (Program.ofSource source).isOk = true) :
      ∀ kind ∈ (Program.ofSource source).tree.kinds, Grammar.isSound kind = true := by
    refine (program_sound hread).all_kinds Grammar.forms_isSound Grammar.isSound_of_isTrivia ?_
    rw [Program.ofSource_eq]
    rfl
  refine ⟨fun hread => ⟨fun hmem => ?_, fun hmem => ?_⟩, fun token => Token.kind_eq_error_iff,
    fun ⟨token, htoken, hbroken⟩ => ?_, Program.misfits_stand source⟩
  · cases hsound hread _ hmem
  · cases hsound hread _ hmem
  · rw [← Token.kind_eq_error_iff htoken] at hbroken
    rw [← Program.tokens_tree] at htoken
    have hmem := Tree.mem_kinds_of_token _ htoken
    rw [hbroken] at hmem
    exact eq_false_of_ne_true fun hread => by cases hsound hread _ hmem

/-- A string that the text does not close. -/
theorem unclosed_string_is_refused :
    ⟨.error, "\"me"⟩ ∈ Token.ofSource "const name = \"me" ∧ Token.Broken ['"', 'm', 'e'] ∧
      (Program.ofSource "const name = \"me").isOk = false := by
  have hmem : ⟨.error, "\"me"⟩ ∈ Token.ofSource "const name = \"me" := by decide +kernel
  have hbroken : Token.Broken ['"', 'm', 'e'] := .string (by decide) (by decide)
  obtain ⟨-, -, hrefused, -⟩ := broken_texts_are_refused "const name = \"me"
  exact ⟨hmem, hbroken, hrefused ⟨_, hmem, hbroken⟩⟩

end RouteTypes
