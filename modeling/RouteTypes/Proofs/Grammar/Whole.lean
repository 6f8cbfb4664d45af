-- What reading a whole text leaves, whatever the text: balanced events, one tree with every token in it,
-- and one misfit at most.
import RouteTypes.Proofs.Grammar.Losslessness
import RouteTypes.Proofs.Token.Tiling

namespace RouteTypes

open RouteTypes.Tree

/-! ## Lexemes -/

namespace Lexeme

theorem group_tokens (start : Nat) (leading : List Token)
    (hleading : ∀ blank ∈ leading, blank.isTrivia = true) (before : List Token) (last : Token)
    (hlast : last.isTrivia = false) :
    (group start leading hleading (before ++ [last])).flatMap Lexeme.tokens =
      leading ++ (before ++ [last]) := by
  induction before generalizing start leading with
  | nil => simp [group, hlast, Lexeme.tokens]
  | cons token rest ih =>
    rw [List.cons_append, group]
    split
    · rw [ih]
      simp
    · rw [List.flatMap_cons, ih]
      simp [Lexeme.tokens]

theorem group_solid (start : Nat) (leading : List Token)
    (hleading : ∀ blank ∈ leading, blank.isTrivia = true) (tokens : List Token) :
    (group start leading hleading tokens).map (·.token) = tokens.filter (!·.isTrivia) := by
  induction tokens generalizing start leading with
  | nil => rfl
  | cons token rest ih =>
    rw [group]
    split
    · rename_i htrivia
      rw [ih, List.filter_cons, htrivia]
      rfl
    · rename_i hsolid
      rw [List.map_cons, ih, List.filter_cons, eq_false_of_ne_true hsolid]
      rfl

end Lexeme

namespace Sight

/-- The kinds to come are those of the tokens that are neither blanks nor comments. -/
theorem kinds_ofTokens (tokens : List Token) :
    (ofTokens tokens).kinds = (tokens.filter (!·.isTrivia)).map (·.kind) := by
  rw [← Lexeme.group_solid 0 [] (by intro blank hblank; cases hblank), List.map_map]
  rfl

/-- The tokens to come are all of them, if the last one is the end of the text. -/
theorem tokens_ofTokens {tokens before : List Token} {last : Token}
    (htokens : tokens = before ++ [last]) (hlast : last.kind = .eof) :
    (ofTokens tokens).tokens = tokens := by
  have hsolid : last.isTrivia = false := by rw [Token.isTrivia, hlast]; rfl
  rw [htokens]
  exact Lexeme.group_tokens 0 [] _ before last hsolid

/-- At the end of a text that is still to come, the tokens to come are blanks and comments and the end
of the text. -/
theorem next_eof {s : Sight} {before : List Token} {last : Token} (hkind : s.kind = .eof)
    (hmem : TokenKind.eof ∈ s.kinds) (hbefore : ∀ token ∈ before, token.kind ≠ .eof)
    (taken : List Token) (htokens : before ++ [last] = taken ++ s.tokens) :
    s.next = s.leading ++ [last] ∧ s.advance.tokens = [] := by
  obtain ⟨ahead, misfits⟩ := s
  cases ahead with
  | nil => cases hmem
  | cons next rest =>
    have hnext : next.token.kind = .eof := hkind
    have hrest : rest.flatMap Lexeme.tokens = [] := by
      rcases List.eq_nil_or_concat (rest.flatMap Lexeme.tokens) with h | ⟨front, final, h⟩
      · exact h
      · exfalso
        have hsplit : before ++ [last] = (taken ++ next.leading ++ next.token :: front) ++ [final] := by
          rw [htokens, Sight.tokens, List.flatMap_cons, h]
          simp [Lexeme.tokens]
        have hmem := (List.append_inj' hsplit rfl).1
        exact hbefore next.token (by rw [hmem]; simp) hnext
    refine ⟨?_, hrest⟩
    have hsplit : before ++ [last] = (taken ++ next.leading) ++ [next.token] := by
      rw [htokens, Sight.tokens, List.flatMap_cons, hrest]
      simp [Lexeme.tokens]
    have hlast := (List.append_inj' hsplit rfl).2
    rw [List.singleton_inj.mp hlast]
    rfl

end Sight

/-! ## The parts of a program -/

namespace Grammar

theorem eof_kept_by_any {s : Sight} (hkind : s.kind ≠ .eof) (h : TokenKind.eof ∈ s.kinds) :
    TokenKind.eof ∈ (s.take TokenKind.all).2.kinds ∧
      (s.take TokenKind.all).2.ahead.length < s.ahead.length := by
  have hany : s.isAtAny TokenKind.all = true := List.contains_iff_mem.mpr (TokenKind.mem_all _)
  rw [Sight.take, if_pos hany]
  obtain ⟨ahead, misfits⟩ := s
  cases ahead with
  | nil => cases h
  | cons next rest =>
    refine ⟨?_, Nat.lt_succ_self _⟩
    rcases List.mem_cons.mp h with hnext | hrest
    · exact absurd hnext.symm hkind
    · exact hrest

theorem sweep_ends (s : Sight) (h : TokenKind.eof ∈ s.kinds) :
    (s.collectWhile (Question.ask (.not (.next [.eof]))) (·.take TokenKind.all)).2.kind = .eof ∧
      TokenKind.eof ∈
        (s.collectWhile (Question.ask (.not (.next [.eof]))) (·.take TokenKind.all)).2.kinds := by
  rw [Sight.collectWhile]
  split
  · rename_i hquestion
    have hkind : s.kind ≠ .eof := by
      simpa [Question.ask, Sight.isAtAny] using hquestion
    obtain ⟨hmem, hless⟩ := eof_kept_by_any hkind h
    dsimp only
    rw [if_pos hless]
    exact sweep_ends _ hmem
  · rename_i hquestion
    exact ⟨by simpa [Question.ask, Sight.isAtAny] using hquestion, h⟩
termination_by s.ahead.length

/-- What was not read is swept up to the end of the text. -/
theorem unread_ends (readings : Readings) (s : Sight) (h : TokenKind.eof ∈ s.kinds) :
    (unread.read readings s).2.kind = .eof ∧ TokenKind.eof ∈ (unread.read readings s).2.kinds := by
  rw [unread, Steps.given, Steps.read]
  split
  · exact sweep_ends s.flush (by rwa [Sight.kinds_flush])
  · rename_i hquestion
    rw [Steps.read]
    exact ⟨by simpa [Question.ask, Sight.isAtAny] using hquestion, h⟩

/-- The statements of a program end where the end of the text is next. -/
theorem statements_end (depth : Nat) (s : Sight) (h : TokenKind.eof ∈ s.kinds) :
    ∃ children, (statements.read (readingsUpTo depth) s).1 =
        s.leading.map .leaf ++ [.node .stmtList children] ∧
      (statements.read (readingsUpTo depth) s).2.kind = .eof ∧
      TokenKind.eof ∈ (statements.read (readingsUpTo depth) s).2.kinds := by
  let loop := (Steps.loop (.inside []) (.call .statement)).read (readingsUpTo depth) s.flush
  have hleads : Sight.Leads (· != .eof) s.flush loop.2 :=
    .collectWhile (fun s => readingsUpTo_leads phraseOf_takesOnly depth .statement s) _
  have hmem : TokenKind.eof ∈ loop.2.kinds := hleads.mem_kinds rfl (by rwa [Sight.kinds_flush])
  exact ⟨_, rfl, unread_ends (readingsUpTo depth) loop.2 hmem⟩

/-- The statements of a program, and what is to come behind them. -/
def statementsOf (tokens : List Token) : List Tree × Sight :=
  let start := Sight.ofTokens tokens
  statements.read (readingsUpTo (depthFor start.ahead.length)) start

/-- A program is its statements and one token more. -/
theorem parts_eq (tokens : List Token) :
    parts tokens = ((statementsOf tokens).1 ++ ((statementsOf tokens).2.take [.eof]).1,
      ((statementsOf tokens).2.take [.eof]).2) := by
  show ((statementsOf tokens).1 ++ (((statementsOf tokens).2.take [.eof]).1 ++ []) ++ [], _) = _
  rw [List.append_nil, List.append_nil]
  rfl

/-- Behind the statements of a program there are blanks and comments, and the end of the text. -/
theorem statementsOf_end {tokens before : List Token} {last : Token} (htokens : tokens = before ++ [last])
    (hlast : last.kind = .eof) (hbefore : ∀ token ∈ before, token.kind ≠ .eof) :
    (∃ children, (statementsOf tokens).1 =
        (Sight.ofTokens tokens).leading.map .leaf ++ [.node .stmtList children]) ∧
      (statementsOf tokens).2.kind = .eof ∧
      (statementsOf tokens).2.next = (statementsOf tokens).2.leading ++ [last] ∧
      (statementsOf tokens).2.advance.tokens = [] := by
  have hsolid : last.isTrivia = false := by rw [Token.isTrivia, hlast]; rfl
  let start := Sight.ofTokens tokens
  have hstart : start.tokens = before ++ [last] :=
    (Sight.tokens_ofTokens htokens hlast).trans htokens
  have hmem : TokenKind.eof ∈ start.kinds := by
    rw [Sight.kinds_ofTokens, htokens, ← hlast]
    simp [hsolid]
  obtain ⟨children, htrees, hkind, hkept⟩ := statements_end (depthFor start.ahead.length) start hmem
  have htaken : before ++ [last] = tokensOf (statementsOf tokens).1 ++ (statementsOf tokens).2.tokens := by
    rw [← hstart]
    exact statements.read_tokens (readingsUpTo_tokens _) start
  exact ⟨⟨children, htrees⟩, hkind, Sight.next_eof hkind hkept hbefore _ htaken⟩

/-- A program is what was read as its statements, and the end of the text. -/
theorem parts_ending {tokens before : List Token} {last : Token} (htokens : tokens = before ++ [last])
    (hlast : last.kind = .eof) (hbefore : ∀ token ∈ before, token.kind ≠ .eof) :
    parts tokens = ((statementsOf tokens).1 ++ ((statementsOf tokens).2.leading ++ [last]).map .leaf,
      (statementsOf tokens).2.advance) := by
  obtain ⟨-, hkind, hnext, -⟩ := statementsOf_end htokens hlast hbefore
  have hat : (statementsOf tokens).2.isAtAny [.eof] = true := by rw [Sight.isAtAny, hkind]; rfl
  rw [parts_eq, Sight.take, if_pos hat, hnext]

/-- A program is its statements between blanks and comments, and the end of the text. -/
theorem parts_of_program {tokens before : List Token} {last : Token}
    (htokens : tokens = before ++ [last]) (hlast : last.kind = .eof)
    (hbefore : ∀ token ∈ before, token.kind ≠ .eof) :
    ∃ (blanks : List Token) (children : List Tree) (more : List Token), (parts tokens).1 = blanks.map .leaf ++
        .node .stmtList children :: (more.map .leaf ++ [.leaf last]) ∧
      (∀ blank ∈ blanks ++ more, blank.isTrivia = true) ∧ (parts tokens).2.tokens = [] := by
  obtain ⟨⟨children, htrees⟩, -, -, hnothing⟩ := statementsOf_end htokens hlast hbefore
  rw [parts_ending htokens hlast hbefore, htrees]
  refine ⟨(Sight.ofTokens tokens).leading, children, (statementsOf tokens).2.leading, by simp, ?_, hnothing⟩
  intro blank hblank
  rcases List.mem_append.mp hblank with h | h
  · exact Sight.leading_trivia _ blank h
  · exact Sight.leading_trivia _ blank h

/-- The parts of a program hold the tokens that are not to come any more. -/
theorem parts_tokens {tokens before : List Token} {last : Token} (htokens : tokens = before ++ [last])
    (hlast : last.kind = .eof) : tokens = tokensOf (parts tokens).1 ++ (parts tokens).2.tokens := by
  have hstart := Sight.tokens_ofTokens htokens hlast
  exact hstart.symm.trans (program.read_tokens (readingsUpTo_tokens _) _)

theorem parts_keep {tokens before : List Token} {last : Token} (htokens : tokens = before ++ [last])
    (hlast : last.kind = .eof) (hbefore : ∀ token ∈ before, token.kind ≠ .eof) :
    tokens = tokensOf (parts tokens).1 := by
  obtain ⟨_, _, _, -, -, hnothing⟩ := parts_of_program htokens hlast hbefore
  have htaken := parts_tokens htokens hlast
  rwa [hnothing, List.append_nil] at htaken

/-- The misfits behind a program: one at most. -/
theorem parts_misfits (tokens : List Token) : (parts tokens).2.misfits.length ≤ 1 := by
  have hleads : Sight.Leads (fun _ => true) (.ofTokens tokens) (parts tokens).2 :=
    program.read_leads (readingsUpTo_leads (fun rule => (phraseOf rule).takesOnly_all) _) _
      program.takesOnly_all
  exact hleads.misfits (Nat.zero_le 1)

/-- The reader at the end of a program has left the tower of one node with the parts of the program. -/
theorem readAll_stands (tokens : List Token) :
    (readAll tokens).toSight = (parts tokens).2 ∧
      Reader.Stands [] (readAll tokens) ⟨0⟩ (.node .sourceFile (parts tokens).1) := by
  let start := Reader.ofTokens tokens
  obtain ⟨hkind, hreads⟩ :=
    program.run_reads (rulesUpTo_finds (depthFor start.ahead.length)) start.begin
  exact ⟨hreads.1, Reader.Stands.begin _ rfl hreads⟩

end Grammar

/-! ## Whole texts -/

namespace Event

/-- Whether an event that begins a node says of which kind it is. -/
def isNamed : Event → Bool
  | .begins none _ => false
  | _ => true

mutual

theorem Spells.isNamed {place : Nat} {events : List Event} {trees : List Tree} :
    Spells place events trees → ∀ event ∈ events, event.isNamed = true
  | .nil => by simp
  | .takes rest => by simpa [Event.isNamed] using rest.isNamed
  | .tower first rest => by
    intro event hevent
    rw [← List.cons_append] at hevent
    rcases List.mem_append.mp hevent with h | h
    · exact first.isNamed event h
    · exact rest.isNamed event h

theorem Tower.isNamed {place outermost : Nat} {kind : NodeKind} {link : Option Nat}
    {tail : List Event} {inner : List Tree} {tree : Tree} :
    Tower place kind link tail inner outermost tree →
      ∀ event ∈ .begins (some kind) link :: tail, event.isNamed = true
  | .last body => by
    intro event hevent
    simp only [List.mem_cons, List.mem_append, List.not_mem_nil, or_false] at hevent
    rcases hevent with rfl | h | rfl
    · rfl
    · exact body.isNamed event h
    · rfl
  | .more body around => by
    intro event hevent
    rw [List.mem_cons, List.mem_append, List.mem_cons] at hevent
    rcases hevent with rfl | h | rfl | h
    · rfl
    · exact body.isNamed event h
    · rfl
    · exact around.isNamed event h

end

end Event

namespace Tree

mutual

/-- The kinds of the tree and of all that is in it. -/
def kinds : Tree → List Kind
  | .leaf token => [.token token.kind]
  | .node kind children => .node kind :: kindsOf children

def kindsOf : List Tree → List Kind
  | [] => []
  | tree :: rest => kinds tree ++ kindsOf rest

end

mutual

theorem tombstone_notMem_kinds : ∀ tree : Tree, Kind.tombstone ∉ tree.kinds
  | .leaf token => by simp [kinds]
  | .node kind children => by simpa [kinds] using tombstone_notMem_kindsOf children

theorem tombstone_notMem_kindsOf : ∀ trees : List Tree, Kind.tombstone ∉ kindsOf trees
  | [] => by simp [kindsOf]
  | tree :: rest => by
    simp [kindsOf, tombstone_notMem_kinds tree, tombstone_notMem_kindsOf rest]

end

end Tree

namespace Program

/-- The events that a text leaves make one tree with the parts of the program in it. -/
theorem build_events (source : String) :
    Event.build (Grammar.readAll (Token.ofSource source)).events (Token.ofSource source) =
      some (.node .sourceFile (Grammar.parts (Token.ofSource source)).1) := by
  obtain ⟨before, htokens, hbefore⟩ := Token.ofSource_ends source
  obtain ⟨-, kind, link, tail, hevents, htower⟩ := Grammar.readAll_stands (Token.ofSource source)
  have hbuild := htower.build
  rw [Tree.tokens, ← Grammar.parts_keep htokens rfl hbefore] at hbuild
  have harray : (Grammar.readAll (Token.ofSource source)).events =
      (.begins (some kind) link :: tail).toArray := by
    rw [List.nil_append] at hevents
    rw [← hevents]
  rw [harray, hbuild]

theorem ofSource_eq (source : String) :
    Program.ofSource source =
      ⟨.node .sourceFile (Grammar.parts (Token.ofSource source)).1,
        (Grammar.parts (Token.ofSource source)).2.misfits⟩ := by
  rw [Program.ofSource, Program.ofTokens, build_events, (Grammar.readAll_stands _).1]
  rfl

theorem tokens_tree (source : String) : (Program.ofSource source).tree.tokens = Token.ofSource source := by
  obtain ⟨before, htokens, hbefore⟩ := Token.ofSource_ends source
  rw [ofSource_eq, Tree.tokens, ← Grammar.parts_keep htokens rfl hbefore]

theorem root_part (source : String) :
    (Program.ofSource source).root.part = (Program.ofSource source).tree.place 0 := by
  rw [Program.root, ofSource_eq]
  rfl

end Program

/-- Whatever the text, the events that its reading leaves are balanced and make one tree: the statements
between blanks and comments, and the end of the text. The tree has every token of the text in it, each
once and in order, so its text is the text; no node of it was given up, and one misfit is noted at
most. -/
theorem reading_keeps_the_whole_text (source : String) :
    Event.Balanced (Grammar.readAll (Token.ofSource source)).events.toList ∧
      (∀ event ∈ (Grammar.readAll (Token.ofSource source)).events.toList, event.isNamed = true) ∧
      Event.build (Grammar.readAll (Token.ofSource source)).events (Token.ofSource source) =
        some (Program.ofSource source).tree ∧
      (∃ (blanks : List Token) (statements : List Tree) (more : List Token),
        (Program.ofSource source).tree = .node .sourceFile (blanks.map .leaf ++
          .node .stmtList statements :: (more.map .leaf ++ [.leaf ⟨.eof, ""⟩])) ∧
        ∀ blank ∈ blanks ++ more, blank.isTrivia = true) ∧
      (Program.ofSource source).tree.tokens = Token.ofSource source ∧
      Kind.tombstone ∉ (Program.ofSource source).tree.kinds ∧
      (Program.ofSource source).misfits.length ≤ 1 ∧
      (Program.ofSource source).tree.text = source := by
  obtain ⟨before, htokens, hbefore⟩ := Token.ofSource_ends source
  obtain ⟨blanks, statements, more, hparts, htrivia, -⟩ :=
    Grammar.parts_of_program htokens rfl hbefore
  have hall := Program.tokens_tree source
  have hprogram := Program.ofSource_eq source
  obtain ⟨-, kind, link, tail, hevents, htower⟩ := Grammar.readAll_stands (Token.ofSource source)
  rw [List.nil_append] at hevents
  refine ⟨?_, ?_, ?_, ⟨blanks, statements, more, ?_, htrivia⟩, hall, tombstone_notMem_kinds _, ?_, ?_⟩
  · rw [hevents]
    simpa [Event.Balanced, Event.depthBehind] using htower.depthBehind 0 []
  · rw [hevents]
    exact htower.isNamed
  · rw [Program.build_events, hprogram]
  · rw [hprogram, hparts]
  · rw [hprogram]
    exact Grammar.parts_misfits _
  · rw [Tree.text, hall, Token.join_ofSource]

end RouteTypes
