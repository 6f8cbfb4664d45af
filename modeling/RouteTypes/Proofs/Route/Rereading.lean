-- Reading a program that has grown. Every piece of the grammar that read something reads the same again
-- where objects have been put in as last arguments: it puts out what has grown of what it put out, and
-- leaves what is to come behind it. There is one law for each construction of the grammar.
import RouteTypes.Proofs.Grammar.Yielding
import RouteTypes.Proofs.Route.TypeArguments

namespace RouteTypes

open RouteTypes.Tree RouteTypes.Route

/-! ## What is to come -/

/-- The next token that is neither blank nor comment, if there is one, with everything behind it. -/
theorem Sight.exists_shown {s : Sight} (hfits : s.misfits = []) (h : s.kind ≠ .eof) : ∃ token rest,
    s.Shows (s.leading ++ token :: rest) ∧ token.isTrivia = false ∧ token.kind = s.kind := by
  obtain ⟨token, rest, htokens, hsolid, hkind⟩ := Sight.exists_next h
  exact ⟨token, rest, ⟨hfits, htokens⟩, hsolid, hkind⟩

/-- A token that fitted was taken with the blanks and comments before it. -/
theorem Sight.take_fits {kinds : List TokenKind} {s : Sight} (hkinds : kinds.all (· != .eof) = true)
    (hfits : (s.take kinds).2.misfits = []) : ∃ token, s.Shows (s.leading ++ token :: s.advance.tokens) ∧
      token.isTrivia = false ∧ token.kind = s.kind ∧ s.kind ∈ kinds ∧
      s.take kinds = ((s.leading ++ [token]).map .leaf, s.advance) := by
  rw [Sight.take] at hfits ⊢
  split at hfits
  · rename_i hat
    have hkind := List.contains_iff_mem.mp hat
    obtain ⟨token, rest, hshows, hsolid, hsame⟩ :=
      @Sight.exists_shown s hfits (bne_iff_ne.mp (List.all_eq_true.mp hkinds _ hkind))
    obtain ⟨-, -, hnext, hadvance, -⟩ := hshows.next s.leading_trivia hsolid
    rw [if_pos hat, hnext, hadvance.tokens]
    exact ⟨token, hshows, hsolid, hsame, hkind, rfl⟩
  · exact absurd hfits (s.misfits_refuse _)

/-- Behind the blanks and comments before it, what is to come opens with the next token. -/
theorem Sight.opening_flush {s : Sight} (h : Token.solidKinds s.flush.tokens ≠ []) :
    ∃ token, Token.opening s.flush.tokens = ([], some token) := by
  rw [Sight.opening_tokens]
  obtain ⟨ahead, misfits⟩ := s
  cases ahead with
  | nil => exact absurd rfl h
  | cons next rest => exact ⟨next.token, rfl⟩

namespace Route

variable {config : Config}

/-- The tokens behind what has been read, without and with objects put in. The first one is the same, or
it is the comma before an object, at an end that is safe. -/
def Meets (safe : Bool) (tokens tokens' : List Token) : Prop :=
  TokenKind.Widened (Token.solidKinds tokens) (Token.solidKinds tokens') ∧
    (Token.opening tokens' = Token.opening tokens ∨
      safe = true ∧ (Token.solidKinds tokens).head? = some .rParen ∧
        (Token.solidKinds tokens').head? = some .comma)

namespace Meets

variable {safe safe' : Bool} {tokens tokens' : List Token}

theorem mono (h : Meets safe tokens tokens') (hsafe : safe = true → safe' = true) :
    Meets safe' tokens tokens' :=
  ⟨h.1, h.2.imp_right fun h => ⟨hsafe h.1, h.2⟩⟩

/-- What has been read together with what stands behind it. -/
theorem before {trees trees' : List Tree} (h : Meets safe tokens tokens')
    (hgrown : GrownAll config trees trees')
    (hsome : trees = [] ∨ Token.solidKinds (tokensOf trees) ≠ [])
    (hsafe : trees = [] → safe = true → safe' = true) :
    Meets safe' (tokensOf trees ++ tokens) (tokensOf trees' ++ tokens') := by
  obtain ⟨hwider, hopening⟩ := h
  refine ⟨?_, ?_⟩
  · rw [Token.solidKinds_append, Token.solidKinds_append]
    exact hgrown.widened hwider
  · rcases hsome with rfl | hsome
    · cases hgrown
      exact hopening.imp_right fun h => ⟨hsafe rfl h.1, h.2⟩
    · exact .inl (hgrown.opening (.inr hsome))

/-- The next token and what stands behind it. -/
theorem token {s : Sight} {token : Token} (h : Meets safe s.advance.tokens tokens')
    (hshows : s.Shows (s.leading ++ token :: s.advance.tokens)) (hsolid : token.isTrivia = false) :
    Meets false s.tokens (s.leading ++ token :: tokens') := by
  have hcut : ∀ rest, Token.solidKinds (s.leading ++ token :: rest) = token.kind :: Token.solidKinds rest := by
    intro rest
    rw [Token.solidKinds_append, Token.solidKinds_trivia s.leading_trivia, Token.solidKinds_cons, hsolid]
    rfl
  rw [hshows.tokens]
  refine ⟨?_, .inl ?_⟩
  · rw [hcut, hcut]
    exact h.1.keep token.kind
  · rw [Token.opening_append _ s.leading_trivia hsolid, Token.opening_append _ s.leading_trivia hsolid]

/-- The next token is of the same kind, or an object stands before a closing parenthesis. -/
theorem kind_iff {s : Sight} {kind : TokenKind} (h : Meets safe s.tokens tokens') (heof : kind ≠ .eof)
    (hparen : kind ≠ .rParen) (hcomma : kind ≠ .comma) {s' : Sight} (hs : s'.Shows tokens') :
    s'.kind = kind ↔ s.kind = kind := by
  have hhead : ∀ s : Sight, s.kind = kind ↔ s.kinds.head? = some kind := by
    intro s
    rw [Sight.kind_eq, List.headD_eq_head?_getD]
    cases s.kinds.head? with
    | none => exact ⟨fun h => absurd h.symm heof, fun h => nomatch h⟩
    | some own => exact Option.some_inj.symm
  have hwider := h.1
  rw [← hs.tokens, Sight.solidKinds_tokens, Sight.solidKinds_tokens] at hwider
  rw [hhead, hhead]
  exact hwider.head_iff hparen hcomma

/-- A question that does not change its answer for what is to come. -/
theorem answers {question : Question} {s : Sight} (h : Meets safe s.tokens tokens')
    (hfits : s.misfits = []) (hsteady : question.steady true = true)
    (hidle : safe = true → question.idle = true) : question.Answers tokens' (question.ask s) := by
  intro s' hs
  obtain ⟨hwider, hopening | ⟨hsafe, hparen, hcomma⟩⟩ := h
  · rw [← hs.tokens] at hwider hopening
    rw [Sight.solidKinds_tokens, Sight.solidKinds_tokens] at hwider
    exact Question.ask_steady ⟨hwider, hopening, hfits, hs.fits⟩ hsteady Bool.noConfusion
  · have hidle := hidle hsafe
    rw [Question.idle, Bool.and_eq_true, beq_iff_eq] at hidle
    obtain ⟨answer, hanswer⟩ := Option.isSome_iff_exists.mp hidle.1
    rw [← hs.tokens] at hcomma
    rw [Sight.solidKinds_tokens] at hparen hcomma
    have hkind : s.kind = .rParen := by rw [Sight.kind_eq, List.headD_eq_head?_getD, hparen]; rfl
    have hkind' : s'.kind = .comma := by rw [Sight.kind_eq, List.headD_eq_head?_getD, hcomma]; rfl
    rw [Question.ask_at hfits (hkind ▸ hanswer), Question.ask_at hs.fits (hkind' ▸ (hidle.2.trans hanswer))]

/-- At anything but a closing parenthesis the next token stays. -/
theorem beside {s s' : Sight} (h : Meets safe s.tokens tokens') (hfits : s.misfits = [])
    (hkind : s.kind ≠ .rParen) (hs : s'.Shows tokens') : s.Beside s' := by
  obtain ⟨hwider, hopening | ⟨-, hparen, -⟩⟩ := h
  · rw [← hs.tokens] at hwider hopening
    rw [Sight.solidKinds_tokens, Sight.solidKinds_tokens] at hwider
    exact ⟨hwider, hopening, hfits, hs.fits⟩
  · rw [Sight.solidKinds_tokens] at hparen
    refine absurd ?_ hkind
    rw [Sight.kind_eq, List.headD_eq_head?_getD, hparen]
    rfl

/-- What compared is not taken for type arguments. -/
theorem compares {s : Sight} (h : Meets safe s.tokens tokens') (hno : s.isAtCallTypeArgs = false) :
    Question.callTypeArgs.Answers tokens' false := by
  intro s' hs
  have hwider := h.1
  rw [← hs.tokens, Sight.solidKinds_tokens, Sight.solidKinds_tokens] at hwider
  rw [Question.ask, Bool.eq_false_iff]
  intro hyes
  rw [Sight.isAtCallTypeArgs, Bool.and_eq_true, beq_iff_eq,
    h.kind_iff (by decide) (by decide) (by decide) hs] at hyes
  rw [Sight.isAtCallTypeArgs, hyes.1, hwider.callBehindTypeArgs 0 hyes.2] at hno
  cases hno

end Meets

/-- What has grown means something if and only if it did. -/
theorem GrownAll.solid {trees trees' : List Tree} (h : GrownAll config trees trees')
    (hsolid : Token.solidKinds (tokensOf trees) ≠ []) : Token.solidKinds (tokensOf trees') ≠ [] := by
  intro hnone
  have hwider := h.widened .nil
  rw [hnone, List.append_nil, List.append_nil] at hwider
  cases hkinds : Token.solidKinds (tokensOf trees) with
  | nil => exact hsolid hkinds
  | cons kind rest =>
    rw [hkinds] at hwider
    cases hwider

end Route

/-! ## Reading again -/

section

variable (config : Config) (readings readings' : Readings) (safe : Bool)

/-- Where the steps fitted, they read again what has grown of what they put out. -/
def Steps.Again (steps : Steps) : Prop :=
  ∀ (s : Sight) (outs : List Tree) (rest' : List Token), (steps.read readings s).2.misfits = [] →
    GrownAll config (steps.read readings s).1 outs → Meets safe (steps.read readings s).2.tokens rest' →
    Yields (steps.read readings') (tokensOf outs ++ rest') outs rest'

/-- The node is of the same kind again. -/
def Body.Again (body : Body) : Prop :=
  ∀ (s : Sight) (outs : List Tree) (rest' : List Token), (body.read readings s).2.misfits = [] →
    GrownAll config (body.read readings s).1.2 outs → Meets safe (body.read readings s).2.tokens rest' →
    Yields (body.read readings') (tokensOf outs ++ rest') ((body.read readings s).1.1, outs) rest'

def Phrase.Again (phrase : Phrase) : Prop :=
  ∀ (s : Sight) (blanks : List Token) (tree tree' : Tree) (rest' : List Token),
    (phrase.read readings s).2.misfits = [] → (phrase.read readings s).1 = some (blanks, tree) →
    Grown config tree tree' → Meets safe (phrase.read readings s).2.tokens rest' →
    Yields (phrase.read readings') (blanks ++ (tree'.tokens ++ rest')) (some (blanks, tree')) rest'

/-- A suffix stops again where it stopped, around any node, and where it went on it makes again what has
grown of the node that it made. -/
structure Suffix.Again (suffix : Suffix) : Prop where
  stops : ∀ (inner : Tree) (s : Sight), (suffix.read readings inner s).2.misfits = [] →
    (suffix.read readings inner s).1 = none → (suffix.read readings inner s).2 = s ∧
      ∀ (inner' : Tree) (rest' : List Token), Meets safe s.tokens rest' →
        Yields (suffix.read readings' inner') rest' none rest'
  goesOn : ∀ (inner outer : Tree) (s : Sight), (suffix.read readings inner s).2.misfits = [] →
    (suffix.read readings inner s).1 = some outer →
    ∃ kind parts, outer = .node kind (inner :: parts) ∧ kind ≠ .argList ∧
      Token.solidKinds (tokensOf parts) ≠ [] ∧
      ∀ (inner' : Tree) (parts' : List Tree) (rest' : List Token), GrownAll config parts parts' →
        Meets safe (suffix.read readings inner s).2.tokens rest' →
        Yields (suffix.read readings' inner') (tokensOf parts' ++ rest')
          (some (.node kind (inner' :: parts'))) rest'

end

section

variable {config : Config} {readings readings' : Readings} {safe before : Bool}

/-! ## Steps -/

/-- Steps that have to take a token put out something. -/
theorem Steps.read_ne_nil (h : readings.Orderly) {steps : Steps} (hsteady : steps.steady = true)
    (hsome : steps.takesSome = true) {s : Sight} (hfits : (steps.read readings s).2.misfits = []) :
    (steps.read readings s).1 ≠ [] := by
  intro hnil
  have hsolid := solid_of_goneOn (steps.read_tokens h.tokens s)
    (steps.read_goesOn h.leads h.goesOn s (steps.takesOnly_of_steady hsteady) hsome) hfits
  rw [hnil] at hsolid
  exact hsolid rfl

/-- What is to come before the steps, with what they read. -/
theorem Steps.meets (h : readings.Orderly) {steps : Steps} (hsteady : steps.steady = true) {s : Sight}
    {outs : List Tree} {rest' : List Token} (hfits : (steps.read readings s).2.misfits = [])
    (hgrown : GrownAll config (steps.read readings s).1 outs)
    (hmeets : Meets safe (steps.read readings s).2.tokens rest')
    (hbefore : safe = true → steps.takesSome = true ∨ before = true) :
    Meets before s.tokens (tokensOf outs ++ rest') := by
  rw [steps.read_tokens h.tokens s]
  refine hmeets.before hgrown (steps.read_solid h s hsteady hfits) fun hnil hsafe => ?_
  rcases hbefore hsafe with hsome | hbefore
  · exact absurd hnil (Steps.read_ne_nil h hsteady hsome hfits)
  · exact hbefore

/-- What is repeated and has to take a token has ended where it put out nothing. -/
theorem Steps.loop_nil (h : readings.Orderly) {question : Question} {body : Steps}
    (hsteady : body.steady = true) (hsome : body.takesSome = true) {s : Sight}
    (hfits : ((Steps.loop question body).read readings s).2.misfits = [])
    (hnil : ((Steps.loop question body).read readings s).1 = []) :
    ((Steps.loop question body).read readings s).2 = s := by
  rw [Steps.read, Sight.collectWhile] at hfits hnil ⊢
  split
  · rename_i hask
    rw [if_pos hask] at hfits hnil
    dsimp only at hfits hnil
    split at hfits
    · rename_i hless
      rw [if_pos hless] at hnil
      have hone := (Steps.loop question body).fits_before h hfits
      exact absurd (List.append_eq_nil_iff.mp hnil).1 (Steps.read_ne_nil h hsteady hsome hone)
    · rename_i hless
      rw [if_neg hless] at hnil
      exact absurd hnil (Steps.read_ne_nil h hsteady hsome hfits)
  · rfl

namespace Steps.Again

theorem done : Steps.done.Again config readings readings' safe := by
  intro s outs rest' _ hgrown _
  cases hgrown
  exact .done

theorem refuse (expected : Expected) : (Steps.refuse expected).Again config readings readings' safe :=
  fun s _ _ hfits _ _ => absurd hfits (s.misfits_refuse expected)

theorem take {kinds : List TokenKind} (hkinds : kinds.all (· != .eof) = true) :
    (Steps.take kinds).Again config readings readings' safe := by
  intro s outs rest' hfits hgrown _
  obtain ⟨token, -, hsolid, hsame, hkind, htake⟩ := Sight.take_fits hkinds hfits
  rw [Steps.read, htake] at hgrown
  rw [hgrown.leaves, tokensOf_leaves, List.append_assoc]
  exact .take s.leading_trivia hsolid (hsame ▸ hkind)

theorem seq {first rest : Steps} (h : readings.Orderly) (hsteady : rest.steady = true)
    (hfirst : first.Again config readings readings' before)
    (hrest : rest.Again config readings readings' safe)
    (hbefore : safe = true → rest.takesSome = true ∨ before = true) :
    (Steps.seq first rest).Again config readings readings' safe := by
  intro s outs rest' hfits hgrown hmeets
  obtain ⟨one, other, rfl, hone, hother⟩ := GrownAll.split hgrown
  have hmiddle := Steps.meets h hsteady hfits hother hmeets hbefore
  rw [tokensOf_append, List.append_assoc]
  exact (hfirst s one _ (rest.fits_before h hfits) hone hmiddle).seq (hrest _ other rest' hfits hother hmeets)

/-- A branch reads again if its question is answered as before. -/
theorem branchOf {question : Question} {yes no : Steps}
    (hyes : yes.Again config readings readings' safe) (hno : no.Again config readings readings' safe)
    (hask : ∀ (s : Sight) (outs : List Tree) (rest' : List Token),
      ((Steps.branch question yes no).read readings s).2.misfits = [] →
      GrownAll config ((Steps.branch question yes no).read readings s).1 outs →
      Meets safe ((Steps.branch question yes no).read readings s).2.tokens rest' →
      question.Answers (tokensOf outs ++ rest') (question.ask s)) :
    (Steps.branch question yes no).Again config readings readings' safe := by
  intro s outs rest' hfits hgrown hmeets
  refine .branch (hask s outs rest' hfits hgrown hmeets) ?_
  rw [Steps.read] at hfits hgrown hmeets
  cases hanswer : question.ask s with
  | true =>
    rw [hanswer] at hfits hgrown hmeets
    exact hyes s outs rest' hfits hgrown hmeets
  | false =>
    rw [hanswer] at hfits hgrown hmeets
    exact hno s outs rest' hfits hgrown hmeets

theorem branch {question : Question} {yes no : Steps} (h : readings.Orderly)
    (hquestion : question.steady true = true) (hsteady : yes.steady = true ∧ no.steady = true)
    (hyes : yes.Again config readings readings' safe) (hno : no.Again config readings readings' safe)
    (hidle : safe = true → (yes.takesSome && no.takesSome) = true ∨ question.idle = true) :
    (Steps.branch question yes no).Again config readings readings' safe := by
  refine branchOf hyes hno fun s outs rest' hfits hgrown hmeets => ?_
  have hbranch : (Steps.branch question yes no).steady = true := by
    rw [Steps.steady, hquestion, hsteady.1, hsteady.2]
    rfl
  have hbefore : Meets question.idle s.tokens (tokensOf outs ++ rest') :=
    Steps.meets h hbranch hfits hgrown hmeets hidle
  exact hbefore.answers ((Steps.branch question yes no).fits_before h hfits) hquestion id

theorem loop {question : Question} {body : Steps} (h : readings.Orderly)
    (hquestion : question.steady true = true) (hsteady : body.steady = true)
    (hbody : body.Again config readings readings' safe) (hidle : safe = true → question.idle = true) :
    (Steps.loop question body).Again config readings readings' safe := by
  intro s outs rest' hfits hgrown hmeets
  have hloop : (Steps.loop question body).steady = true := by
    rw [Steps.steady, hquestion, hsteady]
    rfl
  have hfirst := (Steps.loop question body).fits_before h hfits
  have hbefore : Meets safe s.tokens (tokensOf outs ++ rest') :=
    Steps.meets h hloop hfits hgrown hmeets Or.inr
  have hanswer := hbefore.answers hfirst hquestion hidle
  rw [Steps.read, Sight.collectWhile] at hfits hgrown hmeets
  cases hask : question.ask s with
  | false =>
    rw [hask] at hgrown hanswer
    cases hgrown
    exact .loopEnd hanswer
  | true =>
    rw [hask] at hanswer
    rw [if_pos hask] at hfits hgrown hmeets
    dsimp only at hfits hgrown hmeets
    split at hfits
    · rename_i hless
      rw [if_pos hless] at hgrown hmeets
      obtain ⟨one, other, rfl, hone, hother⟩ := hgrown.split
      have hagain := loop h hquestion hsteady hbody hidle (body.read readings s).2 other rest' hfits hother hmeets
      have hmiddle : Meets safe (body.read readings s).2.tokens (tokensOf other ++ rest') :=
        Steps.meets h hloop hfits hother hmeets Or.inr
      have hbodyFits := (Steps.loop question body).fits_before h hfits
      have hsolid := hone.solid
        (solid_of_goneOn (body.read_tokens h.tokens s) (.inr hless) hbodyFits)
      rw [tokensOf_append, List.append_assoc] at hanswer ⊢
      exact .loopNext hanswer (hbody s one _ hbodyFits hone hmiddle) (Token.solidKinds_length_lt _ hsolid)
        hagain
    · -- What takes no token puts out nothing.
      rename_i hless
      rw [if_neg hless] at hgrown hmeets
      have hnil : (body.read readings s).1 = [] := by
        refine (body.read_solid h s hsteady hfits).resolve_right fun hsolid => hless ?_
        rw [Sight.length_eq, Sight.length_eq, body.read_tokens h.tokens s]
        exact Token.solidKinds_length_lt _ hsolid
      have hagain := hbody s outs rest' hfits hgrown hmeets
      rw [hnil] at hgrown
      cases hgrown
      exact .loopLast hanswer hagain (Nat.le_refl _)
termination_by s => s.ahead.length

theorem part {phrase : Phrase} (h : readings.Orderly)
    (hphrase : phrase.Again config readings readings' safe) :
    (Steps.part phrase).Again config readings readings' safe := by
  intro s outs rest' hfits hgrown hmeets
  obtain ⟨blanks, tree, hfound⟩ := phrase.read_found h s hfits
  rw [Steps.read] at hgrown
  simp only [hfound] at hgrown
  obtain ⟨leaves, trees, rfl, hleaves, htrees⟩ := hgrown.split
  cases htrees with
  | @cons _ tree' _ _ first others =>
    cases others
    obtain rfl := hleaves.leaves
    have hagain := hphrase s blanks tree tree' rest' hfits hfound first hmeets
    have htokens : tokensOf (blanks.map .leaf ++ [tree']) ++ rest' = blanks ++ (tree'.tokens ++ rest') := by
      rw [tokensOf_append, tokensOf_leaves, tokensOf, tokensOf, List.append_nil, List.append_assoc]
    rw [htokens]
    exact hagain.part

/-- Behind what stands inside there is a brace, so it does not matter what is behind that. -/
theorem enclosed {what : Enclosure} {inside : Steps}
    (hinside : inside.Again config readings readings' false) :
    (Steps.enclosed what inside).Again config readings readings' safe := by
  intro s outs rest' hfits hgrown hmeets
  rw [Steps.read] at hfits hgrown hmeets
  generalize hone : inside.read readings s = one at hfits hgrown hmeets
  obtain ⟨trees, t⟩ := one
  dsimp only at hfits hgrown hmeets
  split at hfits
  · rename_i hmisfit
    have hnone : t.misfits = [] := hfits
    simp [Sight.hasMisfit, hnone] at hmisfit
  · rename_i hmisfit
    rw [if_neg hmisfit] at hgrown hmeets
    split at hfits
    · rename_i hbrace
      rw [if_pos hbrace] at hgrown hmeets
      obtain ⟨token, rest, hshows, hsolid, hkind⟩ := @Sight.exists_shown t hfits (by
        rw [beq_iff_eq.mp hbrace]
        decide)
      obtain ⟨-, -, hnext, hadvance, -⟩ := hshows.next t.leading_trivia hsolid
      rw [← hadvance.tokens] at hshows
      rw [hnext] at hgrown
      obtain ⟨before, behind, rfl, hbefore, hbehind⟩ := hgrown.split
      have hagain := hinside s before (t.leading ++ token :: rest')
      rw [hone] at hagain
      have hyields := hagain hfits hbefore (hmeets.token hshows hsolid)
      rw [hbehind.leaves, tokensOf_append, tokensOf_leaves, List.append_assoc, List.append_assoc]
      exact hyields.enclosed t.leading_trivia (hkind.trans (beq_iff_eq.mp hbrace))
    · exact absurd hfits (t.misfits_refuse _)

end Steps.Again

/-! ## Questions that are not steady by themselves -/

theorem Body.read_ofSteps (readings : Readings) (kind : NodeKind) (steps : List Steps) (s : Sight) :
    (Body.ofSteps kind steps).read readings s =
      ((kind, ((Steps.all steps).read readings s).1), ((Steps.all steps).read readings s).2) := by
  simp [Body.ofSteps, Body.read]

namespace Grammar

theorem typeArgList_read (readings : Readings) (s : Sight) : ∃ children,
    (typeArgList.read readings s).1 = s.leading.map .leaf ++ [.node .typeArgList children] := by
  rw [typeArgList, Steps.emit, Steps.read, Phrase.nodeOf, Phrase.read, Body.read_ofSteps]
  exact ⟨_, rfl⟩

theorem typeArgList_forms : typeArgList.forms ⊆ forms := by
  have hmem : typeArgList.forms ⊆ (phraseOf .type).forms := by decide +kernel
  exact fun form hform => phraseOf_forms .type (hmem hform)

/-- Type arguments that were told by what stands behind them are told again. -/
theorem typeArgList_told (h : readings.Orderly) {s : Sight} {outs : List Tree} {rest' : List Token}
    (hfits : (typeArgList.read readings s).2.misfits = []) (hask : s.isAtCallTypeArgs = true)
    (hgrown : GrownAll config (typeArgList.read readings s).1 outs)
    (hmeets : Meets safe (typeArgList.read readings s).2.tokens rest') :
    Question.callTypeArgs.Answers (tokensOf outs ++ rest') true := by
  have hbefore : Meets false s.tokens (tokensOf outs ++ rest') :=
    Steps.meets h (by decide) hfits hgrown hmeets fun _ => .inl rfl
  obtain ⟨children, hread⟩ := typeArgList_read readings s
  have hsound := (typeArgList.read_fitting h.fit s (by decide) typeArgList_forms hfits).sound
    (.node .typeArgList children) (by rw [hread]; simp)
  have hkinds : ∀ rest, Token.solidKinds
      (tokensOf (s.leading.map .leaf ++ [.node .typeArgList children]) ++ rest) =
        Token.solidKinds (Tree.node .typeArgList children).tokens ++ Token.solidKinds rest := by
    intro rest
    rw [tokensOf_append, tokensOf_leaves, Token.solidKinds_append, Token.solidKinds_append,
      Token.solidKinds_trivia s.leading_trivia, tokensOf, tokensOf, List.append_nil, List.nil_append]
  rw [Sight.isAtCallTypeArgs, Bool.and_eq_true, beq_iff_eq, ← Sight.solidKinds_tokens,
    typeArgList.read_tokens h.tokens s, hread, hkinds] at hask
  obtain ⟨hstill, hparen, hagain⟩ := @typeArgs_again config _ _ hsound hask.2
  rw [hread] at hgrown
  obtain ⟨leaves, trees, rfl, hleaves, htrees⟩ := hgrown.split
  cases htrees with
  | @cons _ tree' _ _ first others =>
    cases others
    obtain rfl := hleaves.leaves
    obtain rfl := hstill tree' first
    intro s' hs
    have hkind : s'.kind = .lt :=
      (hbefore.kind_iff (by decide) (by decide) (by decide) hs).mpr hask.1
    rw [Question.ask, Sight.isAtCallTypeArgs, hkind, ← Sight.solidKinds_tokens, hs.tokens, hkinds,
      hagain _ ((hmeets.1.head_iff (by decide) (by decide)).mpr hparen)]
    rfl

/-- Behind the name of a property with a value stands a colon. -/
theorem colon_of_propertyAssignment (h : readings.Orderly) {s : Sight}
    (hfits : (propertyAssignment.read readings s).2.misfits = []) (hkind : s.kind = .ident) :
    s.kindAt 1 = .colon := by
  have hsame : ∀ s : Sight, s.flush.kind = s.kind ∧ s.flush.advance.kind = s.kindAt 1 := by
    rintro ⟨_ | ⟨first, _ | ⟨second, rest⟩⟩, misfits⟩ <;> exact ⟨rfl, rfl⟩
  have hname : (propertyName.read readings s.flush).2 = s.flush.flush.advance := by
    have hnext : (Question.next keyTokens).ask s.flush = true := by
      rw [Question.ask, Sight.isAtAny, (hsame s).1, hkind]
      decide
    have htake : s.flush.flush.isAtAny keyTokens = true := by
      rw [Sight.isAtAny, (hsame s.flush).1, (hsame s).1, hkind]
      decide
    rw [propertyName, Steps.read, if_pos hnext, Steps.emit, Steps.read, Phrase.nodeOf, Phrase.read,
      Body.read_ofSteps]
    simp only [Steps.all, Steps.read, Sight.take, htake, if_true]
  have hcolon : ((Steps.expect .colon).read readings (propertyName.read readings s.flush).2).2.misfits = [] := by
    rw [propertyAssignment, Steps.emit, Steps.read, Phrase.nodeOf, Phrase.read, Body.read_ofSteps] at hfits
    exact Steps.fits_before h _ hfits
  rw [hname, Steps.expect, Steps.read, Sight.take] at hcolon
  split at hcolon
  · rename_i hat
    have hone : s.flush.flush.advance.kind = .colon :=
      List.mem_singleton.mp (List.contains_iff_mem.mp hat)
    have htwo : s.flush.kindAt 1 = s.kindAt 1 := by
      obtain ⟨_ | ⟨first, rest⟩, misfits⟩ := s <;> rfl
    rw [← htwo, ← (hsame s.flush).2, hone]
  · exact absurd hcolon (Sight.misfits_refuse _ _)

end Grammar

namespace Steps.Again

open RouteTypes.Grammar

/-- Type arguments where there are some. -/
theorem typeArgs {no : Steps} (h : readings.Orderly) (hsteady : no.steady = true)
    (hyes : typeArgList.Again config readings readings' safe)
    (hno : no.Again config readings readings' safe) :
    (Steps.branch .callTypeArgs typeArgList no).Again config readings readings' safe := by
  refine branchOf hyes hno fun s outs rest' hfits hgrown hmeets => ?_
  have hbranch : (Steps.branch .callTypeArgs typeArgList no).steady = true := by
    have htypes : typeArgList.steady = true := by decide +kernel
    rw [Steps.steady, asksTypeArgs, hsteady, htypes, beq_self_eq_true, beq_self_eq_true]
    rfl
  have hbefore : Meets true s.tokens (tokensOf outs ++ rest') :=
    Steps.meets h hbranch hfits hgrown hmeets fun _ => .inr rfl
  rw [Steps.read] at hfits hgrown hmeets
  cases hask : Question.callTypeArgs.ask s with
  | false => exact hbefore.compares hask
  | true =>
    rw [hask] at hfits hgrown hmeets
    exact typeArgList_told h hfits hask hgrown hmeets

/-- A shorthand property, or one with a value. -/
theorem shorthand {yes : Steps} (h : readings.Orderly) (hsteady : yes.steady = true)
    (hyes : yes.Again config readings readings' safe)
    (hno : propertyAssignment.Again config readings readings' safe) :
    (Steps.branch (.both (.next [.ident]) (.second [.comma, .rBrace])) yes propertyAssignment).Again
      config readings readings' safe := by
  refine branchOf hyes hno fun s outs rest' hfits hgrown hmeets => ?_
  have hbranch : (Steps.branch (.both (.next [.ident]) (.second [.comma, .rBrace])) yes
      propertyAssignment).steady = true := by
    have hvalue : propertyAssignment.steady = true := by decide +kernel
    rw [Steps.steady, asksShorthand, hsteady, hvalue, beq_self_eq_true, beq_self_eq_true, Bool.and_self,
      Bool.or_true]
    rfl
  have hbefore : Meets true s.tokens (tokensOf outs ++ rest') :=
    Steps.meets h hbranch hfits hgrown hmeets fun _ => .inr rfl
  have hfirst := Steps.fits_before h _ hfits
  intro s' hs
  have hkind : s'.kind = .ident ↔ s.kind = .ident :=
    hbefore.kind_iff (by decide) (by decide) (by decide) hs
  have hask : ∀ s : Sight, (Question.both (.next [.ident]) (.second [.comma, .rBrace])).ask s =
      (decide (s.kind = .ident) && [TokenKind.comma, .rBrace].contains (s.kindAt 1)) := by
    intro s
    rw [Question.ask, Question.ask, Question.ask, Sight.isAtAny, List.contains_cons, List.contains_nil,
      Bool.or_false]
    rfl
  by_cases hident : s.kind = .ident
  · have hbeside := hbefore.beside hfirst (by rw [hident]; decide) hs
    have hparen : s.kindAt 1 ≠ .rParen := by
      rw [Steps.read, hask] at hfits
      split at hfits
      · rename_i hyes
        intro hparen
        rw [hparen, Bool.and_eq_true] at hyes
        exact absurd hyes.2 (by decide)
      · rw [colon_of_propertyAssignment h hfits hident]
        decide
    rw [hask, hask, hkind.mpr hident, hident, hbeside.second.resolve_right fun h => hparen h.1]
  · rw [hask, hask, decide_eq_false hident, decide_eq_false fun h => hident (hkind.mp h)]
    rfl

end Steps.Again

/-! ## Bodies -/

/-- Nodes hold nothing at all, or a token that is neither blank nor comment. -/
theorem Body.read_solid (h : readings.Orderly) : ∀ (body : Body) (s : Sight), body.steady = true →
    (body.read readings s).2.misfits = [] →
      (body.read readings s).1.2 = [] ∨ Token.solidKinds (tokensOf (body.read readings s).1.2) ≠ []
  | .close kind, s, _, _ => .inl rfl
  | .seq first rest, s, hsteady, hfits => by
    rw [Body.steady, Bool.and_eq_true] at hsteady
    have hone := first.read_solid h s hsteady.1 ((rest.read_leads h.fit.leads _ rest.takesOnly_all).fits hfits)
    exact nil_or_solid_append hone (rest.read_solid h _ hsteady.2 hfits)
  | .branch question yes no, s, hsteady, hfits => by
    rw [Body.steady, Bool.and_eq_true, Bool.and_eq_true] at hsteady
    rw [Body.read] at hfits ⊢
    split
    · rename_i hask
      rw [if_pos hask] at hfits
      exact yes.read_solid h s hsteady.1.2 hfits
    · rename_i hask
      rw [if_neg hask] at hfits
      exact no.read_solid h s hsteady.2 hfits

theorem Body.fits_before (h : readings.Orderly) (body : Body) {s : Sight}
    (hfits : (body.read readings s).2.misfits = []) : s.misfits = [] :=
  (body.read_leads h.fit.leads s body.takesOnly_all).fits hfits

/-- A node that has to take a token holds one. -/
theorem Body.read_some (h : readings.Orderly) {body : Body} (hsteady : body.steady = true)
    (hsome : body.takesSome = true) {s : Sight} (hfits : (body.read readings s).2.misfits = []) :
    Token.solidKinds (tokensOf (body.read readings s).1.2) ≠ [] :=
  solid_of_goneOn (body.read_tokens h.tokens s)
    (body.read_goesOn h.leads h.goesOn s (body.takesOnly_of_steady hsteady) hsome) hfits

theorem Body.meets (h : readings.Orderly) {body : Body} (hsteady : body.steady = true) {s : Sight}
    {outs : List Tree} {rest' : List Token} (hfits : (body.read readings s).2.misfits = [])
    (hgrown : GrownAll config (body.read readings s).1.2 outs)
    (hmeets : Meets safe (body.read readings s).2.tokens rest')
    (hbefore : safe = true → body.takesSome = true ∨ before = true) :
    Meets before s.tokens (tokensOf outs ++ rest') := by
  rw [body.read_tokens h.tokens s]
  refine hmeets.before hgrown (body.read_solid h s hsteady hfits) fun hnil hsafe => ?_
  rcases hbefore hsafe with hsome | hbefore
  · exact absurd (by rw [hnil]; rfl) (Body.read_some h hsteady hsome hfits)
  · exact hbefore

namespace Body.Again

theorem close (kind : NodeKind) : (Body.close kind).Again config readings readings' safe := by
  intro s outs rest' _ hgrown _
  cases hgrown
  exact .close

theorem seq {first : Steps} {rest : Body} (h : readings.Orderly) (hsteady : rest.steady = true)
    (hfirst : first.Again config readings readings' before)
    (hrest : rest.Again config readings readings' safe)
    (hbefore : safe = true → rest.takesSome = true ∨ before = true) :
    (Body.seq first rest).Again config readings readings' safe := by
  intro s outs rest' hfits hgrown hmeets
  obtain ⟨one, other, rfl, hone, hother⟩ := GrownAll.split hgrown
  have hmiddle := Body.meets h hsteady hfits hother hmeets hbefore
  rw [tokensOf_append, List.append_assoc]
  exact (hfirst s one _ (rest.fits_before h hfits) hone hmiddle).bodySeq
    (hrest _ other rest' hfits hother hmeets)

theorem branch {question : Question} {yes no : Body} (h : readings.Orderly)
    (hquestion : question.steady true = true) (hsteady : yes.steady = true ∧ no.steady = true)
    (hyes : yes.Again config readings readings' safe) (hno : no.Again config readings readings' safe)
    (hidle : safe = true → (yes.takesSome && no.takesSome) = true ∨ question.idle = true) :
    (Body.branch question yes no).Again config readings readings' safe := by
  intro s outs rest' hfits hgrown hmeets
  have hbranch : (Body.branch question yes no).steady = true := by
    rw [Body.steady, hquestion, hsteady.1, hsteady.2]
    rfl
  have hbefore : Meets question.idle s.tokens (tokensOf outs ++ rest') :=
    Body.meets h hbranch hfits hgrown hmeets hidle
  have hanswer := hbefore.answers ((Body.branch question yes no).fits_before h hfits) hquestion id
  rw [Body.read] at hfits hgrown hmeets ⊢
  cases hask : question.ask s with
  | true =>
    rw [hask] at hfits hgrown hmeets hanswer
    exact .bodyBranch hanswer (hyes s outs rest' hfits hgrown hmeets)
  | false =>
    rw [hask] at hfits hgrown hmeets hanswer
    exact .bodyBranch hanswer (hno s outs rest' hfits hgrown hmeets)

end Body.Again

end

end RouteTypes
