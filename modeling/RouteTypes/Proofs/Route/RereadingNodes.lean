-- Nodes that are read again, and nodes around nodes: what a suffix makes again holds what has become of the
-- node that it stood behind. From the laws of the constructions it follows for every piece of the grammar.
import RouteTypes.Proofs.Route.Rereading

namespace RouteTypes

open RouteTypes.Tree RouteTypes.Route

section

variable {config : Config} {readings readings' : Readings} {safe : Bool}

/-! ## Nodes -/

/-- What is to come before a node, with the node. -/
theorem Phrase.meets (h : readings.Orderly) {phrase : Phrase} (hsteady : phrase.steady = true)
    (hsome : phrase.takesSome = true) {s : Sight} {blanks : List Token} {tree tree' : Tree}
    {rest' : List Token} (hfits : (phrase.read readings s).2.misfits = [])
    (hfound : (phrase.read readings s).1 = some (blanks, tree)) (hgrown : Grown config tree tree')
    (hmeets : Meets safe (phrase.read readings s).2.tokens rest') :
    Meets false s.tokens (blanks ++ (tree'.tokens ++ rest')) := by
  have hsolid := Phrase.read_solid h hsteady hsome hfits
  have hall : GrownAll config (Found.trees (some (blanks, tree))) (Found.trees (some (blanks, tree'))) :=
    (GrownAll.ofLeaves blanks).append (.cons hgrown .nil)
  have hboth : Meets false
      (tokensOf (Found.trees (some (blanks, tree))) ++ (phrase.read readings s).2.tokens)
      (tokensOf (Found.trees (some (blanks, tree'))) ++ rest') := by
    refine hmeets.before hall (.inr (hfound ▸ hsolid)) fun hnil => ?_
    rw [hfound, hnil] at hsolid
    exact absurd rfl hsolid
  rw [Found.tokensOf_trees blanks tree', List.append_assoc] at hboth
  rw [phrase.read_tokens h.tokens s, hfound]
  exact hboth

/-- A node is read again if what stands in it is, and opens as it did. -/
theorem Phrase.node_yields (h : readings.Orderly) {body : Body} (hsteady : body.steady = true)
    (hsome : body.takesSome = true) {s : Sight} {kind : NodeKind} {outs : List Tree} {rest' : List Token}
    (hfits : (body.read readings s.flush).2.misfits = [])
    (hopening : Token.opening (tokensOf outs ++ rest') = Token.opening s.flush.tokens)
    (hyields : Yields (body.read readings') (tokensOf outs ++ rest') (kind, outs) rest') :
    Yields ((Phrase.node body).read readings') (s.leading ++ (tokensOf outs ++ rest'))
      (some (s.leading, .node kind outs)) rest' := by
  have hsolid := Body.read_some h hsteady hsome hfits
  have hopens := @Sight.opening_flush s (by
    rw [body.read_tokens h.tokens s.flush, Token.solidKinds_append]
    exact fun hnil => hsolid (List.append_eq_nil_iff.mp hnil).1)
  obtain ⟨token, hopens⟩ := hopens
  obtain ⟨behind, htokens, -, htoken⟩ := Token.of_opening (hopening.trans hopens)
  rw [htokens, List.nil_append] at hyields ⊢
  exact .node s.leading_trivia htoken hyields

namespace Phrase.Again

theorem refuse (expected : Expected) : (Phrase.refuse expected).Again config readings readings' safe :=
  fun s _ _ _ _ hfits => absurd hfits (s.misfits_refuse expected)

/-- A node that grows inside of its children. -/
theorem inside {body : Body} (h : readings.Orderly) (hsteady : body.steady = true)
    (hsome : body.takesSome = true) (hbody : body.Again config readings readings' safe) {s : Sight}
    {outs : List Tree} {rest' : List Token} (hfits : (body.read readings s.flush).2.misfits = [])
    (hgrown : GrownAll config (body.read readings s.flush).1.2 outs)
    (hmeets : Meets safe (body.read readings s.flush).2.tokens rest') :
    Yields ((Phrase.node body).read readings') (s.leading ++ (tokensOf outs ++ rest'))
      (some (s.leading, .node (body.read readings s.flush).1.1 outs)) rest' := by
  refine Phrase.node_yields h hsteady hsome hfits ?_ (hbody s.flush outs rest' hfits hgrown hmeets)
  rw [body.read_tokens h.tokens s.flush]
  exact hgrown.opening (.inr (Body.read_some h hsteady hsome hfits))

/-- A node that is no list of arguments grows inside of its children. -/
theorem node {body : Body} (h : readings.Orderly) (hsteady : body.steady = true)
    (hsome : body.takesSome = true) (hkind : ∀ s, (body.read readings s).1.1 ≠ .argList)
    (hbody : body.Again config readings readings' safe) :
    (Phrase.node body).Again config readings readings' safe := by
  intro s blanks tree tree' rest' hfits hfound hgrown hmeets
  rw [Phrase.read] at hfits hfound hmeets
  obtain ⟨rfl, rfl⟩ := Prod.mk.inj (Option.some_inj.mp hfound)
  obtain ⟨outs, rfl, hbelow⟩ := hgrown.inside (hkind s.flush)
  exact inside h hsteady hsome hbody hfits hbelow hmeets

theorem branch {question : Question} {yes no : Phrase} (h : readings.Orderly)
    (hquestion : question.steady true = true) (hsteady : yes.steady = true ∧ no.steady = true)
    (hsome : yes.takesSome = true ∧ no.takesSome = true)
    (hyes : yes.Again config readings readings' safe) (hno : no.Again config readings readings' safe) :
    (Phrase.branch question yes no).Again config readings readings' safe := by
  intro s blanks tree tree' rest' hfits hfound hgrown hmeets
  have hbranch : (Phrase.branch question yes no).steady = true := by
    rw [Phrase.steady, hquestion, hsteady.1, hsteady.2]
    rfl
  have htakes : (Phrase.branch question yes no).takesSome = true := by
    rw [Phrase.takesSome, hsome.1, hsome.2]
    rfl
  have hfirst := ((Phrase.branch question yes no).read_leads h.fit.leads s (Phrase.takesOnly_all _)).fits hfits
  have hanswer := (Phrase.meets h hbranch htakes hfits hfound hgrown hmeets).answers hfirst hquestion
    Bool.noConfusion
  rw [Phrase.read] at hfits hfound hmeets
  cases hask : question.ask s with
  | true =>
    rw [hask] at hfits hfound hmeets hanswer
    exact .phraseBranch hanswer (hyes s blanks tree tree' rest' hfits hfound hgrown hmeets)
  | false =>
    rw [hask] at hfits hfound hmeets hanswer
    exact .phraseBranch hanswer (hno s blanks tree tree' rest' hfits hfound hgrown hmeets)

end Phrase.Again

/-! ## Nodes around nodes -/

/-- What is to come behind a node, with what stands in the one around it. -/
theorem Suffix.meets (h : readings.Orderly) {suffix : Suffix} {inner : Tree} {s : Sight} {kind : NodeKind}
    {parts parts' : List Tree} {rest' : List Token}
    (hfound : (suffix.read readings inner s).1 = some (.node kind (inner :: parts)))
    (hsolid : Token.solidKinds (tokensOf parts) ≠ []) (hgrown : GrownAll config parts parts')
    (hmeets : Meets safe (suffix.read readings inner s).2.tokens rest') :
    Meets false s.tokens (tokensOf parts' ++ rest') := by
  have htokens := suffix.read_tokens h.tokens inner s
  rw [hfound, Option.getD_some, Tree.tokens, tokensOf, List.append_assoc] at htokens
  rw [List.append_cancel_left htokens]
  refine hmeets.before hgrown (.inr hsolid) fun hnil => ?_
  rw [hnil] at hsolid
  exact absurd rfl hsolid

namespace Suffix.Again

theorem stop : Suffix.stop.Again config readings readings' safe where
  stops _ _ _ _ := ⟨rfl, fun _ _ _ => .stop⟩
  goesOn _ _ _ _ hfound := by cases hfound

theorem around {body : Body} (h : readings.Orderly) (hsteady : body.steady = true)
    (hsome : body.takesSome = true) (hkind : ∀ s, (body.read readings s).1.1 ≠ .argList)
    (hbody : body.Again config readings readings' safe) :
    (Suffix.around body).Again config readings readings' safe where
  stops _ _ _ hfound := by cases hfound
  goesOn inner outer s hfits hfound := by
    obtain rfl := Option.some_inj.mp hfound
    refine ⟨_, _, rfl, hkind s, Body.read_some h hsteady hsome hfits, ?_⟩
    intro inner' parts' rest' hgrown hmeets
    exact .around (hbody s parts' rest' hfits hgrown hmeets)

/-- A branch goes on again if its question is answered as before. -/
theorem branchOf {question : Question} {yes no : Suffix}
    (hyes : yes.Again config readings readings' safe) (hno : no.Again config readings readings' safe)
    (hstop : ∀ (inner : Tree) (s : Sight) (rest' : List Token), s.misfits = [] →
      ((Suffix.branch question yes no).read readings inner s).1 = none → Meets safe s.tokens rest' →
      question.Answers rest' (question.ask s))
    (hgo : ∀ (inner : Tree) (s : Sight) (kind : NodeKind) (parts parts' : List Tree) (rest' : List Token),
      ((Suffix.branch question yes no).read readings inner s).2.misfits = [] →
      ((Suffix.branch question yes no).read readings inner s).1 = some (.node kind (inner :: parts)) →
      Token.solidKinds (tokensOf parts) ≠ [] → GrownAll config parts parts' →
      Meets safe ((Suffix.branch question yes no).read readings inner s).2.tokens rest' →
      question.Answers (tokensOf parts' ++ rest') (question.ask s)) :
    (Suffix.branch question yes no).Again config readings readings' safe where
  stops inner s hfits hfound := by
    have hstop := hstop inner s
    have hone : ((bif question.ask s then yes else no).read readings inner s).2 = s ∧
        ∀ (inner' : Tree) (rest' : List Token), Meets safe s.tokens rest' →
          Yields ((bif question.ask s then yes else no).read readings' inner') rest' none rest' := by
      rw [Suffix.read] at hfits hfound
      cases hask : question.ask s with
      | true =>
        rw [hask] at hfits hfound
        exact hyes.stops inner s hfits hfound
      | false =>
        rw [hask] at hfits hfound
        exact hno.stops inner s hfits hfound
    have hsame : ((Suffix.branch question yes no).read readings inner s).2 = s := by
      rw [Suffix.read]
      refine Eq.trans ?_ hone.1
      cases question.ask s <;> rfl
    refine ⟨hsame, fun inner' rest' hmeets => ?_⟩
    exact .suffixBranch (hstop rest' (hsame ▸ hfits) hfound hmeets) (hone.2 inner' rest' hmeets)
  goesOn inner outer s hfits hfound := by
    have hgo := hgo inner s
    have hone : ∃ kind parts, outer = .node kind (inner :: parts) ∧ kind ≠ .argList ∧
        Token.solidKinds (tokensOf parts) ≠ [] ∧
        ∀ (inner' : Tree) (parts' : List Tree) (rest' : List Token), GrownAll config parts parts' →
          Meets safe ((Suffix.branch question yes no).read readings inner s).2.tokens rest' →
          Yields ((bif question.ask s then yes else no).read readings' inner') (tokensOf parts' ++ rest')
            (some (.node kind (inner' :: parts'))) rest' := by
      rw [Suffix.read] at hfits hfound ⊢
      cases hask : question.ask s with
      | true =>
        rw [hask] at hfits hfound
        exact hyes.goesOn inner outer s hfits hfound
      | false =>
        rw [hask] at hfits hfound
        exact hno.goesOn inner outer s hfits hfound
    obtain ⟨kind, parts, rfl, hkind, hsolid, hagain⟩ := hone
    refine ⟨kind, parts, rfl, hkind, hsolid, fun inner' parts' rest' hgrown hmeets => ?_⟩
    exact .suffixBranch (hgo kind parts parts' rest' hfits hfound hsolid hgrown hmeets)
      (hagain inner' parts' rest' hgrown hmeets)

theorem branch {question : Question} {yes no : Suffix} (h : readings.Orderly)
    (hquestion : question.steady true = true) (hyes : yes.Again config readings readings' safe)
    (hno : no.Again config readings readings' safe) (hidle : safe = true → question.idle = true) :
    (Suffix.branch question yes no).Again config readings readings' safe := by
  refine branchOf hyes hno ?_ ?_
  · intro inner s rest' hfits _ hmeets
    exact hmeets.answers hfits hquestion hidle
  · intro inner s kind parts parts' rest' hfits hfound hsolid hgrown hmeets
    have hfirst := ((Suffix.branch question yes no).read_leads h.fit.leads inner s
      (Suffix.takesOnly_all _)).fits hfits
    exact (Suffix.meets h hfound hsolid hgrown hmeets).answers hfirst hquestion Bool.noConfusion

open RouteTypes.Grammar

/-- A call with type arguments where there are some. -/
theorem typedCall {no : Suffix} (h : readings.Orderly)
    (hyes : (Suffix.around (.ofSteps .callExpr [typeArgList, argList])).Again config readings readings' safe)
    (hno : no.Again config readings readings' safe) :
    (Suffix.branch .callTypeArgs (.around (.ofSteps .callExpr [typeArgList, argList])) no).Again
      config readings readings' safe := by
  refine branchOf hyes hno ?_ ?_
  · intro inner s rest' _ hfound hmeets
    rw [Suffix.read] at hfound
    cases hask : Question.callTypeArgs.ask s with
    | false => exact hmeets.compares hask
    | true =>
      rw [hask] at hfound
      cases hfound
  · intro inner s kind parts parts' rest' hfits hfound hsolid hgrown hmeets
    have hbefore := Suffix.meets h hfound hsolid hgrown hmeets
    rw [Suffix.read] at hfits hfound hmeets
    cases hask : Question.callTypeArgs.ask s with
    | false => exact hbefore.compares hask
    | true =>
      rw [hask] at hfits hfound hmeets
      rw [if_pos rfl, Suffix.read, Body.read_ofSteps] at hfits hfound hmeets
      obtain ⟨rfl, hparts⟩ := Tree.node.inj (Option.some_inj.mp hfound)
      obtain ⟨-, rfl⟩ := List.cons.inj hparts
      obtain ⟨outs, others, rfl, houts, hothers⟩ := GrownAll.split hgrown
      have hargs : (Steps.all [argList]).steady = true := by decide +kernel
      have hmiddle : Meets false (typeArgList.read readings s).2.tokens (tokensOf others ++ rest') :=
        Steps.meets h hargs hfits hothers hmeets fun _ => .inl rfl
      rw [tokensOf_append, List.append_assoc]
      exact typeArgList_told h (Steps.fits_before h _ hfits) hask houts hmiddle

end Suffix.Again

namespace Phrase.Again

/-- A phrase that has a node around it, or not. -/
theorem wrap {inner : Phrase} {suffix : Suffix} (h : readings.Orderly)
    (hinner : inner.Again config readings readings' safe)
    (hsuffix : suffix.Again config readings readings' safe) :
    (Phrase.wrap inner suffix).Again config readings readings' safe := by
  intro s blanks tree tree' rest' hfits hfound hgrown hmeets
  have hagain := hinner s
  rw [Phrase.read] at hfits hfound hmeets
  generalize inner.read readings s = one at hfits hfound hmeets hagain
  obtain ⟨_ | ⟨before, first⟩, t⟩ := one
  · cases hfound
  · dsimp only at hfits hfound hmeets hagain
    obtain ⟨rfl, rfl⟩ := Prod.mk.inj (Option.some_inj.mp hfound)
    cases houter : (suffix.read readings first t).1 with
    | none =>
      obtain ⟨hsame, hstops⟩ := hsuffix.stops first t hfits houter
      rw [hsame] at hfits hmeets
      rw [houter, Option.getD_none] at hgrown
      exact (hagain _ first tree' rest' hfits rfl hgrown hmeets).wrap (hstops tree' rest' hmeets)
    | some outer =>
      obtain ⟨kind, parts, rfl, hkind, hsolid, hgoes⟩ := hsuffix.goesOn first outer t hfits houter
      rw [houter, Option.getD_some] at hgrown
      obtain ⟨children', rfl, hbelow⟩ := hgrown.inside hkind
      cases hbelow with
      | @cons _ first' _ parts' hfirst hparts =>
        have hmiddle : Meets safe t.tokens (tokensOf parts' ++ rest') :=
          (Suffix.meets h houter hsolid hparts hmeets).mono fun hno => nomatch hno
        have hone := hagain _ first first' _
          ((suffix.read_leads h.fit.leads first t suffix.takesOnly_all).fits hfits) rfl hfirst hmiddle
        have hboth := hone.wrap (hgoes first' parts' rest' hparts hmeets)
        rw [Tree.tokens, tokensOf, List.append_assoc]
        exact hboth

/-- Nodes around a node: what the outermost has become is what the innermost has become, and the rest. -/
theorem wrapWhile {suffix : Suffix} (h : readings.Orderly)
    (hsuffix : suffix.Again config readings readings' safe) (tree : Tree) (s : Sight) {last' : Tree}
    {rest' : List Token} (hfits : (s.wrapWhile (suffix.read readings) tree).2.misfits = [])
    (hgrown : Grown config (s.wrapWhile (suffix.read readings) tree).1 last')
    (hmeets : Meets safe (s.wrapWhile (suffix.read readings) tree).2.tokens rest') :
    ∃ tree' between, last'.tokens = tree'.tokens ++ between ∧ Grown config tree tree' ∧
      Meets safe s.tokens (between ++ rest') ∧
      Yields (Sight.wrapWhile (suffix.read readings') tree') (between ++ rest') last' rest' := by
  have hleads : ∀ inner s, Sight.Leads (fun _ => true) s (suffix.read readings inner s).2 :=
    fun inner s => suffix.read_leads h.fit.leads inner s suffix.takesOnly_all
  have hstep := hsuffix.goesOn tree
  rw [Sight.wrapWhile] at hfits hgrown hmeets
  split at hfits
  · rename_i behind heq
    rw [heq] at hgrown hmeets
    obtain ⟨hsame, hstops⟩ := hsuffix.stops tree s (by rw [heq]; exact hfits) (by rw [heq])
    rw [heq] at hsame
    obtain rfl : behind = s := hsame
    exact ⟨last', [], (List.append_nil _).symm, hgrown, hmeets, .wrapEnd (hstops last' rest' hmeets)⟩
  · rename_i outer behind heq
    rw [heq] at hgrown hmeets
    dsimp only at hgrown hmeets
    have hfirst : behind.misfits = [] := by
      split at hfits
      · exact (Sight.Leads.wrapWhile hleads outer behind).fits hfits
      · exact hfits
    obtain ⟨kind, parts, rfl, hkind, hsolid, hgoes⟩ := hstep outer s (by rw [heq]; exact hfirst) (by rw [heq])
    have htokens := suffix.read_tokens h.tokens tree s
    rw [heq, Option.getD_some, Tree.tokens, tokensOf, List.append_assoc] at htokens
    -- The parts of the outer node are tokens that were to come.
    have hless : behind.ahead.length < s.ahead.length := by
      rw [Sight.length_eq, Sight.length_eq, List.append_cancel_left htokens]
      exact Token.solidKinds_length_lt _ hsolid
    rw [if_pos hless] at hfits hgrown hmeets
    obtain ⟨outer', between, hlast, houter, hmiddle, hagain⟩ :=
      wrapWhile h hsuffix (.node kind (tree :: parts)) behind hfits hgrown hmeets
    obtain ⟨children', rfl, hbelow⟩ := houter.inside hkind
    cases hbelow with
    | @cons _ tree' _ parts' htree hparts =>
      rw [heq] at hgoes
      have hone := hgoes tree' parts' (between ++ rest') hparts hmiddle
      have hbefore : Meets safe s.tokens (tokensOf parts' ++ (between ++ rest')) :=
        (Suffix.meets h (by rw [heq]) hsolid hparts (by rw [heq]; exact hmiddle)).mono fun hno => nomatch hno
      refine ⟨tree', tokensOf parts' ++ between, ?_, htree, by rwa [List.append_assoc], ?_⟩
      · rw [hlast, Tree.tokens, tokensOf, List.append_assoc]
      · rw [List.append_assoc]
        exact hone.wrapNext (Token.solidKinds_length_lt _ (hparts.solid hsolid)) hagain
termination_by s.ahead.length

/-- A phrase that has nodes around it as long as there are suffixes. -/
theorem extend {inner : Phrase} {suffix : Suffix} (h : readings.Orderly)
    (hinner : inner.Again config readings readings' safe)
    (hsuffix : suffix.Again config readings readings' safe) :
    (Phrase.extend inner suffix).Again config readings readings' safe := by
  intro s blanks tree tree' rest' hfits hfound hgrown hmeets
  have hleads : ∀ inner s, Sight.Leads (fun _ => true) s (suffix.read readings inner s).2 :=
    fun inner s => suffix.read_leads h.fit.leads inner s suffix.takesOnly_all
  have hagain := hinner s
  rw [Phrase.read] at hfits hfound hmeets
  generalize inner.read readings s = one at hfits hfound hmeets hagain
  obtain ⟨_ | ⟨before, first⟩, t⟩ := one
  · cases hfound
  · dsimp only at hfits hfound hmeets hagain
    obtain ⟨rfl, rfl⟩ := Prod.mk.inj (Option.some_inj.mp hfound)
    obtain ⟨first', between, hlast, hfirst, hmiddle, hwraps⟩ := wrapWhile h hsuffix first t hfits hgrown hmeets
    have hone := hagain _ first first' _ ((Sight.Leads.wrapWhile hleads first t).fits hfits) rfl hfirst hmiddle
    rw [hlast, List.append_assoc]
    exact hone.extend hwraps

end Phrase.Again

/-! ## All pieces of the grammar -/

theorem Body.canBe_read (readings : Readings) (body : Body) (s : Sight) :
    body.canBe (body.read readings s).1.1 = true := by
  cases body with
  | close kind => exact beq_self_eq_true kind
  | seq first rest => exact rest.canBe_read readings _
  | branch question yes no =>
    rw [Body.read, Body.canBe, Bool.or_eq_true]
    split
    · exact .inl (yes.canBe_read readings s)
    · exact .inr (no.canBe_read readings s)

/-- Rules that read again what they read, also with objects put in as last arguments. -/
structure Readings.Again (config : Config) (readings readings' : Readings) : Prop where
  orderly : readings.Orderly
  rule : ∀ (rule : Rule) (safe : Bool), (safe = true → rule ≠ .statement) →
    (Phrase.call rule).Again config readings readings' safe
  list : ∀ safe, (Phrase.node Grammar.argListBody).Again config readings readings' safe

mutual

theorem Steps.again (h : Readings.Again config readings readings') : ∀ (steps : Steps) (safe : Bool),
    steps.steady = true → (safe = true → steps.tailSafe = true) → steps.Again config readings readings' safe
  | .done, _, _, _ => .done
  | .take _, _, hsteady, _ => .take hsteady
  | .refuse expected, _, _, _ => .refuse expected
  | .seq first rest, safe, hsteady, hsafe => by
    rw [Steps.steady, Bool.and_eq_true] at hsteady
    simp only [Steps.tailSafe, Bool.and_eq_true, Bool.or_eq_true] at hsafe
    have hrest := rest.again h safe hsteady.2 fun hs => (hsafe hs).1
    have hfirst := first.again h (safe && !rest.takesSome) hsteady.1 fun hs => by
      rw [Bool.and_eq_true, Bool.not_eq_true'] at hs
      exact (hsafe hs.1).2.resolve_left (by rw [hs.2]; exact Bool.noConfusion)
    refine .seq h.orderly hsteady.2 hfirst hrest fun hs => ?_
    cases rest.takesSome with
    | true => exact .inl rfl
    | false => exact .inr (by rw [hs]; rfl)
  | .branch question yes no, safe, hsteady, hsafe => by
    rw [Steps.steady, Bool.and_eq_true, Bool.and_eq_true, Bool.or_eq_true, Bool.or_eq_true] at hsteady
    simp only [Steps.tailSafe, Bool.and_eq_true, Bool.or_eq_true] at hsafe
    obtain ⟨⟨hquestion, hyesSteady⟩, hnoSteady⟩ := hsteady
    have hyes := yes.again h safe hyesSteady fun hs => (hsafe hs).1.2
    have hno := no.again h safe hnoSteady fun hs => (hsafe hs).2
    rcases hquestion with (hquestion | htypes) | hshort
    · exact .branch h.orderly hquestion ⟨hyesSteady, hnoSteady⟩ hyes hno fun hs => by
        rw [Bool.and_eq_true]
        exact (hsafe hs).1.1
    · rw [Grammar.asksTypeArgs, Bool.and_eq_true, beq_iff_eq, beq_iff_eq] at htypes
      obtain ⟨rfl, rfl⟩ := htypes
      exact .typeArgs h.orderly hnoSteady hyes hno
    · rw [Grammar.asksShorthand, Bool.and_eq_true, beq_iff_eq, beq_iff_eq] at hshort
      obtain ⟨rfl, rfl⟩ := hshort
      exact .shorthand h.orderly hyesSteady hyes hno
  | .loop question body, safe, hsteady, hsafe => by
    rw [Steps.steady, Bool.and_eq_true] at hsteady
    simp only [Steps.tailSafe, Bool.and_eq_true, beq_iff_eq] at hsafe
    have hbody := body.again h safe hsteady.2 fun hs => (hsafe hs).2
    refine .loop h.orderly hsteady.1 hsteady.2 hbody fun hs => ?_
    rw [Question.idle, (hsafe hs).1.1, (hsafe hs).1.2]
    rfl
  | .part phrase, safe, hsteady, hsafe => by
    rw [Steps.steady, Bool.and_eq_true] at hsteady
    exact .part h.orderly (phrase.again h safe hsteady.2 hsteady.1 hsafe)
  | .enclosed _ inside, _, hsteady, _ => .enclosed (inside.again h false hsteady Bool.noConfusion)

theorem Body.again (h : Readings.Again config readings readings') : ∀ (body : Body) (safe : Bool),
    body.steady = true → (safe = true → body.tailSafe = true) → body.Again config readings readings' safe
  | .close kind, _, _, _ => .close kind
  | .seq first rest, safe, hsteady, hsafe => by
    rw [Body.steady, Bool.and_eq_true] at hsteady
    simp only [Body.tailSafe, Bool.and_eq_true, Bool.or_eq_true] at hsafe
    have hrest := rest.again h safe hsteady.2 fun hs => (hsafe hs).1
    have hfirst := first.again h (safe && !rest.takesSome) hsteady.1 fun hs => by
      rw [Bool.and_eq_true, Bool.not_eq_true'] at hs
      exact (hsafe hs.1).2.resolve_left (by rw [hs.2]; exact Bool.noConfusion)
    refine .seq h.orderly hsteady.2 hfirst hrest fun hs => ?_
    cases rest.takesSome with
    | true => exact .inl rfl
    | false => exact .inr (by rw [hs]; rfl)
  | .branch question yes no, safe, hsteady, hsafe => by
    rw [Body.steady, Bool.and_eq_true, Bool.and_eq_true] at hsteady
    simp only [Body.tailSafe, Bool.and_eq_true, Bool.or_eq_true] at hsafe
    have hyes := yes.again h safe hsteady.1.2 fun hs => (hsafe hs).1.2
    have hno := no.again h safe hsteady.2 fun hs => (hsafe hs).2
    exact .branch h.orderly hsteady.1.1 ⟨hsteady.1.2, hsteady.2⟩ hyes hno fun hs => by
      rw [Bool.and_eq_true]
      exact (hsafe hs).1.1

theorem Phrase.again (h : Readings.Again config readings readings') : ∀ (phrase : Phrase) (safe : Bool),
    phrase.steady = true → phrase.takesSome = true → (safe = true → phrase.tailSafe = true) →
    phrase.Again config readings readings' safe
  | .refuse expected, _, _, _, _ => .refuse expected
  | .node body, safe, hsteady, hsome, hsafe => by
    rw [Phrase.steady, Bool.and_eq_true, Bool.or_eq_true, Bool.not_eq_true', beq_iff_eq] at hsteady
    rcases hsteady.2 with hkind | rfl
    · refine .node h.orderly hsteady.1 hsome (fun s hs => ?_) (body.again h safe hsteady.1 hsafe)
      rw [← hs, body.canBe_read] at hkind
      cases hkind
    · exact h.list safe
  | .branch question yes no, safe, hsteady, hsome, hsafe => by
    rw [Phrase.steady, Bool.and_eq_true, Bool.and_eq_true] at hsteady
    rw [Phrase.takesSome, Bool.and_eq_true] at hsome
    simp only [Phrase.tailSafe, Bool.and_eq_true] at hsafe
    have hyes := yes.again h safe hsteady.1.2 hsome.1 fun hs => (hsafe hs).1
    have hno := no.again h safe hsteady.2 hsome.2 fun hs => (hsafe hs).2
    exact .branch h.orderly hsteady.1.1 ⟨hsteady.1.2, hsteady.2⟩ hsome hyes hno
  | .call rule, safe, _, _, hsafe => h.rule rule safe fun hs => bne_iff_ne.mp (hsafe hs)
  | .wrap inner suffix, safe, hsteady, hsome, hsafe => by
    rw [Phrase.steady, Bool.and_eq_true] at hsteady
    simp only [Phrase.tailSafe, Bool.and_eq_true] at hsafe
    exact .wrap h.orderly (inner.again h safe hsteady.1 hsome fun hs => (hsafe hs).1)
      (suffix.again h safe hsteady.2 fun hs => (hsafe hs).2)
  | .extend inner suffix, safe, hsteady, hsome, hsafe => by
    rw [Phrase.steady, Bool.and_eq_true] at hsteady
    simp only [Phrase.tailSafe, Bool.and_eq_true] at hsafe
    exact .extend h.orderly (inner.again h safe hsteady.1 hsome fun hs => (hsafe hs).1)
      (suffix.again h safe hsteady.2 fun hs => (hsafe hs).2)

theorem Suffix.again (h : Readings.Again config readings readings') : ∀ (suffix : Suffix) (safe : Bool),
    suffix.steady = true → (safe = true → suffix.tailSafe = true) → suffix.Again config readings readings' safe
  | .stop, _, _, _ => .stop
  | .around body, safe, hsteady, hsafe => by
    rw [Suffix.steady, Bool.and_eq_true, Bool.and_eq_true, Bool.not_eq_true'] at hsteady
    refine .around h.orderly hsteady.1.1 hsteady.1.2 (fun s hs => ?_) (body.again h safe hsteady.1.1 hsafe)
    have hkind := hsteady.2
    rw [← hs, body.canBe_read] at hkind
    cases hkind
  | .branch question yes no, safe, hsteady, hsafe => by
    rw [Suffix.steady, Bool.and_eq_true, Bool.and_eq_true, Bool.or_eq_true] at hsteady
    simp only [Suffix.tailSafe, Bool.and_eq_true] at hsafe
    have hyes := yes.again h safe hsteady.1.2 fun hs => (hsafe hs).1.2
    have hno := no.again h safe hsteady.2 fun hs => (hsafe hs).2
    rcases hsteady.1.1 with hquestion | htyped
    · exact .branch h.orderly hquestion hyes hno fun hs => (hsafe hs).1.1
    · rw [Grammar.asksTypedCall, Bool.and_eq_true, beq_iff_eq, beq_iff_eq] at htyped
      obtain ⟨rfl, rfl⟩ := htyped
      exact .typedCall h.orderly hyes hno

end

end

end RouteTypes
