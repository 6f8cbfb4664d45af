-- A list of arguments with an object behind the last one is read as the list with one more argument. What
-- stood last is read with the comma behind it, and the object up to the parenthesis, or up to a comma if
-- there was one. With this every rule reads again what it read, however deep the rules are nested.
import RouteTypes.Proofs.Route.Objects
import RouteTypes.Proofs.Route.RereadingNodes

namespace RouteTypes

open RouteTypes.Tree RouteTypes.Route RouteTypes.Grammar

/-- The objects that are put in are read as expressions. -/
def Readings.HasObjects (config : Config) (readings' : Readings) : Prop :=
  ∀ (params returned : Nat) (blanks behind : List Token), (∀ blank ∈ blanks, blank.isTrivia = true) →
    Ends behind → Yields (readings' .expression)
      (blanks ++ ((argument config params returned).tokens ++ behind))
      (some (blanks, argument config params returned)) behind

section

variable {config : Config} {readings readings' : Readings} {safe : Bool}

/-! ## Items -/

/-- What is repeated in a list of arguments. -/
def argumentItem : Steps := .seq element (.given (.not (.next [.rParen])) (.expect .comma))

theorem element_again (h : readings.Orderly)
    (hrule : (Phrase.call .expression).Again config readings readings' safe) :
    element.Again config readings readings' safe := by
  have hcall : (Steps.call .expression).Again config readings readings' safe := .part h hrule
  have hdots : (Steps.expect .dotDotDot).Again config readings readings' safe := .take (by decide)
  have hspread : (Steps.all [.expect .dotDotDot, .call .expression]).Again config readings readings' safe :=
    .seq h (by decide) hdots (.seq h (by decide) hcall .done fun hs => .inr hs) fun hs => .inr hs
  have hbody : (Body.ofSteps .spreadElement [.expect .dotDotDot, .call .expression]).Again config readings
      readings' safe := .seq h rfl hspread (.close .spreadElement) fun hs => .inr hs
  refine .branch h rfl ⟨by decide, by decide⟩ (.part h (.node h (by decide) (by decide) ?_ hbody)) hcall
    fun _ => .inl rfl
  intro s hkind
  rw [Body.read_ofSteps] at hkind
  cases hkind

theorem argumentItem_again (h : readings.Orderly)
    (hrule : (Phrase.call .expression).Again config readings readings' false) :
    argumentItem.Again config readings readings' false := by
  have hcomma : (Steps.expect .comma).Again config readings readings' false := .take (by decide)
  have hgiven : (Steps.given (.not (.next [.rParen])) (.expect .comma)).Again config readings readings' false :=
    .branch h rfl ⟨by decide, by decide⟩ hcomma .done Bool.noConfusion
  exact .seq h (by decide) (element_again h hrule) hgiven Bool.noConfusion

/-- An item is a node, with the blanks and comments before it. -/
theorem element_read (h : readings.Orderly) {s : Sight} (hfits : (element.read readings s).2.misfits = []) :
    ∃ (blanks : List Token) (kind : NodeKind) (children : List Tree),
      (element.read readings s).1 = blanks.map .leaf ++ [.node kind children] := by
  rw [element, Steps.read] at hfits ⊢
  split
  · rw [Steps.emit, Steps.read, Phrase.nodeOf, Phrase.read, Body.read_ofSteps]
    exact ⟨_, _, _, rfl⟩
  · rename_i hask
    rw [if_neg hask] at hfits
    have hfound := h.fit.fits .expression s hfits
    rw [Steps.call, Steps.read, Phrase.read]
    generalize (readings .expression s).1 = found at hfound
    obtain @⟨blanks, kind, children, -, -, -⟩ := hfound
    exact ⟨blanks, kind, children, rfl⟩

/-- The object is an item. -/
theorem element_object (h : readings'.HasObjects config) (params returned : Nat) {behind : List Token}
    (hends : Ends behind) : Yields (element.read readings')
      (blankToken :: ((argument config params returned).tokens ++ behind))
      [.leaf blankToken, argument config params returned] behind := by
  have hobject := h params returned [blankToken] behind blank_trivia hends
  have hno : (Question.next [.dotDotDot]).Answers
      ([blankToken] ++ ((argument config params returned).tokens ++ behind)) false := by
    rw [argument_tokens]
    exact .of_at blank_trivia rfl rfl
  exact .branch hno hobject.callRule

/-! ## The last argument -/

theorem inside_object {params returned : Nat} {behind : List Token} :
    (Question.inside [.rParen]).Answers
      (blankToken :: ((argument config params returned).tokens ++ behind)) true := by
  rw [argument_tokens]
  exact @Question.Answers.of_at _ [blankToken] _ _ _ blank_trivia rfl rfl

theorem object_solid {params returned : Nat} :
    Token.solidKinds (blankToken :: (argument config params returned).tokens) ≠ [] := by
  rw [Token.solidKinds_cons, argument_kinds]
  exact List.cons_ne_nil _ _

theorem solid_of_close {close : Token} (hclose : close.kind = .rParen) : close.isTrivia = false := by
  rw [Token.isTrivia, hclose]
  rfl

section

variable {blanks rest : List Token} {close : Token} (hblanks : ∀ blank ∈ blanks, blank.isTrivia = true)
  (hclose : close.kind = .rParen)

include hblanks hclose

/-- The object is the last item. -/
theorem object_last (h : readings'.HasObjects config) (params returned : Nat) :
    Yields ((Steps.separated .rParen element).read readings')
      (blankToken :: ((argument config params returned).tokens ++ (blanks ++ close :: rest)))
      [.leaf blankToken, argument config params returned] (blanks ++ close :: rest) := by
  have hends : Ends (blanks ++ close :: rest) :=
    ⟨blanks, close, rest, rfl, hblanks, by rw [hclose]; decide⟩
  exact .separatedLast inside_object (element_object h params returned hends) hblanks
    (solid_of_close hclose) hclose (Token.solidKinds_length_lt _ object_solid)

/-- The object has a comma behind it. -/
theorem object_next (h : readings'.HasObjects config) (params returned : Nat) :
    Yields ((Steps.separated .rParen element).read readings')
      (blankToken :: ((argument config params returned).tokens ++ ⟨.comma, ","⟩ :: (blanks ++ close :: rest)))
      [.leaf blankToken, argument config params returned, .leaf ⟨.comma, ","⟩] (blanks ++ close :: rest) := by
  have hnone : ∀ blank ∈ ([] : List Token), blank.isTrivia = true := by decide
  have hends : Ends (⟨.comma, ","⟩ :: (blanks ++ close :: rest)) :=
    ⟨[], ⟨.comma, ","⟩, blanks ++ close :: rest, rfl, hnone, by decide⟩
  exact .separatedNext inside_object (element_object h params returned hends) hnone rfl (by decide)
    (Token.solidKinds_length_le (blankToken :: (argument config params returned).tokens) _)
    (.separatedEnd hblanks (solid_of_close hclose) hclose)

end

/-- What stands behind an item: the closing parenthesis, or a comma. -/
theorem item_ends (h : readings.Orderly) {s : Sight}
    (hfits : (argumentItem.read readings s).2.misfits = []) :
    ((element.read readings s).2.kind = .rParen ∧
      argumentItem.read readings s =
        element.read readings s) ∨
    ∃ comma rest, (element.read readings s).2.Shows ((element.read readings s).2.leading ++ comma :: rest) ∧
      comma.kind = .comma ∧ argumentItem.read readings s =
        ((element.read readings s).1 ++ ((element.read readings s).2.leading ++ [comma]).map .leaf,
          (element.read readings s).2.advance) := by
  have hbefore := Steps.fits_before h _ hfits
  generalize helement : element.read readings s = one at hbefore
  rw [argumentItem, Steps.read, helement, Steps.given, Steps.read, Steps.expect, Steps.read,
    Steps.read] at hfits ⊢
  dsimp only at hfits ⊢
  by_cases hclose : one.2.kind = .rParen
  · have hno : (Question.not (.next [.rParen])).ask one.2 = false := by
      rw [Question.ask, Question.ask, Sight.isAtAny, hclose]
      rfl
    rw [hno] at hfits ⊢
    exact .inl ⟨hclose, by simp⟩
  · have hyes : (Question.not (.next [.rParen])).ask one.2 = true := by
      rw [Question.ask, Question.ask, Sight.isAtAny]
      simpa using hclose
    rw [if_pos hyes] at hfits ⊢
    obtain ⟨comma, hshows, -, hsame, hkind, htake⟩ := Sight.take_fits (by decide) hfits
    rw [htake]
    exact .inr ⟨comma, _, hshows, hsame.trans (List.mem_singleton.mp hkind), rfl⟩

/-- A closing parenthesis that is to come stays the next token. -/
theorem Route.Meets.closing {s : Sight} {rest' : List Token} (h : Meets false s.tokens rest')
    (hfits : s.misfits = []) (hkind : s.kind = .rParen) : ∃ close rest,
      rest' = s.leading ++ close :: rest ∧ close.kind = .rParen := by
  obtain ⟨close, rest, hshows, hsolid, hsame⟩ := @Sight.exists_shown s hfits (by rw [hkind]; decide)
  have hopening := h.2.resolve_right fun hno => nomatch hno.1
  rw [hshows.tokens, Token.opening_append _ s.leading_trivia hsolid] at hopening
  obtain ⟨rest', hrest', -, -⟩ := Token.of_opening hopening
  exact ⟨close, rest', hrest', hsame.trans hkind⟩

theorem Sight.exists_kinds {s : Sight} {kind : TokenKind} (h : s.kind = kind) (heof : kind ≠ .eof) :
    ∃ kinds, Token.solidKinds s.tokens = kind :: kinds := by
  rw [Sight.kind_eq] at h
  rw [Sight.solidKinds_tokens]
  cases hkinds : s.kinds with
  | nil =>
    rw [hkinds] at h
    exact absurd h.symm heof
  | cons first rest =>
    rw [hkinds] at h
    exact ⟨rest, by rw [← h]; rfl⟩

/-- A closing parenthesis with a comma and the object before it. -/
theorem Route.Meets.put {s : Sight} {rest' : List Token} (h : Meets false s.tokens rest')
    (hkind : s.kind = .rParen) (params returned : Nat) :
    Meets true s.tokens (⟨.comma, ","⟩ :: blankToken :: ((argument config params returned).tokens ++ rest')) := by
  obtain ⟨kinds, hkinds⟩ := Sight.exists_kinds hkind (by decide)
  have hput : Token.solidKinds (⟨.comma, ","⟩ :: blankToken ::
      ((argument config params returned).tokens ++ rest')) =
        .comma :: .lBrace :: (innerKinds config ++ .rBrace :: Token.solidKinds rest') := by
    rw [Token.solidKinds_cons, Token.solidKinds_cons, Token.solidKinds_append, argument_kinds,
      List.cons_append, List.append_assoc]
    rfl
  have hwider := h.1
  rw [hkinds] at hwider
  refine ⟨?_, .inr ⟨rfl, by rw [hkinds]; rfl, by rw [hput]; rfl⟩⟩
  rw [hkinds, hput]
  exact hwider.put (innerKinds_plain config)

/-- A comma before a closing parenthesis with the object and a comma behind it. -/
theorem Route.Meets.putBehind {s behind : Sight} {blanks rest' : List Token} {comma : Token}
    (h : Meets false behind.tokens rest') (hkind : behind.kind = .rParen)
    (htokens : s.tokens = blanks ++ comma :: behind.tokens) (hblanks : ∀ blank ∈ blanks, blank.isTrivia = true)
    (hcomma : comma.kind = .comma) (params returned : Nat) :
    Meets false s.tokens (blanks ++ comma :: blankToken ::
      ((argument config params returned).tokens ++ ⟨.comma, ","⟩ :: rest')) := by
  have hsolid : comma.isTrivia = false := by rw [Token.isTrivia, hcomma]; rfl
  obtain ⟨kinds, hkinds⟩ := Sight.exists_kinds hkind (by decide)
  have hcut : ∀ others, Token.solidKinds (blanks ++ comma :: others) = .comma :: Token.solidKinds others := by
    intro others
    rw [Token.solidKinds_append, Token.solidKinds_trivia hblanks, Token.solidKinds_cons, hsolid, hcomma]
    rfl
  have hput : Token.solidKinds (blankToken ::
      ((argument config params returned).tokens ++ ⟨.comma, ","⟩ :: rest')) =
        .lBrace :: (innerKinds config ++ .rBrace :: .comma :: Token.solidKinds rest') := by
    rw [Token.solidKinds_cons, Token.solidKinds_append, argument_kinds, List.cons_append, List.append_assoc]
    rfl
  have hwider := h.1
  rw [hkinds] at hwider
  rw [htokens]
  refine ⟨?_, .inl ?_⟩
  · rw [hcut, hcut, hkinds, hput]
    exact hwider.putBehind (innerKinds_plain config)
  · rw [Token.opening_append _ hblanks hsolid, Token.opening_append _ hblanks hsolid]

/-- There is an item again. -/
theorem inside_again {s : Sight} {tokens' : List Token} (h : Meets false s.tokens tokens')
    (hfits : s.misfits = []) (hask : (Question.inside [.rParen]).ask s = true) :
    (Question.inside [.rParen]).Answers tokens' true := by
  rw [← hask]
  exact h.answers hfits rfl Bool.noConfusion

/-- The last item with the object behind it. -/
theorem last_again (h : readings.Orderly)
    (hrule : ∀ safe, (Phrase.call .expression).Again config readings readings' safe)
    (hobjects : readings'.HasObjects config) {s : Sight} {front front' : List Tree} {last last' : Tree}
    {rest' : List Token} (params returned : Nat) (hask : (Question.inside [.rParen]).ask s = true)
    (hfits : (argumentItem.read readings s).2.misfits = [])
    (hkind : (argumentItem.read readings s).2.kind = .rParen)
    (hread : (argumentItem.read readings s).1 = front ++ [last]) (hfront : GrownAll config front front')
    (hlast : Grown config last last') (hmeets : Meets false (argumentItem.read readings s).2.tokens rest') :
    Yields ((Steps.separated .rParen element).read readings')
      (tokensOf (front' ++ last' :: groupBehind (argument config params returned) last') ++ rest')
      (front' ++ last' :: groupBehind (argument config params returned) last') rest' := by
  have hbefore : (element.read readings s).2.misfits = [] := Steps.fits_before h _ hfits
  have hfirst := Steps.fits_before h _ hbefore
  have hclosing := Meets.closing hmeets hfits hkind
  have hsteady : element.steady = true := by decide
  rcases item_ends h hfits with ⟨hend, hsame⟩ | ⟨comma, rest, hshows, hcomma, hsame⟩
  · rw [hsame] at hmeets hread hclosing
    obtain ⟨close, more, rfl, hclose⟩ := hclosing
    have hput := @Route.Meets.put config _ _ hmeets hend params returned
    have hgrown : GrownAll config (element.read readings s).1 (front' ++ [last']) := by
      rw [hread]
      exact hfront.append (.cons hlast .nil)
    have hmiddle : Meets false s.tokens _ := Steps.meets h hsteady hbefore hgrown hput fun _ => .inl rfl
    have hgroup : groupBehind (argument config params returned) last' =
        [Tree.comma, Tree.space, argument config params returned] := by
      obtain ⟨blanks, kind, children, hitem⟩ := element_read h hbefore
      rw [hread] at hitem
      obtain ⟨-, hnode⟩ := List.append_inj' hitem rfl
      rw [groupBehind, hlast.kind, List.singleton_inj.mp hnode]
      rfl
    have hitem := element_again h (hrule true) s _ _ hbefore hgrown hput
    have hnone : ∀ blank ∈ ([] : List Token), blank.isTrivia = true := by decide
    have hboth := Yields.separatedNext (inside_again hmiddle hfirst hask) hitem hnone rfl (by decide)
      (Token.solidKinds_length_le _ _) (object_last (Sight.leading_trivia _) hclose hobjects params returned)
    rw [hgroup]
    simpa [tokensOf_append, tokensOf, Tree.tokens, Tree.comma, Tree.space, blankToken] using hboth
  · rw [hsame] at hmeets hread hclosing hkind
    obtain ⟨close, more, rfl, hclose⟩ := hclosing
    rw [List.map_append, ← List.append_assoc] at hread
    obtain ⟨hfrontRead, hlastRead⟩ := List.append_inj' hread rfl
    obtain rfl : .leaf comma = last := List.singleton_inj.mp hlastRead
    cases hlast
    rw [← hfrontRead] at hfront
    obtain ⟨outs, leaves, rfl, houts, hleaves⟩ := hfront.split
    obtain rfl := hleaves.leaves
    have hgroup : groupBehind (argument config params returned) (.leaf comma) =
        [Tree.space, argument config params returned, Tree.comma] := by
      rw [groupBehind, Tree.kind, hcomma]
      rfl
    obtain ⟨-, -, -, hadvance, -⟩ := hshows.next (Sight.leading_trivia _)
      (by rw [Token.isTrivia, hcomma]; rfl)
    have htokens : (element.read readings s).2.tokens =
        (element.read readings s).2.leading ++ comma :: (element.read readings s).2.advance.tokens := by
      rw [hadvance.tokens]
      exact hshows.tokens
    have hput := @Route.Meets.putBehind config _ _ _ _ _ hmeets hkind htokens (Sight.leading_trivia _) hcomma
      params returned
    have hmiddle : Meets false s.tokens _ := Steps.meets h hsteady hbefore houts hput fun _ => .inl rfl
    have hitem := element_again h (hrule false) s _ _ hbefore houts hput
    have hboth := Yields.separatedNext (inside_again hmiddle hfirst hask) hitem (Sight.leading_trivia _) hcomma (by decide)
      (Token.solidKinds_length_le _ _) (object_next (Sight.leading_trivia _) hclose hobjects params returned)
    rw [hgroup]
    simpa [tokensOf_append, tokensOf, Tree.tokens, Tree.comma, Tree.space, blankToken, tokensOf_leaves] using hboth

/-- What stands before the closing parenthesis, with the object behind the last of it. -/
theorem Route.Meets.group {s behind : Sight} {front front' : List Tree} {last last' : Tree} {rest' : List Token}
    (h : Meets false behind.tokens rest') (hkind : behind.kind = .rParen)
    (htokens : s.tokens = tokensOf (front ++ [last]) ++ behind.tokens)
    (hsolid : Token.solidKinds (tokensOf (front ++ [last])) ≠ []) (hfront : GrownAll config front front')
    (hlast : Grown config last last') (params returned : Nat) :
    Meets false s.tokens
      (tokensOf (front' ++ last' :: groupBehind (argument config params returned) last') ++ rest') := by
  obtain ⟨kinds, hkinds⟩ := Sight.exists_kinds hkind (by decide)
  have hwider := h.1
  rw [hkinds] at hwider
  refine ⟨?_, .inl ?_⟩
  · have hgroup := widened_group params returned hlast (fun h => hlast.widened h) hwider
    rw [htokens, tokensOf_append, tokensOf_append]
    simp only [tokensOf, Token.solidKinds_append, List.append_assoc, List.append_nil]
    rw [hkinds]
    exact hfront.widened hgroup
  · have hgrown : GrownAll config (front ++ [last]) (front' ++ [last']) := hfront.append (.cons hlast .nil)
    have hopening : Token.opening (tokensOf (front' ++ [last']) ++
        (tokensOf (groupBehind (argument config params returned) last') ++ rest')) =
          Token.opening (tokensOf (front ++ [last]) ++ behind.tokens) := hgrown.opening (.inr hsolid)
    rw [htokens, ← hopening]
    simp only [tokensOf_append, tokensOf, List.append_assoc, List.append_nil]

/-- The items of a list with the object behind the last one. -/
theorem items_again (h : readings.Orderly)
    (hrule : ∀ safe, (Phrase.call .expression).Again config readings readings' safe)
    (hobjects : readings'.HasObjects config) {last last' : Tree} {rest' : List Token} (params returned : Nat)
    (hlast : Grown config last last') (s : Sight) {front front' : List Tree}
    (hfits : ((Steps.separated .rParen element).read readings s).2.misfits = [])
    (hkind : ((Steps.separated .rParen element).read readings s).2.kind = .rParen)
    (hread : ((Steps.separated .rParen element).read readings s).1 = front ++ [last])
    (hfront : GrownAll config front front')
    (hmeets : Meets false ((Steps.separated .rParen element).read readings s).2.tokens rest') :
    Yields ((Steps.separated .rParen element).read readings')
      (tokensOf (front' ++ last' :: groupBehind (argument config params returned) last') ++ rest')
      (front' ++ last' :: groupBehind (argument config params returned) last') rest' := by
  have hloop : Steps.separated .rParen element = .loop (.inside [.rParen]) argumentItem := rfl
  have hcollect : ∀ s : Sight, s.collectWhile (Question.inside [.rParen]).ask (argumentItem.read readings) =
      (Steps.separated .rParen element).read readings s := fun _ => rfl
  have hsteady : argumentItem.steady = true := by decide
  have hsome : argumentItem.takesSome = true := by decide
  have hfirst := Steps.fits_before h _ hfits
  rw [hloop, Steps.read, Sight.collectWhile] at hfits hkind hread hmeets
  cases hask : (Question.inside [.rParen]).ask s with
  | false =>
    rw [hask] at hread
    exact absurd hread.symm (List.append_ne_nil_of_right_ne_nil _ (List.cons_ne_nil _ _))
  | true =>
    rw [if_pos hask] at hfits hkind hread hmeets
    dsimp only at hfits hkind hread hmeets
    split at hfits
    · rename_i hless
      rw [if_pos hless] at hkind hread hmeets
      rw [hcollect] at hfits hkind hread hmeets
      have hitemFits := Steps.fits_before h _ hfits
      rcases List.eq_nil_or_concat
        ((Steps.separated .rParen element).read readings (argumentItem.read readings s).2).1 with
        hnil | ⟨front₂, last₂, hconcat⟩
      · have hsame := Steps.loop_nil h hsteady hsome hfits hnil
        rw [hnil, List.append_nil] at hread
        rw [hloop, hsame] at hkind hmeets
        exact last_again h hrule hobjects params returned hask hitemFits hkind hread hfront hlast hmeets
      · rw [List.concat_eq_append] at hconcat
        rw [hconcat, ← List.append_assoc] at hread
        obtain ⟨rfl, hsame⟩ := List.append_inj' hread rfl
        obtain rfl := List.singleton_inj.mp hsame
        obtain ⟨one, front₂', rfl, hone, hfront₂⟩ := hfront.split
        have hagain := items_again h hrule hobjects params returned hlast _ hfits hkind hconcat hfront₂ hmeets
        have hlistSteady : (Steps.separated .rParen element).steady = true := by decide
        have hsolid := (Steps.read_solid h _ _ hlistSteady hfits).resolve_left (by rw [hconcat]; simp)
        rw [hconcat] at hsolid
        have hmiddle := Route.Meets.group hmeets hkind
          (by rw [← hconcat]; exact Steps.read_tokens h.tokens _ _) hsolid hfront₂ hlast params returned
        have hbefore : Meets false s.tokens _ :=
          Steps.meets h hsteady hitemFits hone hmiddle Bool.noConfusion
        have hless' := Token.solidKinds_length_lt
          (tokensOf (front₂' ++ last' :: groupBehind (argument config params returned) last') ++ rest')
          (hone.solid (solid_of_goneOn (argumentItem.read_tokens h.tokens s) (.inr hless) hitemFits))
        have hitem := argumentItem_again h (hrule false) s one _ hitemFits hone hmiddle
        rw [List.append_assoc, tokensOf_append, List.append_assoc]
        exact hitem.loopNext (inside_again hbefore hfirst hask) hless' hagain
    · rename_i hless
      have hgone := argumentItem.read_goesOn h.leads h.goesOn s (by decide) hsome
      rcases hgone with hmisfit | hmore
      · simp [Sight.hasMisfit, hfits] at hmisfit
      · exact absurd hmore hless
termination_by s.ahead.length

/-! ## Lists of arguments -/

/-- The last tree that means something, and what stands behind it, are unique. -/
theorem last_unique {front before blanks : List Tree} {last : Tree} {leaves : List Token}
    (h : before ++ leaves.map .leaf = front ++ last :: blanks)
    (hbefore : ∀ tree, before.getLast? = some tree → tree.isTrivia = false) (hne : before ≠ [])
    (hleaves : ∀ leaf ∈ leaves, leaf.isTrivia = true) (hlast : last.isTrivia = false)
    (hblanks : ∀ blank ∈ blanks, blank.isTrivia = true) :
    before = front ++ [last] ∧ leaves.map .leaf = blanks := by
  obtain ⟨start, own, rfl⟩ := List.eq_nil_or_concat before |>.resolve_left hne
  rw [List.concat_eq_append] at h hbefore ⊢
  have hown : own.isTrivia = false := hbefore own List.getLast?_concat
  have hreverse := congrArg List.reverse h
  simp only [List.reverse_append, List.reverse_cons, List.append_assoc, List.singleton_append] at hreverse
  have htrivia : ∀ tree ∈ (leaves.map Tree.leaf).reverse, ¬ tree.isTrivia = false := by
    intro tree htree
    obtain ⟨leaf, hleaf, rfl⟩ := List.mem_map.mp (List.mem_reverse.mp htree)
    have htrue : (Tree.leaf leaf).isTrivia = true := hleaves leaf hleaf
    rw [htrue]
    exact Bool.noConfusion
  have hother : ∀ tree ∈ blanks.reverse, ¬ tree.isTrivia = false := by
    intro tree htree
    rw [hblanks tree (List.mem_reverse.mp htree)]
    exact Bool.noConfusion
  obtain ⟨hend, rfl, hstart⟩ := first_unique hreverse htrivia hown hother hlast
  rw [List.reverse_inj] at hend hstart
  exact ⟨by rw [hstart], hend⟩

theorem argListBody_again (h : readings.Orderly)
    (hrule : (Phrase.call .expression).Again config readings readings' false) :
    argListBody.Again config readings readings' safe := by
  have hopen : (Steps.expect .lParen).Again config readings readings' false := .take (by decide)
  have hclose : (Steps.expect .rParen).Again config readings readings' safe := .take (by decide)
  have hitems : (Steps.separated .rParen element).Again config readings readings' false :=
    .loop h rfl (by decide) (argumentItem_again h hrule) Bool.noConfusion
  have hend : (Steps.all [.expect .rParen]).Again config readings readings' safe :=
    .seq h rfl hclose .done fun hs => .inr hs
  have hrest : (Steps.all [.separated .rParen element, .expect .rParen]).Again config readings readings' safe :=
    .seq h (by decide) hitems hend fun _ => .inl rfl
  have hall : (Steps.all [.expect .lParen, .separated .rParen element, .expect .rParen]).Again config readings
      readings' safe := .seq h (by decide) hopen hrest fun _ => .inl rfl
  exact .seq h rfl hall (.close .argList) fun hs => .inr hs

theorem argItems_forms :
    (Steps.seq (.expect .lParen) (.separated .rParen element)).forms ⊆ forms := by
  have hmem : (Steps.seq (.expect .lParen) (.separated .rParen element)).forms ⊆
      (phraseOf (.operand 0)).forms := by decide +kernel
  exact fun form hform => phraseOf_forms (.operand 0) (hmem hform)

/-- A list of arguments that fits: the parenthesis that opens it, the items, and the one that closes it. -/
theorem argListBody_parts (h : readings.Orderly) {s : Sight} (hbare : s.leading = [])
    (hfits : (argListBody.read readings s).2.misfits = []) : ∃ opening closing items,
      (Steps.separated .rParen element).read readings s.advance = items ∧ items.2.misfits = [] ∧
      opening.kind = .lParen ∧ closing.kind = .rParen ∧
      items.2.Shows (items.2.leading ++ closing :: items.2.advance.tokens) ∧
      argListBody.read readings s = ((.argList,
        .leaf opening :: items.1 ++ (items.2.leading ++ [closing]).map .leaf), items.2.advance) ∧
      ∀ tree, (.leaf opening :: items.1).getLast? = some tree → tree.isTrivia = false := by
  have hsplit : (Steps.seq (.expect .lParen) (.separated .rParen element)).read readings s =
      ((s.take [.lParen]).1 ++ ((Steps.separated .rParen element).read readings (s.take [.lParen]).2).1,
        ((Steps.separated .rParen element).read readings (s.take [.lParen]).2).2) := rfl
  have hall : (Steps.all [.expect .lParen, .separated .rParen element, .expect .rParen]).read readings s =
      ((s.take [.lParen]).1 ++ (((Steps.separated .rParen element).read readings (s.take [.lParen]).2).1 ++
          ((((Steps.separated .rParen element).read readings (s.take [.lParen]).2).2.take [.rParen]).1 ++ [])),
        (((Steps.separated .rParen element).read readings (s.take [.lParen]).2).2.take [.rParen]).2) := rfl
  rw [argListBody, Body.read_ofSteps, hall] at hfits ⊢
  have hitemsFits := Steps.fits_before h (.expect .rParen) hfits
  have hends := (Steps.read_fitting h.fit (.seq (.expect .lParen) (.separated .rParen element)) s (by decide)
    argItems_forms hitemsFits).last
  obtain ⟨opening, -, -, hopeningSame, hopeningKind, hopen⟩ :=
    Sight.take_fits (by decide) (Steps.fits_before h (.separated .rParen element) hitemsFits)
  rw [hbare] at hopen
  rw [hsplit, hopen] at hends
  rw [hopen] at hfits hitemsFits ⊢
  generalize hitems : (Steps.separated .rParen element).read readings s.advance = items
  dsimp only at hfits hitemsFits hends ⊢
  rw [hitems] at hfits hitemsFits hends
  obtain ⟨closing, hshows, -, hclosingSame, hclosingKind, hclose⟩ := Sight.take_fits (by decide) hfits
  refine ⟨opening, closing, items, rfl, hitemsFits, hopeningSame.trans (List.mem_singleton.mp hopeningKind),
    hclosingSame.trans (List.mem_singleton.mp hclosingKind), hshows, ?_, hends⟩
  rw [hclose, List.append_nil]
  simp

/-- What stands between the parentheses, with the object behind the last of it. -/
theorem argListBody_put (h : readings.Orderly)
    (hrule : ∀ safe, (Phrase.call .expression).Again config readings readings' safe)
    (hobjects : readings'.HasObjects config) {s : Sight} (hbare : s.leading = [])
    (hfits : (argListBody.read readings s).2.misfits = []) {front front' blanks : List Tree}
    {last last' : Tree} {close : Token} (params returned : Nat)
    (hread : (argListBody.read readings s).1.2 = front ++ last :: (blanks ++ [.leaf close]))
    (hfront : GrownAll config front front') (hlast : Grown config last last')
    (hopened : ∃ token, .leaf token ∈ front ∧ token.isTrivia = false) (hsolid : last.isTrivia = false)
    (hblanks : ∀ blank ∈ blanks, blank.isTrivia = true) {rest' : List Token}
    (hmeets : Meets safe (argListBody.read readings s).2.tokens rest') :
    Yields (argListBody.read readings')
      (tokensOf (front' ++ last' ::
        (groupBehind (argument config params returned) last' ++ (blanks ++ [.leaf close]))) ++ rest')
      (.argList, front' ++ last' ::
        (groupBehind (argument config params returned) last' ++ (blanks ++ [.leaf close]))) rest' := by
  obtain ⟨opening, closing, items, hitems, hitemsFits, hopening, hclosing, hshows, hparts, hends⟩ :=
    argListBody_parts h hbare hfits
  rw [hparts] at hread hmeets
  have hclosingSolid : closing.isTrivia = false := solid_of_close hclosing
  have hopeningSolid : opening.isTrivia = false := by rw [Token.isTrivia, hopening]; rfl
  have hkind : items.2.kind = .rParen := by
    rw [(hshows.next (Sight.leading_trivia _) hclosingSolid).1, hclosing]
  have hcut : (.leaf opening :: items.1 ++ items.2.leading.map .leaf) ++ [.leaf closing] =
      (front ++ last :: blanks) ++ [.leaf close] := by simpa using hread
  obtain ⟨hbefore, hcloses⟩ := List.append_inj' hcut rfl
  obtain rfl : closing = close := by simpa using hcloses
  obtain ⟨hitemsCut, rfl⟩ := last_unique hbefore hends (List.cons_ne_nil _ _) (Sight.leading_trivia _) hsolid hblanks
  cases front with
  | nil =>
    obtain ⟨token, htoken, -⟩ := hopened
    cases htoken
  | cons first front =>
    obtain ⟨rfl, hlastItem⟩ := List.cons.inj hitemsCut
    cases hfront with
    | cons hfirst hfront =>
      cases hfirst
      rw [← hitems] at hitemsFits hkind hlastItem
      have hmiddle := hmeets.token hshows hclosingSolid
      have hyields := items_again h hrule hobjects params returned hlast s.advance hitemsFits hkind hlastItem hfront
        (by rw [hitems]; exact hmiddle)
      have hopens : ∀ rest, Yields ((Steps.expect .lParen).read readings') (opening :: rest) [.leaf opening] rest :=
        fun rest => .takeNext hopeningSolid (by rw [hopening]; exact List.mem_singleton_self _)
      have hcloses : Yields ((Steps.expect .rParen).read readings') (items.2.leading ++ closing :: rest')
          ((items.2.leading ++ [closing]).map .leaf) rest' :=
        .take (Sight.leading_trivia _) hclosingSolid (by rw [hclosing]; exact List.mem_singleton_self _)
      have hall : Yields (argListBody.read readings') _ (.argList, _) rest' :=
        .ofSteps ((hopens _).seq (hyields.seq (hcloses.seq .done)))
      simpa [tokensOf_append, tokensOf, Tree.tokens, tokensOf_leaves] using hall

/-- A list of arguments is read again, with the object behind the last one if there is one. -/
theorem list_again (h : readings.Orderly)
    (hrule : ∀ safe, (Phrase.call .expression).Again config readings readings' safe)
    (hobjects : readings'.HasObjects config) : (Phrase.node argListBody).Again config readings readings' safe := by
  intro s blanks tree tree' rest' hfits hfound hgrown hmeets
  have hsteady : argListBody.steady = true := by decide
  have hsome : argListBody.takesSome = true := by decide
  rw [Phrase.read] at hfits hfound hmeets
  obtain ⟨rfl, rfl⟩ := Prod.mk.inj (Option.some_inj.mp hfound)
  have hkind : (argListBody.read readings s.flush).1.1 = .argList := by
    rw [argListBody, Body.read_ofSteps]
  have hopening : Token.opening (tree'.tokens ++ rest') = Token.opening s.flush.tokens := by
    rw [argListBody.read_tokens h.tokens s.flush]
    exact hgrown.opening (.inr (Body.read_some h hsteady hsome hfits))
  have hbare : s.flush.leading = [] := by
    obtain ⟨_ | ⟨next, rest⟩, misfits⟩ := s <;> rfl
  rw [hkind] at hgrown
  rcases hgrown.inList with ⟨outs, rfl, hbelow⟩ |
    ⟨front, front', blanks, last, last', close, params, returned, hread, rfl, hfront, hlast, hopened, hsolid, hblanks⟩
  · have hinside := Phrase.Again.inside h hsteady hsome (argListBody_again h (hrule false)) hfits hbelow hmeets
    rw [hkind] at hinside
    exact hinside
  · have hput := argListBody_put h hrule hobjects hbare hfits params returned hread hfront hlast hopened hsolid
      hblanks hmeets
    exact Phrase.node_yields h hsteady hsome hfits hopening hput

end

/-! ## Rules -/

namespace Grammar

theorem readingsUpTo_hasObjects (config : Config) (depth : Nat) :
    (readingsUpTo (depth + 6)).HasObjects config := by
  intro params returned blanks behind hblanks hends
  exact argument_read config depth params returned hblanks hends

/-- Every rule reads again what it read, if the rules are nested at least so much deeper that they come to
the numbers in an object. -/
theorem readingsUpTo_again (config : Config) (more depth : Nat) :
    Readings.Again config (readingsUpTo depth) (readingsUpTo (depth + (more + 6))) := by
  have hobjects := readingsUpTo_hasObjects config
  induction depth with
  | zero =>
    have hrule : ∀ (rule : Rule) (safe : Bool), (Phrase.call rule).Again config (readingsUpTo 0)
        (readingsUpTo (0 + (more + 6))) safe :=
      fun rule safe s _ _ _ _ hfits => absurd hfits (s.misfits_refuse .expression)
    exact ⟨readingsUpTo_orderly 0, fun rule safe _ => hrule rule safe,
      fun safe => list_again (readingsUpTo_orderly 0) (hrule .expression) (hobjects (0 + more))⟩
  | succ depth ih =>
    have hrule : ∀ (rule : Rule) (safe : Bool), (safe = true → rule ≠ .statement) →
        (Phrase.call rule).Again config (readingsUpTo (depth + 1)) (readingsUpTo (depth + 1 + (more + 6))) safe := by
      intro rule safe hsafe
      have hphrase := (phraseOf rule).again ih safe (phraseOf_steady rule) (phraseOf_takesSome rule)
        fun hs => phraseOf_tailSafe rule (hsafe hs)
      rw [Nat.add_right_comm]
      exact hphrase
    refine ⟨readingsUpTo_orderly (depth + 1), hrule, fun safe => ?_⟩
    exact list_again (readingsUpTo_orderly (depth + 1)) (fun safe => hrule .expression safe fun _ => by decide)
      (hobjects (depth + 1 + more))

end Grammar

end RouteTypes
