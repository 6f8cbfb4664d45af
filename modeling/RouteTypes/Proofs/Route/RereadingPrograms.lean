-- Whole programs read again. A program is its statements and the end of its text, so it is read again from
-- the tokens of what has grown of it, and those are what its text is cut into. So the text of an annotated
-- program is read back as the tree that it was printed from.
import RouteTypes.Proofs.Grammar.Forms
import RouteTypes.Proofs.Route.Appending
import RouteTypes.Proofs.Route.Numbering
import RouteTypes.Proofs.Route.Recutting

namespace RouteTypes

open RouteTypes.Tree RouteTypes.Route

namespace Grammar

variable {config : Config} {blanks : List Token} {last : Token}

/-! ## Statements -/

theorem solid_of_end (hlast : last.kind = .eof) : last.isTrivia = false := by
  rw [Token.isTrivia, hlast]
  rfl

/-- At the end of the text nothing is left to sweep up. -/
theorem unread_nothing {readings : Readings} (hblanks : ∀ blank ∈ blanks, blank.isTrivia = true)
    (hlast : last.kind = .eof) : Yields (unread.read readings) (blanks ++ [last]) [] (blanks ++ [last]) := by
  have hno : (Question.not (.next [.eof])).Answers (blanks ++ [last]) false := by
    refine .of_at hblanks (solid_of_end hlast) ?_
    rw [hlast]
    rfl
  exact .branch hno .done

/-- The statements of a program are read again, up to the end of its text. -/
theorem statements_again {depth depth' : Nat}
    (h : Readings.Again config (readingsUpTo depth) (readingsUpTo depth')) {s : Sight} {outs : List Tree}
    (hfits : (statements.read (readingsUpTo depth) s).2.misfits = [])
    (hgrown : GrownAll config (statements.read (readingsUpTo depth) s).1 outs)
    (hbehind : (statements.read (readingsUpTo depth) s).2.tokens = blanks ++ [last])
    (hblanks : ∀ blank ∈ blanks, blank.isTrivia = true) (hlast : last.kind = .eof) :
    Yields (statements.read (readingsUpTo depth')) (tokensOf outs ++ (blanks ++ [last])) outs
      (blanks ++ [last]) := by
  have hread := statements_read depth s hfits
  rw [hread] at hfits hgrown hbehind
  obtain ⟨leaves, trees, rfl, hleaves, htrees⟩ := hgrown.split
  obtain rfl := hleaves.leaves
  cases htrees with
  | cons hnode hnone =>
    cases hnone
    obtain ⟨rows, rfl, hrows⟩ := hnode.inside (by decide)
    have hrow : statementRow.Again config (readingsUpTo depth) (readingsUpTo depth') false :=
      .loop h.orderly (by decide) (by decide) (.part h.orderly (h.rule .statement false Bool.noConfusion))
        Bool.noConfusion
    have hyields := hrow s.flush rows (blanks ++ [last]) hfits hrows (by
      rw [hbehind]
      exact ⟨.refl _, .inl rfl⟩)
    have hsame : Token.opening (tokensOf rows ++ (blanks ++ [last])) = Token.opening s.flush.tokens := by
      rw [statementRow.read_tokens (readingsUpTo_tokens depth) s.flush, hbehind]
      exact hrows.opening (.inl rfl)
    obtain ⟨token, hopens⟩ := @Sight.opening_flush s (by
      rw [statementRow.read_tokens (readingsUpTo_tokens depth) s.flush, hbehind]
      simp [Token.solidKinds, solid_of_end hlast])
    obtain ⟨rest, htokens, -, hsolid⟩ := Token.of_opening (hsame.trans hopens)
    have hall := hyields.seq ((unread_nothing hblanks hlast).seq .done)
    rw [htokens, List.append_nil, List.append_nil] at hall
    have hnode : Yields (statements.read (readingsUpTo depth')) (s.leading ++ token :: rest)
        (s.leading.map .leaf ++ [.node .stmtList rows]) (blanks ++ [last]) := .emit s.leading_trivia hsolid hall
    rw [tokensOf_append, tokensOf_leaves, tokensOf, tokensOf, List.append_nil, List.append_assoc,
      Tree.tokens, htokens]
    exact hnode

/-! ## Programs -/

theorem program_again {depth depth' : Nat}
    (h : Readings.Again config (readingsUpTo depth) (readingsUpTo depth')) {s : Sight} {rows : List Tree}
    (hfits : (statements.read (readingsUpTo depth) s).2.misfits = [])
    (hgrown : GrownAll config (statements.read (readingsUpTo depth) s).1 rows)
    (hbehind : (statements.read (readingsUpTo depth) s).2.tokens = blanks ++ [last])
    (hblanks : ∀ blank ∈ blanks, blank.isTrivia = true) (hlast : last.kind = .eof) :
    Yields (program.read (readingsUpTo depth')) (tokensOf rows ++ (blanks ++ [last]))
      (.sourceFile, rows ++ (blanks ++ [last]).map .leaf) [] := by
  have hstatements := statements_again h hfits hgrown hbehind hblanks hlast
  have hend : Yields ((Steps.expect .eof).read (readingsUpTo depth')) (blanks ++ [last])
      ((blanks ++ [last]).map .leaf) [] :=
    .take hblanks (solid_of_end hlast) (by rw [hlast]; exact List.mem_singleton_self _)
  have hall := hstatements.seq (hend.seq .done)
  rw [List.append_nil] at hall
  exact .ofSteps hall

theorem depthFor_grown {count count' : Nat} (h : count + 10 ≤ count') :
    ∃ more, depthFor count' = depthFor count + (more + 6) :=
  ⟨5 * (count' - count) - 6, by simp only [depthFor]; omega⟩

/-- A program without misfits is read again from the tokens of what has grown of it. -/
theorem parts_again {tokens before : List Token} (htokens : tokens = before ++ [last]) (hlast : last.kind = .eof)
    (hbefore : ∀ token ∈ before, token.kind ≠ .eof) (hfits : (parts tokens).2.misfits = []) {outs : List Tree}
    (hgrown : GrownAll config (parts tokens).1 outs) :
    (parts (tokensOf outs)).1 = outs ∧ (parts (tokensOf outs)).2.misfits = [] := by
  rcases hgrown.more with rfl | hmore
  · rw [← parts_keep htokens hlast hbefore]
    exact ⟨rfl, hfits⟩
  · rw [← parts_keep htokens hlast hbefore] at hmore
    obtain ⟨-, -, hnext, hnothing⟩ := statementsOf_end htokens hlast hbefore
    have hbehind : (statementsOf tokens).2.tokens = (statementsOf tokens).2.leading ++ [last] := by
      rw [Sight.tokens_advance, hnext, hnothing, List.append_nil]
    rw [parts_ending htokens hlast hbefore] at hfits hgrown
    obtain ⟨rows, ends, rfl, hrows, hends⟩ := hgrown.split
    rw [hends.leaves, tokensOf_append, tokensOf_leaves] at hmore ⊢
    have hblanks := (statementsOf tokens).2.leading_trivia
    generalize (statementsOf tokens).2.leading = blanks at hbehind hmore hblanks ⊢
    have hshown : (Sight.ofTokens (tokensOf rows ++ (blanks ++ [last]))).Shows
        (tokensOf rows ++ (blanks ++ [last])) :=
      ⟨rfl, Sight.tokens_ofTokens (List.append_assoc _ _ _).symm hlast⟩
    obtain ⟨more, hdepth⟩ := depthFor_grown hmore
    rw [← hshown.length, ← Sight.tokens_ofTokens htokens hlast, ← Sight.length_eq] at hdepth
    have hagain := readingsUpTo_again config more (depthFor (Sight.ofTokens tokens).ahead.length)
    rw [← hdepth] at hagain
    obtain ⟨hparts, hsight⟩ := program_again hagain hfits hrows hbehind hblanks hlast _ hshown
    exact ⟨congrArg Prod.snd hparts, hsight.fits⟩

end Grammar

namespace Route

variable {config : Config}

/-- What has grown of a program is what its text is read as. -/
theorem grown_text {source : String} {tree' : Tree} (hread : (Program.ofSource source).isOk = true)
    (hgrown : Grown config (Program.ofSource source).tree tree') :
    (Program.ofSource tree'.text).isOk = true ∧ (Program.ofSource tree'.text).tree = tree' := by
  obtain ⟨before, htokens, hbefore⟩ := Token.ofSource_ends source
  have hcut := ofSource_grown hread hgrown
  rw [Program.ofSource_eq source] at hread hgrown
  obtain ⟨outs, rfl, houts⟩ := hgrown.inside (by decide)
  obtain ⟨hparts, hfits⟩ := Grammar.parts_again htokens rfl hbefore (List.isEmpty_iff.mp hread) houts
  rw [Program.ofSource_eq, hcut, Tree.tokens]
  exact ⟨List.isEmpty_iff.mpr hfits, congrArg (Tree.node .sourceFile) hparts⟩

/-- The text of an annotated program is read without misfits, whatever the names of the fields are, and what
is read is the tree that the annotation has made, with every blank and comment at its place. -/
theorem annotated_text_is_read_back {source : String} {program : Callables} {annotated : Annotated}
    (hread : (Program.ofSource source).isOk = true)
    (h : annotate config program (Program.ofSource source).root = .ok annotated) :
    let out := annotated.visit.resultAt (Program.ofSource source).root
    (Program.ofSource out.text).isOk = true ∧ (Program.ofSource out.text).tree = out :=
  grown_text hread (annotate_grows hread h)

theorem oneRoute_is_read_back : (Program.ofSource oneRoute).isOk = true ∧
    ∃ program annotated,
      annotate oneRouteConfig program (Program.ofSource oneRoute).root = .ok annotated ∧
        (Program.ofSource (annotated.visit.resultAt (Program.ofSource oneRoute).root).text).isOk = true ∧
        (Program.ofSource (annotated.visit.resultAt (Program.ofSource oneRoute).root).text).tree =
          annotated.visit.resultAt (Program.ofSource oneRoute).root := by
  obtain ⟨hread, program, annotated, h, -⟩ := oneRoute_annotates
  exact ⟨hread, program, annotated, h, annotated_text_is_read_back hread h⟩

end Route

end RouteTypes
