-- The text of a tree that has grown is cut into its own tokens. What is put in starts with a comma or a blank
-- and ends with a bracket or a comma, whatever the names of the fields, and it stands behind a token that ends
-- by itself.
import RouteTypes.Proofs.Route.Objects
import RouteTypes.Proofs.Token.Cutting

namespace RouteTypes

open RouteTypes.Tree

namespace Token

/-! ## Strings -/

theorem stringBody_quoteChar (c : Char) (rest : List Char) : stringBody '"' (Tree.quoteChar c ++ rest) =
    ((stringBody '"' rest).1, (stringBody '"' rest).2 + (Tree.quoteChar c).length) := by
  by_cases hescaped : c ∈ ['"', '\\', '\n', '\r', '\t']
  · simp only [List.mem_cons, List.not_mem_nil, or_false] at hescaped
    rcases hescaped with rfl | rfl | rfl | rfl | rfl <;> exact stringBody_escape _ _ _
  · simp only [List.mem_cons, List.not_mem_nil, or_false, not_or] at hescaped
    obtain ⟨hquote, hslash, hfeed, hreturn, htab⟩ := hescaped
    have hself : Tree.quoteChar c = [c] := by simp [Tree.quoteChar, hquote, hslash, hfeed, hreturn, htab]
    rw [hself, List.singleton_append, stringBody_plain hslash, if_neg fun h => hfeed h.1, if_neg hquote]
    rfl

/-- What is written in a string does not end it. -/
theorem stringBody_quoted (cs rest : List Char) : stringBody '"' (cs.flatMap Tree.quoteChar ++ '"' :: rest) =
    (.stringLiteral, (cs.flatMap Tree.quoteChar).length + 1) := by
  induction cs with
  | nil =>
    rw [List.flatMap_nil, List.nil_append, stringBody_plain (by decide)]
    rfl
  | cons c cs ih =>
    rw [List.flatMap_cons, List.append_assoc, List.length_append, stringBody_quoteChar, ih]
    exact Prod.ext rfl (by dsimp only; omega)

end Token

namespace Route

open Token

variable {config : Config}

/-! ## What is put in -/

/-- A string is cut out before anything. -/
theorem cut_string (text : String) {tokens : List Token} (h : Cut tokens) :
    Cut (⟨.stringLiteral, String.ofList ('"' :: (text.toList.flatMap Tree.quoteChar ++ ['"']))⟩ :: tokens) := by
  refine .next ?_ h
  rw [munch_quote (by decide), List.append_assoc, List.singleton_append, stringBody_quoted, List.length_append]
  rfl

/-- A key is cut out before a colon. -/
theorem cut_key (text : String) {tokens : List Token} {rest : List Char} (hnext : chars tokens = ':' :: rest)
    (h : Cut tokens) : Cut (keyToken text :: tokens) := by
  unfold keyToken
  split
  · rename_i hname
    exact cut_word hname hnext (by decide) h
  · exact cut_string text h

/-- The tokens of a member of an object are cut out, if those from its value on are. -/
theorem cut_assignment (key : String) {value : Made} {tokens : List Token}
    (h : Cut (value.tree.tokens ++ tokens)) : Cut (Grammar.assignmentTokens key value.tree ++ tokens) := by
  have hvalue : Cut (blankToken :: (value.tree.tokens ++ tokens)) := by
    obtain ⟨token, rest, htokens, hkind⟩ := value.exists_first
    rw [htokens] at h ⊢
    refine cut_blank (fun hblank => ?_) h
    rw [hblank] at hkind
    exact absurd hkind (by decide)
  have hcolon : Cut (⟨.colon, ":"⟩ :: blankToken :: (value.tree.tokens ++ tokens)) :=
    @cut_bracket _ ':' (by decide) hvalue
  refine cut_blank (fun hkind => ?_) (cut_key key rfl hcolon)
  have hsolid := keyToken_solid key
  rw [Token.isTrivia, hkind] at hsolid
  cases hsolid

mutual

/-- What is made is cut out before a stop. -/
theorem cut_made : ∀ (made : Made) {tokens : List Token} {d : Char} {rest : List Char},
    chars tokens = d :: rest → d ∈ stops → Cut tokens → Cut (made.tree.tokens ++ tokens)
  | .number value, _, _, _, hnext, hd, h => cut_number value hnext hd h
  | .string value, _, _, _, _, _, h => cut_string value h
  | .object members, tokens, _, _, _, _, h => by
    rw [Made.tree, Grammar.objectLiteral_tokens]
    simp only [List.cons_append, List.append_assoc, List.nil_append]
    exact @cut_bracket _ '{' (by decide) (cut_members members h)

/-- The members of an object are cut out before anything, with the brace behind them. -/
theorem cut_members : ∀ (members : List (String × Made)) {tokens : List Token}, Cut tokens →
    Cut (tokensOf (Grammar.spacedBefore (Made.assignments members)) ++
      (Grammar.blankBehind (Made.assignments members) ++ ⟨.rBrace, "\x7d"⟩ :: tokens))
  | [], tokens, h => @cut_bracket tokens '}' (by decide) h
  | [(key, value)], tokens, h => by
    have hclose : Cut (blankToken :: ⟨.rBrace, "\x7d"⟩ :: tokens) :=
      cut_blank (by decide) (@cut_bracket tokens '}' (by decide) h)
    have hone := cut_assignment key (cut_made value rfl (by decide) hclose)
    rw [← Grammar.assignment_tokens] at hone
    simpa [Made.assignments, Grammar.spacedBefore, Grammar.blankBehind, tokensOf, Tree.tokens] using hone
  | (key, value) :: next :: rest, tokens, h => by
    have hcomma : Cut (⟨.comma, ","⟩ :: _) := @cut_bracket _ ',' (by decide) (cut_members (next :: rest) h)
    have hone := cut_assignment key (cut_made value rfl (by decide) hcomma)
    rw [← Grammar.assignment_tokens] at hone
    simpa [Made.assignments, Grammar.spacedBefore, Grammar.blankBehind, tokensOf, Tree.tokens] using hone

end

/-- An object is cut out before anything. -/
theorem cut_argument (config : Config) (params returned : Nat) {tokens : List Token} (h : Cut tokens) :
    Cut ((argument config params returned).tokens ++ tokens) := by
  rw [← Made.tree_argument, Made.argument, Made.tree, Grammar.objectLiteral_tokens]
  simp only [List.cons_append, List.append_assoc, List.nil_append]
  exact @cut_bracket _ '{' (by decide) (cut_members _ h)

/-- An object, and the comma that divides it from what stands before it. -/
theorem group_argument (config : Config) (params returned : Nat) (last : Tree) :
    Group (tokensOf (groupBehind (argument config params returned) last)) := by
  have hblank : ∀ tokens, Cut tokens →
      Cut (blankToken :: ((argument config params returned).tokens ++ tokens)) := by
    intro tokens h
    have hobject := cut_argument config params returned h
    rw [argument_tokens] at hobject ⊢
    exact cut_blank (by decide) hobject
  unfold groupBehind
  split
  · refine ⟨⟨' ', _, rfl, by decide⟩, fun tokens h => ?_⟩
    have hcomma : Cut (⟨.comma, ","⟩ :: tokens) := @cut_bracket tokens ',' (by decide) h
    have hgroup := hblank _ hcomma
    simpa [tokensOf, Tree.tokens, Tree.space, Tree.comma, blankToken] using hgroup
  · refine ⟨⟨',', _, rfl, by decide⟩, fun tokens h => ?_⟩
    have hgroup : Cut (⟨.comma, ","⟩ :: blankToken :: ((argument config params returned).tokens ++ tokens)) :=
      @cut_bracket _ ',' (by decide) (hblank tokens h)
    simpa [tokensOf, Tree.tokens, Tree.space, Tree.comma, blankToken] using hgroup

/-! ## Tokens of what has grown -/

theorem beforeStop_end {blanks : List Tree} {close : Token} (hblanks : ∀ blank ∈ blanks, blank.isTrivia = true)
    (hclose : close.kind = .rParen) : BeforeStop (tokensOf (blanks ++ [.leaf close])) := by
  have htrivia := tokens_of_trivia hblanks
  rw [tokensOf_append]
  cases htokens : tokensOf blanks with
  | nil => exact ⟨close, rfl, by rw [hclose]; rfl⟩
  | cons token rest =>
    have htoken : token.isTrivia = true := htrivia token (by rw [htokens]; exact List.mem_cons_self)
    exact ⟨token, rfl, Bool.or_eq_true_iff.mpr (.inl htoken)⟩

mutual

theorem Grown.filled {tree tree' : Tree} : Grown config tree tree' → tree.Sound Grammar.forms →
    Token.Filled tree.tokens tree'.tokens
  | .leaf token, _ => .refl _
  | .node _ below, hsound => below.filled hsound.child
  | @Grown.list _ front front' blanks last last' close params returned items item _ solid trivia closes, hsound => by
    have hmem : last ∈ front ++ last :: (blanks ++ [.leaf close]) :=
      List.mem_append_right front List.mem_cons_self
    have hfront := items.filled fun tree htree => hsound.child tree (List.mem_append_left _ htree)
    have hlast := item.filled (hsound.child last hmem)
    obtain ⟨token, htoken, hclosed, -⟩ := last_item hsound hmem solid
    obtain ⟨before, hbefore⟩ := List.getLast?_eq_some_iff.mp htoken
    rw [hbefore] at hlast
    have hgroup := hlast.behind hclosed (group_argument config params returned last') (beforeStop_end trivia closes)
      (.refl _)
    simpa only [Tree.tokens, tokensOf_append, tokensOf, hbefore] using hfront.append hgroup

theorem GrownAll.filled {trees trees' : List Tree} : GrownAll config trees trees' →
    (∀ tree ∈ trees, tree.Sound Grammar.forms) → Token.Filled (tokensOf trees) (tokensOf trees')
  | .nil, _ => .nil
  | .cons first others, hsound =>
    (first.filled (hsound _ List.mem_cons_self)).append
      (others.filled fun tree htree => hsound tree (List.mem_cons_of_mem _ htree))

end

/-- The text of a program that has grown is cut into the tokens of its tree. -/
theorem ofSource_grown {source : String} {tree' : Tree} (hread : (Program.ofSource source).isOk = true)
    (hgrown : Grown config (Program.ofSource source).tree tree') : Token.ofSource tree'.text = tree'.tokens := by
  have hfilled := hgrown.filled (program_sound hread)
  rw [Program.tokens_tree] at hfilled
  have hcut := hfilled.cut (Token.cut_scan source.toList)
  rw [Token.ofSource, Tree.text, Token.toList_join, hcut.scan]

end Route

end RouteTypes
