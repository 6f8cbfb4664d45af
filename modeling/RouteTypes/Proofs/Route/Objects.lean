-- What is made as an expression, numbers, strings and objects of such, is read as this expression again, if a
-- comma or something that closes stands behind it. Its first token tells which forms of the grammar are picked,
-- and what stands behind it tells that no operator follows. The object that is put in is one of these.
import RouteTypes.Proofs.Grammar.Yielding
import RouteTypes.Proofs.Route.Growth

namespace RouteTypes

open RouteTypes.Tree RouteTypes.Route

/-! ## What the next token tells -/

/-- What a phrase comes down to where the next token is of that kind, as far as this tells it. -/
def Phrase.pick (kind : TokenKind) : Phrase → Phrase
  | .branch question yes no =>
    match question.at? kind with
    | some true => yes.pick kind
    | some false => no.pick kind
    | none => .branch question yes no
  | phrase => phrase

/-- Whether a suffix makes no node where the next token is of that kind. -/
def Suffix.stopsAt (kind : TokenKind) : Suffix → Bool
  | .stop => true
  | .around _ => false
  | .branch question yes no =>
    match question.at? kind with
    | some true => yes.stopsAt kind
    | some false => no.stopsAt kind
    | none => false

namespace Yields

variable {readings : Readings} {blanks rest behind : List Token} {token : Token}

theorem pick {found : Found} (hblanks : ∀ blank ∈ blanks, blank.isTrivia = true)
    (hsolid : token.isTrivia = false) : ∀ phrase : Phrase,
    Yields ((phrase.pick token.kind).read readings) (blanks ++ token :: rest) found behind →
      Yields (phrase.read readings) (blanks ++ token :: rest) found behind
  | .refuse _, h | .node _, h | .call _, h | .wrap _ _, h | .extend _ _, h => h
  | .branch question yes no, h => by
    rw [Phrase.pick] at h
    split at h
    · rename_i hanswer
      exact .phraseBranch (.of_at hblanks hsolid hanswer) (pick hblanks hsolid yes h)
    · rename_i hanswer
      exact .phraseBranch (.of_at hblanks hsolid hanswer) (pick hblanks hsolid no h)
    · exact h

theorem stopsAt {inner : Tree} (hblanks : ∀ blank ∈ blanks, blank.isTrivia = true)
    (hsolid : token.isTrivia = false) : ∀ suffix : Suffix, suffix.stopsAt token.kind = true →
      Yields (suffix.read readings inner) (blanks ++ token :: rest) none (blanks ++ token :: rest)
  | .stop, _ => .stop
  | .branch question yes no, h => by
    rw [Suffix.stopsAt] at h
    split at h
    · rename_i hanswer
      exact .suffixBranch (.of_at hblanks hsolid hanswer) (stopsAt hblanks hsolid yes h)
    · rename_i hanswer
      exact .suffixBranch (.of_at hblanks hsolid hanswer) (stopsAt hblanks hsolid no h)
    · cases h

/-- There are no blanks before the next token. -/
theorem stopsNext {inner : Tree} (hsolid : token.isTrivia = false) (suffix : Suffix)
    (h : suffix.stopsAt token.kind = true) :
    Yields (suffix.read readings inner) (token :: rest) none (token :: rest) :=
  @stopsAt readings [] rest token inner (fun _ hblank => absurd hblank List.not_mem_nil) hsolid suffix h

theorem pickNext {found : Found} (hsolid : token.isTrivia = false) (phrase : Phrase)
    (h : Yields ((phrase.pick token.kind).read readings) (token :: rest) found behind) :
    Yields (phrase.read readings) (token :: rest) found behind :=
  @pick readings [] rest behind token found (fun _ hblank => absurd hblank List.not_mem_nil) hsolid phrase h

end Yields

/-! ## What can be made -/

/-- An expression that can be made. -/
inductive Made where
  | number (value : Nat)
  | string (value : String)
  | object (members : List (String × Made))

namespace Made

mutual

/-- The tree that is made. -/
def tree : Made → Tree
  | .number value => .numberLiteral value
  | .string value => .stringLiteral value
  | .object members => .objectLiteral (assignments members)

/-- The members of an object that is made. -/
def assignments : List (String × Made) → List Tree
  | [] => []
  | (key, value) :: rest => .propertyAssignment key value.tree :: assignments rest

end

mutual

/-- How deep objects are nested. -/
def depth : Made → Nat
  | .number _ | .string _ => 0
  | .object members => depthOf members

def depthOf : List (String × Made) → Nat
  | [] => 0
  | (_, value) :: rest => max (value.depth + 1) (depthOf rest)

end

/-- What is put into a call. -/
def argument (config : Config) (params returned : Nat) : Made :=
  .object [(config.paramsField, .number params), (config.returnField, .number returned)]

theorem tree_argument (config : Config) (params returned : Nat) :
    (argument config params returned).tree = Route.argument config params returned := rfl

/-- What is made starts with one of three tokens. -/
theorem exists_first (made : Made) : ∃ token rest, made.tree.tokens = token :: rest ∧
    token.kind ∈ [TokenKind.numberLiteral, .stringLiteral, .lBrace] := by
  cases made with
  | number value => exact ⟨_, _, rfl, List.mem_cons_self⟩
  | string value => exact ⟨_, _, rfl, List.mem_cons_of_mem _ List.mem_cons_self⟩
  | object members => exact ⟨_, _, rfl, by decide⟩

end Made

namespace Grammar

/-! ## Expressions without operators -/

/-- The tokens behind which an expression has ended. -/
def enders : List TokenKind := [.comma, .rBrace, .rParen]

/-- Tokens that come to an end of an expression next. -/
def Ends (tokens : List Token) : Prop :=
  ∃ blanks token rest, tokens = blanks ++ token :: rest ∧ (∀ blank ∈ blanks, blank.isTrivia = true) ∧
    token.kind ∈ enders

theorem solid_of_enders {token : Token} (h : token.kind ∈ enders) : token.isTrivia = false := by
  have hall : ∀ kind ∈ enders, kind.isTrivia = false := by decide
  exact hall _ h

/-- A suffix that makes no node at any end of an expression. -/
theorem stops_at_end {readings : Readings} {suffix : Suffix} {inner : Tree} {tokens : List Token}
    (h : Ends tokens) (hstops : enders.all (suffix.stopsAt ·) = true) :
    Yields (suffix.read readings inner) tokens none tokens := by
  obtain ⟨blanks, token, rest, rfl, hblanks, hkind⟩ := h
  exact .stopsAt hblanks (solid_of_enders hkind) suffix (List.all_eq_true.mp hstops _ hkind)

/-- What is read as a primary expression is a whole one, if an end comes next. -/
theorem expression_of_primary {depth : Nat} {blanks rest behind : List Token} {token : Token} {tree : Tree}
    (hblanks : ∀ blank ∈ blanks, blank.isTrivia = true) (hsolid : token.isTrivia = false)
    (harrow : Question.arrow.at? token.kind = some false)
    (h : Yields ((primary.pick token.kind).read (readingsUpTo depth)) (blanks ++ token :: rest)
      (some (blanks, tree)) behind) (hends : Ends behind) :
    Yields (readingsUpTo (depth + 3) .expression) (blanks ++ token :: rest) (some (blanks, tree)) behind := by
  have hprimary : Yields ((Phrase.call .primary).read (readingsUpTo (depth + 1))) (blanks ++ token :: rest)
      (some (blanks, tree)) behind := .pick hblanks hsolid primary h
  have hoperand : Yields ((Phrase.call (.operand 0)).read (readingsUpTo (depth + 2)))
      (blanks ++ token :: rest) (some (blanks, tree)) behind :=
    hprimary.extend (.wrapEnd (stops_at_end hends (by decide)))
  have hconditional : Yields (conditional.read (readingsUpTo (depth + 2))) (blanks ++ token :: rest)
      (some (blanks, tree)) behind := hoperand.wrap (stops_at_end hends (by decide))
  refine .phraseBranch (.of_at hblanks hsolid harrow) ?_
  exact hconditional.wrap (stops_at_end hends (by decide))

/-! ## Numbers and strings -/

theorem literal_read {readings : Readings} {blanks rest : List Token} {token : Token}
    (hblanks : ∀ blank ∈ blanks, blank.isTrivia = true)
    (hkind : token.kind = .numberLiteral ∨ token.kind = .stringLiteral) :
    Yields ((primary.pick token.kind).read readings) (blanks ++ token :: rest)
      (some (blanks, .node .literal [.leaf token])) rest := by
  have hsolid : token.isTrivia = false := by
    rw [Token.isTrivia]
    rcases hkind with hkind | hkind <;> rw [hkind] <;> rfl
  have htaken : Yields ((Steps.take [.numberLiteral, .stringLiteral, .trueKw, .falseKw, .nullKw]).read readings)
      (token :: rest) [.leaf token] rest :=
    .takeNext hsolid (by rcases hkind with hkind | hkind <;> rw [hkind] <;> decide)
  rcases hkind with hkind | hkind <;> rw [hkind] <;> exact .node hblanks hsolid (.ofSteps (htaken.seq .done))

/-! ## Members -/

theorem solid_of_key {token : Token} (h : token.kind ∈ keyTokens) : token.isTrivia = false := by
  have hall : ∀ kind ∈ keyTokens, kind.isTrivia = false := by decide
  exact hall _ h

theorem blank_trivia : ∀ blank ∈ [blankToken], blank.isTrivia = true := by decide

/-- The tokens of a member of an object, with the blank before it. -/
def assignmentTokens (key : String) (value : Tree) : List Token :=
  blankToken :: keyToken key :: ⟨.colon, ":"⟩ :: blankToken :: value.tokens

theorem assignment_eq (key : String) (value : Tree) : Tree.propertyAssignment key value =
    .node .propertyAssignment [.node .name [.leaf (keyToken key)], .leaf ⟨.colon, ":"⟩, .leaf blankToken, value] := by
  have hname : Tree.propertyName key = .node .name [.leaf (keyToken key)] := by
    unfold Tree.propertyName keyToken
    split <;> rfl
  rw [Tree.propertyAssignment, hname]
  rfl

theorem assignment_tokens (key : String) (value : Tree) :
    blankToken :: (Tree.propertyAssignment key value).tokens = assignmentTokens key value := by
  simp [assignment_eq, assignmentTokens, Tree.tokens, tokensOf]

section

variable {readings : Readings} {key : String} {value : Tree} {rest : List Token}

/-- A key, a colon and a value. -/
theorem assignment_read (hvalue : Yields (readings .expression) (blankToken :: (value.tokens ++ rest))
      (some ([blankToken], value)) rest) :
    Yields (objectMember.read readings) (assignmentTokens key value ++ rest)
      [.leaf blankToken, .propertyAssignment key value] rest := by
  have hkey := keyToken_kind key
  have hsolid := solid_of_key hkey
  have hno : ∀ kind ∈ keyTokens, (Question.next [.dotDotDot]).at? kind = some false := by decide
  have hyes : ∀ kind ∈ keyTokens, (Question.next keyTokens).at? kind = some true := by decide
  have hvalued : (Question.both (.next [.ident]) (.second [.comma, .rBrace])).Answers
      (assignmentTokens key value ++ rest) false := by
    intro s hs
    have hkinds : s.kinds = (keyToken key).kind :: .colon :: Token.solidKinds (value.tokens ++ rest) := by
      rw [← Sight.solidKinds_tokens, hs.tokens, assignmentTokens, List.cons_append, Token.solidKinds_cons,
        List.cons_append, Token.solidKinds_cons, hsolid]
      rfl
    have hsecond : s.kindAt 1 = .colon := by rw [Sight.kindAt_eq, hkinds]; rfl
    rw [Question.ask, Question.ask, Question.ask, hsecond, Bool.and_eq_false_iff]
    exact .inr rfl
  have hname : ∀ rest, Yields (propertyName.read readings) (keyToken key :: rest)
      [.node .name [.leaf (keyToken key)]] rest := fun rest =>
    .branch (.bare hsolid (hyes _ hkey)) (.emitNext hsolid ((Yields.takeNext hsolid hkey).seq .done))
  have hcolon : ∀ rest, Yields ((Steps.expect .colon).read readings)
      (⟨.colon, ":"⟩ :: rest) [.leaf ⟨.colon, ":"⟩] rest := fun rest =>
    .takeNext rfl (List.mem_singleton_self TokenKind.colon)
  have hassigned := (hname _).seq ((hcolon _).seq (hvalue.callRule.unlessMisfit.seq .done))
  rw [assignment_eq]
  refine .branch (.of_at blank_trivia hsolid (hno _ hkey)) (.branch hvalued ?_)
  exact .emit blank_trivia hsolid hassigned

theorem inside_assignment {more : List Token} :
    (Question.inside [.rBrace]).Answers (assignmentTokens key value ++ more) true := by
  have hkinds : ∀ kind ∈ keyTokens, (Question.inside [.rBrace]).at? kind = some true := by decide
  exact .of_at blank_trivia (solid_of_key (keyToken_kind key)) (hkinds _ (keyToken_kind key))

theorem assignmentTokens_solid : Token.solidKinds (assignmentTokens key value) ≠ [] := by
  rw [assignmentTokens, Token.solidKinds_cons, Token.solidKinds_cons, solid_of_key (keyToken_kind key)]
  exact List.cons_ne_nil _ _

end

/-! ## Objects -/

/-- Members behind blanks with commas between them, without the blank behind the last one. -/
def spacedBefore : List Tree → List Tree
  | [] => []
  | [last] => [.leaf blankToken, last]
  | member :: rest => .leaf blankToken :: member :: .leaf ⟨.comma, ","⟩ :: spacedBefore rest

/-- The blank behind the last member. -/
def blankBehind (members : List Tree) : List Token := if members.isEmpty then [] else [blankToken]

theorem blankBehind_trivia (members : List Tree) : ∀ blank ∈ blankBehind members, blank.isTrivia = true := by
  unfold blankBehind
  split
  · exact fun _ hblank => absurd hblank List.not_mem_nil
  · exact blank_trivia

theorem spaced_eq : ∀ members : List Tree,
    Tree.spaced members = spacedBefore members ++ (blankBehind members).map .leaf
  | [] => rfl
  | [_] => rfl
  | member :: next :: rest => by
    rw [Tree.spaced, spaced_eq (next :: rest)]
    · rfl
    · exact List.cons_ne_nil _ _

/-- The tokens of an object. -/
theorem objectLiteral_tokens (members : List Tree) : (Tree.objectLiteral members).tokens =
    ⟨.lBrace, "\x7b"⟩ :: (tokensOf (spacedBefore members) ++ (blankBehind members ++ [⟨.rBrace, "\x7d"⟩])) := by
  rw [Tree.objectLiteral, Tree.tokens, List.cons_append, tokensOf, tokensOf_append, spaced_eq, tokensOf_append,
    tokensOf_leaves, List.append_assoc]
  rfl

/-- The brace that closes an object is behind its members. -/
theorem ends_object (members : List Tree) (behind : List Token) :
    Ends (blankBehind members ++ ⟨.rBrace, "\x7d"⟩ :: behind) :=
  ⟨_, ⟨.rBrace, "\x7d"⟩, behind, rfl, blankBehind_trivia members, by decide⟩

mutual

/-- What is made is read as an expression. -/
theorem made_read : ∀ (made : Made) (depth : Nat), 3 * (made.depth + 1) ≤ depth →
    ∀ {blanks behind : List Token}, (∀ blank ∈ blanks, blank.isTrivia = true) → Ends behind →
      Yields (readingsUpTo depth .expression) (blanks ++ (made.tree.tokens ++ behind))
        (some (blanks, made.tree)) behind
  | .number value, depth, hdepth, _, _, hblanks, hends => by
    obtain ⟨more, rfl⟩ := Nat.exists_eq_add_of_le' (Nat.le_of_lt_succ (Nat.lt_succ_of_le hdepth))
    exact expression_of_primary hblanks rfl rfl (literal_read hblanks (.inl rfl)) hends
  | .string value, depth, hdepth, _, _, hblanks, hends => by
    obtain ⟨more, rfl⟩ := Nat.exists_eq_add_of_le' (Nat.le_of_lt_succ (Nat.lt_succ_of_le hdepth))
    exact expression_of_primary hblanks rfl rfl (literal_read hblanks (.inr rfl)) hends
  | .object members, depth, hdepth, blanks, behind, hblanks, hends => by
    rw [Made.depth] at hdepth
    obtain ⟨more, rfl⟩ := Nat.exists_eq_add_of_le' (Nat.le_trans (Nat.le_mul_of_pos_right 3 (Nat.succ_pos _)) hdepth)
    have hmembers := members_read members more (by omega) behind
    have hopen : ∀ rest, Yields ((Steps.expect .lBrace).read (readingsUpTo more))
        (⟨.lBrace, "\x7b"⟩ :: rest) [.leaf ⟨.lBrace, "\x7b"⟩] rest := fun rest =>
      .takeNext rfl (List.mem_singleton_self TokenKind.lBrace)
    have hinside := (@Yields.enclosed _ _ .objectLiteral _ _ _ _ _ ((hopen _).seq hmembers)
      (blankBehind_trivia (Made.assignments members)) rfl).seq .done
    have hliteral : Yields (objectLiteral.read (readingsUpTo more))
        (blanks ++ ((Made.object members).tree.tokens ++ behind)) (some (blanks, (Made.object members).tree))
        behind := by
      rw [Made.tree, objectLiteral_tokens, Tree.objectLiteral, spaced_eq]
      simp only [List.cons_append, List.append_assoc, List.nil_append]
      refine .node hblanks rfl (.ofSteps ?_)
      rw [Steps.all, Steps.all]
      simpa only [List.map_append, List.map_cons, List.map_nil, List.append_assoc, List.cons_append, List.nil_append,
        List.append_nil] using hinside
    rw [Made.tree, objectLiteral_tokens] at hliteral ⊢
    exact expression_of_primary hblanks rfl rfl hliteral hends

/-- The members of an object are read up to the brace that closes it. -/
theorem members_read : ∀ (members : List (String × Made)) (depth : Nat), 3 * Made.depthOf members ≤ depth →
    ∀ behind : List Token, Yields ((Steps.separated .rBrace objectMember).read (readingsUpTo depth))
      (tokensOf (spacedBefore (Made.assignments members)) ++
        (blankBehind (Made.assignments members) ++ ⟨.rBrace, "\x7d"⟩ :: behind))
      (spacedBefore (Made.assignments members))
      (blankBehind (Made.assignments members) ++ ⟨.rBrace, "\x7d"⟩ :: behind)
  | [], _, _, _ => .separatedEnd (fun _ hblank => absurd hblank List.not_mem_nil) rfl rfl
  | [(key, value)], depth, hdepth, behind => by
    have hvalue := made_read value depth (by rw [Made.depthOf] at hdepth; omega) blank_trivia
      (ends_object [Tree.propertyAssignment key value.tree] behind)
    have hone := Yields.separatedLast inside_assignment
      (@assignment_read (readingsUpTo depth) key value.tree _ hvalue) blank_trivia rfl rfl
      (Token.solidKinds_length_lt _ assignmentTokens_solid)
    rw [← assignment_tokens] at hone
    simpa [Made.assignments, spacedBefore, tokensOf, Tree.tokens] using hone
  | (key, value) :: next :: rest, depth, hdepth, behind => by
    rw [Made.depthOf] at hdepth
    have hnone : ∀ blank ∈ ([] : List Token), blank.isTrivia = true := by decide
    have hcomma : ∀ rest, Ends (⟨.comma, ","⟩ :: rest) :=
      fun rest => ⟨[], ⟨.comma, ","⟩, rest, rfl, hnone, by decide⟩
    have hvalue := fun rest => made_read value depth (by omega) blank_trivia (hcomma rest)
    have hrest := members_read (next :: rest) depth (by omega) behind
    let others := tokensOf (spacedBefore (Made.assignments (next :: rest))) ++
      (blankBehind (Made.assignments (next :: rest)) ++ ⟨.rBrace, "\x7d"⟩ :: behind)
    have hitem : Yields (objectMember.read (readingsUpTo depth))
        (assignmentTokens key value.tree ++ ([] ++ ⟨.comma, ","⟩ :: others))
        [.leaf blankToken, .propertyAssignment key value.tree] ([] ++ ⟨.comma, ","⟩ :: others) :=
      assignment_read (hvalue others)
    have hall := Yields.separatedNext inside_assignment hitem hnone rfl (by decide)
      (Token.solidKinds_length_le _ _) hrest
    rw [← assignment_tokens] at hall
    simpa [Made.assignments, spacedBefore, tokensOf, Tree.tokens, blankBehind, others] using hall

end

/-- The object is read as an expression. -/
theorem argument_read (config : Config) (depth params returned : Nat) {blanks behind : List Token}
    (hblanks : ∀ blank ∈ blanks, blank.isTrivia = true) (hends : Ends behind) :
    Yields (readingsUpTo (depth + 6) .expression)
      (blanks ++ ((argument config params returned).tokens ++ behind))
      (some (blanks, argument config params returned)) behind :=
  made_read (.argument config params returned) (depth + 6) (Nat.le_add_left 6 depth) hblanks hends

end Grammar

end RouteTypes
