-- How a tree grows when its registrations are annotated: lists of arguments get an object as one more item,
-- and nothing else changes. Told of trees alone, without places and numbers.
import RouteTypes.Proofs.Grammar.Widening
import RouteTypes.Proofs.Route.Insertion

namespace RouteTypes

open RouteTypes.Tree

namespace Route

/-! ## Growth -/

section

variable (config : Config)

mutual

/-- Whether the second tree is the first one with objects put in behind the last arguments of calls that
have some. -/
inductive Grown : Tree → Tree → Prop
  | leaf (token : Token) : Grown (.leaf token) (.leaf token)
  | node (kind : NodeKind) {children children' : List Tree} (below : GrownAll children children') :
      Grown (.node kind children) (.node kind children')
  | list {front front' blanks : List Tree} {last last' : Tree} {close : Token} {params returned : Nat}
      (items : GrownAll front front') (item : Grown last last')
      (opened : ∃ token, .leaf token ∈ front ∧ token.isTrivia = false) (solid : last.isTrivia = false)
      (trivia : ∀ blank ∈ blanks, blank.isTrivia = true) (closes : close.kind = .rParen) :
      Grown (.node .argList (front ++ last :: (blanks ++ [.leaf close])))
        (.node .argList (front' ++ last' ::
          (groupBehind (argument config params returned) last' ++ (blanks ++ [.leaf close]))))

inductive GrownAll : List Tree → List Tree → Prop
  | nil : GrownAll [] []
  | cons {tree tree' : Tree} {trees trees' : List Tree} (first : Grown tree tree')
      (others : GrownAll trees trees') : GrownAll (tree :: trees) (tree' :: trees')

end

end

variable {config : Config}

theorem Grown.kind {tree tree' : Tree} (h : Grown config tree tree') : tree'.kind = tree.kind := by
  cases h <;> rfl

/-- A node that is no list of arguments grows inside of its children. -/
theorem Grown.inside {kind : NodeKind} {children : List Tree} {tree' : Tree}
    (h : Grown config (.node kind children) tree') (hkind : kind ≠ .argList) :
    ∃ children', tree' = .node kind children' ∧ GrownAll config children children' := by
  cases h with
  | node _ below => exact ⟨_, rfl, below⟩
  | list => exact absurd rfl hkind

/-- A list of arguments grows inside of its children, and perhaps by an object. -/
theorem Grown.inList {children : List Tree} {tree' : Tree} (h : Grown config (.node .argList children) tree') :
    (∃ children', tree' = .node .argList children' ∧ GrownAll config children children') ∨
      ∃ front front' blanks last last' close params returned,
        children = front ++ last :: (blanks ++ [.leaf close]) ∧
          tree' = .node .argList (front' ++ last' ::
            (groupBehind (argument config params returned) last' ++ (blanks ++ [.leaf close]))) ∧
          GrownAll config front front' ∧ Grown config last last' ∧
          (∃ token, .leaf token ∈ front ∧ token.isTrivia = false) ∧ last.isTrivia = false ∧
          (∀ blank ∈ blanks, blank.isTrivia = true) := by
  cases h with
  | node _ below => exact .inl ⟨_, rfl, below⟩
  | list items item opened solid trivia closes =>
    exact .inr ⟨_, _, _, _, _, _, _, _, rfl, rfl, items, item, opened, solid, trivia⟩

theorem GrownAll.append {trees trees' others others' : List Tree} (h : GrownAll config trees trees')
    (h' : GrownAll config others others') : GrownAll config (trees ++ others) (trees' ++ others') := by
  induction trees generalizing trees' with
  | nil =>
    cases h
    exact h'
  | cons tree rest ih =>
    cases h with
    | cons first others => exact .cons first (ih others)

theorem GrownAll.split {front back trees' : List Tree} (h : GrownAll config (front ++ back) trees') :
    ∃ front' back', trees' = front' ++ back' ∧ GrownAll config front front' ∧ GrownAll config back back' := by
  induction front generalizing trees' with
  | nil => exact ⟨[], trees', rfl, .nil, h⟩
  | cons tree rest ih =>
    cases h with
    | cons first others =>
      obtain ⟨front', back', rfl, hfront, hback⟩ := ih others
      exact ⟨_ :: front', back', rfl, .cons first hfront, hback⟩

theorem GrownAll.leaves {tokens : List Token} {trees' : List Tree}
    (h : GrownAll config (tokens.map .leaf) trees') : trees' = tokens.map .leaf := by
  induction tokens generalizing trees' with
  | nil =>
    cases h
    rfl
  | cons token rest ih =>
    cases h with
    | cons first others =>
      cases first
      rw [ih others]
      rfl

theorem GrownAll.ofLeaves (tokens : List Token) :
    GrownAll config (tokens.map .leaf) (tokens.map .leaf) := by
  induction tokens with
  | nil => exact .nil
  | cons token rest ih => exact .cons (.leaf token) ih

/-! ## What is put in -/

/-- The key of a property. -/
def keyToken (text : String) : Token :=
  if Token.isName text then ⟨Token.wordKind text, text⟩
  else ⟨.stringLiteral, String.ofList ('"' :: text.toList.flatMap Tree.quoteChar ++ ['"'])⟩

def blankToken : Token := ⟨.whitespace, " "⟩

theorem propertyName_tokens (text : String) : (Tree.propertyName text).tokens = [keyToken text] := by
  unfold Tree.propertyName keyToken
  split <;> rfl

theorem argument_tokens (config : Config) (params returned : Nat) :
    (argument config params returned).tokens =
      [⟨.lBrace, "\x7b"⟩, blankToken, keyToken config.paramsField, ⟨.colon, ":"⟩, blankToken,
        ⟨.numberLiteral, toString params⟩, ⟨.comma, ","⟩, blankToken, keyToken config.returnField,
        ⟨.colon, ":"⟩, blankToken, ⟨.numberLiteral, toString returned⟩, blankToken, ⟨.rBrace, "\x7d"⟩] := by
  have hname : ∀ text, Tree.tokens (Tree.propertyName text) = [keyToken text] := propertyName_tokens
  simp [argument, Tree.objectLiteral, Tree.spaced, Tree.propertyAssignment, Tree.tokens, tokensOf, hname,
    Tree.numberLiteral, Tree.space, Tree.comma, blankToken]

theorem wordKind_mem (text : String) : Token.wordKind text ∈ Grammar.keyTokens := by
  unfold Token.wordKind
  cases hword : TokenKind.ofWord? text with
  | none => exact List.mem_cons_self
  | some kind =>
    have hkind : kind ∈ Grammar.words := List.mem_map_of_mem (f := Prod.snd) (Token.ofWord?_mem hword)
    exact List.mem_cons_of_mem _ (List.mem_cons_of_mem _ (List.mem_cons_of_mem _ hkind))

/-- The key is one of the tokens that a key can be. -/
theorem keyToken_kind (text : String) : (keyToken text).kind ∈ Grammar.keyTokens := by
  unfold keyToken
  split
  · exact wordKind_mem text
  · exact List.mem_cons_of_mem _ List.mem_cons_self

/-- What stands between the braces of an object that is put in. -/
def innerKinds (config : Config) : List TokenKind :=
  [(keyToken config.paramsField).kind, .colon, .numberLiteral, .comma,
    (keyToken config.returnField).kind, .colon, .numberLiteral]

theorem innerKinds_plain (config : Config) : ∀ kind ∈ innerKinds config, kind.isPlain = true := by
  have hkeys : ∀ kind ∈ Grammar.keyTokens, kind.isPlain = true := by decide
  intro kind hkind
  simp only [innerKinds, List.mem_cons, List.not_mem_nil, or_false] at hkind
  rcases hkind with rfl | rfl | rfl | rfl | rfl | rfl | rfl
  · exact hkeys _ (keyToken_kind _)
  · rfl
  · rfl
  · rfl
  · exact hkeys _ (keyToken_kind _)
  · rfl
  · rfl

theorem keyToken_solid (text : String) : (keyToken text).isTrivia = false := by
  have hkeys : ∀ kind ∈ Grammar.keyTokens, kind.isTrivia = false := by decide
  exact hkeys _ (keyToken_kind text)

theorem argument_kinds (config : Config) (params returned : Nat) :
    Token.solidKinds (argument config params returned).tokens =
      .lBrace :: (innerKinds config ++ [.rBrace]) := by
  have hfirst := keyToken_solid config.paramsField
  have hsecond := keyToken_solid config.returnField
  rw [argument_tokens]
  simp only [Token.solidKinds_cons, hfirst, hsecond]
  rfl

/-! ## What is to come -/

theorem solidKinds_blanks {blanks : List Tree} (h : ∀ blank ∈ blanks, blank.isTrivia = true) :
    Token.solidKinds (tokensOf blanks) = [] :=
  Token.solidKinds_trivia (tokens_of_trivia h)

theorem solidKinds_groupBehind (config : Config) (params returned : Nat) (last : Tree) :
    Token.solidKinds (tokensOf (groupBehind (argument config params returned) last)) =
      if last.kind == .token .comma then .lBrace :: (innerKinds config ++ [.rBrace, .comma])
      else .comma :: .lBrace :: (innerKinds config ++ [.rBrace]) := by
  have hspace : Token.solidKinds Tree.space.tokens = [] := rfl
  have hcomma : Token.solidKinds Tree.comma.tokens = [.comma] := rfl
  unfold groupBehind
  split <;> simp [tokensOf, Token.solidKinds_append, hspace, hcomma, argument_kinds]

/-- What stands last before a closing parenthesis, and the object behind it. -/
theorem widened_group {last last' : Tree} (params returned : Nat) {kinds kinds' : List TokenKind}
    (h : Grown config last last')
    (hitem : ∀ {kinds kinds' : List TokenKind}, TokenKind.Widened kinds kinds' →
      TokenKind.Widened (Token.solidKinds last.tokens ++ kinds) (Token.solidKinds last'.tokens ++ kinds'))
    (hkinds : TokenKind.Widened (.rParen :: kinds) kinds') :
    TokenKind.Widened (Token.solidKinds last.tokens ++ .rParen :: kinds) (Token.solidKinds last'.tokens ++
      (Token.solidKinds (tokensOf (groupBehind (argument config params returned) last')) ++ kinds')) := by
  rw [solidKinds_groupBehind]
  split
  · rename_i hcomma
    cases h with
    | leaf token =>
      have hkind : token.kind = .comma := by simpa [Tree.kind] using hcomma
      have hsolid : token.isTrivia = false := by simp [Token.isTrivia, hkind, TokenKind.isTrivia]
      have hone : Token.solidKinds (Tree.leaf token).tokens = [.comma] := by
        simp [Tree.tokens, Token.solidKinds, hsolid, hkind]
      rw [hone]
      simpa using hkinds.putBehind (innerKinds_plain config)
    | node kind below => cases hcomma
    | list _ _ _ _ _ _ => cases hcomma
  · refine hitem ?_
    simpa using hkinds.put (innerKinds_plain config)

mutual

theorem Grown.widened {tree tree' : Tree} {kinds kinds' : List TokenKind} :
    Grown config tree tree' → TokenKind.Widened kinds kinds' →
      TokenKind.Widened (Token.solidKinds tree.tokens ++ kinds) (Token.solidKinds tree'.tokens ++ kinds')
  | .leaf _, hkinds => hkinds.append _
  | .node _ below, hkinds => below.widened hkinds
  | @Grown.list _ front front' blanks last last' close params returned items item _ _ htrivia hclose, hkinds => by
    have hend : ∀ kinds, Token.solidKinds (tokensOf (blanks ++ [.leaf close])) ++ kinds = .rParen :: kinds := by
      intro kinds
      have hsolid : close.isTrivia = false := by simp [Token.isTrivia, hclose, TokenKind.isTrivia]
      rw [tokensOf_append, Token.solidKinds_append, solidKinds_blanks htrivia]
      simp [tokensOf, Tree.tokens, Token.solidKinds, hsolid, hclose]
    simp only [Tree.tokens, tokensOf_append, tokensOf, Token.solidKinds_append, List.append_assoc] at hend ⊢
    refine items.widened ?_
    rw [hend, hend]
    exact widened_group params returned item (fun h => item.widened h) (hkinds.keep .rParen)

theorem GrownAll.widened {trees trees' : List Tree} {kinds kinds' : List TokenKind} :
    GrownAll config trees trees' → TokenKind.Widened kinds kinds' →
      TokenKind.Widened (Token.solidKinds (tokensOf trees) ++ kinds)
        (Token.solidKinds (tokensOf trees') ++ kinds')
  | .nil, hkinds => hkinds
  | .cons first others, hkinds => by
    rw [tokensOf, tokensOf, Token.solidKinds_append, Token.solidKinds_append, List.append_assoc,
      List.append_assoc]
    exact first.widened (others.widened hkinds)

end

mutual

/-- A tree that has grown opens as it did. -/
theorem Grown.opening {tree tree' : Tree} {tokens tokens' : List Token} : Grown config tree tree' →
    Token.opening tokens' = Token.opening tokens ∨ Token.solidKinds tree.tokens ≠ [] →
      Token.opening (tree'.tokens ++ tokens') = Token.opening (tree.tokens ++ tokens)
  | .leaf token, h => by
    rcases h with h | h
    · exact Token.opening_congr _ h
    · rw [Token.opening_of_solid _ h, Token.opening_of_solid _ h]
  | .node _ below, h => below.opening h
  | @Grown.list _ front front' _ last _ _ _ _ items _ hopened _ _ _, _ => by
    obtain ⟨token, htoken, hsolid⟩ := hopened
    have hsome : Token.solidKinds (tokensOf front) ≠ [] := by
      obtain ⟨before, behind, rfl⟩ := List.append_of_mem htoken
      rw [tokensOf_append, tokensOf, Tree.tokens, Token.solidKinds_append, List.singleton_append,
        Token.solidKinds_cons, hsolid]
      simp
    rw [Tree.tokens, Tree.tokens, tokensOf_append, tokensOf_append, List.append_assoc, List.append_assoc]
    exact items.opening (.inr hsome)

theorem GrownAll.opening {trees trees' : List Tree} {tokens tokens' : List Token} :
    GrownAll config trees trees' →
    Token.opening tokens' = Token.opening tokens ∨ Token.solidKinds (tokensOf trees) ≠ [] →
      Token.opening (tokensOf trees' ++ tokens') = Token.opening (tokensOf trees ++ tokens)
  | .nil, h => by
    rcases h with h | h
    · exact h
    · exact absurd rfl h
  | @GrownAll.cons _ tree _ _ _ first others, h => by
    rw [tokensOf, tokensOf, List.append_assoc, List.append_assoc]
    refine first.opening ?_
    by_cases hfirst : Token.solidKinds tree.tokens = []
    · refine .inl (others.opening (h.imp_right fun hsome => ?_))
      rw [tokensOf, Token.solidKinds_append, hfirst, List.nil_append] at hsome
      exact hsome
    · exact .inr hfirst

end

/-- An object and the comma beside it. -/
theorem solidKinds_groupBehind_length (config : Config) (params returned : Nat) (last : Tree) :
    (Token.solidKinds (tokensOf (groupBehind (argument config params returned) last))).length = 10 := by
  rw [solidKinds_groupBehind]
  split <;> rfl

mutual

/-- Where a tree has grown there are more tokens that mean something. -/
theorem Grown.more {tree tree' : Tree} : Grown config tree tree' → tree' = tree ∨
    (Token.solidKinds tree.tokens).length + 10 ≤ (Token.solidKinds tree'.tokens).length
  | .leaf _ => .inl rfl
  | .node kind below => below.more.imp_left fun h => by rw [h]
  | @Grown.list _ front front' blanks last last' close params returned items item _ _ _ _ => by
    have hgroup := solidKinds_groupBehind_length config params returned last'
    have hitems : (Token.solidKinds (tokensOf front)).length ≤ (Token.solidKinds (tokensOf front')).length := by
      rcases items.more with rfl | h <;> omega
    have hitem : (Token.solidKinds last.tokens).length ≤ (Token.solidKinds last'.tokens).length := by
      rcases item.more with rfl | h <;> omega
    right
    simp only [Tree.tokens, tokensOf_append, tokensOf, Token.solidKinds_append, List.length_append]
    omega

theorem GrownAll.more {trees trees' : List Tree} : GrownAll config trees trees' → trees' = trees ∨
    (Token.solidKinds (tokensOf trees)).length + 10 ≤ (Token.solidKinds (tokensOf trees')).length
  | .nil => .inl rfl
  | .cons first others => by
    simp only [tokensOf, Token.solidKinds_append, List.length_append]
    rcases first.more, others.more with ⟨rfl | hfirst, rfl | hothers⟩
    · exact .inl rfl
    all_goals right; omega

end

/-! ## Annotating -/

/-- A call with a handler has arguments. -/
theorem args_ne_nil {call handler : Node} (h : handlerOf config call = .ok handler) : call.args ≠ [] := by
  unfold handlerOf at h
  obtain ⟨list, hlist, h⟩ := bind_ok h
  have hkinds : ∀ kind, (Kind.node kind == .node .argList) = (kind == .argList) := by
    intro kind
    rw [Bool.eq_iff_iff, beq_iff_eq, beq_iff_eq, Kind.node.injEq]
  have hfind : call.argList? = some list := by
    rw [← expectChild_eq_ok hlist, Node.argList?, Node.child?]
    simp only [hkinds]
  rw [Node.args, hfind]
  split at h
  · rename_i heq
    simp [heq]
  · cases h

/-- Before the last of the arguments stands the parenthesis at least. -/
theorem exists_opening {front blanks : List Tree} {last : Tree} {close : Token}
    (h : Sound Grammar.forms (.node .argList (front ++ last :: (blanks ++ [.leaf close]))))
    (hlast : last.isTrivia = false) (hblanks : ∀ blank ∈ blanks, blank.isTrivia = true)
    (hclose : close.kind = .rParen)
    (hsome : (front ++ last :: (blanks ++ [.leaf close])).filter (·.isNodeOf NodeKind.isElement) ≠ []) :
    ∃ token, .leaf token ∈ front ∧ token.isTrivia = false := by
  obtain ⟨⟨inner, hkinds⟩, -⟩ := Grammar.argList_children h
  have hsplit : significantKinds (front ++ last :: (blanks ++ [.leaf close])) =
      (significantKinds front ++ [last.kind]) ++ [.token .rParen] := by
    have hone : ∀ tree : Tree, tree.isTrivia = false → significantKinds [tree] = [tree.kind] := by
      intro tree htree
      simp [significantKinds, htree]
    have hnone : significantKinds blanks = [] := by
      rw [significantKinds, List.filter_eq_nil_iff.mpr fun blank hblank => by simp [hblanks blank hblank]]
      rfl
    have hleaf : (Tree.leaf close).isTrivia = false := by
      simp [Tree.isTrivia, Tree.kind, Kind.isTrivia, hclose, TokenKind.isTrivia]
    rw [← List.singleton_append, significantKinds_append, significantKinds_append, significantKinds_append,
      hone last hlast, hnone, hone _ hleaf, List.nil_append, Tree.kind, hclose, List.append_assoc]
  rw [hsplit, ← List.cons_append] at hkinds
  have hfront := (List.append_inj' hkinds rfl).1
  cases hcut : significantKinds front with
  | nil =>
    -- Between the parentheses there is nothing then, so no argument either.
    exfalso
    rw [hcut, List.nil_append] at hfront
    obtain ⟨tree, htree⟩ := List.exists_mem_of_ne_nil _ hsome
    obtain ⟨htree, hnode⟩ := List.mem_filter.mp htree
    cases tree with
    | leaf token => cases hnode
    | node kind children =>
      have hkind : Kind.node kind ∈ significantKinds (front ++ last :: (blanks ++ [.leaf close])) :=
        List.mem_map_of_mem (List.mem_filter.mpr ⟨htree, rfl⟩)
      rw [hsplit, hcut, hfront, (List.cons.inj hfront).2.symm] at hkind
      simp at hkind
  | cons first rest =>
    rw [hcut, List.cons_append, List.cons.injEq] at hfront
    have hmem : Kind.token .lParen ∈ significantKinds front := by rw [hcut, hfront.1]; exact List.mem_cons_self
    obtain ⟨tree, htree, hkind⟩ := List.mem_map.mp hmem
    obtain ⟨htree, hsolid⟩ := List.mem_filter.mp htree
    cases tree with
    | node kind children => cases hkind
    | leaf token => exact ⟨token, htree, (Bool.not_eq_true' _).mp hsolid⟩

section

variable {is : Node → Bool} {source : Source}

/-- Annotating makes a tree grow, wherever it stands, if all registrations in it have handlers. -/
def Grows (config : Config) (is : Node → Bool) (source : Source) (tree : Tree) : Prop :=
  ∀ (start : Nat) (parent : Option Node) (k next : Nat) (out : Tree), tree.Sound Grammar.forms →
    (∀ call ∈ registrationsIn is source parent (tree.place start), call.args ≠ []) →
    Annotates config is source parent (tree.place start) k out next → Grown config tree out

theorem grows_all {trees : List Tree} (h : ∀ tree ∈ trees, Grows config is source tree)
    {start : Nat} {parent : Option Node} {k next : Nat} {outs : List Tree}
    (hsound : ∀ tree ∈ trees, tree.Sound Grammar.forms)
    (hargs : ∀ call ∈ registrationsInAll is source parent (Tree.placeAll start trees), call.args ≠ [])
    (hannotates : AnnotatesAll config is source parent (Tree.placeAll start trees) k outs next) :
    GrownAll config trees outs := by
  induction trees generalizing start k outs with
  | nil =>
    cases hannotates
    exact .nil
  | cons tree rest ih =>
    rw [Tree.placeAll] at hannotates hargs
    rw [registrationsInAll_cons] at hargs
    cases hannotates with
    | cons first others =>
      refine .cons (h tree List.mem_cons_self start parent _ _ _ (hsound tree List.mem_cons_self)
        (fun call hcall => hargs call (List.mem_append_left _ hcall)) first) ?_
      exact ih (fun tree htree => h tree (List.mem_cons_of_mem _ htree))
        (fun tree htree => hsound tree (List.mem_cons_of_mem _ htree))
        (fun call hcall => hargs call (List.mem_append_right _ hcall)) others

/-- A list of arguments before its own object is put in. -/
theorem grows_list {front blanks : List Tree} {last : Tree} {close : Token}
    (hlist : (Tree.node .argList (front ++ last :: (blanks ++ [.leaf close]))).Sound Grammar.forms)
    (hblanks : ∀ blank ∈ blanks, blank.isTrivia = true)
    (hitems : ∀ item ∈ front ++ last :: (blanks ++ [.leaf close]), Grows config is source item)
    {start : Nat} {parent : Option Node} {k next : Nat} {outs : List Tree}
    (hargs : ∀ call ∈ registrationsInAll is source parent
      (Tree.placeAll start (front ++ last :: (blanks ++ [.leaf close]))), call.args ≠ [])
    (h : AnnotatesAll config is source parent
      (Tree.placeAll start (front ++ last :: (blanks ++ [.leaf close]))) k outs next) :
    ∃ front' last', outs = front' ++ last' :: (blanks ++ [.leaf close]) ∧
      GrownAll config front front' ∧ Grown config last last' := by
  rw [← List.singleton_append, ← List.append_assoc, placeAll_append] at h hargs
  obtain ⟨items, ends, _, rfl, hfront, hend⟩ := h.split
  obtain ⟨rfl, -⟩ := hend.leaves (leaves_placed _ hblanks)
  rw [Tree.eraseAll_placeAll]
  have hmem : ∀ item ∈ front ++ [last], item ∈ front ++ last :: (blanks ++ [.leaf close]) := by
    intro item hitem
    rw [← List.singleton_append, ← List.append_assoc]
    exact List.mem_append_left _ hitem
  rw [registrationsInAll_append] at hargs
  have hgrown := grows_all (fun item hitem => hitems item (hmem item hitem))
    (fun item hitem => hlist.child item (hmem item hitem))
    (fun call hcall => hargs call (List.mem_append_left _ hcall)) hfront
  obtain ⟨front', back', rfl, hfront', hback'⟩ := hgrown.split
  cases hback' with
  | cons hlast hnil =>
    cases hnil
    exact ⟨front', _, by simp, hfront', hlast⟩

/-- A registration: its list of arguments grows by an object. -/
theorem grows_call {children : List Tree}
    (hchildren : ∀ child ∈ children, Grows config is source child)
    (hitems : ∀ own list, .node own list ∈ children → ∀ item ∈ list, Grows config is source item)
    (hsound : (Tree.node .callExpr children).Sound Grammar.forms) {start : Nat} {call : Node} {k next : Nat}
    {outs : List Tree} {out : Tree} (hparts : call.parts = Tree.placeAll start children)
    (hsome : call.args ≠ [])
    (hargs : ∀ inner ∈ registrationsInAll is source (some call) (Tree.placeAll start children), inner.args ≠ [])
    (below : AnnotatesAll config is source (some call) (Tree.placeAll start children) (k + 1) outs next)
    (append : appendTo (argument config (2 * k) (2 * k + 1)) (.node .callExpr outs) = .ok out) :
    Grown config (.node .callExpr children) out := by
  obtain ⟨before, list, rfl, hbefore⟩ := Grammar.callExpr_closed hsound
  have hmem := List.mem_append_right before (List.mem_singleton_self (Tree.node .argList list))
  have hlist := hsound.child _ hmem
  obtain ⟨front, last, blanks, close, rfl, hlast, hblanks, hclose⟩ := Grammar.argList_closed hlist
  have hopened := exists_opening hlist hlast hblanks hclose fun hnone => hsome (by
    rw [← List.map_eq_nil_iff (f := Node.tree), Node.args_tree, hparts, Tree.eraseAll_placeAll,
      ← Tree.args_eq .callExpr, args_of_first hbefore, hnone])
  rw [placeAll_append] at below hargs
  obtain ⟨befores, _, middle, rfl, hbefores, hrest⟩ := below.split
  rw [registrationsInAll_append] at hargs
  have hfront := grows_all (fun child hchild => hchildren child (List.mem_append_left _ hchild))
    (fun child hchild => hsound.child child (List.mem_append_left _ hchild))
    (fun call hcall => hargs call (List.mem_append_left _ hcall)) hbefores
  cases hrest with
  | cons hlistAnnotates hnone =>
    cases hnone
    cases hlistAnnotates with
    | keep no hinner =>
      rw [Tree.placeAll, registrationsInAll_cons, Tree.place, registrationsIn_other no] at hargs
      obtain ⟨front', last', rfl, hfront', hlast'⟩ := grows_list hlist hblanks (hitems _ _ hmem)
        (fun call hcall => hargs call (List.mem_append_right _ (List.mem_append_left _ hcall))) hinner
      have hother : ∀ part ∈ befores, part.kind ≠ .node .argList := by
        intro part hpart
        obtain ⟨tree, htree, halike⟩ := exists_alike hbefores.alike part hpart
        rw [Tree.eraseAll_placeAll] at htree
        rw [halike.kind]
        exact hbefore tree htree
      have hitem : last'.isTrivia = false := by
        rw [Tree.isTrivia, hlast'.kind]
        exact hlast
      rw [appendTo_eq append hother hitem hblanks hclose]
      exact .node .callExpr
        (hfront.append (.cons (.list hfront' hlast' hopened hlast hblanks hclose) .nil))

theorem grows (tree : Tree) : Grows config is source tree := by
  cases tree with
  | leaf token =>
    intro start parent k next out _ _ hannotates
    cases hannotates
    exact .leaf token
  | node kind children =>
    have hchildren : ∀ child ∈ children, Grows config is source child :=
      fun child hchild => grows child
    have hitems : ∀ own list, .node own list ∈ children → ∀ item ∈ list, Grows config is source item :=
      fun own list hlist item hitem => grows item
    intro start parent k next out hsound hargs hannotates
    cases hannotates with
    | keep no below =>
      rw [Tree.place, registrationsIn_other no] at hargs
      exact .node kind (grows_all hchildren hsound.child hargs below)
    | call yes below append =>
      rw [Tree.place, registrationsIn_call yes] at hargs
      exact grows_call hchildren hitems hsound rfl (hargs _ List.mem_cons_self)
        (fun call hcall => hargs call (List.mem_cons_of_mem _ hcall)) below append
termination_by sizeOf tree
decreasing_by
  · have := List.sizeOf_lt_of_mem hchild
    simp
    omega
  · have := List.sizeOf_lt_of_mem hitem
    have := List.sizeOf_lt_of_mem hlist
    simp at *
    omega

/-- Annotating a program makes its tree grow. -/
theorem annotate_grows {source : String} {program : Callables} {annotated : Annotated}
    (hread : (Program.ofSource source).isOk = true)
    (h : annotate config program (Program.ofSource source).root = .ok annotated) :
    Grown config (Program.ofSource source).tree
      (annotated.visit.resultAt (Program.ofSource source).root) := by
  obtain ⟨anchor, -, hfiled, hannotates⟩ := annotate_ok config program h
  obtain ⟨⟨pairs, hpairs, -⟩, -⟩ := hfiled
  rw [Program.root_part] at hannotates
  refine grows _ 0 _ 0 _ _ (program_sound hread) (fun call hcall => ?_) hannotates
  have hlisted : call ∈ registrations program.checked anchor (Program.ofSource source).root := by
    rw [← Program.root_part] at hcall
    exact hcall
  obtain ⟨k, hk, rfl⟩ := List.getElem_of_mem hlisted
  obtain ⟨handler, _, _, hhandler, -⟩ :=
    schemasOf_eq_ok (List.Forall₂.get hpairs hk (hpairs.length_eq ▸ hk))
  exact args_ne_nil hhandler

end

end Route

end RouteTypes
