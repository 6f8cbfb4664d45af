-- What annotating does to the text: behind one token for each registration a group of tokens is put in,
-- and nothing else changes. The tokens of the program are told apart by their places, and those that are
-- put in carry the number of their registration.
import Mathlib.Algebra.GroupWithZero.Nat
import RouteTypes.Proofs.Route.Numbering

namespace RouteTypes

open RouteTypes.Tree

/-! ## Tokens at their places -/

mutual

/-- The tokens of a part at their places. -/
def Part.placed : Part → List Placed
  | .leaf span token => [⟨span, token⟩]
  | .node _ _ parts => Part.placedAll parts

def Part.placedAll : List Part → List Placed
  | [] => []
  | part :: rest => part.placed ++ Part.placedAll rest

end

theorem Part.placedAll_append (parts others : List Part) :
    Part.placedAll (parts ++ others) = Part.placedAll parts ++ Part.placedAll others := by
  induction parts with
  | nil => rfl
  | cons part rest ih => rw [List.cons_append, placedAll, ih, placedAll, List.append_assoc]

/-- The bytes of tokens. -/
def Token.sizeOf (tokens : List Token) : Nat := (tokens.map Token.size).sum

theorem Token.sizeOf_append (tokens others : List Token) :
    Token.sizeOf (tokens ++ others) = Token.sizeOf tokens + Token.sizeOf others := by
  rw [sizeOf, List.map_append, List.sum_append, sizeOf, sizeOf]

theorem Part.stopOf_cons (start : Nat) (part : Part) (rest : List Part) :
    Part.stopOf start (part :: rest) = Part.stopOf part.span.stop rest := by
  rw [Part.stopOf, List.getLast?_cons, Part.stopOf]
  cases rest.getLast? <;> rfl

theorem Token.placeAll_append (start : Nat) (tokens others : List Token) :
    Token.placeAll start (tokens ++ others) =
      Token.placeAll start tokens ++ Token.placeAll (start + Token.sizeOf tokens) others := by
  induction tokens generalizing start with
  | nil => rfl
  | cons token rest ih =>
    rw [List.cons_append, placeAll, ih, placeAll, List.cons_append, sizeOf, sizeOf, List.map_cons,
      List.sum_cons, Nat.add_assoc]

mutual

theorem Tree.placed_place (start : Nat) : ∀ tree : Tree,
    (tree.place start).placed = Token.placeAll start tree.tokens ∧
      (tree.place start).span.stop = start + Token.sizeOf tree.tokens
  | .leaf token => by simp [Tree.place, Part.placed, Tree.tokens, Token.placeAll, Part.span, Token.sizeOf]
  | .node kind children => by
    obtain ⟨hplaced, hstop⟩ := Tree.placedAll_placeAll start children
    exact ⟨hplaced, hstop⟩

theorem Tree.placedAll_placeAll (start : Nat) : ∀ trees : List Tree,
    Part.placedAll (Tree.placeAll start trees) = Token.placeAll start (tokensOf trees) ∧
      Part.stopOf start (Tree.placeAll start trees) = start + Token.sizeOf (tokensOf trees)
  | [] => ⟨rfl, rfl⟩
  | tree :: rest => by
    obtain ⟨hplaced, hstop⟩ := Tree.placed_place start tree
    obtain ⟨hplaced', hstop'⟩ := Tree.placedAll_placeAll (tree.place start).span.stop rest
    rw [Tree.placeAll, Part.placedAll, tokensOf, Token.placeAll_append, hplaced, hplaced',
      Part.stopOf_cons, hstop', hstop, Token.sizeOf_append, Nat.add_assoc]
    exact ⟨rfl, rfl⟩

end

theorem Token.map_token_placeAll (start : Nat) (tokens : List Token) :
    (Token.placeAll start tokens).map (·.token) = tokens := by
  induction tokens generalizing start with
  | nil => rfl
  | cons token rest ih => rw [placeAll, List.map_cons, ih]

theorem Token.token_mem_of_mem {start : Nat} {tokens : List Token} {placed : Placed}
    (h : placed ∈ Token.placeAll start tokens) : placed.token ∈ tokens := by
  rw [← Token.map_token_placeAll start tokens]
  exact List.mem_map_of_mem h

/-! ## Nothing has the same place twice -/

theorem Token.start_le_of_mem {start : Nat} {tokens : List Token} :
    ∀ placed ∈ Token.placeAll start tokens, start ≤ placed.span.start := by
  induction tokens generalizing start with
  | nil =>
    intro placed hplaced
    cases hplaced
  | cons token rest ih =>
    intro placed hplaced
    rcases List.mem_cons.mp hplaced with rfl | hplaced
    · exact Nat.le_refl _
    · exact Nat.le_trans (Nat.le_add_right _ _) (ih placed hplaced)

/-- Tokens that are not empty, apart from the last one, have different places. -/
theorem Token.nodup_placeAll {tokens : List Token} (last : Token)
    (h : ∀ token ∈ tokens, 0 < token.size) (start : Nat) :
    (Token.placeAll start (tokens ++ [last])).Nodup := by
  induction tokens generalizing start with
  | nil => exact List.nodup_singleton _
  | cons token rest ih =>
    refine List.nodup_cons.mpr ⟨?_, ih (fun other hother => h other (List.mem_cons_of_mem _ hother)) _⟩
    intro hmem
    have hle : start + token.size ≤ start := Token.start_le_of_mem _ hmem
    have hpos := h token List.mem_cons_self
    omega

theorem Token.size_pos {c : Char} {cs : List Char} {kind : TokenKind} :
    0 < (Token.mk kind (String.ofList (c :: cs))).size := by
  refine Nat.pos_of_ne_zero fun hsize => ?_
  have hempty : String.ofList (c :: cs) = "" := String.utf8ByteSize_eq_zero_iff.mp hsize
  have hlist := congrArg String.toList hempty
  rw [String.toList_ofList] at hlist
  cases hlist

/-- All tokens of a text but its end have bytes. -/
theorem Token.scan_pos (cs : List Char) :
    ∀ token ∈ scan cs, token.kind ≠ .eof → 0 < token.size := by
  fun_induction scan cs with
  | case1 =>
    intro token htoken heof
    rw [List.mem_singleton.mp htoken] at heof
    exact absurd rfl heof
  | case2 c rest next ih =>
    intro token htoken heof
    rcases List.mem_cons.mp htoken with rfl | htoken
    · exact Token.size_pos
    · exact ih token htoken heof

theorem Token.nodup_places (source : String) : (Token.placeAll 0 (Token.ofSource source)).Nodup := by
  obtain ⟨before, htokens, hbefore⟩ := Token.ofSource_ends source
  rw [htokens]
  refine Token.nodup_placeAll _ (fun token htoken => ?_) 0
  refine Token.scan_pos source.toList token ?_ (hbefore token htoken)
  rw [← Token.ofSource, htokens]
  exact List.mem_append_left _ htoken

namespace Route

/-! ## Groups -/

/-- What is put in behind the last item of the registration with that number: the new argument behind a
comma and a blank, or with the comma behind it if there is one before it already. -/
def group (config : Config) (k : Nat) (last : Token) : List Token :=
  tokensOf (groupBehind (argument config (2 * k) (2 * k + 1)) (.leaf last))

/-- The tokens of a program with the groups behind the places that they belong to. Those that are put in
carry the number of their registration. -/
def marked (config : Config) (places : List (Placed × Nat)) (tokens : List Placed) :
    List (Option Nat × Token) :=
  tokens.flatMap fun placed => (none, placed.token) ::
    (places.filter (·.1 == placed)).flatMap fun place =>
      (group config place.2 placed.token).map fun token => (some place.2, token)

/-- The place stands behind the last item of the call: only blanks and comments are between it and the
parenthesis that closes the call. -/
def Closes (tokens : List Placed) (call : Node) (place : Placed) : Prop :=
  ∃ before blanks close behind, tokens = before ++ place :: (blanks ++ close :: behind) ∧
    place.token.isTrivia = false ∧ (∀ blank ∈ blanks, blank.token.isTrivia = true) ∧
    close.token.kind = .rParen ∧ close.span.stop = call.span.stop

/-- The calls, which have the numbers from `k` on, get a group each, and the tokens become `out`. -/
def Spliced (config : Config) (calls : List Node) (k : Nat) (tokens : List Placed)
    (out : List Token) : Prop :=
  ∃ places : List Placed, List.Forall₂ (Closes tokens) calls places ∧ places.Nodup ∧
    out = (marked config (places.zipIdx k) tokens).map (·.2)

theorem Closes.mem {tokens : List Placed} {call : Node} {place : Placed}
    (h : Closes tokens call place) : place ∈ tokens := by
  obtain ⟨before, blanks, close, behind, rfl, -⟩ := h
  simp

theorem Closes.append {tokens : List Placed} {call : Node} {place : Placed}
    (h : Closes tokens call place) (before behind : List Placed) :
    Closes (before ++ tokens ++ behind) call place := by
  obtain ⟨front, blanks, close, rest, rfl, hplace⟩ := h
  exact ⟨before ++ front, blanks, close, rest ++ behind, by simp, hplace⟩

theorem exists_closes {tokens : List Placed} {calls : List Node} {places : List Placed}
    (h : List.Forall₂ (Closes tokens) calls places) :
    ∀ place ∈ places, ∃ call, Closes tokens call place := by
  induction h with
  | nil =>
    intro place hplace
    cases hplace
  | cons hone _ ih =>
    intro place hplace
    rcases List.mem_cons.mp hplace with rfl | hplace
    · exact ⟨_, hone⟩
    · exact ih place hplace

theorem mem_of_closes {tokens : List Placed} {calls : List Node} {places : List Placed}
    (h : List.Forall₂ (Closes tokens) calls places) : ∀ place ∈ places, place ∈ tokens := by
  intro place hplace
  obtain ⟨call, hcall⟩ := exists_closes h place hplace
  exact hcall.mem

theorem marked_append (config : Config) (places : List (Placed × Nat)) (tokens others : List Placed) :
    marked config places (tokens ++ others) = marked config places tokens ++ marked config places others :=
  List.flatMap_append

/-- Places elsewhere make no difference. -/
theorem marked_append_of_disjoint {config : Config} {places others : List (Placed × Nat)}
    {tokens : List Placed} (h : ∀ place ∈ others, place.1 ∉ tokens) :
    marked config (places ++ others) tokens = marked config places tokens ∧
      marked config (others ++ places) tokens = marked config places tokens := by
  have hnone : ∀ placed ∈ tokens, others.filter (·.1 == placed) = [] := by
    intro placed hplaced
    rw [List.filter_eq_nil_iff]
    intro place hplace heq
    exact h place hplace (beq_iff_eq.mp heq ▸ hplaced)
  unfold marked
  refine ⟨?_, ?_⟩
  · refine List.flatMap_congr fun placed hplaced => ?_
    rw [List.filter_append, hnone placed hplaced, List.append_nil]
  · refine List.flatMap_congr fun placed hplaced => ?_
    rw [List.filter_append, hnone placed hplaced, List.nil_append]

theorem fst_mem_of_zipIdx {places : List Placed} {k : Nat} :
    ∀ place ∈ places.zipIdx k, place.1 ∈ places := by
  intro place hplace
  have hmem : place.1 ∈ (places.zipIdx k).map Prod.fst := List.mem_map_of_mem hplace
  rwa [List.zipIdx_map_fst] at hmem

theorem Spliced.nil (config : Config) (k : Nat) : Spliced config [] k [] [] :=
  ⟨[], .nil, List.nodup_nil, rfl⟩

theorem Spliced.token (config : Config) (k : Nat) (placed : Placed) :
    Spliced config [] k [placed] [placed.token] :=
  ⟨[], .nil, List.nodup_nil, rfl⟩

theorem Spliced.append {config : Config} {calls more : List Node} {k : Nat}
    {tokens others : List Placed} {out rest : List Token} (h : Spliced config calls k tokens out)
    (h' : Spliced config more (k + calls.length) others rest) (hnodup : (tokens ++ others).Nodup) :
    Spliced config (calls ++ more) k (tokens ++ others) (out ++ rest) := by
  obtain ⟨places, hplaces, hdistinct, rfl⟩ := h
  obtain ⟨places', hplaces', hdistinct', rfl⟩ := h'
  have hmem := mem_of_closes hplaces
  have hmem' := mem_of_closes hplaces'
  have hdisjoint := List.disjoint_of_nodup_append hnodup
  refine ⟨places ++ places', ?_, ?_, ?_⟩
  · refine List.rel_append (hplaces.imp fun call place hclose => ?_)
      (hplaces'.imp fun call place hclose => ?_)
    · exact hclose.append [] others
    · simpa using hclose.append tokens []
  · exact List.Nodup.append hdistinct hdistinct' fun place hplace hplace' =>
      hdisjoint (hmem place hplace) (hmem' place hplace')
  · rw [List.zipIdx_append, ← hplaces.length_eq]
    have hfirst : ∀ place ∈ places'.zipIdx (k + calls.length), place.1 ∉ tokens :=
      fun place hplace hin => hdisjoint hin (hmem' _ (fst_mem_of_zipIdx place hplace))
    have hsecond : ∀ place ∈ places.zipIdx k, place.1 ∉ others :=
      fun place hplace hin => hdisjoint (hmem _ (fst_mem_of_zipIdx place hplace)) hin
    rw [marked_append, (marked_append_of_disjoint hfirst).1, (marked_append_of_disjoint hsecond).2,
      List.map_append]

/-- The last token is no place that a group can belong to. -/
theorem Closes.ne_last {front : List Placed} {last place : Placed} {call : Node}
    (h : Closes (front ++ [last]) call place) (hnodup : (front ++ [last]).Nodup) : place ≠ last := by
  obtain ⟨before, blanks, close, behind, heq, -⟩ := h
  rintro rfl
  have hsplit : before ++ place :: (blanks ++ close :: behind) =
      (before ++ [place]) ++ (blanks ++ close :: behind) := by simp
  have hlast : place ∈ blanks ++ close :: behind := by
    have hend : (front ++ [place]).getLast? = some place := List.getLast?_concat
    rw [heq, hsplit, List.getLast?_append_of_ne_nil _ (by simp)] at hend
    exact List.mem_of_getLast? hend
  rw [heq, hsplit] at hnodup
  exact List.disjoint_of_nodup_append hnodup (by simp) hlast

theorem marked_elsewhere {config : Config} {places : List (Placed × Nat)} {tokens : List Placed}
    (h : ∀ place ∈ places, place.1 ∉ tokens) :
    (marked config places tokens).map (·.2) = tokens.map (·.token) := by
  rw [← List.nil_append places, (marked_append_of_disjoint h).1, marked, List.map_flatMap]
  exact List.map_eq_flatMap.symm

theorem Spliced.call {config : Config} {call : Node} {calls : List Node} {k : Nat}
    {front blanks : List Placed} {place close : Placed} {out : List Token}
    (h : Spliced config calls (k + 1) (front ++ [place]) out) (hplace : place.token.isTrivia = false)
    (hblanks : ∀ blank ∈ blanks, blank.token.isTrivia = true) (hclose : close.token.kind = .rParen)
    (hstop : close.span.stop = call.span.stop)
    (hnodup : (front ++ [place] ++ (blanks ++ [close])).Nodup) :
    Spliced config (call :: calls) k (front ++ [place] ++ (blanks ++ [close]))
      (out ++ group config k place.token ++ (blanks ++ [close]).map (·.token)) := by
  obtain ⟨places, hplaces, hdistinct, rfl⟩ := h
  have hfront := (List.nodup_append.mp hnodup).1
  have hmem := mem_of_closes hplaces
  have hne : place ∉ places := by
    intro hin
    obtain ⟨inner, hinner⟩ := exists_closes hplaces place hin
    exact hinner.ne_last hfront rfl
  refine ⟨place :: places, .cons ?_ (hplaces.imp fun call place hclose => ?_),
    List.nodup_cons.mpr ⟨hne, hdistinct⟩, ?_⟩
  · exact ⟨front, blanks, close, [], by simp, hplace, hblanks, hclose, hstop⟩
  · exact hclose.append [] _
  · have hdisjoint := List.disjoint_of_nodup_append hnodup
    have hplaced : place ∈ front ++ [place] := List.mem_append_right _ (List.mem_singleton_self place)
    generalize blanks ++ [close] = rest at hdisjoint ⊢
    have hone : (marked config ((place :: places).zipIdx k) [place]).map (·.2) =
        place.token :: group config k place.token := by
      rw [List.zipIdx_cons, ← List.singleton_append, (marked_append_of_disjoint ?_).1]
      · simp [marked]
      · intro other hother hin
        exact hne (List.mem_singleton.mp hin ▸ fst_mem_of_zipIdx other hother)
    have hsame : marked config ((place :: places).zipIdx k) front =
        marked config (places.zipIdx (k + 1)) front := by
      rw [List.zipIdx_cons, ← List.singleton_append, (marked_append_of_disjoint ?_).2]
      intro other hother hin
      rw [List.mem_singleton.mp hother] at hin
      exact List.disjoint_of_nodup_append hfront hin (List.mem_singleton_self place)
    have hlast : (marked config (places.zipIdx (k + 1)) [place]).map (·.2) = [place.token] :=
      marked_elsewhere fun other hother hin =>
        hne (List.mem_singleton.mp hin ▸ fst_mem_of_zipIdx other hother)
    have hrest : (marked config ((place :: places).zipIdx k) rest).map (·.2) = rest.map (·.token) := by
      refine marked_elsewhere fun other hother hin => ?_
      rcases List.mem_cons.mp (fst_mem_of_zipIdx other hother) with heq | hother'
      · exact hdisjoint hplaced (heq ▸ hin)
      · exact hdisjoint (hmem _ hother') hin
    rw [marked_append, marked_append, marked_append, List.map_append, List.map_append, List.map_append,
      hsame, hone, hlast, hrest, List.append_assoc _ [place.token], List.singleton_append]

/-! ## Rows of parts -/

section

variable {config : Config} {is : Node → Bool} {source : Source}

theorem registrationsInAll_append (parent : Option Node) (parts others : List Part) :
    registrationsInAll is source parent (parts ++ others) =
      registrationsInAll is source parent parts ++ registrationsInAll is source parent others := by
  induction parts with
  | nil => rfl
  | cons part rest ih =>
    rw [List.cons_append, registrationsInAll_cons, ih, registrationsInAll_cons, List.append_assoc]

theorem AnnotatesAll.split {parent : Option Node} {front back : List Part} {k next : Nat}
    {trees : List Tree} (h : AnnotatesAll config is source parent (front ++ back) k trees next) :
    ∃ first second middle, trees = first ++ second ∧
      AnnotatesAll config is source parent front k first middle ∧
      AnnotatesAll config is source parent back middle second next := by
  induction front generalizing k trees with
  | nil => exact ⟨[], trees, k, rfl, .nil, h⟩
  | cons part rest ih =>
    cases h with
    | cons first others =>
      obtain ⟨outs, second, middle, rfl, hfront, hback⟩ := ih others
      exact ⟨_ :: outs, second, middle, rfl, .cons first hfront, hback⟩

mutual

theorem Annotates.next_eq {parent : Option Node} {part : Part} {k next : Nat} {tree : Tree} :
    Annotates config is source parent part k tree next →
      next = k + (registrationsIn is source parent part).length
  | .leaf => rfl
  | .keep no below => by rw [below.next_eq, registrationsIn_other no]
  | .call yes below _ => by
    rw [below.next_eq, registrationsIn_call yes, List.length_cons, Nat.add_right_comm]
    rfl

theorem AnnotatesAll.next_eq {parent : Option Node} {parts : List Part} {k next : Nat}
    {trees : List Tree} :
    AnnotatesAll config is source parent parts k trees next →
      next = k + (registrationsInAll is source parent parts).length
  | .nil => rfl
  | .cons first others => by
    rw [others.next_eq, first.next_eq, registrationsInAll_cons, List.length_append, Nat.add_assoc]

end

/-- Blanks, comments and a parenthesis stay as they are. -/
theorem AnnotatesAll.leaves {parent : Option Node} {parts : List Part} {k next : Nat}
    {trees : List Tree} (h : AnnotatesAll config is source parent parts k trees next)
    (hleaves : ∀ part ∈ parts, ∃ span token, part = .leaf span token) :
    trees = Part.eraseAll parts ∧ registrationsInAll is source parent parts = [] := by
  induction parts generalizing k trees with
  | nil =>
    cases h
    exact ⟨rfl, rfl⟩
  | cons part rest ih =>
    obtain ⟨span, token, rfl⟩ := hleaves part List.mem_cons_self
    cases h with
    | cons first others =>
      cases first
      obtain ⟨rfl, hnone⟩ := ih others fun part hpart => hleaves part (List.mem_cons_of_mem _ hpart)
      exact ⟨rfl, hnone⟩

/-! ## Calls -/

theorem tokens_groupBehind {config : Config} {k : Nat} {item : Tree} {token : Token}
    (h : ∀ arg, groupBehind arg item = groupBehind arg (.leaf token)) :
    tokensOf (groupBehind (argument config (2 * k) (2 * k + 1)) item) = group config k token := by
  rw [group, h]

/-- A list can be cut in one way at the first item with a property. -/
theorem first_unique {α : Type} {p : α → Prop} {a b r s : List α} {x y : α}
    (h : a ++ x :: r = b ++ y :: s) (ha : ∀ z ∈ a, ¬ p z) (hx : p x) (hb : ∀ z ∈ b, ¬ p z) (hy : p y) :
    a = b ∧ x = y ∧ r = s := by
  induction a generalizing b with
  | nil =>
    cases b with
    | nil =>
      obtain ⟨rfl, rfl⟩ := List.cons.inj h
      exact ⟨rfl, rfl, rfl⟩
    | cons z b =>
      obtain ⟨rfl, -⟩ := List.cons.inj h
      exact absurd hx (hb x List.mem_cons_self)
  | cons z a ih =>
    cases b with
    | nil =>
      obtain ⟨rfl, -⟩ := List.cons.inj h
      exact absurd hy (ha z List.mem_cons_self)
    | cons w b =>
      obtain ⟨rfl, hrest⟩ := List.cons.inj h
      obtain ⟨rfl, heqs⟩ := ih hrest (fun z hz => ha z (List.mem_cons_of_mem _ hz))
        (fun z hz => hb z (List.mem_cons_of_mem _ hz))
      exact ⟨rfl, heqs⟩

theorem appendArgument_eq {arg last : Tree} {front blanks list' : List Tree} {close : Token}
    (h : Tree.appendArgument arg (front ++ last :: (blanks ++ [.leaf close])) = some list')
    (hlast : last.isTrivia = false) (hblanks : ∀ blank ∈ blanks, blank.isTrivia = true)
    (hclose : close.kind = .rParen) :
    list' = front ++ last :: (groupBehind arg last ++ (blanks ++ [.leaf close])) := by
  have hclosed : ((front ++ last :: (blanks ++ [.leaf close])).map Tree.kind).getLast? =
      some (.token .rParen) := by
    rw [List.append_cons, ← List.append_assoc, List.map_append, List.map_singleton,
      List.getLast?_concat, Tree.kind, hclose]
  obtain ⟨before, item, trivia, closing, heq, hitem, htrivia, -, rfl⟩ := appendArgument_of_closed h hclosed
  have hsplit : ∀ (front blanks : List Tree) (last close : Tree),
      front ++ last :: (blanks ++ [close]) = (front ++ last :: blanks) ++ [close] := by simp
  rw [hsplit, hsplit] at heq
  obtain ⟨heq, hend⟩ := List.append_inj' heq rfl
  have hreverse := congrArg List.reverse heq
  rw [List.reverse_append, List.reverse_append, List.reverse_cons, List.reverse_cons,
    List.append_assoc, List.append_assoc, List.singleton_append, List.singleton_append] at hreverse
  have hsolid : ∀ trees : List Tree, (∀ blank ∈ trees, blank.isTrivia = true) →
      ∀ blank ∈ trees.reverse, ¬ blank.isTrivia = false := by
    intro trees htrees blank hblank
    rw [htrees blank (List.mem_reverse.mp hblank)]
    exact Bool.noConfusion
  obtain ⟨htrivia', rfl, hfront⟩ := first_unique hreverse (hsolid _ hblanks) hlast (hsolid _ htrivia) hitem
  rw [List.reverse_inj.mp htrivia', List.reverse_inj.mp hfront, List.singleton_inj.mp hend]

/-- What becomes of a call that is closed. -/
theorem appendTo_eq {arg last tree : Tree} {before front blanks : List Tree} {close : Token}
    (h : appendTo arg (.node .callExpr
      (before ++ [.node .argList (front ++ last :: (blanks ++ [.leaf close]))])) = .ok tree)
    (hbefore : ∀ part ∈ before, part.kind ≠ .node .argList) (hlast : last.isTrivia = false)
    (hblanks : ∀ blank ∈ blanks, blank.isTrivia = true) (hclose : close.kind = .rParen) :
    tree = .node .callExpr (before ++ [.node .argList
      (front ++ last :: (groupBehind arg last ++ (blanks ++ [.leaf close])))]) := by
  obtain ⟨others, list, behind, list', heq, hothers, happend, rfl⟩ := appendTo_eq_ok h
  obtain ⟨rfl, hlist, rfl⟩ := first_unique (p := fun tree => tree.kind = .node .argList) heq hbefore rfl
    hothers rfl
  cases hlist
  rw [appendArgument_eq happend hlast hblanks hclose]

theorem settled_of_isElement {kind : NodeKind} (h : kind.isElement = true) :
    Grammar.settled kind = true := by
  cases kind <;> first | rfl | cases h

/-- The last item of a list of arguments ends with a closed token, and the group behind the item is the one
behind this token. -/
theorem last_item {list : List Tree} {last : Tree} (h : (Tree.node .argList list).Sound Grammar.forms)
    (hmem : last ∈ list) (hsolid : last.isTrivia = false) :
    ∃ token, last.tokens.getLast? = some token ∧ token.kind.isClosed = true ∧
      ∀ arg out, out.kind = last.kind → groupBehind arg out = groupBehind arg (.leaf token) := by
  have hpart := (Grammar.argList_children h).2 _ hmem hsolid
  cases last with
  | leaf token =>
    refine ⟨token, rfl, hpart, fun arg out hout => ?_⟩
    rw [groupBehind, hout, groupBehind]
  | node kind children =>
    obtain ⟨token, htoken, hclosed, hcomma⟩ :=
      Grammar.last_token_settled (h.child _ hmem) rfl (settled_of_isElement hpart)
    refine ⟨token, htoken, hclosed, fun arg out hout => ?_⟩
    rw [groupBehind, hout, groupBehind]
    simp [Tree.kind, hcomma]

/-- Annotating the tree, wherever it stands, puts one group in for each registration. -/
def Splices (config : Config) (is : Node → Bool) (source : Source) (tree : Tree) : Prop :=
  ∀ (start : Nat) (parent : Option Node) (k next : Nat) (out : Tree), tree.Sound Grammar.forms →
    (tree.place start).placed.Nodup →
    Annotates config is source parent (tree.place start) k out next →
    Spliced config (registrationsIn is source parent (tree.place start)) k (tree.place start).placed
      out.tokens

theorem splices_all {trees : List Tree} (h : ∀ tree ∈ trees, Splices config is source tree)
    {start : Nat} {parent : Option Node} {k next : Nat} {outs : List Tree}
    (hsound : ∀ tree ∈ trees, tree.Sound Grammar.forms)
    (hnodup : (Part.placedAll (Tree.placeAll start trees)).Nodup)
    (hannotates : AnnotatesAll config is source parent (Tree.placeAll start trees) k outs next) :
    Spliced config (registrationsInAll is source parent (Tree.placeAll start trees)) k
      (Part.placedAll (Tree.placeAll start trees)) (tokensOf outs) := by
  induction trees generalizing start k outs with
  | nil =>
    cases hannotates
    exact Spliced.nil config _
  | cons tree rest ih =>
    rw [Tree.placeAll] at hannotates hnodup ⊢
    cases hannotates with
    | cons first others =>
      rw [Part.placedAll] at hnodup
      rw [registrationsInAll_cons, Part.placedAll, tokensOf]
      have hparts := List.nodup_append.mp hnodup
      refine Spliced.append (h tree List.mem_cons_self start parent _ _ _ (hsound tree List.mem_cons_self)
        hparts.1 first) ?_ hnodup
      rw [← first.next_eq]
      exact ih (fun tree htree => h tree (List.mem_cons_of_mem _ htree))
        (fun tree htree => hsound tree (List.mem_cons_of_mem _ htree)) hparts.2.1 others

theorem placeAll_append (start : Nat) (trees others : List Tree) :
    Tree.placeAll start (trees ++ others) = Tree.placeAll start trees ++
      Tree.placeAll (Part.stopOf start (Tree.placeAll start trees)) others := by
  induction trees generalizing start with
  | nil => rfl
  | cons tree rest ih =>
    rw [List.cons_append, Tree.placeAll, ih, Tree.placeAll, List.cons_append, Part.stopOf_cons]

theorem stopOf_append (start : Nat) (parts others : List Part) :
    Part.stopOf start (parts ++ others) = Part.stopOf (Part.stopOf start parts) others := by
  induction parts generalizing start with
  | nil => rfl
  | cons part rest ih => rw [List.cons_append, Part.stopOf_cons, ih, Part.stopOf_cons]

theorem stopOf_concat (start : Nat) (parts : List Part) (part : Part) :
    Part.stopOf start (parts ++ [part]) = part.span.stop := by
  rw [Part.stopOf, List.getLast?_concat]
  rfl

theorem tokens_of_trivia {blanks : List Tree} (h : ∀ blank ∈ blanks, blank.isTrivia = true) :
    ∀ token ∈ tokensOf blanks, token.isTrivia = true := by
  induction blanks with
  | nil =>
    intro token htoken
    cases htoken
  | cons blank rest ih =>
    intro token htoken
    rcases List.mem_append.mp htoken with htoken | htoken
    · cases blank with
      | leaf own =>
        rw [List.mem_singleton.mp htoken]
        exact h _ List.mem_cons_self
      | node kind children => cases h _ List.mem_cons_self
    · exact ih (fun blank hblank => h blank (List.mem_cons_of_mem _ hblank)) token htoken

/-- The end of a list of arguments at its place: blanks and comments, and the parenthesis. -/
theorem exists_end (start : Nat) {blanks : List Tree} (close : Token)
    (h : ∀ blank ∈ blanks, blank.isTrivia = true) :
    ∃ (trivia : List Placed) (closing : Placed),
      Part.placedAll (Tree.placeAll start (blanks ++ [.leaf close])) = trivia ++ [closing] ∧
        (∀ blank ∈ trivia, blank.token.isTrivia = true) ∧ closing.token = close ∧
        closing.span.stop = Part.stopOf start (Tree.placeAll start (blanks ++ [.leaf close])) ∧
        (trivia ++ [closing]).map (·.token) = tokensOf (blanks ++ [.leaf close]) := by
  rw [placeAll_append]
  let place := Part.stopOf start (Tree.placeAll start blanks)
  refine ⟨Part.placedAll (Tree.placeAll start blanks), ⟨⟨place, place + close.size⟩, close⟩,
    by rw [Part.placedAll_append]; rfl, ?_, rfl, ?_, ?_⟩
  · rw [(Tree.placedAll_placeAll start blanks).1]
    intro blank hblank
    exact tokens_of_trivia h _ (Token.token_mem_of_mem hblank)
  · exact (stopOf_concat start _ (.leaf ⟨place, place + close.size⟩ close)).symm
  · rw [List.map_append, (Tree.placedAll_placeAll start blanks).1, Token.map_token_placeAll, tokensOf_append]
    rfl

/-- Each part there is a token. -/
theorem leaves_placed (start : Nat) {blanks : List Tree} {close : Token}
    (h : ∀ blank ∈ blanks, blank.isTrivia = true) :
    ∀ part ∈ Tree.placeAll start (blanks ++ [.leaf close]), ∃ span token, part = .leaf span token := by
  have hleaves : ∀ tree ∈ blanks ++ [.leaf close], ∃ token, tree = .leaf token := by
    intro tree htree
    rcases List.mem_append.mp htree with htree | htree
    · cases tree with
      | leaf token => exact ⟨token, rfl⟩
      | node kind children => cases h _ htree
    · exact ⟨close, List.mem_singleton.mp htree⟩
  generalize blanks ++ [.leaf close] = trees at hleaves
  induction trees generalizing start with
  | nil =>
    intro part hpart
    cases hpart
  | cons tree rest ih =>
    intro part hpart
    rcases List.mem_cons.mp hpart with rfl | hpart
    · obtain ⟨token, rfl⟩ := hleaves tree List.mem_cons_self
      exact ⟨_, token, rfl⟩
    · exact ih _ (fun tree htree => hleaves tree (List.mem_cons_of_mem _ htree)) part hpart

/-- A tree that ends with a token at its place. -/
theorem exists_last_placed (start : Nat) {tree : Tree} {token : Token} (h : tree.tokens.getLast? = some token) :
    ∃ (front : List Placed) (last : Placed), (tree.place start).placed = front ++ [last] ∧ last.token = token := by
  obtain ⟨front, hfront⟩ := List.getLast?_eq_some_iff.mp h
  let place := start + Token.sizeOf front
  refine ⟨Token.placeAll start front, ⟨⟨place, place + token.size⟩, token⟩, ?_, rfl⟩
  rw [(Tree.placed_place start tree).1, hfront, Token.placeAll_append]
  rfl

/-- A list of arguments at its place: the calls in it have their groups before the parenthesis, and before
the place where the list gets its own one. -/
theorem splices_list {list front blanks : List Tree} {last : Tree} {close : Token}
    (hlist : (Tree.node .argList list).Sound Grammar.forms)
    (hcut : list = (front ++ [last]) ++ (blanks ++ [.leaf close])) (hlast : last.isTrivia = false)
    (hblanks : ∀ blank ∈ blanks, blank.isTrivia = true)
    (hitems : ∀ item ∈ list, Splices config is source item) {parent : Option Node} {start k next : Nat}
    {outs : List Tree} (hnodup : (Part.placedAll (Tree.placeAll start list)).Nodup)
    (h : AnnotatesAll config is source parent (Tree.placeAll start list) k outs next) :
    ∃ (fronts : List Tree) (item : Tree) (before trivia : List Placed) (place closing : Placed),
      outs = fronts ++ item :: (blanks ++ [.leaf close]) ∧ item.kind = last.kind ∧
      Part.placedAll (Tree.placeAll start list) = before ++ [place] ++ (trivia ++ [closing]) ∧
      Spliced config (registrationsInAll is source parent (Tree.placeAll start list)) k
        (before ++ [place]) (tokensOf (fronts ++ [item])) ∧
      place.token.isTrivia = false ∧
      (∀ arg, groupBehind arg item = groupBehind arg (.leaf place.token)) ∧
      (∀ blank ∈ trivia, blank.token.isTrivia = true) ∧ closing.token = close ∧
      closing.span.stop = Part.stopOf start (Tree.placeAll start list) ∧
      (trivia ++ [closing]).map (·.token) = tokensOf (blanks ++ [.leaf close]) := by
  have hmem : ∀ item ∈ front ++ [last], item ∈ list :=
    fun item hitem => by rw [hcut]; exact List.mem_append_left _ hitem
  obtain ⟨token, htoken, hclosed, hgroup⟩ := last_item hlist (hmem last (by simp)) hlast
  have hsolid := TokenKind.isTrivia_of_isClosed hclosed
  have hparts : Tree.placeAll start list = Tree.placeAll start (front ++ [last]) ++
      Tree.placeAll (Part.stopOf start (Tree.placeAll start (front ++ [last]))) (blanks ++ [.leaf close]) := by
    rw [hcut, placeAll_append]
  generalize hmiddle : Part.stopOf start (Tree.placeAll start (front ++ [last])) = middle at hparts
  obtain ⟨trivia, closing, hplaces, htrivia, hclosing, hstop, htokens⟩ := exists_end middle close hblanks
  rw [hparts] at h
  obtain ⟨items, ends, reached, rfl, hfront, hend⟩ := h.split
  obtain ⟨hends, hnone⟩ := hend.leaves (leaves_placed middle hblanks)
  rw [Tree.eraseAll_placeAll] at hends
  rw [hparts, Part.placedAll_append] at hnodup
  have hspliced := splices_all (fun item hitem => hitems item (hmem item hitem))
    (fun item hitem => hlist.child item (hmem item hitem)) (List.nodup_append.mp hnodup).1 hfront
  have hcutFront : Tree.placeAll start (front ++ [last]) = Tree.placeAll start front ++
      [last.place (Part.stopOf start (Tree.placeAll start front))] := by
    rw [placeAll_append]
    rfl
  rw [hcutFront] at hfront
  obtain ⟨fronts, one, _, rfl, -, hone⟩ := hfront.split
  cases hone with
  | @cons _ _ _ _ _ _ item _ hitem hnil =>
    cases hnil
    have hkind : item.kind = last.kind := by
      have halike := hitem.alike.kind
      rwa [Tree.erase_place] at halike
    obtain ⟨behind, place, hplace, rfl⟩ :=
      exists_last_placed (Part.stopOf start (Tree.placeAll start front)) htoken
    have hplaced : Part.placedAll (Tree.placeAll start (front ++ [last])) =
        (Part.placedAll (Tree.placeAll start front) ++ behind) ++ [place] := by
      rw [hcutFront, Part.placedAll_append, Part.placedAll, Part.placedAll, hplace, List.append_nil,
        List.append_assoc]
    refine ⟨fronts, item, Part.placedAll (Tree.placeAll start front) ++ behind, trivia, place, closing,
      ?_, hkind, ?_, ?_, hsolid, fun arg => hgroup arg item hkind, htrivia, hclosing, ?_, htokens⟩
    · rw [hends, List.append_assoc, List.singleton_append]
    · rw [hparts, Part.placedAll_append, hplaced, hplaces]
    · rw [hparts, registrationsInAll_append, hnone, List.append_nil, ← hplaced]
      exact hspliced
    · rw [hstop, hparts, stopOf_append, hmiddle]

/-- A registration: the calls in it have their groups before its own one. -/
theorem splices_call {children : List Tree}
    (hchildren : ∀ child ∈ children, Splices config is source child)
    (hitems : ∀ own list, .node own list ∈ children → ∀ item ∈ list, Splices config is source item)
    (hsound : (Tree.node .callExpr children).Sound Grammar.forms) {start : Nat}
    (hnodup : (Part.placedAll (Tree.placeAll start children)).Nodup) {call : Node} {k next : Nat}
    {outs : List Tree} {out : Tree}
    (hcall : call.span.stop = Part.stopOf start (Tree.placeAll start children))
    (below : AnnotatesAll config is source (some call) (Tree.placeAll start children) (k + 1) outs next)
    (append : appendTo (argument config (2 * k) (2 * k + 1)) (.node .callExpr outs) = .ok out) :
    Spliced config
      (call :: registrationsInAll is source (some call) (Tree.placeAll start children)) k
      (Part.placedAll (Tree.placeAll start children)) out.tokens := by
  obtain ⟨before, list, rfl, hbefore⟩ := Grammar.callExpr_closed hsound
  have hmem := List.mem_append_right before (List.mem_singleton_self (Tree.node .argList list))
  have hlist := hsound.child _ hmem
  obtain ⟨front, last, blanks, close, hcut, hlast, hblanks, hclose⟩ := Grammar.argList_closed hlist
  rw [placeAll_append] at below hnodup hcall ⊢
  generalize Part.stopOf start (Tree.placeAll start before) = place at *
  obtain ⟨befores, _, middle, rfl, hbefores, hrest⟩ := below.split
  cases hrest with
  | cons hargs hnone =>
    cases hnone
    cases hargs with
    | keep _ hargs =>
      have hone : Part.placedAll (Tree.placeAll place [.node .argList list]) =
          Part.placedAll (Tree.placeAll place list) := List.append_nil _
      have hcalls : ∀ part, registrationsInAll is source (some call) [part] =
          registrationsIn is source (some call) part := fun part => by
        rw [registrationsInAll_cons]
        exact List.append_nil _
      rw [Part.placedAll_append, hone] at hnodup ⊢
      obtain ⟨hnodupBefore, hnodupList, -⟩ := List.nodup_append.mp hnodup
      have hcut' : list = (front ++ [last]) ++ (blanks ++ [.leaf close]) := by simp [hcut]
      obtain ⟨fronts, item, behind, trivia, final, closing, rfl, hkind, hplaced, hinner, hsolid, hgroup,
        htrivia, hclosing, hstop, htokens⟩ :=
          splices_list hlist hcut' hlast hblanks (hitems _ list hmem) hnodupList hargs
      have hfront := splices_all (fun child hchild => hchildren child (List.mem_append_left _ hchild))
        (fun child hchild => hsound.child child (List.mem_append_left _ hchild)) hnodupBefore hbefores
      rw [hbefores.next_eq] at hinner
      have hassoc : Part.placedAll (Tree.placeAll start before) ++ (behind ++ [final] ++ (trivia ++ [closing])) =
          Part.placedAll (Tree.placeAll start before) ++ behind ++ [final] ++ (trivia ++ [closing]) := by
        simp only [List.append_assoc]
      rw [hplaced, hassoc] at hnodup ⊢
      have hboth := hfront.append hinner (by
        rw [← List.append_assoc]
        exact (List.nodup_append.mp hnodup).1)
      rw [← List.append_assoc] at hboth
      have hother : ∀ part ∈ befores, part.kind ≠ .node .argList := by
        intro part hpart
        obtain ⟨tree, htree, halike⟩ := exists_alike hbefores.alike part hpart
        rw [Tree.eraseAll_placeAll] at htree
        rw [halike.kind]
        exact hbefore tree htree
      have hitem : item.isTrivia = false := by
        rw [Tree.isTrivia, hkind]
        exact hlast
      have hend : closing.span.stop = call.span.stop := by
        rw [hstop, hcall]
        exact (stopOf_concat start _ ((Tree.node .argList list).place place)).symm
      have hdone := hboth.call hsolid htrivia (hclosing ▸ hclose) hend hnodup
      rw [htokens, ← tokens_groupBehind hgroup] at hdone
      rw [appendTo_eq append hother hitem hblanks hclose, registrationsInAll_append, Tree.placeAll, Tree.placeAll,
        hcalls, Tree.place, registrationsIn_other rfl]
      simpa [Tree.tokens, tokensOf, tokensOf_append] using hdone

theorem splices (tree : Tree) : Splices config is source tree := by
  match tree with
  | .leaf token =>
    intro start parent k next out _ _ hannotates
    cases hannotates
    exact Spliced.token config k _
  | .node kind children =>
    have hchildren : ∀ child ∈ children, Splices config is source child :=
      fun child hchild => splices child
    have hitems : ∀ own list, .node own list ∈ children → ∀ item ∈ list, Splices config is source item :=
      fun own list hlist item hitem => splices item
    intro start parent k next out hsound hnodup hannotates
    cases hannotates with
    | keep no below =>
      rw [Tree.place, registrationsIn_other no]
      exact splices_all hchildren hsound.child hnodup below
    | call yes below append =>
      rw [Tree.place, registrationsIn_call yes]
      exact splices_call hchildren hitems hsound hnodup rfl below append
termination_by sizeOf tree
decreasing_by
  · have := List.sizeOf_lt_of_mem hchild
    simp
    omega
  · have := List.sizeOf_lt_of_mem hitem
    have := List.sizeOf_lt_of_mem hlist
    simp at *
    omega

end

/-! ## The program -/

/-- The tokens that are not put in. -/
theorem unmarked (config : Config) (places : List (Placed × Nat)) (tokens : List Placed) :
    ((marked config places tokens).filter (·.1.isNone)).map (·.2) = tokens.map (·.token) := by
  induction tokens with
  | nil => rfl
  | cons placed rest ih =>
    have hgroups : ((places.filter (·.1 == placed)).flatMap fun place =>
        (group config place.2 placed.token).map fun token => (some place.2, token)).filter (·.1.isNone) =
        ([] : List (Option Nat × Token)) := by
      rw [List.filter_eq_nil_iff]
      intro token htoken
      obtain ⟨place, -, htoken⟩ := List.mem_flatMap.mp htoken
      obtain ⟨inner, -, rfl⟩ := List.mem_map.mp htoken
      exact Bool.false_ne_true
    rw [← List.singleton_append, marked_append, List.filter_append, List.map_append, ih, marked,
      List.flatMap_singleton, List.filter_cons, hgroups]
    rfl

/-- Annotating a program puts one group of tokens in for each registration, behind the last token before
its closing parenthesis that is neither blank nor comment, and changes nothing else: the tokens that are not
put in are those of the source, and so is their text. The source of a program without registrations is not
changed at all. -/
theorem registrations_get_a_group_each {source : String} {program : Callables} {annotated : Annotated}
    (hread : (Program.ofSource source).isOk = true)
    (h : annotate config program (Program.ofSource source).root = .ok annotated) :
    let root := (Program.ofSource source).root
    let out := annotated.visit.resultAt root
    let tokens := Token.placeAll 0 (Token.ofSource source)
    ∃ anchor places, Route.anchor config program.checked root = .ok anchor ∧
      List.Forall₂ (Closes tokens) (registrations program.checked anchor root) places ∧ places.Nodup ∧
      out.tokens = (marked config places.zipIdx tokens).map (·.2) ∧
      String.join (((marked config places.zipIdx tokens).filter (·.1.isNone)).map (·.2.text)) = source ∧
      (registrations program.checked anchor root = [] → out.text = source) := by
  intro root out tokens
  obtain ⟨anchor, hanchor, -, hannotates⟩ := annotate_ok config program h
  have hplaced : ((Program.ofSource source).tree.place 0).placed = tokens := by
    rw [(Tree.placed_place 0 _).1, Program.tokens_tree]
  rw [Program.root_part] at hannotates
  obtain ⟨places, hplaces, hdistinct, hout⟩ := splices _ 0 _ 0 _ _ (program_sound hread)
    (hplaced ▸ Token.nodup_places source) hannotates
  have hcalls : registrationsIn (isRegistration program.checked anchor) root.source root.parent
      ((Program.ofSource source).tree.place 0) = registrations program.checked anchor root := by
    rw [← Program.root_part]
    rfl
  rw [hplaced, hcalls] at hplaces
  rw [hplaced] at hout
  have hkept : ((marked config places.zipIdx tokens).filter (·.1.isNone)).map (·.2) = Token.ofSource source := by
    rw [unmarked, Token.map_token_placeAll]
  refine ⟨anchor, places, hanchor, hplaces, hdistinct, hout, ?_, fun hnone => ?_⟩
  · rw [← Token.join_ofSource source, ← hkept, List.map_map]
    rfl
  · rw [hnone] at hplaces
    cases hplaces
    have hsame : out.tokens = Token.ofSource source := by
      rw [hout, List.zipIdx_nil, marked_elsewhere fun place hplace => absurd hplace List.not_mem_nil,
        Token.map_token_placeAll]
    rw [Tree.text, hsame, Token.join_ofSource]

theorem oneRoute_gets_a_group : (Program.ofSource oneRoute).isOk = true ∧
    ∃ program annotated call place, annotate oneRouteConfig program (Program.ofSource oneRoute).root = .ok annotated ∧
      Closes (Token.placeAll 0 (Token.ofSource oneRoute)) call place ∧
      (annotated.visit.resultAt (Program.ofSource oneRoute).root).tokens =
        (marked oneRouteConfig [(place, 0)] (Token.placeAll 0 (Token.ofSource oneRoute))).map (·.2) := by
  obtain ⟨hread, program, annotated, h, hone⟩ := oneRoute_annotates
  obtain ⟨anchor, places, hanchor, hplaces, -, hout, -⟩ := registrations_get_a_group_each hread h
  rw [registrations_eq_length _ _ h hanchor, hplaces.length_eq, List.length_eq_one_iff] at hone
  obtain ⟨place, rfl⟩ := hone
  cases hcalls : registrations program.checked anchor (Program.ofSource oneRoute).root with
  | nil =>
    rw [hcalls] at hplaces
    cases hplaces
  | cons call rest =>
    rw [hcalls] at hplaces
    cases hplaces with
    | cons hclose _ => exact ⟨hread, program, annotated, call, place, h, hclose, hout⟩

end Route

end RouteTypes
