-- When a row of events makes trees. A tower is the events of a node and of the nodes around it that were
-- begun later, each linked to the next one out; a row of events spells trees if it is made of towers and
-- of takes. Replaying such a row puts exactly these trees behind the parts there are, and leaves the
-- events around it alone.
import RouteTypes.Grammar.Event

namespace RouteTypes.Event

open RouteTypes.Tree

/-! ## Balance -/

/-- How many nodes are open behind the events, if so many are before; nothing if more end than begin. -/
def depthBehind : Nat → List Event → Option Nat
  | depth, [] => some depth
  | depth, .begins _ _ :: rest => depthBehind (depth + 1) rest
  | depth, .takes :: rest => depthBehind depth rest
  | depth + 1, .ends :: rest => depthBehind depth rest
  | 0, .ends :: _ => none

/-- Every node that begins ends, and none ends that has not begun. -/
def Balanced (events : List Event) : Prop := depthBehind 0 events = some 0

/-! ## Spelling -/

mutual

/-- The events from `place` on make these trees. -/
inductive Spells : Nat → List Event → List Tree → Prop
  | nil {place : Nat} : Spells place [] []
  | takes {place : Nat} {events : List Event} {trees : List Tree} {token : Token}
      (rest : Spells (place + 1) events trees) :
      Spells place (.takes :: events) (.leaf token :: trees)
  | tower {place outermost : Nat} {kind : NodeKind} {link : Option Nat} {tail events : List Event}
      {tree : Tree} {trees : List Tree} (first : Tower place kind link tail [] outermost tree)
      (rest : Spells (place + 1 + tail.length) events trees) :
      Spells place (.begins (some kind) link :: (tail ++ events)) (tree :: trees)

/-- The event at `place` that begins a node of that kind, and the `tail` behind it, make a node whose
first parts are the `inner` ones, and the nodes around it. The `outermost` of these begins there. -/
inductive Tower : Nat → NodeKind → Option Nat → List Event → List Tree → Nat → Tree → Prop
  | last {place : Nat} {kind : NodeKind} {events : List Event} {inner trees : List Tree}
      (body : Spells (place + 1) events trees) :
      Tower place kind none (events ++ [.ends]) inner place (.node kind (inner ++ trees))
  | more {place outermost : Nat} {kind outer : NodeKind} {link : Option Nat}
      {events tail : List Event} {inner trees : List Tree} {tree : Tree}
      (body : Spells (place + 1) events trees)
      (around : Tower (place + 1 + events.length + 1) outer link tail [.node kind (inner ++ trees)]
        outermost tree) :
      Tower place kind (some (place + 1 + events.length + 1))
        (events ++ .ends :: .begins (some outer) link :: tail) inner outermost tree

end

mutual

theorem Spells.depthBehind {place : Nat} {events : List Event} {trees : List Tree} (depth : Nat)
    (behind : List Event) : Spells place events trees →
    depthBehind depth (events ++ behind) = depthBehind depth behind
  | .nil => rfl
  | .takes rest => rest.depthBehind depth behind
  | .tower first rest => by
    rw [List.cons_append, List.append_assoc, first.depthBehind depth, rest.depthBehind depth behind]

theorem Tower.depthBehind {place outermost : Nat} {kind : NodeKind} {link : Option Nat}
    {tail : List Event} {inner : List Tree} {tree : Tree} (depth : Nat) (behind : List Event) :
    Tower place kind link tail inner outermost tree →
    Event.depthBehind depth (.begins (some kind) link :: (tail ++ behind)) =
      Event.depthBehind depth behind
  | .last body => by
    rw [Event.depthBehind, List.append_assoc, body.depthBehind]
    rfl
  | .more body around => by
    rw [Event.depthBehind, List.append_assoc, body.depthBehind]
    exact around.depthBehind depth behind

end

/-! ## Replaying a part of the events -/

theorem getElem?_behind {before behind : List Event} {event : Event} {place : Nat}
    (hplace : before.length = place) :
    (before ++ event :: behind).toArray[place]? = some event := by
  subst hplace
  simp

theorem set_behind {before behind : List Event} {event : Event} {place : Nat} (new : Event)
    (hplace : before.length = place) :
    (before ++ event :: behind).toArray.setIfInBounds place new =
      (before ++ new :: behind).toArray := by
  subst hplace
  simp

theorem replayFrom_zero (place : Nat) (state : Array Event × Assembly) :
    replayFrom place 0 state = some state := rfl

theorem replayFrom_succ (place count : Nat) (state : Array Event × Assembly) :
    replayFrom place (count + 1) state =
      (replayAt place state).bind (replayFrom (place + 1) count) := by
  simp only [replayFrom, List.range'_succ, List.foldlM_cons]
  rfl

theorem replayFrom_add (place count more : Nat) (state : Array Event × Assembly) :
    replayFrom place (count + more) state =
      (replayFrom place count state).bind (replayFrom (place + count) more) := by
  induction count generalizing place state with
  | zero => simp [replayFrom_zero]
  | succ count ih =>
    rw [Nat.add_right_comm, replayFrom_succ, replayFrom_succ, Option.bind_assoc]
    congr 1
    funext next
    rw [ih, Nat.add_assoc, Nat.add_comm 1 count]

theorem unlink_free {events : Array Event} {place : Nat} {kind : Option NodeKind}
    (h : events[place]? = some (.begins kind none)) : unlink events place = ([], events) := by
  rw [unlink]
  split
  · rename_i hlinked
    rw [h] at hlinked
    cases hlinked
  · rfl

theorem unlink_linked {events : Array Event} {place next : Nat} {kind outer : Option NodeKind}
    {link : Option Nat} (h : events[place]? = some (.begins kind (some next)))
    (hnext : (events.setIfInBounds place (.begins kind none))[next]? = some (.begins outer link)) :
    unlink events place =
      (let rest := unlink
        ((events.setIfInBounds place (.begins kind none)).setIfInBounds next (.begins none link)) next
      (outer :: rest.1, rest.2)) := by
  rw [unlink]
  split
  · rename_i hlinked
    rw [h] at hlinked
    cases hlinked
    dsimp only
    split
    · rename_i hfound
      rw [hnext] at hfound
      cases hfound
      rfl
    · rename_i hnone
      exact absurd hnext (hnone _ _)
  · rename_i hfree
    exact absurd h (hfree _ _)

/-- A beginning starts the nodes it leads to, outermost first, and then its own. -/
theorem replayAt_begins {events : Array Event} {place : Nat} {kind : Option NodeKind}
    {link : Option Nat} (a : Assembly) (h : events[place]? = some (.begins kind link)) :
    replayAt place (events, a) =
      some ((unlink events place).2, (a.startAll (unlink events place).1.reverse).start kind) := by
  cases link with
  | none =>
    rw [unlink_free h]
    simp only [replayAt, h]
    rfl
  | some next =>
    simp only [replayAt, h, List.reverse_cons, Assembly.startAll, List.foldl_append]
    rfl

theorem replayAt_takes {events : Array Event} {place : Nat} (a : Assembly)
    (h : events[place]? = some .takes) : replayAt place (events, a) = some (events, a.take) := by
  simp only [replayAt, h]

theorem replayAt_ends {events : Array Event} {place : Nat} (a : Assembly)
    (h : events[place]? = some .ends) :
    replayAt place (events, a) = a.finish.map fun a => (events, a) := by
  simp only [replayAt, h]

/-- A tower takes the tokens of its first parts for granted. -/
theorem Tower.tokens {place outermost : Nat} {kind : NodeKind} {link : Option Nat}
    {tail : List Event} {inner : List Tree} {tree : Tree}
    (h : Tower place kind link tail inner outermost tree) :
    ∃ taken, tree.tokens = tokensOf inner ++ taken := by
  induction hlength : tail.length using Nat.strongRecOn generalizing place kind link tail inner with
  | ind length ih =>
    cases h with
    | @last _ _ _ _ trees _ => exact ⟨tokensOf trees, by rw [Tree.tokens, tokensOf_append]⟩
    | @more _ _ _ _ _ _ _ _ trees _ _ around =>
      obtain ⟨taken, htaken⟩ := ih _ (by rw [← hlength, List.length_append]; simp only [List.length_cons]; omega) around rfl
      refine ⟨tokensOf trees ++ taken, ?_⟩
      rw [htaken, tokensOf, Tree.tokens, tokensOf_append, tokensOf]
      simp

/-- Inside the innermost of several new nodes, behind its first parts. The kinds of the others stand
innermost first. -/
def within (a : Assembly) (kinds : List (Option NodeKind)) (kind : NodeKind) (inner : List Tree) :
    Assembly :=
  { (a.startAll kinds.reverse).start (some kind) with parts := inner.reverse }

theorem startAll_tokens (kinds : List (Option NodeKind)) (a : Assembly) (tokens : List Token) :
    Assembly.startAll kinds ⟨tokens, a.parts, a.outer⟩ =
      ⟨tokens, (a.startAll kinds).parts, (a.startAll kinds).outer⟩ := by
  induction kinds generalizing a with
  | nil => rfl
  | cons kind kinds ih =>
    cases kind with
    | none => exact ih a
    | some kind => exact ih ⟨a.tokens, [], (kind, a.parts) :: a.outer⟩

theorem within_tokens (a : Assembly) (kinds : List (Option NodeKind)) (kind : NodeKind)
    (inner : List Tree) (tokens : List Token) :
    within ⟨tokens, a.parts, a.outer⟩ kinds kind inner =
      ⟨tokens, inner.reverse, (within a kinds kind []).outer⟩ := by
  simp only [within, Assembly.start, startAll_tokens]

theorem within_cons (a : Assembly) (kinds : List (Option NodeKind)) (outer kind : NodeKind)
    (inner : List Tree) :
    within a (some outer :: kinds) kind inner =
      ⟨a.tokens, inner.reverse, (kind, []) :: (within a kinds outer []).outer⟩ := by
  have htokens : (a.startAll kinds.reverse).tokens = a.tokens := by
    have := startAll_tokens kinds.reverse a a.tokens
    rw [this]
  simp only [within, Assembly.startAll, List.reverse_cons, List.foldl_append, List.foldl_cons,
    List.foldl_nil, Assembly.start] at htokens ⊢
  rw [htokens]

/-- A tower makes a node. -/
theorem Tower.isNode {place outermost : Nat} {kind : NodeKind} {link : Option Nat}
    {tail : List Event} {inner : List Tree} {tree : Tree} :
    Tower place kind link tail inner outermost tree → ∃ kind children, tree = .node kind children
  | .last _ => ⟨_, _, rfl⟩
  | .more _ around => around.isNode

mutual

/-- A row of events puts the trees that it spells behind the parts there are. -/
theorem Spells.replay {place : Nat} {events : List Event} {trees : List Tree}
    (h : Spells place events trees) (before behind : List Event) (hplace : before.length = place)
    (a : Assembly) (rest : List Token) (htokens : a.tokens = tokensOf trees ++ rest) :
    ∃ left, left.length = events.length ∧
      replayFrom place events.length ((before ++ (events ++ behind)).toArray, a) =
        some ((before ++ (left ++ behind)).toArray, ⟨rest, trees.reverse ++ a.parts, a.outer⟩) := by
  match h with
  | .nil =>
    refine ⟨[], rfl, ?_⟩
    rw [List.length_nil, replayFrom_zero]
    rw [tokensOf, List.nil_append] at htokens
    rw [← htokens]
    rfl
  | @Spells.takes _ events trees token hrest =>
    rw [tokensOf, Tree.tokens, List.singleton_append, List.cons_append] at htokens
    obtain ⟨left, hlength, hleft⟩ := hrest.replay (before ++ [.takes]) behind (by simp [hplace])
      ⟨tokensOf trees ++ rest, .leaf token :: a.parts, a.outer⟩ rest rfl
    refine ⟨.takes :: left, by simp [hlength], ?_⟩
    rw [List.length_cons, replayFrom_succ, List.cons_append,
      replayAt_takes a (getElem?_behind hplace)]
    simp only [Assembly.take, htokens, Option.bind_some]
    simpa using hleft
  | @Spells.tower _ outermost kind link tail events tree trees first hrest =>
    rw [tokensOf, List.append_assoc] at htokens
    obtain ⟨kinds, left, hlength, hunlink, hreplay⟩ :=
      first.replay before (events ++ behind) hplace (some kind)
    obtain ⟨last, hlast, hfirst⟩ := hreplay before hplace (.begins (some kind) none) a
      (tokensOf trees ++ rest) (by rw [tokensOf, List.nil_append, htokens])
    have hplace' : (before ++ .begins (some kind) none :: last).length = place + 1 + tail.length := by
      simp [hplace, hlast]
      omega
    obtain ⟨final, hfinal, hrest⟩ := hrest.replay (before ++ .begins (some kind) none :: last) behind
      hplace' ⟨tokensOf trees ++ rest, tree :: a.parts, a.outer⟩ rest rfl
    refine ⟨.begins (some kind) none :: (last ++ final), by simp [hlast, hfinal], ?_⟩
    have hcount : (Event.begins (some kind) link :: (tail ++ events)).length =
        tail.length + events.length + 1 := by simp
    have hfound : (before ++ .begins (some kind) link :: (tail ++ (events ++ behind))).toArray[place]? =
        some (.begins (some kind) link) := getElem?_behind hplace
    have hbegins := replayAt_begins a hfound
    rw [hunlink] at hbegins
    have hwithin : (a.startAll kinds.reverse).start (some kind) = within a kinds kind [] := rfl
    rw [hcount, replayFrom_succ, List.cons_append, List.append_assoc, hbegins, Option.bind_some,
      replayFrom_add, hwithin, hfirst, Option.bind_some]
    simpa using hrest

/-- Once the links of a tower are followed, the events behind its beginning make the rest of it. -/
theorem Tower.replay {place outermost : Nat} {kind : NodeKind} {link : Option Nat}
    {tail : List Event} {inner : List Tree} {tree : Tree}
    (h : Tower place kind link tail inner outermost tree) (before behind : List Event)
    (hplace : before.length = place) (first : Option NodeKind) :
    ∃ kinds left, left.length = tail.length ∧
      unlink (before ++ .begins first link :: (tail ++ behind)).toArray place =
        (kinds, (before ++ .begins first none :: (left ++ behind)).toArray) ∧
      ∀ front : List Event, front.length = place → ∀ (event : Event) (a : Assembly) (rest : List Token),
        tokensOf inner ++ a.tokens = tree.tokens ++ rest →
        ∃ last, last.length = tail.length ∧
          replayFrom (place + 1) tail.length
              ((front ++ event :: (left ++ behind)).toArray, within a kinds kind inner) =
            some ((front ++ event :: (last ++ behind)).toArray,
              ⟨rest, tree :: a.parts, a.outer⟩) := by
  match h with
  | @Tower.last _ _ events _ trees body =>
    refine ⟨[], events ++ [.ends], rfl, unlink_free (getElem?_behind hplace), ?_⟩
    intro front hfront event a rest htokens
    rw [Tree.tokens, tokensOf_append, List.append_assoc, List.append_cancel_left_eq] at htokens
    obtain ⟨left, hleft, hbody⟩ := body.replay (front ++ [event]) (.ends :: behind)
      (by simp [hfront]) ⟨a.tokens, inner.reverse, (kind, a.parts) :: a.outer⟩ rest htokens
    refine ⟨left ++ [.ends], by simp [hleft], ?_⟩
    have hends : (front ++ [event] ++ (left ++ .ends :: behind)).toArray[place + 1 + events.length]? =
        some .ends := by
      rw [← List.append_assoc]
      exact getElem?_behind (by simp [hfront, hleft]; omega)
    have hwithin : within a [] kind inner = ⟨a.tokens, inner.reverse, (kind, a.parts) :: a.outer⟩ :=
      rfl
    simp only [List.append_assoc, List.singleton_append] at hbody hends
    rw [List.length_append, List.length_singleton, replayFrom_add, hwithin, List.append_assoc,
      List.singleton_append, hbody, Option.bind_some, replayFrom_succ, replayAt_ends _ hends]
    simp [Assembly.finish, replayFrom_zero]
  | @Tower.more _ _ _ outer link events tail _ trees _ body around =>
    have hsplit : ∀ (front left : List Event) (event next : Event),
        front ++ event :: (left ++ .ends :: next :: tail ++ behind) =
          (front ++ event :: (left ++ [.ends])) ++ next :: (tail ++ behind) := by
      intro front left event next
      simp
    have hplace' : ∀ (front left : List Event) (event : Event), front.length = place →
        left.length = events.length →
        (front ++ event :: (left ++ [.ends])).length = place + 1 + events.length + 1 := by
      intro front left event hfront hleft
      simp [hfront, hleft]
      omega
    obtain ⟨kinds, left, hlength, hunlink, hreplay⟩ :=
      around.replay (before ++ .begins first none :: (events ++ [.ends])) behind
        (hplace' _ _ _ hplace rfl) none
    refine ⟨some outer :: kinds, events ++ .ends :: .begins none none :: left, by simp [hlength],
      ?_, ?_⟩
    · have hfound : (before ++ .begins first none ::
          (events ++ .ends :: .begins (some outer) link :: tail ++ behind)).toArray[
            place + 1 + events.length + 1]? = some (.begins (some outer) link) := by
        rw [hsplit, getElem?_behind (hplace' _ _ _ hplace rfl)]
      rw [unlink_linked (getElem?_behind hplace) (by rw [set_behind _ hplace]; exact hfound),
        set_behind _ hplace, hsplit, set_behind _ (hplace' _ _ _ hplace rfl), hunlink]
      simp
    · intro front hfront event a rest htokens
      obtain ⟨taken, htaken⟩ := around.tokens
      have htokens' : a.tokens = tokensOf trees ++ (taken ++ rest) := by
        rw [htaken, tokensOf, Tree.tokens, tokensOf_append, tokensOf] at htokens
        simpa using htokens
      obtain ⟨bodyLeft, hbodyLeft, hbody⟩ := body.replay (front ++ [event])
        (.ends :: .begins none none :: (left ++ behind)) (by simp [hfront])
        (within a (some outer :: kinds) kind inner) (taken ++ rest)
        (by rw [within_cons]; exact htokens')
      obtain ⟨last, hlast, haround⟩ := hreplay (front ++ event :: (bodyLeft ++ [.ends]))
        (hplace' _ _ _ hfront hbodyLeft) (.begins none none) ⟨taken ++ rest, a.parts, a.outer⟩ rest
        (by rw [htaken, List.append_assoc])
      refine ⟨bodyLeft ++ .ends :: .begins none none :: last, by simp [hbodyLeft, hlast], ?_⟩
      have hends : (front ++ [event] ++ (bodyLeft ++
          .ends :: .begins none none :: (left ++ behind))).toArray[place + 1 + events.length]? =
            some .ends := by
        rw [← List.append_assoc]
        exact getElem?_behind (by simp [hfront, hbodyLeft]; omega)
      have hbegins : (front ++ event :: (bodyLeft ++ [.ends]) ++
          .begins none none :: (left ++ behind)).toArray[place + 1 + events.length + 1]? =
            some (.begins none none) := getElem?_behind (hplace' _ _ _ hfront hbodyLeft)
      have hcount : (events ++ .ends :: .begins (some outer) link :: tail).length =
          events.length + (tail.length + 1 + 1) := by simp
      have hsame : front ++ [event] ++ (bodyLeft ++ .ends :: .begins none none :: (left ++ behind)) =
          front ++ event :: (bodyLeft ++ [.ends]) ++ .begins none none :: (left ++ behind) := by
        simp
      have hstart : front ++ event :: (events ++ .ends :: .begins none none :: left ++ behind) =
          front ++ [event] ++ (events ++ .ends :: .begins none none :: (left ++ behind)) := by
        simp
      rw [hsame] at hbody hends
      rw [hcount, replayFrom_add, hstart, hbody, Option.bind_some, replayFrom_succ,
        replayAt_ends _ hends, within_cons]
      simp only [Assembly.finish, Option.map_some, Option.bind_some]
      rw [replayFrom_succ, replayAt_begins _ hbegins, unlink_free hbegins, Option.bind_some]
      rw [within_tokens] at haround
      have hnode : (trees.reverse ++ inner.reverse).reverse = inner ++ trees := by simp
      simpa [Assembly.startAll, Assembly.start, hnode] using haround

end

/-! ## Replaying all of the events -/

/-- The tower of an outermost node builds its tree. -/
theorem Tower.build {outermost : Nat} {kind : NodeKind} {link : Option Nat} {tail : List Event}
    {tree : Tree} (h : Tower 0 kind link tail [] outermost tree) :
    build (.begins (some kind) link :: tail).toArray tree.tokens = some tree := by
  have hspells : Spells 0 (.begins (some kind) link :: (tail ++ [])) [tree] := .tower h .nil
  obtain ⟨left, -, hreplay⟩ := hspells.replay [] [] rfl ⟨tree.tokens, [], []⟩ []
    (by simp [tokensOf])
  have htree : ∃ kind children, tree = .node kind children := h.isNode
  obtain ⟨kind, children, rfl⟩ := htree
  simp only [List.nil_append, List.append_nil, List.length_cons] at hreplay
  simp [Event.build, hreplay, Assembly.tree?]

end RouteTypes.Event
