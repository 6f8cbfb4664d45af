-- What reading leaves behind: a row of events, each of which begins a node, ends one or takes the next
-- token. A node may be put around one that has ended already. Its beginning stands behind that node
-- then, and a link leads there. Replaying the events makes the tree.
import RouteTypes.Tree.Basic

namespace RouteTypes

/-- A step in the making of a tree. -/
inductive Event where
  /-- A node begins. Its kind is known once it has ended. The link is the place of the event that begins
  the node around it, if that one was begun later. -/
  | begins (kind : Option NodeKind) (link : Option Nat)
  | ends
  | takes
deriving DecidableEq, Repr, Inhabited

namespace Event

def isLinked : Event → Bool
  | .begins _ (some _) => true
  | _ => false

/-- A beginning that leads to the place of another one. -/
def linkedTo (place : Nat) : Event → Event
  | .begins kind _ => .begins kind (some place)
  | event => event

/-- A beginning of a node of that kind. -/
def named (kind : NodeKind) : Event → Event
  | .begins _ link => .begins (some kind) link
  | event => event

end Event

/-! ## Trees in the making -/

/-- The tokens to come, the parts of the innermost open node (last first), and for each open node its
kind and the parts of the node around it, innermost first. -/
structure Assembly where
  tokens : List Token
  parts : List Tree
  outer : List (NodeKind × List Tree)
deriving Repr

namespace Assembly

/-- Begins a node. One without a kind was given up, or has been begun before. -/
def start (kind : Option NodeKind) (a : Assembly) : Assembly :=
  match kind with
  | none => a
  | some kind => { a with parts := [], outer := (kind, a.parts) :: a.outer }

/-- Begins nodes, each in the one before it. -/
def startAll (kinds : List (Option NodeKind)) (a : Assembly) : Assembly :=
  kinds.foldl (fun a kind => a.start kind) a

/-- Ends the innermost node. There is none if more nodes end than begin. -/
def finish (a : Assembly) : Option Assembly :=
  match a.outer with
  | [] => none
  | (kind, before) :: outer => some { a with parts := .node kind a.parts.reverse :: before, outer }

/-- Takes the next token. -/
def take (a : Assembly) : Assembly :=
  match a.tokens with
  | [] => a
  | token :: rest => { a with tokens := rest, parts := .leaf token :: a.parts }

/-- The tree, if it is there as a whole. -/
def tree? (a : Assembly) : Option Tree :=
  match a.outer, a.parts with
  | [], [.node kind children] => some (.node kind children)
  | _, _ => none

end Assembly

/-! ## Replaying -/

namespace Event

theorem countP_setIfInBounds_lt {events : Array Event} {place next : Nat} {kind : Option NodeKind}
    (h : events[place]? = some (.begins kind (some next))) :
    (events.setIfInBounds place (.begins kind none)).countP isLinked < events.countP isLinked := by
  obtain ⟨hplace, hevent⟩ := Array.getElem?_eq_some_iff.mp h
  have hlinked : isLinked events[place] = true := by rw [hevent]; rfl
  have hfree : isLinked (.begins kind none) = false := rfl
  have hpos : 0 < events.countP isLinked :=
    Array.countP_pos_iff.mpr ⟨_, Array.getElem_mem hplace, hlinked⟩
  rw [Array.setIfInBounds_def, dif_pos hplace, Array.countP_set, if_pos hlinked, hfree]
  simp only [Bool.false_eq_true, if_false]
  omega

theorem countP_setIfInBounds_eq {events : Array Event} {place : Nat} {old new : Event}
    (h : events[place]? = some old) (hsame : isLinked new = isLinked old) :
    (events.setIfInBounds place new).countP isLinked = events.countP isLinked := by
  obtain ⟨hplace, rfl⟩ := Array.getElem?_eq_some_iff.mp h
  have hpos : isLinked events[place] = true → 0 < events.countP isLinked := fun hlinked =>
    Array.countP_pos_iff.mpr ⟨_, Array.getElem_mem hplace, hlinked⟩
  rw [Array.setIfInBounds_def, dif_pos hplace, Array.countP_set, hsame]
  split
  · have := hpos ‹_›; omega
  · rfl

/-- What the beginning at `place` leads to: the kinds of the nodes around it, innermost first, and the
events without the links and without the beginnings of these nodes. -/
def unlink (events : Array Event) (place : Nat) : List (Option NodeKind) × Array Event :=
  match hplace : events[place]? with
  | some (.begins kind (some next)) =>
    let taken := events.setIfInBounds place (.begins kind none)
    have hfewer : taken.countP isLinked < events.countP isLinked := countP_setIfInBounds_lt hplace
    match hnext : taken[next]? with
    | some (.begins outer link) =>
      have hsame : (taken.setIfInBounds next (.begins none link)).countP isLinked =
          taken.countP isLinked := countP_setIfInBounds_eq hnext (by cases link <;> rfl)
      let (kinds, rest) := unlink (taken.setIfInBounds next (.begins none link)) next
      (outer :: kinds, rest)
    | _ => ([], taken)
  | _ => ([], events)
termination_by events.countP isLinked
decreasing_by exact hsame ▸ hfewer

/-- The event at a place, replayed. -/
def replayAt (place : Nat) (state : Array Event × Assembly) : Option (Array Event × Assembly) :=
  let (events, a) := state
  match events[place]? with
  | none => some (events, a)
  | some (.begins kind none) => some (events, a.start kind)
  | some (.begins kind (some _)) =>
    let (kinds, events) := unlink events place
    some (events, a.startAll (kind :: kinds).reverse)
  | some .ends => a.finish.map fun a => (events, a)
  | some .takes => some (events, a.take)

/-- The events from a place on, so many of them, replayed. -/
def replayFrom (place count : Nat) (state : Array Event × Assembly) :
    Option (Array Event × Assembly) :=
  (List.range' place count).foldlM (fun state place => replayAt place state) state

/-- The tree that the events make of the tokens. -/
def build (events : Array Event) (tokens : List Token) : Option Tree := do
  let (_, a) ← replayFrom 0 events.size (events, ⟨tokens, [], []⟩)
  a.tree?

end Event

end RouteTypes
