-- Visits of trees. A visit that leaves a node as it was makes the same tree as one that makes every node again: a
-- plain visit, which also tells what each handler that it came to did.
import RouteTypes.Tree.Visit

namespace RouteTypes

/-! ## Actions in turn -/

section

variable {σ ε α β : Type}

theorem run_bind_ok {x : Visiting σ ε α} {f : α → Visiting σ ε β} {s : σ} {out : β × σ}
    (h : (x >>= f).run s = .ok out) :
    ∃ a middle, x.run s = .ok (a, middle) ∧ (f a).run middle = .ok out := by
  rw [StateT.run_bind] at h
  cases hx : x.run s with
  | error e =>
    rw [hx] at h
    cases h
  | ok first =>
    rw [hx] at h
    exact ⟨first.1, first.2, rfl, h⟩

theorem run_bind_error {x : Visiting σ ε α} {f : α → Visiting σ ε β} {s : σ} {e : ε}
    (h : (x >>= f).run s = .error e) :
    x.run s = .error e ∨ ∃ a middle, x.run s = .ok (a, middle) ∧ (f a).run middle = .error e := by
  rw [StateT.run_bind] at h
  cases hx : x.run s with
  | error e' =>
    rw [hx] at h
    cases h
    exact .inl rfl
  | ok first =>
    rw [hx] at h
    exact .inr ⟨first.1, first.2, rfl, h⟩

end

/-! ## Results -/

theorem results_of_kept : ∀ (parts : List Part) (visits : List Visit),
    visits.length = parts.length → visits.all Visit.isKept = true →
      Visit.results parts visits = Part.eraseAll parts
  | [], visits, _, _ => rfl
  | part :: parts, [], hlength, _ => by cases hlength
  | part :: parts, visit :: visits, hlength, hkept => by
    rw [List.all_cons, Bool.and_eq_true] at hkept
    cases visit with
    | kept =>
      rw [Visit.results, results_of_kept parts visits (Nat.succ.inj hlength) hkept.2]
      rfl
    | changed tree => cases hkept.1

/-- A node that is left as it is if nothing below it changes is the same as one that is made again. -/
theorem result_around {kind : NodeKind} {parts : List Part} {visits : List Visit} (span : Text.Span)
    (hlength : visits.length = parts.length) :
    (Visit.around kind parts visits).result (.node span kind parts) =
      .node kind (Visit.results parts visits) := by
  unfold Visit.around
  split
  · rename_i hkept
    rw [results_of_kept parts visits hlength hkept]
    rfl
  · rfl

theorem resultAt_eq (node : Node) (visit : Visit) : visit.resultAt node = visit.result node.part := by
  cases visit <;> rfl

theorem visitParts_length {σ ε : Type} {visitor : Visitor σ ε} {source : Source} {parent : Option Node} :
    ∀ {parts : List Part} {before after : σ} {visits : List Visit},
      (visitor.visitParts source parent parts).run before = .ok (visits, after) →
        visits.length = parts.length
  | [], _, _, _, h => by
    cases h
    rfl
  | part :: rest, before, after, visits, h => by
    rw [Visitor.visitParts] at h
    obtain ⟨visit, middle, -, hbehind⟩ := run_bind_ok h
    obtain ⟨others, _, hrest, hbehind⟩ := run_bind_ok hbehind
    cases hbehind
    rw [List.length_cons, visitParts_length hrest, List.length_cons]

/-! ## Handlers -/

namespace Visitor

/-- What a handler does once it has looked at its node. It stops with what is to stand in place of the node, or it
has the nodes below visited. Then it says what is to stand in place of what that made of the node, if anything. -/
inductive Course (σ ε : Type) where
  | stop (visit : Visit)
  | descend (finish : Tree → Visiting σ ε (Option Visit))

namespace Course

variable {σ ε : Type}

/-- The rest of what the handler does. -/
def run (node : Node) (below : Visiting σ ε Visit) : Course σ ε → Visiting σ ε Visit
  | .stop visit => return visit
  | .descend finish => do
    let visit ← below
    return (← finish (visit.resultAt node)).getD visit

/-- What the handler puts in place of the node without a visit of the nodes below. -/
def tree? (node : Node) : Course σ ε → Option Tree
  | .stop visit => some (visit.resultAt node)
  | .descend _ => none

end Course

/-- The handlers of the visitor look at their nodes like this and go on from there. They see trees, and not
whether a tree is the one that was there before. -/
def Looks {σ ε : Type} (v : Visitor σ ε) (look : Node → Visiting σ ε (Course σ ε)) : Prop :=
  ∀ node below, v.handle node below = look node >>= Course.run node below

/-! ## Telling -/

/-- Handlers act on a node twice, before and behind the visit of the nodes below. -/
inductive Turn where
  | before
  | behind
deriving DecidableEq

/-- What a handler did in one of its turns: it failed, or it gave a tree to stand in place of the node, or neither,
and then the nodes below are visited next, or what was made of the node is left as it is. The node is known by
its address, the numbers of the parts that lead to it. -/
structure Act (ε : Type) where
  turn : Turn
  address : List Nat
  node : Node
  came : Except ε (Option Tree)

namespace Act

variable {ε : Type}

/-- The nodes below are visited next, or the handler leaves what was made of the node as it is. -/
def goesOn (act : Act ε) : Bool :=
  match act.came with
  | .ok none => true
  | _ => false

/-- What was given in place of the node. -/
def tree? (act : Act ε) : Option Tree :=
  match act.came with
  | .ok other => other
  | .error _ => none

end Act

/-- What was done, and what came of it. -/
structure Told (σ ε α : Type) where
  acts : List (Act ε)
  result : Except ε (α × σ)

/-- Actions that keep a state, may fail, and tell what handlers do. -/
def Telling (σ ε α : Type) : Type := σ → Told σ ε α

namespace Telling

variable {σ ε α β : Type}

protected def pure (a : α) : Telling σ ε α := fun state => ⟨[], .ok (a, state)⟩

protected def bind (x : Telling σ ε α) (f : α → Telling σ ε β) : Telling σ ε β := fun state =>
  match x state with
  | ⟨acts, .error e⟩ => ⟨acts, .error e⟩
  | ⟨acts, .ok (a, middle)⟩ => ⟨acts ++ (f a middle).acts, (f a middle).result⟩

instance : Monad (Telling σ ε) where
  pure := Telling.pure
  bind := Telling.bind

/-- A turn of a handler, told as one act. -/
def turn (turn : Turn) (address : List Nat) (node : Node) (tree? : α → Option Tree) (action : Visiting σ ε α) :
    Telling σ ε α := fun state =>
  match action.run state with
  | .error e => ⟨[⟨turn, address, node, .error e⟩], .error e⟩
  | .ok (a, after) => ⟨[⟨turn, address, node, .ok (tree? a)⟩], .ok (a, after)⟩

theorem bind_error {x : Telling σ ε α} (f : α → Telling σ ε β) {state : σ} {e : ε}
    (h : (x state).result = .error e) : (x >>= f) state = ⟨(x state).acts, .error e⟩ := by
  change Telling.bind x f state = _
  rw [Telling.bind]
  rcases hx : x state with ⟨acts, result⟩
  rw [hx] at h
  cases h
  rfl

theorem bind_ok {x : Telling σ ε α} (f : α → Telling σ ε β) {state middle : σ} {a : α}
    (h : (x state).result = .ok (a, middle)) :
    (x >>= f) state = ⟨(x state).acts ++ (f a middle).acts, (f a middle).result⟩ := by
  change Telling.bind x f state = _
  rw [Telling.bind]
  rcases hx : x state with ⟨acts, result⟩
  rw [hx] at h
  cases h
  rfl

theorem turn_error (turn : Turn) (address : List Nat) (node : Node) (tree? : α → Option Tree)
    {action : Visiting σ ε α} {state : σ} {e : ε} (h : action.run state = .error e) :
    Telling.turn turn address node tree? action state = ⟨[⟨turn, address, node, .error e⟩], .error e⟩ := by
  rw [Telling.turn, h]

theorem turn_ok (turn : Turn) (address : List Nat) (node : Node) (tree? : α → Option Tree)
    {action : Visiting σ ε α} {state after : σ} {a : α} (h : action.run state = .ok (a, after)) :
    Telling.turn turn address node tree? action state =
      ⟨[⟨turn, address, node, .ok (tree? a)⟩], .ok (a, after)⟩ := by
  rw [Telling.turn, h]

end Telling

/-! ## The plain visit -/

namespace Plain

variable {σ ε : Type} (handles : NodeKind → Bool) (look : Node → Visiting σ ε (Course σ ε))

mutual

/-- The plain visit of a part: every node without a handler is made again from what became of its parts. -/
def visitPart (source : Source) (parent : Option Node) (address : List Nat) : Part → Telling σ ε Tree
  | .leaf _ token => return .leaf token
  | .node span kind parts =>
    let here : Node := ⟨source, kind, span, parts, parent⟩
    let below : Telling σ ε Tree := do
      return .node kind (← visitParts source (some here) address 0 parts)
    if handles kind then do
      match ← Telling.turn .before address here (Course.tree? here) (look here) with
      | .stop visit => return visit.resultAt here
      | .descend finish => do
        let tree ← below
        let other ← Telling.turn .behind address here (·.map (·.resultAt here)) (finish tree)
        return (other.map (·.resultAt here)).getD tree
    else below

/-- The plain visits of parts, of which the first has the number `index` in its node. -/
def visitParts (source : Source) (parent : Option Node) (address : List Nat) (index : Nat) :
    List Part → Telling σ ε (List Tree)
  | [] => return []
  | part :: rest => do
    let tree ← visitPart source parent (address ++ [index]) part
    let trees ← visitParts source parent address (index + 1) rest
    return tree :: trees

end

/-- The plain visit of a tree from its root. -/
def visit (root : Node) : Telling σ ε Tree := visitPart handles look root.source root.parent [] root.part

end Plain

/-! ## Visits are plain visits -/

/-- Both do the same, apart from what is told: the answers of the one are read off those of the other. -/
def SameAnswers {σ ε α β : Type} (x : Visiting σ ε α) (read : α → β) (y : Telling σ ε β) : Prop :=
  ∀ state, (x.run state).map (fun out => (read out.1, out.2)) = (y state).result

namespace SameAnswers

variable {σ ε α β γ δ : Type} {read : α → β}

theorem pure {a : α} {b : β} (h : read a = b) : SameAnswers (σ := σ) (ε := ε) (Pure.pure a) read (Pure.pure b) :=
  fun _ => h ▸ rfl

theorem bind {x : Visiting σ ε α} {y : Telling σ ε β} (h : SameAnswers x read y) {f : α → Visiting σ ε γ}
    {g : β → Telling σ ε δ} {read' : γ → δ}
    (hnext : ∀ {state a after}, x.run state = .ok (a, after) → SameAnswers (f a) read' (g (read a))) :
    SameAnswers (x >>= f) read' (y >>= g) := by
  intro state
  have hstate := h state
  rw [StateT.run_bind]
  cases hx : x.run state with
  | error e =>
    rw [hx] at hstate
    rw [Telling.bind_error g hstate.symm]
    rfl
  | ok out =>
    rw [hx] at hstate
    rw [Telling.bind_ok g hstate.symm]
    exact hnext hx out.2

theorem turn (turn : Turn) (address : List Nat) (node : Node) (tree? : α → Option Tree)
    (action : Visiting σ ε α) : SameAnswers action (fun a => a) (Telling.turn turn address node tree? action) := by
  intro state
  rw [Telling.turn]
  cases action.run state <;> rfl

end SameAnswers

section

variable {σ ε : Type} {v : Visitor σ ε} {look : Node → Visiting σ ε (Course σ ε)}

mutual

/-- A visit of a part gives the tree that a plain visit gives. -/
theorem visitPart_gives (h : v.Looks look) (source : Source) :
    ∀ (parent : Option Node) (address : List Nat) (part : Part),
      SameAnswers (v.visitPart source parent part) (Visit.result part ·)
        (Plain.visitPart v.handles look source parent address part)
  | parent, address, .leaf span token => .pure rfl
  | parent, address, .node span kind parts => by
    let here : Node := ⟨source, kind, span, parts, parent⟩
    have hbelow : SameAnswers (do return Visit.around kind parts (← v.visitParts source (some here) parts))
        (Visit.result (.node span kind parts) ·)
        (do return .node kind (← Plain.visitParts v.handles look source (some here) address 0 parts)) :=
      (visitParts_give h source (some here) address 0 parts).bind fun hparts =>
        .pure (result_around span (visitParts_length hparts))
    rw [Visitor.visitPart, Plain.visitPart]
    split
    · rw [h]
      refine (SameAnswers.turn .before address here (Course.tree? here) (look here)).bind fun {_ course _} _ => ?_
      cases course with
      | stop visit => exact .pure (resultAt_eq here visit).symm
      | descend finish =>
        refine hbelow.bind fun {_ visit _} _ => ?_
        rw [resultAt_eq here visit]
        refine (SameAnswers.turn .behind address here _ _).bind fun {_ other _} _ => .pure ?_
        cases other with
        | none => rfl
        | some visit => exact (resultAt_eq here visit).symm
    · exact hbelow

theorem visitParts_give (h : v.Looks look) (source : Source) :
    ∀ (parent : Option Node) (address : List Nat) (index : Nat) (parts : List Part),
      SameAnswers (v.visitParts source parent parts) (Visit.results parts ·)
        (Plain.visitParts v.handles look source parent address index parts)
  | parent, address, index, [] => .pure rfl
  | parent, address, index, part :: rest => by
    rw [Visitor.visitParts, Plain.visitParts]
    refine (visitPart_gives h source parent (address ++ [index]) part).bind fun _ => ?_
    exact (visitParts_give h source parent address (index + 1) rest).bind fun _ => .pure rfl

end

/-- A visit of a tree gives what a plain visit gives. -/
theorem visit_gives (h : v.Looks look) (root : Node) :
    SameAnswers (v.visit root) (Visit.resultAt root ·) (Plain.visit v.handles look root) := by
  have hread : (Visit.resultAt root ·) = (Visit.result root.part ·) := funext (resultAt_eq root)
  rw [hread]
  exact visitPart_gives h root.source root.parent [] root.part

end

end Visitor

end RouteTypes
