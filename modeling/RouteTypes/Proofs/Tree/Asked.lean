-- A visit and what the plain visit tells about it. That the told handlers are those that are asked is shown with
-- handlers that write their nodes down. The visitors of the program are told about like this.
import RouteTypes.Proofs.Tree.Grafting
import RouteTypes.Route.Annotate
import RouteTypes.Route.Shape

namespace RouteTypes

namespace Visitor

/-! ## Handlers that write their nodes down -/

section

variable {σ ε α β γ δ : Type}

/-- What the action does, and these nodes are written down behind the others, also if it fails. -/
def writing (asked : List Node) (action : Visiting σ ε α) : Visiting (σ × List Node) (ε × List Node) α :=
  fun (state, log) =>
    match action.run state with
    | .error e => .error (e, log ++ asked)
    | .ok (a, after) => .ok (a, after, log ++ asked)

/-- The course of a handler whose node has been written down. -/
def Course.written : Course σ ε → Course (σ × List Node) (ε × List Node)
  | .stop visit => .stop visit
  | .descend finish => .descend fun tree => writing [] (finish tree)

/-- A handler writes its node down when it looks at it. -/
def writingLook (look : Node → Visiting σ ε (Course σ ε)) (node : Node) :
    Visiting (σ × List Node) (ε × List Node) (Course (σ × List Node) (ε × List Node)) := do
  return (← writing [node] (look node)).written

/-- The visitor whose handlers look at their nodes like that and also write them down. -/
def recorder (handles : NodeKind → Bool) (look : Node → Visiting σ ε (Course σ ε)) :
    Visitor (σ × List Node) (ε × List Node) where
  handles := handles
  handle node below := writingLook look node >>= Course.run node below

/-- What came of it, with the nodes of which handlers were asked behind those that are written down. -/
def Told.written (read : α → β) (log : List Node) (told : Told σ ε α) :
    Except (ε × List Node) (β × σ × List Node) :=
  let asked := log ++ (begun told.acts).map (·.node)
  match told.result with
  | .error e => .error (e, asked)
  | .ok (a, after) => .ok (read a, after, asked)

/-- The one does what the other does, and writes down the nodes of which handlers are asked. -/
def Records (x : Telling (σ × List Node) (ε × List Node) β) (read : α → β) (y : Telling σ ε α) : Prop :=
  ∀ state log, (x (state, log)).result = (y state).written read log

namespace Records

theorem pure {read : α → β} {a : α} {b : β} (h : b = read a) :
    Records (σ := σ) (ε := ε) (Pure.pure b) read (Pure.pure a) := by
  intro state log
  change Except.ok (b, state, log) = .ok (read a, state, log ++ [])
  rw [h, List.append_nil]

theorem bind {read : α → β} {x : Telling (σ × List Node) (ε × List Node) β} {y : Telling σ ε α}
    (h : Records x read y) {f : β → Telling (σ × List Node) (ε × List Node) δ} {g : α → Telling σ ε γ}
    {read' : γ → δ} (hnext : ∀ a, Records (f (read a)) read' (g a)) : Records (x >>= f) read' (y >>= g) := by
  intro state log
  have hstate := h state log
  cases hy : (y state).result with
  | error e =>
    rw [Told.written, hy] at hstate
    rw [Telling.bind_error f hstate, Telling.bind_error g hy]
    rfl
  | ok out =>
    obtain ⟨a, middle⟩ := out
    rw [Told.written, hy] at hstate
    rw [Telling.bind_ok f hstate, Telling.bind_ok g hy]
    refine (hnext a middle _).trans ?_
    rw [Told.written, Told.written, begun_append, List.map_append, List.append_assoc]

/-- A turn records its node if it is the first one of the handler. -/
theorem turn {turn : Turn} {address : List Nat} {node : Node} {read : α → β} {tree? : α → Option Tree}
    {tree?' : β → Option Tree} {action' : Visiting (σ × List Node) (ε × List Node) β} {action : Visiting σ ε α}
    (h : ∀ state log, action'.run (state, log) =
      Told.written read log (Telling.turn turn address node tree? action state)) :
    Records (Telling.turn turn address node tree?' action') read (Telling.turn turn address node tree? action) := by
  intro state log
  rw [← h, Telling.turn]
  cases action'.run (state, log) <;> rfl

end Records

theorem run_writingLook (look : Node → Visiting σ ε (Course σ ε)) (address : List Nat) (node : Node) (state : σ)
    (log : List Node) : (writingLook look node).run (state, log) =
      (Telling.turn .before address node (Course.tree? node) (look node) state).written Course.written log := by
  rw [writingLook, StateT.run_bind, Telling.turn]
  change Except.bind (writing [node] (look node) (state, log)) _ = _
  rw [writing]
  cases (look node).run state <;> rfl

theorem run_writing (address : List Nat) (node : Node) (tree? : α → Option Tree) (action : Visiting σ ε α)
    (state : σ) (log : List Node) : (writing [] action).run (state, log) =
      (Telling.turn .behind address node tree? action state).written (fun a => a) log := by
  change writing [] action (state, log) = _
  rw [writing, Telling.turn]
  cases action.run state <;> rfl

end

section

variable {σ ε : Type} (handles : NodeKind → Bool) (look : Node → Visiting σ ε (Course σ ε)) (source : Source)

mutual

/-- A plain visit tells of the handlers that it asks. -/
theorem visitPart_records : ∀ (parent : Option Node) (address : List Nat) (part : Part),
    Records (Plain.visitPart handles (writingLook look) source parent address part) (fun tree => tree)
      (Plain.visitPart handles look source parent address part)
  | parent, address, .leaf span token => .pure rfl
  | parent, address, .node span kind parts => by
    let here : Node := ⟨source, kind, span, parts, parent⟩
    have hbelow : Records
        (do return Tree.node kind (← Plain.visitParts handles (writingLook look) source (some here) address 0 parts))
        (fun tree => tree)
        (do return Tree.node kind (← Plain.visitParts handles look source (some here) address 0 parts)) :=
      (visitParts_record (some here) address 0 parts).bind fun _ => .pure rfl
    rw [Plain.visitPart, Plain.visitPart]
    split
    · refine (Records.turn (run_writingLook look address here)).bind fun course => ?_
      cases course with
      | stop visit => exact .pure rfl
      | descend finish =>
        refine hbelow.bind fun tree => ?_
        exact (Records.turn (run_writing address here _ (finish tree))).bind fun other => .pure rfl
    · exact hbelow

theorem visitParts_record : ∀ (parent : Option Node) (address : List Nat) (index : Nat) (parts : List Part),
    Records (Plain.visitParts handles (writingLook look) source parent address index parts) (fun trees => trees)
      (Plain.visitParts handles look source parent address index parts)
  | parent, address, index, [] => .pure rfl
  | parent, address, index, part :: rest => by
    rw [Plain.visitParts, Plain.visitParts]
    refine (visitPart_records parent (address ++ [index]) part).bind fun tree => ?_
    exact (visitParts_record parent address (index + 1) rest).bind fun trees => .pure rfl

end

/-- The nodes that are written down in a visit are those of which handlers are told to be asked. -/
theorem recorder_visit (root : Node) (state : σ) (log : List Node) :
    (((recorder handles look).visit root).run (state, log)).map (fun out => (out.1.resultAt root, out.2)) =
      (Plain.visit handles look root state).written (fun tree => tree) log := by
  have hlooks : (recorder handles look).Looks (writingLook look) := fun _ _ => rfl
  exact (visit_gives hlooks root (state, log)).trans
    (visitPart_records handles look root.source root.parent [] root.part state log)

end

/-! ## What a visit does -/

section

variable {σ ε : Type}

/-- What is told about a visit of a tree is what the visit does. -/
structure Told.Explains (told : Told σ ε Tree) (v : Visitor σ ε) (look : Node → Visiting σ ε (Course σ ε))
    (root : Node) (state : σ) : Prop where
  /-- The visit ends with the told tree and state, or it fails as told. -/
  result : ((v.visit root).run state).map (fun out => (out.1.resultAt root, out.2)) = told.result
  /-- The handlers that write their nodes down write those of which is told, in the same order. -/
  asked : (((recorder v.handles look).visit root).run (state, [])).map
    (fun out => (out.1.resultAt root, out.2)) = told.written (fun tree => tree) []
  /-- Each node with a handler that is reached is asked once, from the outside in and from left to right, unless a
  handler fails before. -/
  reached : told.Reaches (root.places.filter (isReached v.handles told.acts))
  /-- The first failure of a handler is the last thing that happens, and the visit fails with it. -/
  fails : told.FailsAtOnce
  /-- What is not in a node that was replaced is as it was. -/
  grafted : ∀ {tree after}, told.result = .ok (tree, after) → tree = root.part.graft (replaced? told.acts) []
  /-- If each handler left its node as it was or went on, the tree is the one that there was. -/
  left : (∀ act ∈ told.acts, act.LeavesNode) → ∃ after, told.result = .ok (root.tree, after)

theorem actsIn_root {ε : Type} (acts : List (Act ε)) : actsIn acts [] = acts :=
  actsIn_self fun _ _ => List.nil_prefix

/-- A visit does what the plain visit tells, and every node has a place of its own in the order of the plain
visit. -/
theorem visit_explained {v : Visitor σ ε} {look : Node → Visiting σ ε (Course σ ε)} (h : v.Looks look) (root : Node)
    (state : σ) :
    (Plain.visit v.handles look root state).Explains v look root state ∧
      root.places.map (·.node) = root.descendants ∧ (root.places.map (·.address)).Nodup := by
  refine ⟨?_, nodes_places root, addresses_nodup root⟩
  have hacts := actsIn_root (Plain.visit v.handles look root state).acts
  exact {
    result := visit_gives h root state
    asked := recorder_visit v.handles look root state []
    reached := visitPart_reaches v.handles look root.source _ root.parent [] root.part state hacts
      fun _ hk => absurd hk (Nat.not_lt_zero _)
    fails := visitPart_failsAtOnce v.handles look root.source root.parent [] root.part state
    grafted := visitPart_grafts v.handles look root.source _ root.parent [] root.part state hacts
    left := visitPart_leaves v.handles look root.source root.parent [] root.part state }

end

end Visitor

/-! ## The visitors of the program -/

/-- How references are looked at to rename them. -/
def renameLook (old new : String) (node : Node) : Visiting Nat Failure (Visitor.Course Nat Failure) :=
  if node.kind == .nameRef then do
    modify (· + 1)
    let placed ← node.expectToken (.token .ident)
    return .stop (if placed.token.text == old then .changed (Tree.nameRef new) else .kept)
  else
    return .stop .kept

theorem renameRefs_looks (old new : String) : (renameRefs old new).Looks (renameLook old new) := by
  intro node below
  change (if _ then _ else _) = _
  rw [renameLook]
  split
  · simp only [bind_assoc, pure_bind]
    rfl
  · rfl

/-- `old(()=>old)`: a reference, and another one in an arrow function. -/
def callWithArrow : Node :=
  .ofTree .program <| .node .callExpr [.nameRef "old", .node .argList
    [.leaf ⟨.lParen, "("⟩, .node .arrowFunction [.node .paramList [.leaf ⟨.lParen, "("⟩, .leaf ⟨.rParen, ")"⟩],
      .leaf ⟨.fatArrow, "=>"⟩, .nameRef "old"], .leaf ⟨.rParen, ")"⟩]]

/-- The reference is renamed, and the arrow function is asked, but not what is in it. -/
theorem renaming_explained :
    (renameRefs "old" "new").Looks (renameLook "old" "new") ∧
      let told := Visitor.Plain.visit (renameRefs "old" "new").handles (renameLook "old" "new") callWithArrow 0
      (told.Explains (renameRefs "old" "new") (renameLook "old" "new") callWithArrow 0 ∧
        callWithArrow.places.map (·.node) = callWithArrow.descendants ∧
        (callWithArrow.places.map (·.address)).Nodup) ∧
      (Visitor.begun told.acts).map (·.address) = [[0], [1, 1]] ∧
      told.result.toOption.map (fun out => (out.1.text, out.2)) = some ("new(()=>old)", 1) :=
  ⟨renameRefs_looks "old" "new", Visitor.visit_explained (renameRefs_looks "old" "new") callWithArrow 0,
    by decide +kernel, by decide +kernel⟩

namespace Route

/-- How calls are looked at to annotate them. -/
def annotatorLook (config : Config) (program : Callables) (anchor : SymbolId) (call : Node) :
    Visiting Progress Failure (Visitor.Course Progress Failure) :=
  if isRegistration program.checked anchor call then do
    let (paramsId, returnedId) ← filing (fileSchemas config program call)
    return .descend fun tree => do
      modify fun progress => { progress with annotated := progress.annotated + 1 }
      return some (.changed (← appendTo (argument config paramsId returnedId) tree))
  else
    return .descend fun _ => return none

theorem annotator_looks (config : Config) (program : Callables) (anchor : SymbolId) :
    (annotator config program anchor).Looks (annotatorLook config program anchor) := by
  intro call below
  change (if _ then _ else _) = _
  rw [annotatorLook]
  split
  · simp only [annotateCall, bind_assoc, pure_bind, Visitor.Course.run, Option.getD_some]
  · simp only [pure_bind, Visitor.Course.run, Option.getD_none, bind_pure]

end Route

end RouteTypes
