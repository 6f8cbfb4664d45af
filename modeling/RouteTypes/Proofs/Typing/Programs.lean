-- Checked programs: what is noted for the expressions and values of a program in the end. All its expressions
-- are looked at from the outside in, so an access is looked at before its receiver is by itself, and everything
-- else that is asked for keeps what is noted. The first round asks for the value of every declared name.
import RouteTypes.Proofs.Tree.Nesting
import RouteTypes.Proofs.Typing.Binding
import RouteTypes.Proofs.Typing.Expressions

namespace RouteTypes

open Facts (quiet noting Finds)

variable {known : Node → Prop} {s : Facts}

namespace Check

/-! ## Looking at a program -/

/-- If the node is an access or a call, then it was looked at. -/
def LookedAt (s : Facts) (node : Node) : Prop := node.kind.hasHead = true → s.Noticed node

theorem LookedAt.later {s' : Facts} {node : Node} (h : LookedAt s node) (hle : s.Later known s') : LookedAt s' node :=
  fun hkind => (h hkind).later hle

/-- Types are noted for the expressions among the nodes that are in no written type. -/
def NoticedAmong (s : Facts) (nodes : List Node) : Prop :=
  ∀ node ∈ nodes, node.kind.isExpression = true → (∀ outer ∈ node.outwards, outer.kind.isType = false) → s.Noticed node

theorem NoticedAmong.later {s' : Facts} {nodes : List Node} (h : NoticedAmong s nodes) (hle : s.Later known s') :
    NoticedAmong s' nodes :=
  fun node hnode hkind houter => (h node hnode hkind houter).later hle

section

variable {ask : Ask}

mutual

/-- A part right below a node is looked at after the node itself. -/
theorem lookAt_obeys (hask : Answers known ask) (hnodes : Node.Closed known) {source : Source} {outer : Node} :
    ∀ {s : Facts} (part : Part), part ∈ outer.parts → outer.source = source → known outer → LookedAt s outer →
      Obeys (noting known []) s (lookAt ask source (some outer) part) fun _ s =>
        NoticedAmong s (Node.nodesIn source (some outer) part)
  | s, .leaf _ _, _, _, _, _ => .pure fun _ _ hnode => by cases hnode
  | s, .node span kind parts, hpart, hsource, houter, hlooked => by
    let here : Node := ⟨source, kind, span, parts, some outer⟩
    have hhere : known here :=
      hnodes.child houter (Node.mem_children.mpr ⟨span, kind, parts, hpart, by rw [hsource]⟩)
    rw [lookAt, Node.nodesIn]
    dsimp only
    split
    · rename_i htype
      refine .bind (.quietly (writtenAt_obeys hask.toAnswersTypes hhere)) fun _ _ _ _ _ => .pure fun _ => ?_
      -- All nodes of a written type are in it.
      intro node hnode _ houter
      have hin : here ∈ node.outwards := by
        rcases List.mem_cons.mp hnode with rfl | hnode
        · exact List.mem_cons_self
        · exact List.mem_cons_of_mem _ (Node.mem_around_of_mem_all parts hnode)
      cases htype.symm.trans (houter here hin)
    · split
      · refine .bind (hask.expression ⟨hhere, fun hparent hkind => ?_⟩) fun type s₁ _ _ htype => ?_
        · cases hparent
          exact .inr (hlooked hkind)
        · have hown : s₁.Noticed here := ⟨type, htype.2⟩
          exact (lookAtAll_obeys hask hnodes parts (fun _ hin => hin) rfl hhere fun _ => hown).mono
            fun _ _ _ hstep h => List.forall_mem_cons.mpr ⟨fun _ _ => hown.later hstep, h⟩
      · rename_i hother
        refine (lookAtAll_obeys hask hnodes parts (fun _ hin => hin) rfl hhere fun hhead => absurd ?_ hother).mono
          fun _ _ _ _ h => List.forall_mem_cons.mpr ⟨fun hkind => absurd hkind hother, h⟩
        exact NodeKind.isExpression_of_hasHead hhead

theorem lookAtAll_obeys (hask : Answers known ask) (hnodes : Node.Closed known) {source : Source} {outer : Node} :
    ∀ {s : Facts} (parts : List Part), (∀ part ∈ parts, part ∈ outer.parts) → outer.source = source →
      known outer → LookedAt s outer → Obeys (noting known []) s (lookAtAll ask source (some outer) parts) fun _ s =>
        NoticedAmong s (Node.nodesInAll source (some outer) parts)
  | s, [], _, _, _, _ => .pure fun _ _ hnode => by cases hnode
  | s, part :: rest, hparts, hsource, houter, hlooked => by
    rw [lookAtAll, Node.nodesInAll]
    refine .bind (lookAt_obeys hask hnodes part (hparts part List.mem_cons_self) hsource houter hlooked)
      fun _ s₁ _ hstep hfirst => ?_
    exact (lookAtAll_obeys hask hnodes rest (fun part hin => hparts part (List.mem_cons_of_mem _ hin)) hsource houter
      (hlooked.later hstep)).mono fun _ _ _ hstep' hrest =>
        List.forall_mem_append.mpr ⟨hfirst.later hstep', hrest⟩

end

/-! ## Working out everything -/

/-- A question about each of some numbers. -/
def asking (ask : Ask) (query : Facts → Nat → Query) (index : Nat) : Check PUnit := do
  let _ ← ask (query (← get) index)

theorem asking_obeys {query : Facts → Nat → Query} (indices : List Nat)
    (h : ∀ index ∈ indices, ∀ s', s.Later known s' → Obeys (noting known []) s' (ask (query s' index)) fun _ _ => True) :
    Obeys (noting known []) s (indices.forM (asking ask query)) fun _ _ => True :=
  .forM _ fun index hindex s' _ hstep => .get fun _ =>
    .bind (h index hindex s' hstep) fun _ _ _ _ _ => .pure fun _ => trivial

theorem forAll_obeys {bound : Nat} {query : Facts → Nat → Query}
    (h : ∀ index < bound, ∀ s', s.Later known s' → Obeys (noting known []) s' (ask (query s' index)) fun _ _ => True) :
    Obeys (noting known []) s (forAll ask bound query) fun _ _ => True :=
  asking_obeys _ fun index hindex => h index (List.mem_range.mp hindex)

variable (hask : Answers known ask)

include hask

/-- What a number is asked as the number of a symbol. -/
def symbolQuery (facts : Facts) (index : Nat) : Query :=
  if (facts.symbol ⟨index⟩).kind.isValue then .valueOf ⟨index⟩ else .declared ⟨index⟩

theorem symbolQuery_obeys {index : Nat} (hsymbol : s.HasSymbol ⟨index⟩) :
    Obeys (noting known []) s (ask (symbolQuery s index)) fun _ _ => True := by
  unfold symbolQuery
  split
  · exact (hask.valueOf hsymbol).mono fun _ _ _ _ _ => trivial
  · exact .quietly ((declaredAt_obeys hask.toAnswersTypes hsymbol).mono fun _ _ _ _ _ => trivial)

omit hask in
/-- A round asks about the symbols, then about the types, and then about the signatures. -/
theorem exists_of_round {s' : Facts} (hrun : round ask .empty s = some ((), s')) : ∃ s₁ s₂,
    forAll ask s.symbols.size symbolQuery .empty s = some ((), s₁) ∧
      forAll ask s₁.types.size (fun _ index => .members ⟨index⟩) .empty s₁ = some ((), s₂) ∧
      forAll ask s₂.signatures.size (fun _ index => .returnOf ⟨index⟩) .empty s₂ = some ((), s') := by
  obtain ⟨⟨_, s₁⟩, hsymbols, hothers⟩ := Option.bind_eq_some_iff.mp
    (show (forAll ask s.symbols.size symbolQuery >>= fun _ => do
      forAll ask (← get).types.size fun _ index => .members ⟨index⟩
      forAll ask (← get).signatures.size fun _ index => .returnOf ⟨index⟩) .empty s = some ((), s') from hrun)
  obtain ⟨⟨_, s₂⟩, htypes, hsignatures⟩ := Option.bind_eq_some_iff.mp
    (show (forAll ask s₁.types.size (fun _ index => .members ⟨index⟩) >>= fun _ => do
      forAll ask (← get).signatures.size fun _ index => .returnOf ⟨index⟩) .empty s₁ = some ((), s') from hothers)
  exact ⟨s₁, s₂, hsymbols, htypes, hsignatures⟩

theorem symbols_obeys : Obeys (noting known []) s (forAll ask s.symbols.size symbolQuery) fun _ _ => True :=
  forAll_obeys fun _ hindex _ hstep => symbolQuery_obeys hask (Facts.Extends.hasSymbol hstep.toExtends hindex)

theorem types_obeys :
    Obeys (noting known []) s (forAll ask s.types.size fun _ index => .members ⟨index⟩) fun _ _ => True :=
  forAll_obeys fun _ hindex _ hstep => .quietly
    ((hask.members (Facts.Extends.hasType hstep.toExtends hindex)).mono fun _ _ _ _ _ => trivial)

theorem signatures_obeys :
    Obeys (noting known []) s (forAll ask s.signatures.size fun _ index => .returnOf ⟨index⟩) fun _ _ => True :=
  forAll_obeys fun _ hindex _ hstep =>
    (hask.returnOf (Facts.Extends.hasSignature hstep.toExtends hindex)).mono fun _ _ _ _ _ => trivial

theorem round_obeys : Obeys (noting known []) s (round ask) fun _ _ => True :=
  .get fun _ => .bind (symbols_obeys hask) fun _ _ _ _ _ =>
    .get fun _ => .bind (types_obeys hask) fun _ _ _ _ _ => .get fun _ => signatures_obeys hask

omit hask in
/-- Whether there is another round depends on what the last one has brought. -/
theorem again_obeys {more : Nat} (hrounds : Obeys (noting known []) s (rounds ask more) fun _ _ => True)
    (before : Nat × Nat × Nat) :
    Obeys (noting known []) s (if extent s ≠ before then rounds ask more else pure ()) fun _ _ => True := by
  split
  · exact hrounds
  · exact .pure fun _ => trivial

theorem rounds_obeys : ∀ {s : Facts} (more : Nat),
    Obeys (noting known []) s (rounds ask more) fun _ _ => True
  | _, 0 => .pure fun _ => trivial
  | _, more + 1 => .get fun _ => .bind (round_obeys hask) fun _ _ _ _ _ => .get fun _ =>
      again_obeys (rounds_obeys more) _

omit hask in
/-- First there is one round, and then further ones, if it has brought anything. -/
theorem exists_of_rounds {more : Nat} {s' : Facts} (hrun : rounds ask (more + 1) .empty s = some ((), s')) :
    ∃ s₁, round ask .empty s = some ((), s₁) ∧
      (if extent s₁ ≠ extent s then rounds ask more else pure ()) .empty s₁ = some ((), s') := by
  obtain ⟨⟨_, s₁⟩, hround, hagain⟩ := Option.bind_eq_some_iff.mp
    (show (round ask >>= fun _ => do if extent (← get) ≠ extent s then rounds ask more) .empty s = some ((), s')
      from hrun)
  exact ⟨s₁, hround, hagain⟩

theorem program_obeys (hnodes : Node.Closed known) {root : Node} (hroot : known root)
    (hkind : root.kind.hasHead = false) :
    Obeys (noting known []) s (program ask root) fun _ s => NoticedAmong s (Facts.below root) :=
  .bind (lookAtAll_obeys hask hnodes root.parts (fun _ hin => hin) rfl hroot fun hhead => by
    rw [hkind] at hhead
    cases hhead) fun _ _ _ _ hlooked => (rounds_obeys hask 16).mono fun _ _ _ hstep _ => hlooked.later hstep

/-! ## Values -/

omit hask in
theorem get_bind {α : Type} {pending : Pending} (next : Facts → Check α) :
    (get >>= next) pending s = next s pending s :=
  rfl

omit hask in
/-- The value of a symbol is noted, if nothing is being worked out around it. -/
theorem valueOf_valued {id : SymbolId} {type : TypeId} {s' : Facts}
    (hrun : valueOf ask id .empty s = some (type, s')) : s'.symbolTypes.get? id = some type := by
  rw [valueOf, get_bind] at hrun
  cases hknown : s.symbolTypes.get? id with
  | some known =>
    rw [hknown] at hrun
    cases hrun
    exact hknown
  | none =>
    rw [hknown] at hrun
    obtain ⟨⟨found, s₁⟩, -, hnote⟩ := Option.bind_eq_some_iff.mp hrun
    cases hnote
    exact Table.get?_keepFirst_self _ _ _

omit hask in
theorem answer_valued {depth : Nat} {id : SymbolId} {type : TypeId} {s' : Facts}
    (hrun : answer depth (.valueOf id) .empty s = some (type, s')) : s'.symbolTypes.get? id = some type := by
  cases depth with
  | zero => cases hrun
  | succ depth => exact valueOf_valued hrun

omit hask in
/-- What a question about each of some numbers brings about is so in the end, if it stays so. -/
theorem asking_done {query : Facts → Nat → Query} (has done : Nat → Facts → Prop)
    (hquery : ∀ {index s}, has index s → Obeys (noting known []) s (ask (query s index)) fun _ _ => True)
    (hhas : ∀ {index s s'}, s.Later known s' → has index s → has index s')
    (hdone : ∀ {index s type s'}, has index s → (noting known []).holds s →
      ask (query s index) .empty s = some (type, s') → done index s')
    (hstays : ∀ {index s s'}, s.Later known s' → has index s → done index s → done index s') :
    ∀ {s s' : Facts} (indices : List Nat), indices.forM (asking ask query) .empty s = some ((), s') →
      (noting known []).holds s → (∀ index ∈ indices, has index s) → ∀ index ∈ indices, done index s'
  | s, s', [], _, _, _, _, hin => absurd hin List.not_mem_nil
  | s, s', first :: rest, hrun, hs, hindices, index, hin => by
    obtain ⟨⟨_, s₁⟩, hfirst, hrest⟩ := Option.bind_eq_some_iff.mp hrun
    replace hrest : rest.forM (asking ask query) .empty s₁ = some ((), s') := hrest
    obtain ⟨⟨type, s₂⟩, hanswer, hend⟩ := Option.bind_eq_some_iff.mp hfirst
    cases hend
    have hhasFirst := hindices first List.mem_cons_self
    obtain ⟨hs₁, hstep, -⟩ := hquery hhasFirst .empty type s₁ hanswer hs
    have hindices₁ : ∀ index ∈ rest, has index s₁ := fun index hin =>
      hhas hstep (hindices index (List.mem_cons_of_mem _ hin))
    rcases List.mem_cons.mp hin with rfl | hin
    · obtain ⟨-, hlater, -⟩ := asking_obeys rest (fun index hin s' hle => hquery (hhas hle (hindices₁ index hin)))
        .empty () s' hrest hs₁
      exact hstays hlater (hhas hstep hhasFirst) (hdone hhasFirst hs hanswer)
    · exact asking_done has done hquery hhas hdone hstays rest hrest hs₁ hindices₁ index hin

/-- The value of each symbol that is asked for is noted in the end. -/
theorem asking_valued (hvalued : ∀ {s id type s'}, ask (.valueOf id) .empty s = some (type, s') →
    s'.symbolTypes.get? id = some type) {s s' : Facts} (indices : List Nat)
    (hrun : indices.forM (asking ask symbolQuery) .empty s = some ((), s')) (hs : (noting known []).holds s)
    (hsymbols : ∀ index ∈ indices, s.HasSymbol ⟨index⟩) : ∀ index ∈ indices,
      (s'.symbol ⟨index⟩).kind.isValue = true → ∃ type, s'.symbolTypes.get? ⟨index⟩ = some type := by
  refine asking_done (fun index s => s.HasSymbol ⟨index⟩)
    (fun index s => (s.symbol ⟨index⟩).kind.isValue = true → ∃ type, s.symbolTypes.get? ⟨index⟩ = some type)
    (fun hhas => symbolQuery_obeys hask hhas)
    (fun hstep hhas => hstep.hasSymbol hhas) (fun {index s type s'} hhas hs hanswer hvalue => ?_)
    (fun hstep hhas hdone hvalue => ?_) indices hrun hs hsymbols
  · obtain ⟨-, hstep, -⟩ := symbolQuery_obeys hask hhas .empty type s' hanswer hs
    have hquery : symbolQuery s index = .valueOf ⟨index⟩ := if_pos (hstep.kind hhas ▸ hvalue)
    exact ⟨type, hvalued (hquery ▸ hanswer)⟩
  · obtain ⟨type, htype⟩ := hdone (hstep.kind hhas ▸ hvalue)
    exact ⟨type, hstep.symbolTypes htype⟩

/-- Every name for a value has its type noted in the end: the first round asks for it. -/
theorem program_valued (hvalued : ∀ {s id type s'}, ask (.valueOf id) .empty s = some (type, s') →
    s'.symbolTypes.get? id = some type) (hnodes : Node.Closed known) {root : Node} (hroot : known root)
    (hkind : root.kind.hasHead = false) {s' : Facts} (hrun : program ask root .empty s = some ((), s'))
    (hs : (noting known []).holds s) {id : SymbolId} (hid : s.HasSymbol id)
    (hvalue : (s.symbol id).kind.isValue = true) : ∃ type, s'.symbolTypes.get? id = some type := by
  obtain ⟨⟨_, s₁⟩, hlook, hrounds⟩ := Option.bind_eq_some_iff.mp hrun
  obtain ⟨hs₁, hstep₁, -⟩ := lookAtAll_obeys hask hnodes root.parts (fun _ hin => hin) rfl hroot
    (fun hhead => by rw [hkind] at hhead; cases hhead) .empty () s₁ hlook hs
  obtain ⟨s₃, hround, hagain⟩ := exists_of_rounds hrounds
  obtain ⟨s₂, s₂', hsymbols, htypes, hsignatures⟩ := exists_of_round hround
  obtain ⟨hs₂, hstep₂, -⟩ := symbols_obeys hask .empty () s₂ hsymbols hs₁
  have hin : id.index ∈ List.range s₁.symbols.size := List.mem_range.mpr (hstep₁.hasSymbol hid)
  obtain ⟨type, htype⟩ := asking_valued hask hvalued _ hsymbols hs₁ (fun index hin => List.mem_range.mp hin)
    id.index hin (by rw [hstep₂.kind (hstep₁.hasSymbol hid), hstep₁.kind hid]; exact hvalue)
  obtain ⟨hs₂', hstep₂', -⟩ := types_obeys hask .empty () s₂' htypes hs₂
  obtain ⟨hs₃, hstep₃, -⟩ := signatures_obeys hask .empty () s₃ hsignatures hs₂'
  obtain ⟨-, hstep₄, -⟩ := again_obeys (rounds_obeys hask 15) _ .empty () s' hagain hs₃
  exact ⟨type, ((hstep₂'.trans hstep₃).trans hstep₄).symbolTypes htype⟩

end

end Check

/-! ## In the end -/

/-- The nodes of a program and of the declarations that it can see besides its own. -/
def Visible (prelude root node : Node) : Prop := node ∈ prelude.descendants ∨ node ∈ root.descendants

namespace Program

variable {text : String} {prelude : Tree}

theorem kind_root (text : String) : (Program.ofSource text).root.kind = .sourceFile := by
  rw [root, ofSource_eq]
  rfl

theorem visible_closed (text : String) (prelude : Tree) :
    Node.Closed (Visible (Node.ofTree .prelude prelude) (Program.ofSource text).root) :=
  (Node.closed_descendants (Node.parent_ofTree _ _)).or (Node.closed_descendants (Node.parent_ofTree _ _))

/-- No other node that the program can see has the id of a node of the program. -/
theorem eq_of_id (hread : (Program.ofSource text).isOk = true) {node other : Node}
    (hnode : node ∈ (Program.ofSource text).root.descendants)
    (hother : Visible (Node.ofTree .prelude prelude) (Program.ofSource text).root other) (hid : other.id = node.id) :
    other = node := by
  rcases hother with hother | hother
  · have hsource := (NodeId.mk.inj hid).1
    rw [Node.source_of_mem_descendants hother, Node.source_ofTree, source_of_mem hnode] at hsource
    cases hsource
  · exact node_eq hread hother hnode hid

theorem isUnique (hread : (Program.ofSource text).isOk = true) {node : Node}
    (h : node ∈ (Program.ofSource text).root.descendants) :
    IsUnique (Visible (Node.ofTree .prelude prelude) (Program.ofSource text).root) node :=
  ⟨.inr h, eq_of_id hread h⟩

/-- What a node of a program declares has it among its declarations. -/
theorem mem_declarations (hread : (Program.ofSource text).isOk = true) {s : Facts}
    (hs : s.Closed (Visible (Node.ofTree .prelude prelude) (Program.ofSource text).root)) {node : Node}
    (hnode : node ∈ (Program.ofSource text).root.descendants) {id : SymbolId} (hid : s.declared? node = some id) :
    s.HasSymbol id ∧ node ∈ (s.symbol id).declarations := by
  obtain ⟨hsymbol, other, hmem, hsame⟩ := hs.declarations hid
  obtain rfl := eq_of_id hread hnode ((hs.symbol id hsymbol).declarations other hmem).known hsame
  exact ⟨hsymbol, hmem⟩

end Program

namespace Facts

/-- Nothing is noted about values when checking begins, so nothing is wrong. -/
theorem Begins.accesses {root : Node} (h : Begins known root s) (opened : List NodeId) :
    s.Accesses known opened where
  found _ htype := by
    rw [h.expressionTypes, Table.get?_empty] at htype
    cases htype
  resolved _ hsymbol := by
    rw [h.resolutions, Table.get?_empty] at hsymbol
    cases hsymbol
  asked _ hnoticed := by
    obtain ⟨type, htype⟩ := hnoticed
    rw [h.expressionTypes, Table.get?_empty] at htype
    cases htype
  bound hmember := by
    rw [h.boundMembers, Table.get?_empty] at hmember
    cases hmember
  valued htype := by
    rw [h.symbolTypes, Table.get?_empty] at htype
    cases htype
  returned _ _ hget := by
    rw [h.declaredSignatures, Table.get?_empty] at hget
    cases hget

end Facts

namespace Checked

variable {text : String} {prelude : Tree} {depth : Nat} {checked : Checked}

/-- How a program is known in the end: from what its names stand for in the beginning, with everything that
is noted being right, and with the types of all values that have names. -/
structure Ends (prelude root : Node) (checked : Checked) : Prop where
  begins : Facts.Begins (Visible prelude root) root (Facts.bound prelude root)
  later : (Facts.bound prelude root).Later (Visible prelude root) checked.facts
  closed : checked.facts.Closed (Visible prelude root)
  accesses : checked.facts.Accesses (Visible prelude root) []
  valued : ∀ id, (Facts.bound prelude root).HasSymbol id → ((Facts.bound prelude root).symbol id).kind.isValue = true →
    ∃ type, checked.facts.symbolTypes.get? id = some type
  noticed : Check.NoticedAmong checked.facts (Facts.below root)

/-- What is known when checking begins. -/
theorem begins (text : String) (prelude : Tree) :
    Facts.Begins (Visible (Node.ofTree .prelude prelude) (Program.ofSource text).root) (Program.ofSource text).root
      (Facts.bound (Node.ofTree .prelude prelude) (Program.ofSource text).root) :=
  Facts.bound_begins (Program.visible_closed text prelude) (.inl (Node.self_mem_descendants _))
    (.inr (Node.self_mem_descendants _)) (Node.source_ofTree _ _) (Node.source_ofTree _ _)

/-- When checking begins nothing is noted wrongly, and so it is once the program has been looked at. -/
theorem holds_lookAtAll {facts : Facts}
    (hrun : Check.lookAtAll (Check.answer depth) (Program.ofSource text).root.source (some (Program.ofSource text).root)
      (Program.ofSource text).root.parts .empty (Facts.bound (Node.ofTree .prelude prelude) (Program.ofSource text).root) =
        some ((), facts)) :
    (noting (Visible (Node.ofTree .prelude prelude) (Program.ofSource text).root) []).holds facts := by
  have hnodes := Program.visible_closed text prelude
  have hbegins := begins text prelude
  refine (Check.lookAtAll_obeys (Check.answer_values hnodes depth) hnodes _ (fun _ hin => hin) rfl
    (.inr (Node.self_mem_descendants _)) (fun hhead => ?_) .empty () facts hrun
    ⟨hbegins.closed, hbegins.accesses []⟩).1
  rw [Program.kind_root] at hhead
  cases hhead

theorem ends_upTo
    (h : upTo depth (Node.ofTree .prelude prelude) (Program.ofSource text).root = some checked) :
    Ends (Node.ofTree .prelude prelude) (Program.ofSource text).root checked := by
  obtain ⟨⟨_, facts⟩, hrun, rfl⟩ := Option.map_eq_some_iff.mp h
  have hnodes := Program.visible_closed text prelude
  have hroot : Visible (Node.ofTree .prelude prelude) (Program.ofSource text).root (Program.ofSource text).root :=
    .inr (Node.self_mem_descendants _)
  have hbegins := begins text prelude
  have hkind : (Program.ofSource text).root.kind.hasHead = false := by rw [Program.kind_root]; rfl
  obtain ⟨⟨hclosed, haccesses⟩, hlater, hnoticed⟩ := Check.program_obeys (Check.answer_values hnodes depth) hnodes
    hroot hkind .empty () facts hrun ⟨hbegins.closed, hbegins.accesses []⟩
  exact ⟨hbegins, hlater, hclosed, haccesses, fun id hid hvalue =>
    Check.program_valued (Check.answer_values hnodes depth) Check.answer_valued hnodes hroot hkind hrun
      ⟨hbegins.closed, hbegins.accesses []⟩ hid hvalue, hnoticed⟩

/-- Nothing that was bound is a copy. -/
theorem Ends.origin {prelude root : Node} (h : Ends prelude root checked) {id : SymbolId}
    (hid : (Facts.bound prelude root).HasSymbol id) : (checked.symbol id).origin = none := by
  obtain ⟨more, hafter⟩ := h.later.symbol hid
  rw [symbol, hafter]
  exact h.begins.origin id hid

/-- The first declaration of something that was bound was bound with it. -/
theorem Ends.mem_of_valueDeclaration? {prelude root : Node} (h : Ends prelude root checked) {id : SymbolId}
    (hid : (Facts.bound prelude root).HasSymbol id) {declaration : Node}
    (hdeclaration : checked.valueDeclaration? id = some declaration) :
    declaration ∈ ((Facts.bound prelude root).symbol id).declarations := by
  have horigin : checked.originOf id = id := by
    rw [originOf, h.origin hid]
  rw [valueDeclaration?, horigin] at hdeclaration
  split at hdeclaration
  · rw [symbol, h.later.head hid] at hdeclaration
    exact List.mem_of_head? hdeclaration
  · cases hdeclaration

/-- What is found in an object type is its property. -/
theorem property?_of_finds {type : TypeId} {object : ObjectType} {name : String}
    {member : Option SymbolId} (h : checked.facts.Finds type name member)
    (hobject : checked.object? type = some object) :
    checked.property? type name = member := by
  obtain ⟨found, hfound, -, hmember⟩ := h.object object (Facts.object?_eq_some hobject).2
  rw [property?, members, Facts.membersOf, Facts.object?, hfound]
  exact hmember

/-- What an access of a program refers to is the member of the type that is noted for its receiver, if
that is an object type. -/
theorem resolve_eq_property? (hread : (Program.ofSource text).isOk = true)
    (h : upTo depth (Node.ofTree .prelude prelude) (Program.ofSource text).root = some checked)
    {access e : Node} {name : String} (haccess : access ∈ (Program.ofSource text).root.descendants)
    (hkind : access.kind = .propertyAccess) (hreceiver : access.expression? = some e)
    (hname : access.memberName? = some name) {type : TypeId} {object : ObjectType}
    (htype : checked.facts.expressionTypes.get? e.id = some type) (hobject : checked.object? type = some object) :
    checked.resolve access = checked.property? type name := by
  have haccesses := (ends_upTo h).accesses
  have his : IsAccess (Visible (Node.ofTree .prelude prelude) (Program.ofSource text).root) access e name :=
    ⟨Program.isUnique hread haccess, hkind, hreceiver, hname,
      Program.isUnique hread ((Program.nodes_closed text).child haccess (List.mem_of_find?_eq_some hreceiver))⟩
  -- No access is being looked at any more, so this one has its type too.
  rcases haccesses.asked his.isHead ⟨type, htype⟩ with hopened | ⟨own, hown⟩
  · cases hopened
  · obtain ⟨found, hfound, hfinds⟩ := (haccesses.found his.toIsUnique hown).access e name his
    rw [htype] at hfound
    cases hfound
    exact (property?_of_finds hfinds hobject).symm

/-- Members stand for themselves: only constants stand for others. -/
theorem follow_eq {id : SymbolId} (hid : checked.facts.HasMember id) : checked.follow id = id := by
  have hnone : checked.facts.aliased? id = none := by
    unfold Facts.aliased?
    refine if_neg fun hkind => ?_
    rcases hid.kind with hmember | hmember <;> rw [hkind] at hmember <;> cases hmember
  unfold follow followFor
  rw [hnone]

theorem resolveAliased_eq_property? (hread : (Program.ofSource text).isOk = true)
    (h : upTo depth (Node.ofTree .prelude prelude) (Program.ofSource text).root = some checked)
    {access e : Node} {name : String} (haccess : access ∈ (Program.ofSource text).root.descendants)
    (hkind : access.kind = .propertyAccess) (hreceiver : access.expression? = some e)
    (hname : access.memberName? = some name) {type : TypeId} {object : ObjectType}
    (htype : checked.facts.expressionTypes.get? e.id = some type) (hobject : checked.object? type = some object) :
    checked.resolveAliased access = checked.property? type name := by
  rw [resolveAliased, resolve_eq_property? hread h haccess hkind hreceiver hname htype hobject]
  cases hmember : checked.property? type name with
  | none => rfl
  | some member =>
    have hhas := (ends_upTo h).closed.membersOf type member (List.mem_of_find?_eq_some hmember)
    rw [Option.map_some, follow_eq hhas]

end Checked

end RouteTypes
