-- What a visit tells about itself. The handlers that it comes to are those of the nodes around which no handler
-- stopped it, from the outside in and from left to right, and the first one that fails is the last one that acts.
import Mathlib.Data.List.Infix
import RouteTypes.Proofs.Tree.Visits

namespace RouteTypes

/-! ## Places -/

/-- A node with its address in a tree: the numbers of the parts that lead to it. -/
structure Place where
  address : List Nat
  node : Node

mutual

/-- The nodes of a part at their places, from the outside in and from left to right. -/
def placesIn (source : Source) (parent : Option Node) (address : List Nat) : Part → List Place
  | .leaf .. => []
  | .node span kind parts =>
    let here : Node := ⟨source, kind, span, parts, parent⟩
    ⟨address, here⟩ :: placesInAll source (some here) address 0 parts

def placesInAll (source : Source) (parent : Option Node) (address : List Nat) (index : Nat) :
    List Part → List Place
  | [] => []
  | part :: rest =>
    placesIn source parent (address ++ [index]) part ++ placesInAll source parent address (index + 1) rest

end

/-- The node and all nodes below it at their places. -/
def Node.places (root : Node) : List Place := placesIn root.source root.parent [] root.part

mutual

theorem nodes_placesIn (source : Source) : ∀ (parent : Option Node) (address : List Nat) (part : Part),
    (placesIn source parent address part).map (·.node) = Node.nodesIn source parent part
  | parent, address, .leaf .. => rfl
  | parent, address, .node span kind parts => by
    rw [placesIn, Node.nodesIn, List.map_cons, nodes_placesInAll source _ address 0 parts]

theorem nodes_placesInAll (source : Source) : ∀ (parent : Option Node) (address : List Nat) (index : Nat)
    (parts : List Part),
    (placesInAll source parent address index parts).map (·.node) = Node.nodesInAll source parent parts
  | parent, address, index, [] => rfl
  | parent, address, index, part :: rest => by
    rw [placesInAll, Node.nodesInAll, List.map_append, nodes_placesIn source parent _ part,
      nodes_placesInAll source parent address (index + 1) rest]

end

/-- Every node of a tree has one place. -/
theorem nodes_places (root : Node) : root.places.map (·.node) = root.descendants :=
  nodes_placesIn root.source root.parent [] root.part

/-! ## Addresses -/

section

variable {address other : List Nat} {i j : Nat}

theorem prefix_child (h : address ++ [i] <+: other) : address <+: other :=
  (List.prefix_append address [i]).trans h

theorem child_ne (h : address ++ [i] <+: other) : other ≠ address := by
  rintro rfl
  have := h.length_le
  rw [List.length_append, List.length_singleton] at this
  omega

theorem children_apart (h : address ++ [i] <+: other) (h' : address ++ [j] <+: other) : i = j := by
  have hchild := List.prefix_of_prefix_length_le h h' (by rw [List.length_append, List.length_append]; rfl)
  have heq := hchild.eq_of_length (by rw [List.length_append, List.length_append]; rfl)
  exact (List.append_singleton_inj.mp heq).2

mutual

theorem prefix_of_mem_placesIn {source : Source} {place : Place} : ∀ {parent : Option Node} {address : List Nat}
    {part : Part}, place ∈ placesIn source parent address part → address <+: place.address
  | parent, address, .leaf .., h => by cases h
  | parent, address, .node span kind parts, h => by
    rw [placesIn] at h
    rcases List.mem_cons.mp h with rfl | h
    · exact List.prefix_rfl
    · obtain ⟨i, -, hchild⟩ := prefix_of_mem_placesInAll h
      exact prefix_child hchild

theorem prefix_of_mem_placesInAll {source : Source} {place : Place} : ∀ {parent : Option Node}
    {address : List Nat} {index : Nat} {parts : List Part},
    place ∈ placesInAll source parent address index parts → ∃ i, index ≤ i ∧ address ++ [i] <+: place.address
  | parent, address, index, [], h => by cases h
  | parent, address, index, part :: rest, h => by
    rw [placesInAll] at h
    rcases List.mem_append.mp h with h | h
    · exact ⟨index, Nat.le_refl _, prefix_of_mem_placesIn h⟩
    · obtain ⟨i, hi, hchild⟩ := prefix_of_mem_placesInAll h
      exact ⟨i, Nat.le_of_succ_le hi, hchild⟩

end

mutual

theorem addresses_nodupIn (source : Source) : ∀ (parent : Option Node) (address : List Nat) (part : Part),
    ((placesIn source parent address part).map (·.address)).Nodup
  | parent, address, .leaf .. => List.nodup_nil
  | parent, address, .node span kind parts => by
    rw [placesIn, List.map_cons, List.nodup_cons]
    refine ⟨fun hmem => ?_, addresses_nodupInAll source _ address 0 parts⟩
    obtain ⟨place, hplace, hsame⟩ := List.mem_map.mp hmem
    obtain ⟨i, -, hchild⟩ := prefix_of_mem_placesInAll hplace
    exact child_ne hchild hsame

theorem addresses_nodupInAll (source : Source) : ∀ (parent : Option Node) (address : List Nat) (index : Nat)
    (parts : List Part), ((placesInAll source parent address index parts).map (·.address)).Nodup
  | parent, address, index, [] => List.nodup_nil
  | parent, address, index, part :: rest => by
    rw [placesInAll, List.map_append, List.nodup_append]
    refine ⟨addresses_nodupIn source parent _ part, addresses_nodupInAll source parent address (index + 1) rest, ?_⟩
    rintro _ hfirst _ hrest rfl
    obtain ⟨place, hplace, rfl⟩ := List.mem_map.mp hfirst
    obtain ⟨other, hother, hsame⟩ := List.mem_map.mp hrest
    obtain ⟨i, hi, hchild⟩ := prefix_of_mem_placesInAll hother
    have := children_apart (prefix_of_mem_placesIn hplace) (hsame ▸ hchild)
    omega

end

/-- No two nodes have one address. -/
theorem addresses_nodup (root : Node) : (root.places.map (·.address)).Nodup :=
  addresses_nodupIn root.source root.parent [] root.part

end

/-! ## What can be told about a node -/

namespace Visitor

section

variable {σ ε : Type}

/-- What a plain visit of a node can tell, if the visits of its parts tell what `inner` says. -/
inductive NodeTold (handled : Bool) (address : List Nat) (here : Node) (inner : σ → Told σ ε (List Tree)) :
    Told σ ε Tree → Prop
  | unhandled {state : σ} : handled = false → NodeTold handled address here inner
      ⟨(inner state).acts, (inner state).result.map fun out => (.node here.kind out.1, out.2)⟩
  | fails {e : ε} : handled = true → NodeTold handled address here inner
      ⟨[⟨.before, address, here, .error e⟩], .error e⟩
  | stops {tree : Tree} {after : σ} : handled = true → NodeTold handled address here inner
      ⟨[⟨.before, address, here, .ok (some tree)⟩], .ok (tree, after)⟩
  | failsBelow {state : σ} {e : ε} : handled = true → (inner state).result = .error e →
      NodeTold handled address here inner ⟨⟨.before, address, here, .ok none⟩ :: (inner state).acts, .error e⟩
  | failsBehind {state middle : σ} {trees : List Tree} {e : ε} : handled = true →
      (inner state).result = .ok (trees, middle) → NodeTold handled address here inner
        ⟨⟨.before, address, here, .ok none⟩ :: ((inner state).acts ++ [⟨.behind, address, here, .error e⟩]),
          .error e⟩
  | goesOn {state middle after : σ} {trees : List Tree} {other : Option Tree} : handled = true →
      (inner state).result = .ok (trees, middle) → NodeTold handled address here inner
        ⟨⟨.before, address, here, .ok none⟩ :: ((inner state).acts ++ [⟨.behind, address, here, .ok other⟩]),
          .ok (other.getD (.node here.kind trees), after)⟩

/-- What plain visits of parts can tell. -/
inductive PartsTold (first : σ → Told σ ε Tree) (rest : σ → Told σ ε (List Tree)) : Told σ ε (List Tree) → Prop
  | fails {state : σ} {e : ε} : (first state).result = .error e →
      PartsTold first rest ⟨(first state).acts, .error e⟩
  | goesOn {state middle : σ} {tree : Tree} : (first state).result = .ok (tree, middle) →
      PartsTold first rest ⟨(first state).acts ++ (rest middle).acts,
        (rest middle).result.map fun out => (tree :: out.1, out.2)⟩

theorem map_told {α β : Type} (x : Telling σ ε α) (f : α → β) (state : σ) :
    (x >>= fun a => pure (f a)) state = ⟨(x state).acts, (x state).result.map fun out => (f out.1, out.2)⟩ := by
  cases hx : (x state).result with
  | error e => exact Telling.bind_error _ hx
  | ok out =>
    rw [Telling.bind_ok _ hx]
    exact congrArg (Told.mk · _) (List.append_nil _)

variable (handles : NodeKind → Bool) (look : Node → Visiting σ ε (Course σ ε)) (source : Source)
  (parent : Option Node) (address : List Nat)

/-- What a plain visit of a node tells. -/
theorem told_node (span : Text.Span) (kind : NodeKind) (parts : List Part) (state : σ) :
    NodeTold (handles kind) address ⟨source, kind, span, parts, parent⟩
      (Plain.visitParts handles look source (some ⟨source, kind, span, parts, parent⟩) address 0 parts)
      (Plain.visitPart handles look source parent address (.node span kind parts) state) := by
  let here : Node := ⟨source, kind, span, parts, parent⟩
  let inner := Plain.visitParts handles look source (some here) address 0 parts
  have hbelow := map_told inner (Tree.node kind)
  rw [Plain.visitPart]
  split
  · rename_i hhandled
    cases hlook : (look here).run state with
    | error e =>
      have hturn := Telling.turn_error .before address here (Course.tree? here) hlook
      rw [Telling.bind_error _ (congrArg Told.result hturn), hturn]
      exact .fails hhandled
    | ok out =>
      obtain ⟨course, before⟩ := out
      have hturn := Telling.turn_ok .before address here (Course.tree? here) hlook
      rw [Telling.bind_ok _ (congrArg Told.result hturn), hturn]
      cases course with
      | stop visit => exact .stops hhandled
      | descend finish =>
        have hresult := congrArg Told.result (hbelow before)
        dsimp only
        cases hinner : (inner before).result with
        | error e =>
          rw [hinner] at hresult
          rw [Telling.bind_error _ hresult, hbelow]
          exact .failsBelow hhandled hinner
        | ok out =>
          obtain ⟨trees, middle⟩ := out
          rw [hinner] at hresult
          rw [Telling.bind_ok _ hresult, hbelow]
          cases hfinish : (finish (.node kind trees)).run middle with
          | error e =>
            have hturn := Telling.turn_error .behind address here (·.map (·.resultAt here)) hfinish
            rw [Telling.bind_error _ (congrArg Told.result hturn), hturn]
            exact .failsBehind hhandled hinner
          | ok out =>
            obtain ⟨other, after⟩ := out
            rw [map_told, Telling.turn_ok .behind address here (·.map (·.resultAt here)) hfinish]
            exact .goesOn hhandled hinner
  · rename_i hunhandled
    rw [hbelow]
    exact .unhandled (eq_false_of_ne_true hunhandled)

/-- What plain visits of parts tell. -/
theorem told_parts (index : Nat) (part : Part) (rest : List Part) (state : σ) :
    PartsTold (Plain.visitPart handles look source parent (address ++ [index]) part)
      (Plain.visitParts handles look source parent address (index + 1) rest)
      (Plain.visitParts handles look source parent address index (part :: rest) state) := by
  rw [Plain.visitParts]
  cases hfirst : (Plain.visitPart handles look source parent (address ++ [index]) part state).result with
  | error e =>
    rw [Telling.bind_error _ hfirst]
    exact .fails hfirst
  | ok out =>
    rw [Telling.bind_ok _ hfirst, map_told]
    exact .goesOn hfirst

end

/-! ## Failures -/

section

variable {σ ε α : Type}

/-- A handler that fails is the last one that acts, and what comes of it all is its failure. -/
structure Told.FailsAtOnce (told : Told σ ε α) : Prop where
  ok : ∀ {out}, told.result = .ok out → ∀ act ∈ told.acts, ∃ came, act.came = .ok came
  error : ∀ {e}, told.result = .error e → ∃ before last, told.acts = before ++ [last] ∧ last.came = .error e ∧
    ∀ act ∈ before, ∃ came, act.came = .ok came

theorem map_eq_ok {α β : Type} {x : Except ε α} {f : α → β} {b : β} (h : x.map f = .ok b) :
    ∃ a, x = .ok a ∧ f a = b := by
  cases x with
  | error e => cases h
  | ok a => exact ⟨a, rfl, Except.ok.inj h⟩

theorem map_eq_error {α β : Type} {x : Except ε α} {f : α → β} {e : ε} (h : x.map f = .error e) :
    x = .error e := by
  cases x with
  | error e' => exact congrArg _ (Except.error.inj h)
  | ok a => cases h

theorem NodeTold.failsAtOnce {handled : Bool} {address : List Nat} {here : Node}
    {inner : σ → Told σ ε (List Tree)} {told : Told σ ε Tree} (h : NodeTold handled address here inner told)
    (hinner : ∀ state, (inner state).FailsAtOnce) : told.FailsAtOnce := by
  cases h with
  | unhandled =>
    constructor
    · intro out hout
      obtain ⟨_, hok, -⟩ := map_eq_ok hout
      exact (hinner _).ok hok
    · intro e he
      exact (hinner _).error (map_eq_error he)
  | fails =>
    constructor
    · intro out hout
      cases hout
    · intro e he
      cases he
      exact ⟨[], _, rfl, rfl, fun _ h => absurd h List.not_mem_nil⟩
  | stops =>
    constructor
    · intro out _
      exact List.forall_mem_singleton.mpr ⟨_, rfl⟩
    · intro e he
      cases he
  | failsBelow _ herror =>
    constructor
    · intro out hout
      cases hout
    · intro e he
      cases he
      obtain ⟨before, last, hacts, hlast, hbefore⟩ := (hinner _).error herror
      exact ⟨_ :: before, last, by rw [hacts]; rfl, hlast, List.forall_mem_cons.mpr ⟨⟨_, rfl⟩, hbefore⟩⟩
  | failsBehind _ hok =>
    constructor
    · intro out hout
      cases hout
    · intro e he
      cases he
      exact ⟨_ :: _, _, rfl, rfl, List.forall_mem_cons.mpr ⟨⟨_, rfl⟩, (hinner _).ok hok⟩⟩
  | goesOn _ hok =>
    constructor
    · intro out _
      exact List.forall_mem_cons.mpr ⟨⟨_, rfl⟩, List.forall_mem_append.mpr
        ⟨(hinner _).ok hok, List.forall_mem_singleton.mpr ⟨_, rfl⟩⟩⟩
    · intro e he
      cases he

theorem PartsTold.failsAtOnce {first : σ → Told σ ε Tree} {rest : σ → Told σ ε (List Tree)}
    {told : Told σ ε (List Tree)} (h : PartsTold first rest told) (hfirst : ∀ state, (first state).FailsAtOnce)
    (hrest : ∀ state, (rest state).FailsAtOnce) : told.FailsAtOnce := by
  cases h with
  | fails herror =>
    constructor
    · intro out hout
      cases hout
    · intro e he
      cases he
      exact (hfirst _).error herror
  | goesOn hok =>
    constructor
    · intro out hout
      obtain ⟨_, hok', -⟩ := map_eq_ok hout
      exact List.forall_mem_append.mpr ⟨(hfirst _).ok hok, (hrest _).ok hok'⟩
    · intro e he
      obtain ⟨before, last, hacts, hlast, hbefore⟩ := (hrest _).error (map_eq_error he)
      exact ⟨_ ++ before, last, by rw [hacts, List.append_assoc], hlast,
        List.forall_mem_append.mpr ⟨(hfirst _).ok hok, hbefore⟩⟩

end

section

variable {σ ε : Type} (handles : NodeKind → Bool) (look : Node → Visiting σ ε (Course σ ε)) (source : Source)

mutual

theorem visitPart_failsAtOnce : ∀ (parent : Option Node) (address : List Nat) (part : Part) (state : σ),
    (Plain.visitPart handles look source parent address part state).FailsAtOnce
  | parent, address, .leaf .., state => ⟨fun _ _ h => absurd h List.not_mem_nil, fun h => by cases h⟩
  | parent, address, .node span kind parts, state =>
    (told_node handles look source parent address span kind parts state).failsAtOnce
      (visitParts_failAtOnce _ address 0 parts)

theorem visitParts_failAtOnce : ∀ (parent : Option Node) (address : List Nat) (index : Nat) (parts : List Part)
    (state : σ), (Plain.visitParts handles look source parent address index parts state).FailsAtOnce
  | parent, address, index, [], state => ⟨fun _ _ h => absurd h List.not_mem_nil, fun h => by cases h⟩
  | parent, address, index, part :: rest, state =>
    (told_parts handles look source parent address index part rest state).failsAtOnce
      (visitPart_failsAtOnce parent (address ++ [index]) part)
      (visitParts_failAtOnce parent address (index + 1) rest)

end

end

/-! ## Where handlers act -/

section

variable {σ ε α : Type}

theorem NodeTold.below {handled : Bool} {address : List Nat} {here : Node} {inner : σ → Told σ ε (List Tree)}
    {told : Told σ ε Tree} (h : NodeTold handled address here inner told)
    (hinner : ∀ state, ∀ act ∈ (inner state).acts, ∃ i, 0 ≤ i ∧ address ++ [i] <+: act.address) :
    ∀ act ∈ told.acts, address <+: act.address := by
  have hbelow : ∀ state, ∀ act ∈ (inner state).acts, address <+: act.address := by
    intro state act hact
    obtain ⟨i, -, hchild⟩ := hinner state act hact
    exact prefix_child hchild
  cases h with
  | unhandled => exact hbelow _
  | fails | stops => exact List.forall_mem_singleton.mpr List.prefix_rfl
  | failsBelow => exact List.forall_mem_cons.mpr ⟨List.prefix_rfl, hbelow _⟩
  | failsBehind | goesOn =>
    exact List.forall_mem_cons.mpr ⟨List.prefix_rfl, List.forall_mem_append.mpr
      ⟨hbelow _, List.forall_mem_singleton.mpr List.prefix_rfl⟩⟩

theorem PartsTold.below {first : σ → Told σ ε Tree} {rest : σ → Told σ ε (List Tree)}
    {told : Told σ ε (List Tree)} (h : PartsTold first rest told) {address : List Nat} {index : Nat}
    (hfirst : ∀ state, ∀ act ∈ (first state).acts, address ++ [index] <+: act.address)
    (hrest : ∀ state, ∀ act ∈ (rest state).acts, ∃ i, index + 1 ≤ i ∧ address ++ [i] <+: act.address) :
    ∀ act ∈ told.acts, ∃ i, index ≤ i ∧ address ++ [i] <+: act.address := by
  cases h with
  | fails => exact fun act hact => ⟨index, Nat.le_refl _, hfirst _ act hact⟩
  | goesOn =>
    refine List.forall_mem_append.mpr ⟨fun act hact => ⟨index, Nat.le_refl _, hfirst _ act hact⟩, ?_⟩
    intro act hact
    obtain ⟨i, hi, hchild⟩ := hrest _ act hact
    exact ⟨i, Nat.le_of_succ_le hi, hchild⟩

variable (handles : NodeKind → Bool) (look : Node → Visiting σ ε (Course σ ε)) (source : Source)

mutual

/-- Handlers only act on nodes of the part that is visited. -/
theorem visitPart_below : ∀ (parent : Option Node) (address : List Nat) (part : Part) (state : σ),
    ∀ act ∈ (Plain.visitPart handles look source parent address part state).acts, address <+: act.address
  | _, _, .leaf .., _ => fun _ h => absurd h List.not_mem_nil
  | parent, address, .node span kind parts, state =>
    (told_node handles look source parent address span kind parts state).below
      (visitParts_below _ address 0 parts)

theorem visitParts_below : ∀ (parent : Option Node) (address : List Nat) (index : Nat) (parts : List Part)
    (state : σ), ∀ act ∈ (Plain.visitParts handles look source parent address index parts state).acts,
      ∃ i, index ≤ i ∧ address ++ [i] <+: act.address
  | _, _, _, [], _ => fun _ h => absurd h List.not_mem_nil
  | parent, address, index, part :: rest, state =>
    (told_parts handles look source parent address index part rest state).below
      (visitPart_below parent (address ++ [index]) part) (visitParts_below parent address (index + 1) rest)

end

end

/-! ## What a part tells within a whole visit -/

section

variable {ε : Type}

/-- The acts on a node and on those below it. -/
def actsIn (acts : List (Act ε)) (address : List Nat) : List (Act ε) := acts.filter (address <+: ·.address)

/-- The handler at the address was asked and did not have the nodes below visited. -/
def stopped (acts : List (Act ε)) (address : List Nat) : Bool :=
  acts.any fun act => act.address = address ∧ act.turn = .before ∧ ¬ act.goesOn

/-- The tree that was given in place of the node at the address. -/
def replaced? (acts : List (Act ε)) (address : List Nat) : Option Tree :=
  (acts.filter (·.address = address)).findSome? Act.tree?

variable {acts told : List (Act ε)} {address other : List Nat} {i index : Nat}

theorem stopped_actsIn (h : address <+: other) : stopped (actsIn acts address) other = stopped acts other := by
  rw [stopped, actsIn, List.any_filter, stopped]
  refine congrArg acts.any (funext fun act => ?_)
  by_cases hat : act.address = other
  · simp [hat, h]
  · simp [hat]

theorem replaced?_actsIn (h : address <+: other) :
    replaced? (actsIn acts address) other = replaced? acts other := by
  rw [replaced?, actsIn, List.filter_filter, replaced?]
  refine congrArg (List.findSome? _ <| List.filter · acts) (funext fun act => ?_)
  by_cases hat : act.address = other
  · simp [hat, h]
  · simp [hat]

theorem actsIn_actsIn (h : address <+: other) : actsIn (actsIn acts address) other = actsIn acts other := by
  rw [actsIn, actsIn, List.filter_filter, actsIn]
  refine congrArg (List.filter · acts) (funext fun act => ?_)
  by_cases hother : other <+: act.address
  · simp [hother, h.trans hother]
  · simp [hother]

theorem actsIn_self (h : ∀ act ∈ told, address <+: act.address) : actsIn told address = told :=
  List.filter_eq_self.mpr fun act hact => decide_eq_true (h act hact)

theorem actsIn_other (h : ∀ act ∈ told, address ++ [index] <+: act.address) (hne : i ≠ index) :
    actsIn told (address ++ [i]) = [] :=
  List.filter_eq_nil_iff.mpr fun act hact hin =>
    hne (children_apart (of_decide_eq_true hin) (h act hact))

theorem actsIn_append (more : List (Act ε)) :
    actsIn (told ++ more) address = actsIn told address ++ actsIn more address :=
  List.filter_append ..

/-- What is told about a node itself is not told about its parts. -/
theorem actsIn_own (turn : Turn) (node : Node) (came : Except ε (Option Tree)) :
    actsIn (⟨turn, address, node, came⟩ :: told) (address ++ [i]) = actsIn told (address ++ [i]) :=
  List.filter_cons_of_neg fun hin => child_ne (of_decide_eq_true hin) rfl

theorem actsIn_around (turn turn' : Turn) (node node' : Node) (came came' : Except ε (Option Tree)) :
    actsIn (⟨turn, address, node, came⟩ :: (told ++ [⟨turn', address, node', came'⟩])) (address ++ [i]) =
      actsIn told (address ++ [i]) := by
  rw [actsIn_own, actsIn_append, actsIn_own]
  exact List.append_nil _

/-- What is told about the parts of a node, from a number on, is told by these acts. -/
def TellsParts (acts : List (Act ε)) (address : List Nat) (index : Nat) (told : List (Act ε)) : Prop :=
  ∀ i, index ≤ i → actsIn acts (address ++ [i]) = actsIn told (address ++ [i])

/-- A node tells about its parts what they tell. -/
theorem tellsParts_of_node {own : List (Act ε)} (h : actsIn acts address = own)
    (hown : ∀ i, actsIn own (address ++ [i]) = actsIn told (address ++ [i])) : TellsParts acts address 0 told := by
  intro i _
  rw [← hown, ← h, actsIn_actsIn (List.prefix_append _ _)]

theorem TellsParts.first {first rest : List (Act ε)} (h : TellsParts acts address index (first ++ rest))
    (hfirst : ∀ act ∈ first, address ++ [index] <+: act.address)
    (hrest : ∀ act ∈ rest, ∃ i, index + 1 ≤ i ∧ address ++ [i] <+: act.address) :
    actsIn acts (address ++ [index]) = first := by
  have hnone : actsIn rest (address ++ [index]) = [] :=
    List.filter_eq_nil_iff.mpr fun act hact hin => by
      obtain ⟨i, hi, hchild⟩ := hrest act hact
      have := children_apart hchild (of_decide_eq_true hin)
      omega
  rw [h index (Nat.le_refl _), actsIn_append, actsIn_self hfirst, hnone, List.append_nil]

theorem TellsParts.only (h : TellsParts acts address index told)
    (htold : ∀ act ∈ told, address ++ [index] <+: act.address) : actsIn acts (address ++ [index]) = told :=
  (h index (Nat.le_refl _)).trans (actsIn_self htold)

theorem TellsParts.rest {first rest : List (Act ε)} (h : TellsParts acts address index (first ++ rest))
    (hfirst : ∀ act ∈ first, address ++ [index] <+: act.address) : TellsParts acts address (index + 1) rest := by
  intro i hi
  rw [h i (Nat.le_of_succ_le hi), actsIn_append, actsIn_other hfirst (by omega), List.nil_append]

end

/-! ## Which handlers a visit comes to -/

section

variable {ε : Type}

/-- The node of which the handler has its first turn. -/
def Act.place? (act : Act ε) : Option Place :=
  match act.turn with
  | .before => some ⟨act.address, act.node⟩
  | .behind => none

/-- The nodes of which handlers were asked, in the order in which they were. -/
def begun (acts : List (Act ε)) : List Place := acts.filterMap Act.place?

theorem begun_append (acts more : List (Act ε)) : begun (acts ++ more) = begun acts ++ begun more :=
  List.filterMap_append

theorem begun_around (acts : List (Act ε)) (address address' : List Nat) (node node' : Node)
    (came came' : Except ε (Option Tree)) :
    begun (⟨.before, address, node, came⟩ :: (acts ++ [⟨.behind, address', node', came'⟩])) =
      ⟨address, node⟩ :: begun acts := by
  change _ :: begun (acts ++ _) = _
  rw [begun_append]
  exact congrArg _ (List.append_nil _)

/-- None of the nodes around the address has a handler that stopped the visit. -/
def IsOpen (acts : List (Act ε)) (address : List Nat) : Prop :=
  ∀ k < address.length, stopped acts (address.take k) = false

instance (acts : List (Act ε)) (address : List Nat) : Decidable (IsOpen acts address) :=
  inferInstanceAs (Decidable (∀ k < address.length, stopped acts (address.take k) = false))

/-- The node has a handler, and the visit comes to it: each node around it has no handler, or one that goes on with
the nodes below. -/
def isReached (handles : NodeKind → Bool) (acts : List (Act ε)) (place : Place) : Bool :=
  handles place.node.kind && IsOpen acts place.address

variable {acts told : List (Act ε)} {address other : List Nat} {i : Nat}

theorem isOpen_child : IsOpen acts (address ++ [i]) ↔ IsOpen acts address ∧ stopped acts address = false := by
  constructor
  · intro h
    constructor
    · intro k hk
      have := h k (by rw [List.length_append]; omega)
      rwa [List.take_append_of_le_length (Nat.le_of_lt hk)] at this
    · have := h address.length (by rw [List.length_append, List.length_singleton]; omega)
      rwa [List.take_left] at this
  · rintro ⟨hopen, hown⟩ k hk
    rw [List.length_append, List.length_singleton] at hk
    rw [List.take_append_of_le_length (Nat.le_of_lt_succ hk)]
    rcases Nat.lt_or_eq_of_le (Nat.le_of_lt_succ hk) with hlt | rfl
    · exact hopen k hlt
    · rw [List.take_length]
      exact hown

theorem IsOpen.of_prefix (h : IsOpen acts other) (hle : address <+: other) : IsOpen acts address := by
  obtain ⟨rest, rfl⟩ := hle
  intro k hk
  have := h k (by rw [List.length_append]; omega)
  rwa [List.take_append_of_le_length (Nat.le_of_lt hk)] at this

/-- Below a node that stopped the visit nothing is reached. -/
theorem isReached_of_stopped {handles : NodeKind → Bool} {place : Place} (hstopped : stopped acts address = true)
    (h : address ++ [i] <+: place.address) : isReached handles acts place = false := by
  refine Bool.eq_false_iff.mpr fun hreached => ?_
  have hopen := of_decide_eq_true ((Bool.and_eq_true _ _).mp hreached).2
  cases hstopped.symm.trans (isOpen_child.mp (hopen.of_prefix h)).2

theorem stopped_cons (act : Act ε) : stopped (act :: told) address =
    (decide (act.address = address ∧ act.turn = .before ∧ ¬ act.goesOn) || stopped told address) := rfl

theorem stopped_append (more : List (Act ε)) :
    stopped (told ++ more) address = (stopped told address || stopped more address) := List.any_append

theorem stopped_of_below (h : ∀ act ∈ told, ∃ i, 0 ≤ i ∧ address ++ [i] <+: act.address) :
    stopped told address = false := by
  refine List.any_eq_false.mpr fun act hact hstops => ?_
  obtain ⟨i, -, hchild⟩ := h act hact
  exact child_ne hchild (of_decide_eq_true hstops).1

end

section

variable {σ ε α : Type}

/-- The nodes of which handlers are asked are these, unless one fails, and then the others are left out. -/
structure Told.Reaches (told : Told σ ε α) (places : List Place) : Prop where
  some : begun told.acts <+: places
  all : ∀ {out}, told.result = .ok out → begun told.acts = places

theorem Told.Reaches.of_eq {told : Told σ ε α} {places : List Place} (h : begun told.acts = places) :
    told.Reaches places := ⟨h ▸ List.prefix_rfl, fun _ => h⟩

/-- Which handlers are asked at a node: its own first, and then those below it if that goes on. -/
theorem NodeTold.reaches {handles : NodeKind → Bool} {acts : List (Act ε)} {address : List Nat} {here : Node}
    {inner : σ → Told σ ε (List Tree)} {told : Told σ ε Tree}
    (h : NodeTold (handles here.kind) address here inner told) (hacts : actsIn acts address = told.acts)
    (hopen : IsOpen acts address) {below : List Place}
    (hbelow : ∀ place ∈ below, ∃ i, 0 ≤ i ∧ address ++ [i] <+: place.address)
    (hunder : ∀ state, ∀ act ∈ (inner state).acts, ∃ i, 0 ≤ i ∧ address ++ [i] <+: act.address)
    (hinner : ∀ state, TellsParts acts address 0 (inner state).acts → stopped acts address = false →
      (inner state).Reaches (below.filter (isReached handles acts))) :
    told.Reaches ((⟨address, here⟩ :: below).filter (isReached handles acts)) := by
  have hown : stopped acts address = stopped told.acts address := by
    rw [← hacts, stopped_actsIn List.prefix_rfl]
  have hhere : ∀ {handled}, handles here.kind = handled → isReached handles acts ⟨address, here⟩ = handled := by
    intro handled hhandled
    rw [isReached, hhandled, decide_eq_true (show IsOpen acts (Place.mk address here).address from hopen),
      Bool.and_true]
  have hnone : stopped acts address = true → below.filter (isReached handles acts) = [] := by
    intro hstopped
    refine List.filter_eq_nil_iff.mpr fun place hplace hreached => ?_
    obtain ⟨i, -, hchild⟩ := hbelow place hplace
    cases hreached.symm.trans (isReached_of_stopped hstopped hchild)
  cases h with
  | @unhandled state hhandled =>
    rw [List.filter_cons_of_neg (by rw [hhere hhandled]; exact Bool.false_ne_true)]
    have hreaches := hinner state (tellsParts_of_node hacts fun _ => rfl)
      (hown.trans (stopped_of_below (hunder state)))
    exact ⟨hreaches.some, fun hout => (hreaches.all (map_eq_ok hout).choose_spec.1)⟩
  | fails hhandled | stops hhandled =>
    have hstopped : stopped acts address = true := by
      rw [hown]
      simp [stopped, Act.goesOn]
    rw [List.filter_cons_of_pos (hhere hhandled), hnone hstopped]
    exact .of_eq rfl
  | @failsBelow state e hhandled herror =>
    have hgoesOn : stopped acts address = false := by
      rw [hown, stopped_cons, stopped_of_below (hunder state)]
      simp [Act.goesOn]
    have hreaches := hinner state (tellsParts_of_node hacts fun i => actsIn_own ..) hgoesOn
    rw [List.filter_cons_of_pos (hhere hhandled)]
    exact ⟨List.cons_prefix_cons.mpr ⟨rfl, hreaches.some⟩, fun hout => by cases hout⟩
  | @failsBehind state _ _ _ hhandled hok | @goesOn state _ _ _ _ hhandled hok =>
    have hgoesOn : stopped acts address = false := by
      rw [hown, stopped_cons, stopped_append, stopped_of_below (hunder state)]
      simp [stopped, Act.goesOn]
    have hreaches := hinner state (tellsParts_of_node hacts fun i => actsIn_around ..) hgoesOn
    rw [List.filter_cons_of_pos (hhere hhandled)]
    exact .of_eq ((begun_around ..).trans (congrArg _ (hreaches.all hok)))

theorem PartsTold.reaches {handles : NodeKind → Bool} {acts : List (Act ε)} {address : List Nat} {index : Nat}
    {first : σ → Told σ ε Tree} {rest : σ → Told σ ε (List Tree)} {told : Told σ ε (List Tree)}
    (h : PartsTold first rest told) (htells : TellsParts acts address index told.acts)
    {firstPlaces restPlaces : List Place}
    (hunder : ∀ state, ∀ act ∈ (first state).acts, address ++ [index] <+: act.address)
    (hbehind : ∀ state, ∀ act ∈ (rest state).acts, ∃ i, index + 1 ≤ i ∧ address ++ [i] <+: act.address)
    (hfirst : ∀ state, actsIn acts (address ++ [index]) = (first state).acts →
      (first state).Reaches (firstPlaces.filter (isReached handles acts)))
    (hrest : ∀ state, TellsParts acts address (index + 1) (rest state).acts →
      (rest state).Reaches (restPlaces.filter (isReached handles acts))) :
    told.Reaches ((firstPlaces ++ restPlaces).filter (isReached handles acts)) := by
  rw [List.filter_append]
  cases h with
  | @fails state e herror =>
    have hreaches := hfirst state (htells.only (hunder state))
    exact ⟨hreaches.some.trans (List.prefix_append _ _), fun hout => by cases hout⟩
  | @goesOn state middle tree hok =>
    have hreaches := hfirst state (htells.first (hunder state) (hbehind middle))
    have hothers := hrest middle (htells.rest (hunder state))
    have hbegun : begun ((first state).acts ++ (rest middle).acts) =
        firstPlaces.filter (isReached handles acts) ++ begun (rest middle).acts := by
      rw [begun_append, hreaches.all hok]
    refine ⟨?_, fun hout => ?_⟩
    · rw [hbegun]
      exact (List.prefix_append_right_inj _).mpr hothers.some
    · obtain ⟨_, hall, -⟩ := map_eq_ok hout
      exact hbegun.trans (congrArg _ (hothers.all hall))

theorem Told.Reaches.nothing (state : σ) (a : α) : (⟨[], .ok (a, state)⟩ : Told σ ε α).Reaches [] := .of_eq rfl

variable (handles : NodeKind → Bool) (look : Node → Visiting σ ε (Course σ ε)) (source : Source)

mutual

/-- A visit of a part comes to the handlers of the nodes that it reaches there. -/
theorem visitPart_reaches (acts : List (Act ε)) : ∀ (parent : Option Node) (address : List Nat) (part : Part)
    (state : σ), actsIn acts address = (Plain.visitPart handles look source parent address part state).acts →
      IsOpen acts address → (Plain.visitPart handles look source parent address part state).Reaches
        ((placesIn source parent address part).filter (isReached handles acts))
  | _, _, .leaf .., state, _, _ => .nothing state _
  | parent, address, .node span kind parts, state, hacts, hopen =>
    (told_node handles look source parent address span kind parts state).reaches hacts hopen
      (fun _ => prefix_of_mem_placesInAll) (visitParts_below handles look source _ address 0 parts)
      (fun state htells hgoesOn => visitParts_reach acts _ address 0 parts state htells hopen hgoesOn)

theorem visitParts_reach (acts : List (Act ε)) : ∀ (parent : Option Node) (address : List Nat) (index : Nat)
    (parts : List Part) (state : σ),
      TellsParts acts address index (Plain.visitParts handles look source parent address index parts state).acts →
        IsOpen acts address → stopped acts address = false →
          (Plain.visitParts handles look source parent address index parts state).Reaches
            ((placesInAll source parent address index parts).filter (isReached handles acts))
  | _, _, _, [], state, _, _, _ => .nothing state _
  | parent, address, index, part :: rest, state, htells, hopen, hgoesOn =>
    (told_parts handles look source parent address index part rest state).reaches htells
      (visitPart_below handles look source parent (address ++ [index]) part)
      (visitParts_below handles look source parent address (index + 1) rest)
      (fun state hacts => visitPart_reaches acts parent (address ++ [index]) part state hacts
        (isOpen_child.mpr ⟨hopen, hgoesOn⟩))
      (fun state htells => visitParts_reach acts parent address (index + 1) rest state htells hopen hgoesOn)

end

end

end Visitor

end RouteTypes
