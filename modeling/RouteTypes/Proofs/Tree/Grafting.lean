-- What a visit makes: the tree from before, with what handlers gave in place of their nodes. If every handler leaves
-- its node as it was or goes on with the nodes below, that is the tree from before.
import RouteTypes.Proofs.Tree.Telling

namespace RouteTypes

/-! ## What a visit makes -/

mutual

/-- The part with other trees in place of some of its nodes. Everything else is as it was, down to the tokens. -/
def Part.graft (replaced? : List Nat → Option Tree) (address : List Nat) : Part → Tree
  | .leaf _ token => .leaf token
  | .node _ kind parts => (replaced? address).getD (.node kind (Part.graftAll replaced? address 0 parts))

def Part.graftAll (replaced? : List Nat → Option Tree) (address : List Nat) (index : Nat) :
    List Part → List Tree
  | [] => []
  | part :: rest =>
    part.graft replaced? (address ++ [index]) :: Part.graftAll replaced? address (index + 1) rest

end

namespace Visitor

section

variable {σ ε : Type} {acts told : List (Act ε)} {address : List Nat}

theorem none_at_of_below (h : ∀ act ∈ told, ∃ i, 0 ≤ i ∧ address ++ [i] <+: act.address) :
    told.filter (·.address = address) = [] :=
  List.filter_eq_nil_iff.mpr fun act hact hat => by
    obtain ⟨i, -, hchild⟩ := h act hact
    exact child_ne hchild (of_decide_eq_true hat)

theorem replaced?_of_below (h : ∀ act ∈ told, ∃ i, 0 ≤ i ∧ address ++ [i] <+: act.address) :
    replaced? told address = none := by
  rw [replaced?, none_at_of_below h]
  rfl

/-- What a handler gives once the nodes below are visited stands in place of its node. -/
theorem replaced?_around (node node' : Node) (other : Option Tree)
    (h : ∀ act ∈ told, ∃ i, 0 ≤ i ∧ address ++ [i] <+: act.address) :
    replaced? (⟨.before, address, node, .ok none⟩ :: (told ++ [⟨.behind, address, node', .ok other⟩])) address =
      other := by
  have hacts : (Act.mk .before address node (.ok none) ::
      (told ++ [⟨.behind, address, node', .ok other⟩])).filter (·.address = address) =
      [⟨.before, address, node, .ok none⟩, ⟨.behind, address, node', .ok other⟩] := by
    simp [none_at_of_below h]
  rw [replaced?, hacts]
  cases other <;> rfl

theorem NodeTold.grafts {handled : Bool} {here : Node} {inner : σ → Told σ ε (List Tree)} {told : Told σ ε Tree}
    (h : NodeTold handled address here inner told) (hacts : actsIn acts address = told.acts)
    (hunder : ∀ state, ∀ act ∈ (inner state).acts, ∃ i, 0 ≤ i ∧ address ++ [i] <+: act.address)
    {below : List Tree} (hinner : ∀ state, TellsParts acts address 0 (inner state).acts →
      ∀ {trees after}, (inner state).result = .ok (trees, after) → trees = below)
    {tree : Tree} {after : σ} (hok : told.result = .ok (tree, after)) :
    tree = (replaced? acts address).getD (.node here.kind below) := by
  rw [← replaced?_actsIn List.prefix_rfl, hacts]
  cases h with
  | @unhandled state =>
    obtain ⟨⟨trees, middle⟩, hbelow, hout⟩ := map_eq_ok hok
    cases hout
    rw [replaced?_of_below (hunder state), hinner state (tellsParts_of_node hacts fun _ => rfl) hbelow]
    rfl
  | stops =>
    cases hok
    simp [replaced?, Act.tree?]
  | @goesOn state middle _ trees other _ hbelow =>
    cases hok
    rw [replaced?_around here here other (hunder state),
      hinner state (tellsParts_of_node hacts fun _ => actsIn_around ..) hbelow]
  | fails | failsBelow | failsBehind => cases hok

theorem PartsTold.grafts {index : Nat} {first : σ → Told σ ε Tree} {rest : σ → Told σ ε (List Tree)}
    {told : Told σ ε (List Tree)} (h : PartsTold first rest told) (htells : TellsParts acts address index told.acts)
    (hunder : ∀ state, ∀ act ∈ (first state).acts, address ++ [index] <+: act.address)
    (hbehind : ∀ state, ∀ act ∈ (rest state).acts, ∃ i, index + 1 ≤ i ∧ address ++ [i] <+: act.address)
    {firstTree : Tree} {restTrees : List Tree}
    (hfirst : ∀ state, actsIn acts (address ++ [index]) = (first state).acts →
      ∀ {tree after}, (first state).result = .ok (tree, after) → tree = firstTree)
    (hrest : ∀ state, TellsParts acts address (index + 1) (rest state).acts →
      ∀ {trees after}, (rest state).result = .ok (trees, after) → trees = restTrees)
    {trees : List Tree} {after : σ} (hok : told.result = .ok (trees, after)) : trees = firstTree :: restTrees := by
  cases h with
  | fails => cases hok
  | @goesOn state middle tree hone =>
    obtain ⟨⟨others, _⟩, hothers, hout⟩ := map_eq_ok hok
    cases hout
    rw [hfirst state (htells.first (hunder state) (hbehind middle)) hone,
      hrest middle (htells.rest (hunder state)) hothers]

variable (handles : NodeKind → Bool) (look : Node → Visiting σ ε (Course σ ε)) (source : Source)

mutual

/-- A visit of a part makes it with what handlers gave in place of their nodes. -/
theorem visitPart_grafts (acts : List (Act ε)) : ∀ (parent : Option Node) (address : List Nat) (part : Part)
    (state : σ), actsIn acts address = (Plain.visitPart handles look source parent address part state).acts →
      ∀ {tree after}, (Plain.visitPart handles look source parent address part state).result = .ok (tree, after) →
        tree = part.graft (replaced? acts) address
  | _, _, .leaf .., _, _, _, _, hok => by
    cases hok
    rfl
  | parent, address, .node span kind parts, state, hacts, _, _, hok =>
    (told_node handles look source parent address span kind parts state).grafts hacts
      (visitParts_below handles look source _ address 0 parts) (visitParts_graft acts _ address 0 parts) hok

theorem visitParts_graft (acts : List (Act ε)) : ∀ (parent : Option Node) (address : List Nat) (index : Nat)
    (parts : List Part) (state : σ),
      TellsParts acts address index (Plain.visitParts handles look source parent address index parts state).acts →
        ∀ {trees after},
          (Plain.visitParts handles look source parent address index parts state).result = .ok (trees, after) →
            trees = Part.graftAll (replaced? acts) address index parts
  | _, _, _, [], _, _, _, _, hok => by
    cases hok
    rfl
  | parent, address, index, part :: rest, state, htells, _, _, hok =>
    (told_parts handles look source parent address index part rest state).grafts htells
      (visitPart_below handles look source parent (address ++ [index]) part)
      (visitParts_below handles look source parent address (index + 1) rest)
      (visitPart_grafts acts parent (address ++ [index]) part)
      (visitParts_graft acts parent address (index + 1) rest) hok

end

end

/-! ## Visits that leave everything as it was -/

section

variable {σ ε : Type}

/-- The handler leaves its node as it was, or has the nodes below visited. -/
def Act.LeavesNode (act : Act ε) : Prop := ∃ other, act.came = .ok other ∧ ∀ tree ∈ other, tree = act.node.tree

theorem NodeTold.leaves {handled : Bool} {address : List Nat} {here : Node} {inner : σ → Told σ ε (List Tree)}
    {told : Told σ ε Tree} (h : NodeTold handled address here inner told)
    (hleaves : ∀ act ∈ told.acts, act.LeavesNode)
    (hinner : ∀ state, (∀ act ∈ (inner state).acts, act.LeavesNode) →
      ∃ after, (inner state).result = .ok (Part.eraseAll here.parts, after)) :
    ∃ after, told.result = .ok (here.tree, after) := by
  cases h with
  | @unhandled state =>
    obtain ⟨after, hok⟩ := hinner state hleaves
    exact ⟨after, by rw [hok]; rfl⟩
  | fails =>
    obtain ⟨_, hcame, -⟩ := hleaves _ (List.mem_singleton_self _)
    cases hcame
  | @stops tree after =>
    obtain ⟨_, hcame, htree⟩ := hleaves _ (List.mem_singleton_self _)
    cases hcame
    exact ⟨after, by rw [htree tree rfl]⟩
  | @failsBelow state e _ herror =>
    obtain ⟨_, hok⟩ := hinner state (List.forall_mem_cons.mp hleaves).2
    cases herror.symm.trans hok
  | failsBehind =>
    obtain ⟨_, hcame, -⟩ := hleaves _ (List.mem_cons_of_mem _ (List.mem_append_right _ (List.mem_singleton_self _)))
    cases hcame
  | @goesOn state middle after trees other _ hok =>
    have hbelow := (List.forall_mem_append.mp (List.forall_mem_cons.mp hleaves).2)
    obtain ⟨_, hcame, htree⟩ := List.forall_mem_singleton.mp hbelow.2
    cases hcame
    obtain ⟨_, hok'⟩ := hinner state hbelow.1
    cases hok.symm.trans hok'
    cases other with
    | none => exact ⟨after, rfl⟩
    | some tree => exact ⟨after, by rw [htree tree rfl]; rfl⟩

theorem PartsTold.leaves {first : σ → Told σ ε Tree} {rest : σ → Told σ ε (List Tree)}
    {told : Told σ ε (List Tree)} (h : PartsTold first rest told)
    (hleaves : ∀ act ∈ told.acts, act.LeavesNode) {tree : Tree} {trees : List Tree}
    (hfirst : ∀ state, (∀ act ∈ (first state).acts, act.LeavesNode) →
      ∃ after, (first state).result = .ok (tree, after))
    (hrest : ∀ state, (∀ act ∈ (rest state).acts, act.LeavesNode) →
      ∃ after, (rest state).result = .ok (trees, after)) :
    ∃ after, told.result = .ok (tree :: trees, after) := by
  cases h with
  | @fails state e herror =>
    obtain ⟨_, hok⟩ := hfirst state hleaves
    cases herror.symm.trans hok
  | @goesOn state middle _ hone =>
    obtain ⟨hunder, hbehind⟩ := List.forall_mem_append.mp hleaves
    obtain ⟨_, hok⟩ := hfirst state hunder
    cases hone.symm.trans hok
    obtain ⟨after, hothers⟩ := hrest middle hbehind
    exact ⟨after, by rw [hothers]; rfl⟩

variable (handles : NodeKind → Bool) (look : Node → Visiting σ ε (Course σ ε)) (source : Source)

mutual

/-- If every handler leaves its node as it was or goes on, a visit makes the part that was there. -/
theorem visitPart_leaves : ∀ (parent : Option Node) (address : List Nat) (part : Part) (state : σ),
    (∀ act ∈ (Plain.visitPart handles look source parent address part state).acts, act.LeavesNode) →
      ∃ after, (Plain.visitPart handles look source parent address part state).result = .ok (part.erase, after)
  | _, _, .leaf .., state, _ => ⟨state, rfl⟩
  | parent, address, .node span kind parts, state, hleaves =>
    (told_node handles look source parent address span kind parts state).leaves hleaves
      (visitParts_leave _ address 0 parts)

theorem visitParts_leave : ∀ (parent : Option Node) (address : List Nat) (index : Nat) (parts : List Part)
    (state : σ),
    (∀ act ∈ (Plain.visitParts handles look source parent address index parts state).acts, act.LeavesNode) →
      ∃ after, (Plain.visitParts handles look source parent address index parts state).result =
        .ok (Part.eraseAll parts, after)
  | _, _, _, [], state, _ => ⟨state, rfl⟩
  | parent, address, index, part :: rest, state, hleaves =>
    (told_parts handles look source parent address index part rest state).leaves hleaves
      (visitPart_leaves parent (address ++ [index]) part) (visitParts_leave parent address (index + 1) rest)

end

end

end Visitor

end RouteTypes
