-- Where names are declared, as the source says it: which nodes have scopes, in whose scope a declaration stands,
-- and which declaration of a name is the first one in a scope. And what declaring a name brings about among the
-- scopes of a program: the name is bound if it was not, and the node declares a symbol of its kind.
import RouteTypes.Proofs.Tree.Nesting
import RouteTypes.Proofs.Typing.Binding

namespace RouteTypes

/-! ## What the source says -/

namespace Node

/-- The node has a scope: it has names of its own, or it is a whole text. -/
def isScope (node : Node) : Bool := node.kind.opensScope || node.parent.isNone

/-- The node in whose scope a declaration stands. The name of a function expression stands in its own. -/
def standsIn? (node : Node) : Option Node :=
  if node.kind = .functionExpr then some node else node.parent.bind (·.outwards.find? isScope)

/-- How a node declares its name, and what it declares. A parameter declares no name in an index signature, and
none if it says what `this` is. -/
def declares? (node : Node) : Option (NameSort × SymbolKind) :=
  match node.kind with
  | .varDeclarator | .bindingElement => some (.value, .variable (Facts.isConstVariable node))
  | .functionDecl | .functionExpr => some (.value, .function)
  | .classDecl => some (.type, .classDecl)
  | .interfaceDecl => some (.type, .interface)
  | .typeAliasDecl => some (.type, .alias)
  | .typeParam => some (.type, .typeParam)
  | .param =>
    if (node.parentOf? .indexSignature).isSome || Facts.isThisParam node then none else some (.value, .param)
  | _ => none

/-- The node declares the name in the scope of the other one. -/
def declaresIn (scope : Node) (sort : NameSort) (name : String) (node : Node) : Bool :=
  node.declares?.any (·.1 = sort) && node.declaredName? == some name && node.standsIn?.any (·.isSame scope)

/-- The first of the nodes that declares the type of that name in the scope. -/
def firstType? (nodes : List Node) (scope : Node) (name : String) : Option Node :=
  nodes.find? (declaresIn scope .type name)

/-- The node makes the name a value of the scope. A class is one if no type of its name stands before it. -/
def bindsValue (nodes : List Node) (scope : Node) (name : String) (node : Node) : Bool :=
  declaresIn scope .value name node || node.kind == .classDecl && (firstType? nodes scope name).any (·.isSame node)

/-- The first of the nodes that declares the value of that name in the scope. -/
def firstValue? (nodes : List Node) (scope : Node) (name : String) : Option Node :=
  nodes.find? (bindsValue nodes scope name)

/-- The first of the nodes that declares the name in the scope. -/
def first? (nodes : List Node) (scope : Node) : NameSort → String → Option Node
  | .type => firstType? nodes scope
  | .value => firstValue? nodes scope

/-- The node and those around it from the inside out, and behind a program what every program sees. -/
def visible (node prelude : Node) : List Node :=
  node.outwards ++ if node.source = .program then [prelude] else []

/-- Nodes that are told apart by their texts, their kinds or their places. -/
def Unlike (a b : Node) : Prop := a.id ≠ b.id

instance : Std.Symm Unlike := ⟨fun _ _ h hid => h hid.symm⟩

/-- The nodes whose names can be used at the node, those with the innermost scopes first. -/
def scopes (node prelude : Node) : List Node := (node.visible prelude).filter isScope

end Node

/-! ## Scopes -/

namespace ScopeTree

variable {tree tree' : ScopeTree} {scope : ScopeId} {sort : NameSort} {name : String} {symbol : SymbolId}

/-- The scope around a scope. -/
def parent? (tree : ScopeTree) (index : Nat) : Option ScopeId := tree.scopes[index]?.bind (·.parent)

/-- The scopes around a scope are those that there were, if it is one of those that lie where they lay. -/
theorem path_congr {bound : Nat} (h : ∀ index < bound, tree'.parent? index = tree.parent? index) :
    ∀ {scope : ScopeId}, scope.index < bound → tree'.path scope = tree.path scope
  | scope, hscope => by
    rw [path, path]
    have hparent := h scope.index hscope
    unfold parent? at hparent
    rw [hparent]
    split
    · rfl
    · rename_i outer _
      split
      · rename_i houter
        rw [path_congr h (Nat.lt_trans houter hscope)]
      · rfl
termination_by scope => scope.index

theorem parent?_add {outer : ScopeId} {owner : NodeId} {index : Nat} (h : index < tree.scopes.size) :
    (tree.add outer owner).2.parent? index = tree.parent? index := by
  unfold parent? add
  dsimp only
  rw [Array.getElem?_push_lt h, Array.getElem?_eq_getElem h]

/-- A new scope lies in the one that it was made in, and in those around. -/
theorem path_add {outer : ScopeId} {owner : NodeId} (h : outer.index < tree.scopes.size) :
    (tree.add outer owner).2.path (tree.add outer owner).1 = (tree.add outer owner).1 :: tree.path outer := by
  rw [← path_congr (fun _ => parent?_add) h, path]
  unfold add
  dsimp only
  rw [Array.getElem?_push_size]
  exact if_pos h

theorem getLocal_of_size_le (h : tree.scopes.size ≤ scope.index) : tree.getLocal scope sort name = none := by
  unfold getLocal
  rw [Array.getElem?_eq_none h]
  rfl

/-- A new scope binds nothing, the others bind what they bound. -/
theorem getLocal_add_eq {outer : ScopeId} {owner : NodeId} :
    (tree.add outer owner).2.getLocal scope sort name = tree.getLocal scope sort name := by
  cases hget : tree.getLocal scope sort name with
  | some found => exact getLocal_add_of_some hget
  | none =>
    refine Option.eq_none_iff_forall_ne_some.mpr fun found hfound => ?_
    cases hget.symm.trans (getLocal_add hfound)

/-- A name is bound in a scope, unless it is already. Nothing else changes. -/
structure Binds (scope : ScopeId) (sort : NameSort) (name : String) (symbol : SymbolId) (tree tree' : ScopeTree) :
    Prop where
  owners : tree'.owners = tree.owners
  size : tree'.scopes.size = tree.scopes.size
  parents : ∀ index, tree'.parent? index = tree.parent? index
  own : tree'.getLocal scope sort name = (tree.getLocal scope sort name).or (some symbol)
  other : ∀ {scope' sort' name'}, (scope', sort', name') ≠ (scope, sort, name) →
    tree'.getLocal scope' sort' name' = tree.getLocal scope' sort' name'

theorem Binds.of_some {found : SymbolId} (h : tree.getLocal scope sort name = some found) :
    Binds scope sort name symbol tree tree :=
  ⟨rfl, rfl, fun _ => rfl, by rw [h]; rfl, fun _ => rfl⟩

/-- What scopes bind behind a name that is bound. -/
theorem Binds.getLocal_eq (h : Binds scope sort name symbol tree tree') {scope' : ScopeId} {sort' : NameSort}
    {name' : String} {same : Bool} (hsame : same = true ↔ (scope', sort', name') = (scope, sort, name)) :
    tree'.getLocal scope' sort' name' =
      (tree.getLocal scope' sort' name').or (if same then some symbol else none) := by
  split
  · rename_i htrue
    cases hsame.mp htrue
    exact h.own
  · rename_i hfalse
    rw [h.other fun heq => hfalse (hsame.mpr heq), Option.or_none]

theorem get?_bind_self (found : Scope) : (found.bind sort name symbol).get? sort name = some symbol := by
  cases sort <;> exact Table.get?_insert_self _ _ _

theorem parent_bind (found : Scope) : (found.bind sort name symbol).parent = found.parent := by
  cases sort <;> rfl

theorem get?_bind_of_ne (found : Scope) {sort' : NameSort} {name' : String} (hne : (sort', name') ≠ (sort, name)) :
    (found.bind sort name symbol).get? sort' name' = found.get? sort' name' := by
  cases sort <;> cases sort'
  · exact Table.get?_insert_of_ne (fun heq => hne (by rw [heq])) _ _
  · rfl
  · rfl
  · exact Table.get?_insert_of_ne (fun heq => hne (by rw [heq])) _ _

theorem binds_declare (hscope : scope.index < tree.scopes.size)
    (h : tree.declare scope sort name symbol = .ok tree') : Binds scope sort name symbol tree tree' := by
  unfold declare at h
  split at h
  · cases h
  · rename_i hnone
    cases h
    refine ⟨rfl, Array.size_modify, fun index => ?_, ?_, fun {scope' sort' name'} hne => ?_⟩
    · unfold parent?
      dsimp only
      rw [Array.getElem?_modify]
      split
      · cases tree.scopes[index]? with
        | none => rfl
        | some found => exact parent_bind found
      · rfl
    · rw [hnone]
      unfold getLocal
      dsimp only
      rw [Array.getElem?_modify, if_pos rfl, Array.getElem?_eq_getElem hscope]
      exact get?_bind_self _
    · unfold getLocal
      dsimp only
      rw [Array.getElem?_modify]
      split
      · rename_i hsame
        cases tree.scopes[scope'.index]? with
        | none => rfl
        | some found => exact get?_bind_of_ne found fun heq => hne (by
            rw [heq, show scope' = scope from congrArg ScopeId.mk hsame.symm])
      · rfl

end ScopeTree

namespace Facts

variable {s s' : Facts} {node : Node} {scope : ScopeId} {sort : NameSort} {name : String} {kind : SymbolKind}

/-! ## Declarations -/

/-- The symbol stays, and so does its kind. -/
def KeepsKinds (s s' : Facts) : Prop :=
  ∀ {id}, s.HasSymbol id → s'.HasSymbol id ∧ (s'.symbol id).kind = (s.symbol id).kind

theorem bindName_binds {symbol : SymbolId} (hscope : scope.index < s.scopes.scopes.size) :
    ScopeTree.Binds scope sort name symbol s.scopes (s.bindName scope sort name symbol).scopes := by
  unfold bindName
  split
  · exact ScopeTree.binds_declare hscope ‹_›
  · rename_i herror
    unfold ScopeTree.declare at herror
    split at herror
    · exact .of_some ‹_›
    · cases herror

theorem declarations_bindName {symbol : SymbolId} :
    (s.bindName scope sort name symbol).declarations = s.declarations := by
  unfold bindName
  split <;> rfl

theorem hasSymbol_bindName {symbol id : SymbolId} :
    (s.bindName scope sort name symbol).HasSymbol id ↔ s.HasSymbol id := by
  unfold bindName
  split <;> exact Iff.rfl

/-- What declaring a name comes to. -/
structure Makes (node : Node) (scope : ScopeId) (sort : NameSort) (name : String) (kind : SymbolKind) (symbol : SymbolId)
    (s s' : Facts) : Prop where
  binds : ScopeTree.Binds scope sort name symbol s.scopes s'.scopes
  declared : s'.declared? node = some symbol
  others : ∀ {id}, id ≠ node.id → s'.declarations.get? id = s.declarations.get? id
  has : s'.HasSymbol symbol
  kind : (s'.symbol symbol).kind = kind
  kinds : KeepsKinds s s'

theorem symbol_addSymbol (s : Facts) (fresh : Symbol) : (s.addSymbol fresh).2.symbol (s.addSymbol fresh).1 = fresh :=
  getD_push_size s.symbols default

theorem addSymbol_keepsKinds (fresh : Symbol) : KeepsKinds s (s.addSymbol fresh).2 := fun hid =>
  ⟨Nat.lt_trans hid (lt_size_push _), congrArg (·.kind) (getD_push_of_lt _ _ hid)⟩

/-- A node that has a name declares it by a symbol of its kind, which is told if the name was not bound. -/
theorem declare_makes (sort : NameSort) (kind : SymbolKind) (hname : node.declaredName? = some name)
    (hscope : scope.index < s.scopes.scopes.size)
    (hold : ∀ id, s.scopes.getLocal scope sort name = some id → s.HasSymbol id) : ∃ symbol,
      Makes node scope sort name kind symbol s (s.declare node scope sort kind).2 ∧
        (s.scopes.getLocal scope sort name = none → (s.declare node scope sort kind).1 = some symbol) ∧
        ∀ id, s.scopes.getLocal scope sort name = some id → (s.declare node scope sort kind).1 = none := by
  let fresh : Symbol := ⟨name, kind, [node], node.isOptional, none⟩
  have hothers : ∀ {facts : Facts} {symbol : SymbolId} {id : NodeId}, id ≠ node.id →
      (facts.setDeclared node symbol).declarations.get? id = facts.declarations.get? id :=
    fun hne => Table.get?_insert_of_ne (Ne.symm hne) _ _
  unfold declare
  rw [hname]
  dsimp only
  split
  · rename_i existing hexisting
    have hid := hold existing hexisting
    split
    · rename_i hkind
      refine ⟨existing, ⟨.of_some hexisting, Table.get?_insert_self _ _ _, hothers, hasSymbol_addDeclaration.mpr hid,
        ?_, fun {id} hid => ⟨hasSymbol_addDeclaration.mpr hid, ?_⟩⟩, fun hnone => ?_, fun _ _ => rfl⟩
      · exact (congrArg (·.kind) (symbol_addDeclaration hid)).trans (by split <;> exact hkind)
      · exact (congrArg (·.kind) (symbol_addDeclaration hid)).trans (by split <;> rfl)
      · cases hexisting.symm.trans hnone
    · refine ⟨(s.addSymbol fresh).1, ⟨.of_some hexisting, Table.get?_insert_self _ _ _, hothers, lt_size_push _,
        congrArg (·.kind) (symbol_addSymbol s fresh), addSymbol_keepsKinds fresh⟩, fun hnone => ?_, fun _ _ => rfl⟩
      cases hexisting.symm.trans hnone
  · rename_i hnone
    have hbinds : ScopeTree.Binds scope sort name (s.addSymbol fresh).1 s.scopes
        ((s.addSymbol fresh).2.bindName scope sort name (s.addSymbol fresh).1).scopes :=
      bindName_binds (s := (s.addSymbol fresh).2) hscope
    refine ⟨(s.addSymbol fresh).1, ⟨hbinds, Table.get?_insert_self _ _ _, fun {id} hne => (hothers hne).trans ?_, ?_, ?_,
      ?_⟩, fun _ => rfl, fun _ hsome => ?_⟩
    · exact congrArg (Table.get? · id) declarations_bindName
    · exact hasSymbol_bindName.mpr (lt_size_push _)
    · exact (congrArg (·.kind) (symbol_bindName _ _ _ _ _)).trans (congrArg (·.kind) (symbol_addSymbol s fresh))
    · exact fun {id} hid => ⟨hasSymbol_bindName.mpr (addSymbol_keepsKinds fresh hid).1,
        (congrArg (·.kind) (symbol_bindName _ _ _ _ _)).trans (addSymbol_keepsKinds fresh hid).2⟩
    · cases hnone.symm.trans hsome

/-- The scope at a node: that of the innermost node around that has one. -/
def scopeAt (s : Facts) (node : Node) : Option ScopeId :=
  node.outwards.findSome? fun around => s.scopes.ownedBy around.id

end Facts

namespace Node

variable {nodes : List Node} {node scope : Node} {sort : NameSort} {name : String}

/-! ## First declarations -/

theorem declaresIn_iff : declaresIn scope sort name node = true ↔ (∃ kind, node.declares? = some (sort, kind)) ∧
    node.declaredName? = some name ∧ ∃ home, node.standsIn? = some home ∧ home.id = scope.id := by
  unfold declaresIn
  rw [Bool.and_eq_true, Bool.and_eq_true, Option.any_eq_true, Option.any_eq_true, beq_iff_eq, and_assoc]
  refine and_congr ⟨?_, ?_⟩ (and_congr Iff.rfl ?_)
  · rintro ⟨⟨own, kind⟩, hown, hsort⟩
    obtain rfl := of_decide_eq_true hsort
    exact ⟨kind, hown⟩
  · rintro ⟨kind, hown⟩
    exact ⟨_, hown, decide_eq_true rfl⟩
  · exact exists_congr fun home => and_congr Iff.rfl beq_iff_eq

/-- Behind the other nodes the node is the one that declares the name, if none of them does. -/
def adds (nodes : List Node) (scope : Node) (sort : NameSort) (name : String) (node : Node) : Bool :=
  match sort with
  | .type => declaresIn scope .type name node
  | .value => bindsValue (nodes ++ [node]) scope name node

theorem firstType?_append : firstType? (nodes ++ [node]) scope name =
    (firstType? nodes scope name).or (if declaresIn scope .type name node then some node else none) := by
  unfold firstType?
  rw [List.find?_append, List.find?_singleton]

/-- No node that stands behind changes which is the first one. -/
theorem first?_append (hfresh : ∀ other ∈ nodes, other.id ≠ node.id) : first? (nodes ++ [node]) scope sort name =
    (first? nodes scope sort name).or (if adds nodes scope sort name node then some node else none) := by
  cases sort with
  | type => exact firstType?_append
  | value =>
    change firstValue? _ _ _ = (firstValue? _ _ _).or _
    unfold firstValue?
    rw [List.find?_append, List.find?_singleton, ← List.head?_filter, ← List.head?_filter]
    refine congrArg (fun found : List Node => found.head?.or _) (List.filter_congr fun other hother => ?_)
    unfold bindsValue
    rw [firstType?_append]
    cases firstType? nodes scope name with
    | some found => rfl
    | none =>
      rw [Option.none_or]
      split
      · rw [Option.any_some, isSame, beq_eq_false_iff_ne.mpr (hfresh other hother).symm]
        rfl
      · rfl

/-- A declaration that is no class is the one of its name, in its way, in the scope that it stands in. -/
theorem adds_iff {own : NameSort} {kind : SymbolKind} (hown : node.declares? = some (own, kind))
    (hkind : node.kind ≠ .classDecl) : adds nodes scope sort name node = true ↔ own = sort ∧
      node.declaredName? = some name ∧ ∃ home, node.standsIn? = some home ∧ home.id = scope.id := by
  have hiff : declaresIn scope sort name node = true ↔ _ := declaresIn_iff
  have hsort : (∃ kind, node.declares? = some (sort, kind)) ↔ own = sort := by
    rw [hown]
    exact ⟨fun ⟨_, heq⟩ => (Prod.mk.inj (Option.some_inj.mp heq)).1, fun heq => ⟨kind, by rw [heq]⟩⟩
  rw [hsort] at hiff
  cases sort with
  | type => exact hiff
  | value =>
    rw [← hiff, adds, bindsValue, beq_eq_false_iff_ne.mpr hkind, Bool.false_and, Bool.or_false]

theorem adds_type_of_classDecl (hkind : node.kind = .classDecl) : adds nodes scope .type name node = true ↔
    node.declaredName? = some name ∧ ∃ home, node.standsIn? = some home ∧ home.id = scope.id := by
  have hown : node.declares? = some (.type, .classDecl) := by rw [declares?, hkind]
  exact declaresIn_iff.trans ⟨And.right, fun h => ⟨⟨_, hown⟩, h⟩⟩

/-- A class is a value if no type of its name stands before it. -/
theorem adds_value_of_classDecl (hkind : node.kind = .classDecl) (hfresh : ∀ other ∈ nodes, other.id ≠ node.id) :
    adds nodes scope .value name node = true ↔
      firstType? nodes scope name = none ∧ adds nodes scope .type name node = true := by
  have hown : node.declares? = some (.type, .classDecl) := by rw [declares?, hkind]
  have hvalue : declaresIn scope .value name node = false := by
    rw [declaresIn, hown]
    rfl
  change bindsValue _ _ _ _ = true ↔ _
  rw [bindsValue, hvalue, Bool.false_or, beq_iff_eq.mpr hkind, Bool.true_and, firstType?_append]
  cases hfirst : firstType? nodes scope name with
  | some found =>
    rw [Option.some_or, Option.any_some, isSame, beq_iff_eq]
    exact ⟨fun hsame => absurd hsame (hfresh found (List.mem_of_find?_eq_some hfirst)), fun h => by cases h.1⟩
  | none =>
    rw [Option.none_or]
    change _ ↔ _ ∧ declaresIn scope .type name node = true
    split
    · exact ⟨fun _ => ⟨rfl, ‹_›⟩, fun _ => beq_iff_eq.mpr rfl⟩
    · exact ⟨fun h => (by cases h), fun h => absurd h.2 ‹_›⟩

/-- What declares nothing adds nothing, and neither does what has no name. -/
theorem adds_eq_false (hfresh : ∀ other ∈ nodes, other.id ≠ node.id)
    (h : node.declares? = none ∨ node.declaredName? = none) : adds nodes scope sort name node = false := by
  have hnone : ∀ sort, declaresIn scope sort name node = false := fun sort => Bool.eq_false_iff.mpr fun htrue => by
    obtain ⟨⟨kind, hown⟩, hname, -⟩ := declaresIn_iff.mp htrue
    rcases h with h | h
    · cases h.symm.trans hown
    · cases h.symm.trans hname
  cases sort with
  | type => exact hnone .type
  | value =>
    by_cases hkind : node.kind = .classDecl
    · refine Bool.eq_false_iff.mpr fun htrue => ?_
      exact absurd ((adds_value_of_classDecl hkind hfresh).mp htrue).2 (Bool.eq_false_iff.mp (hnone .type))
    · rw [adds, bindsValue, hnone, beq_eq_false_iff_ne.mpr hkind]
      rfl

end Node

end RouteTypes
