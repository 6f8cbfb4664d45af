-- Declaring the names of a tree: the symbols that are made are declared by nodes of the tree, all of them
-- where the same scope begins, scopes bind names to symbols that are there, and nothing else is known yet.
-- So the facts with which checking begins are closed.
import RouteTypes.Proofs.Typing.Noting
import RouteTypes.Typing.Checked

namespace RouteTypes

/-! ## Scopes -/

namespace ScopeTree

variable {tree : ScopeTree} {scope : ScopeId} {sort : NameSort} {name : String} {id : SymbolId}

theorem get?_empty (parent : Option ScopeId) : (Scope.empty parent).get? sort name = none := by
  cases sort <;> exact Table.get?_empty name

theorem getLocal_new : ScopeTree.new.getLocal scope sort name = none := by
  unfold getLocal
  cases hscope : ScopeTree.new.scopes[scope.index]? with
  | none => rfl
  | some found =>
    rw [List.mem_singleton.mp (Array.mem_toList_iff.mpr (Array.mem_of_getElem? hscope))]
    exact get?_empty none

/-- A new scope binds nothing. -/
theorem getLocal_add {parent : ScopeId} {owner : NodeId}
    (h : (tree.add parent owner).2.getLocal scope sort name = some id) :
    tree.getLocal scope sort name = some id := by
  unfold getLocal add at h
  obtain ⟨found, hfound, hget⟩ := Option.bind_eq_some_iff.mp h
  dsimp only at hfound
  rw [Array.getElem?_push] at hfound
  split at hfound
  · cases hfound
    rw [get?_empty] at hget
    cases hget
  · exact Option.bind_eq_some_iff.mpr ⟨found, hfound, hget⟩

theorem get?_bind {found : Scope} {sort' : NameSort} {name' : String} {symbol : SymbolId}
    (h : (found.bind sort' name' symbol).get? sort name = some id) :
    id = symbol ∨ found.get? sort name = some id := by
  unfold Scope.bind Scope.get? at h
  cases sort <;> cases sort' <;> dsimp only at h
  · rw [Table.get?_insert] at h
    split at h
    · exact .inl (Option.some_inj.mp h).symm
    · exact .inr h
  · exact .inr h
  · exact .inr h
  · rw [Table.get?_insert] at h
    split at h
    · exact .inl (Option.some_inj.mp h).symm
    · exact .inr h

theorem lt_size_of_getLocal (h : tree.getLocal scope sort name = some id) : scope.index < tree.scopes.size := by
  obtain ⟨found, hfound, -⟩ := Option.bind_eq_some_iff.mp h
  exact (Array.getElem?_eq_some_iff.mp hfound).1

theorem lt_size_add (parent : ScopeId) (owner : NodeId) :
    (tree.add parent owner).1.index < (tree.add parent owner).2.scopes.size := by
  rw [add, Array.size_push]
  exact Nat.lt_succ_self _

/-- A declaration binds nothing but its name, and that in its scope. -/
theorem getLocal_declare {scope' : ScopeId} {sort' : NameSort} {name' : String} {symbol : SymbolId}
    {after : ScopeTree} (hdeclare : tree.declare scope' sort' name' symbol = .ok after)
    (h : after.getLocal scope sort name = some id) :
    scope = scope' ∧ id = symbol ∨ tree.getLocal scope sort name = some id := by
  unfold declare at hdeclare
  split at hdeclare
  · cases hdeclare
  · cases hdeclare
    obtain ⟨changed, hchanged, hget⟩ := Option.bind_eq_some_iff.mp h
    dsimp only at hchanged
    rw [Array.getElem?_modify] at hchanged
    split at hchanged
    · rename_i hsame
      obtain ⟨found, hfound, rfl⟩ := Option.map_eq_some_iff.mp hchanged
      exact (get?_bind hget).imp (fun hid => ⟨congrArg ScopeId.mk hsame.symm, hid⟩) fun hget =>
        Option.bind_eq_some_iff.mpr ⟨found, hfound, hget⟩
    · exact .inr (Option.bind_eq_some_iff.mpr ⟨changed, hchanged, hget⟩)

/-- A new scope leaves the others as they are. -/
theorem getLocal_add_of_some {parent : ScopeId} {owner : NodeId} (h : tree.getLocal scope sort name = some id) :
    (tree.add parent owner).2.getLocal scope sort name = some id := by
  obtain ⟨found, hfound, hget⟩ := Option.bind_eq_some_iff.mp h
  refine Option.bind_eq_some_iff.mpr ⟨found, ?_, hget⟩
  rw [add]
  dsimp only
  rw [Array.getElem?_push, if_neg (Nat.ne_of_lt (lt_size_of_getLocal h)), hfound]

theorem get?_bind_of_some {found : Scope} {sort' : NameSort} {name' : String} {symbol : SymbolId}
    (h : found.get? sort name = some id) (hnone : found.get? sort' name' = none) :
    (found.bind sort' name' symbol).get? sort name = some id := by
  have hne : sort = sort' → name' ≠ name := by
    rintro rfl rfl
    rw [h] at hnone
    cases hnone
  unfold Scope.bind Scope.get? at *
  cases sort <;> cases sort' <;> dsimp only at h hne ⊢
  · rw [Table.get?_insert_of_ne (hne rfl), h]
  · exact h
  · exact h
  · rw [Table.get?_insert_of_ne (hne rfl), h]

/-- What a name stands for in a scope it goes on to stand for. -/
theorem getLocal_declare_of_some {scope' : ScopeId} {sort' : NameSort} {name' : String} {symbol : SymbolId}
    {after : ScopeTree} (hdeclare : tree.declare scope' sort' name' symbol = .ok after)
    (h : tree.getLocal scope sort name = some id) : after.getLocal scope sort name = some id := by
  unfold declare at hdeclare
  split at hdeclare
  · cases hdeclare
  · rename_i hnone
    cases hdeclare
    obtain ⟨found, hfound, hget⟩ := Option.bind_eq_some_iff.mp h
    refine Option.bind_eq_some_iff.mpr ?_
    dsimp only
    rw [Array.getElem?_modify, hfound]
    split
    · rename_i hsame
      refine ⟨_, rfl, get?_bind_of_some hget ?_⟩
      rw [getLocal, hsame, hfound] at hnone
      exact hnone
    · exact ⟨found, rfl, hget⟩

theorem size_declare {symbol : SymbolId} {after : ScopeTree}
    (hdeclare : tree.declare scope sort name symbol = .ok after) :
    after.scopes.size = tree.scopes.size := by
  unfold declare at hdeclare
  split at hdeclare
  · cases hdeclare
  · cases hdeclare
    exact Array.size_modify

end ScopeTree

/-! ## Homes -/

/-- The node has names of its own. -/
def NodeKind.opensScope : NodeKind → Bool
  | .functionDecl | .functionExpr | .classDecl | .interfaceDecl | .typeAliasDecl | .arrowFunction | .methodDecl
  | .constructorDecl | .methodSignature | .functionType | .block => true
  | _ => false

namespace Node

/-- The innermost node that has names of its own, from the node on outwards. -/
def scopeOwner? (node : Node) : Option Node := node.outwards.find? (·.kind.opensScope)

/-- The node in whose scope a declaration stands. The name of a function expression stands in its own. -/
def home? (node : Node) : Option Node :=
  if node.kind = .functionExpr then some node else node.parent.bind scopeOwner?

theorem scopeOwner?_of_opens {node : Node} (h : node.kind.opensScope = true) : node.scopeOwner? = some node :=
  List.find?_cons_of_pos h

theorem scopeOwner?_of_not_opens {node : Node} (h : node.kind.opensScope = false) :
    node.scopeOwner? = node.parent.bind scopeOwner? := by
  obtain ⟨source, kind, span, parts, parent⟩ := node
  unfold scopeOwner? outwards
  rw [List.find?_cons, h]
  cases parent <;> rfl

end Node

namespace Facts

variable {known : Node → Prop} {owner : ScopeId → Option Node} {s s' s'' : Facts}

/-! ## What declaring keeps -/

/-- Nothing is there but symbols, with a declaration each, and names for them. All declarations of a symbol
stand in one scope; a scope belongs to its owner. -/
structure Named (known : Node → Prop) (owner : ScopeId → Option Node) (s : Facts) : Prop where
  rest : s = { Facts.initial with symbols := s.symbols, scopes := s.scopes, declarations := s.declarations }
  symbol : ∀ id, s.HasSymbol id → (s.symbol id).Closed known s
  origin : ∀ id, s.HasSymbol id → (s.symbol id).origin = none
  together : ∀ id, s.HasSymbol id → ∃ home, ∀ node ∈ (s.symbol id).declarations, node.home? = home
  scopes : ∀ {scope sort name id}, s.scopes.getLocal scope sort name = some id →
    s.HasSymbol id ∧ ∀ node ∈ (s.symbol id).declarations, node.home? = owner scope
  declarations : ∀ {id symbol}, s.declarations.get? id = some symbol →
    s.HasSymbol symbol ∧ ∃ node ∈ (s.symbol symbol).declarations, node.id = id

/-- What there is stays, though a node may come to declare another symbol. -/
structure Widens (s s' : Facts) : Prop where
  symbols : s.symbols.size ≤ s'.symbols.size
  scopes : s.scopes.scopes.size ≤ s'.scopes.scopes.size
  declared : ∀ {id}, (s.declarations.get? id).isSome = true → (s'.declarations.get? id).isSome = true
  symbol : ∀ {id}, s.HasSymbol id → ∃ more,
    s'.symbol id = { s.symbol id with declarations := (s.symbol id).declarations ++ more }
  bindings : ∀ {scope sort name id}, s.scopes.getLocal scope sort name = some id →
    s'.scopes.getLocal scope sort name = some id

theorem Widens.refl (s : Facts) : Widens s s :=
  ⟨Nat.le_refl _, Nat.le_refl _, id, fun _ => ⟨[], by rw [List.append_nil]⟩, id⟩

theorem Widens.trans (h : Widens s s') (h' : Widens s' s'') : Widens s s'' where
  symbols := Nat.le_trans h.symbols h'.symbols
  scopes := Nat.le_trans h.scopes h'.scopes
  declared hsome := h'.declared (h.declared hsome)
  symbol hid := by
    obtain ⟨more, hsymbol⟩ := h.symbol hid
    obtain ⟨others, hsymbol'⟩ := h'.symbol (Nat.lt_of_lt_of_le hid h.symbols)
    exact ⟨more ++ others, by rw [hsymbol', hsymbol, List.append_assoc]⟩
  bindings hget := h'.bindings (h.bindings hget)

/-- Names are declared: the facts widen, and new scopes have owners too. -/
structure Declaring (known : Node → Prop) (owner owner' : ScopeId → Option Node) (s s' : Facts) : Prop where
  named : Named known owner' s'
  widens : Widens s s'
  owners : ∀ scope : ScopeId, scope.index < s.scopes.scopes.size → owner' scope = owner scope

namespace Declaring

variable {owner' owner'' : ScopeId → Option Node}

theorem refl (h : Named known owner s) : Declaring known owner owner s s := ⟨h, .refl s, fun _ _ => rfl⟩

theorem trans (h : Declaring known owner owner' s s') (h' : Declaring known owner' owner'' s' s'') :
    Declaring known owner owner'' s s'' :=
  ⟨h'.named, h.widens.trans h'.widens, fun scope hscope =>
    (h'.owners scope (Nat.lt_of_lt_of_le hscope h.widens.scopes)).trans (h.owners scope hscope)⟩

end Declaring

/-! ## Steps -/

/-- A declaration without a symbol yet gets a new one. -/
theorem addSymbol_declaring (h : Named known owner s) {node : Node} (hnode : Declares known node) {kind : SymbolKind}
    (hfits : kind.Fits node) (name : String) (isOptional : Bool) :
    Declaring known owner owner s (s.addSymbol ⟨name, kind, [node], isOptional, none⟩).2 ∧
      (s.addSymbol ⟨name, kind, [node], isOptional, none⟩).2.HasSymbol
        (s.addSymbol ⟨name, kind, [node], isOptional, none⟩).1 ∧
      ((s.addSymbol ⟨name, kind, [node], isOptional, none⟩).2.symbol
        (s.addSymbol ⟨name, kind, [node], isOptional, none⟩).1).declarations = [node] := by
  let fresh : Symbol := ⟨name, kind, [node], isOptional, none⟩
  let s' : Facts := (s.addSymbol fresh).2
  have hold : ∀ {id}, s.HasSymbol id → s'.HasSymbol id ∧ s'.symbol id = s.symbol id := fun hid =>
    ⟨Nat.lt_trans hid (lt_size_push _), getD_push_of_lt _ _ hid⟩
  have hall : ∀ (holds : Symbol → Prop), (∀ id, s.HasSymbol id → holds (s.symbol id)) → holds fresh →
      ∀ id, s'.HasSymbol id → holds (s'.symbol id) := fun _ hevery hfresh id hid =>
    getD_push_all _ _ (fun i hi => hevery ⟨i⟩ hi) hfresh id.index hid
  refine ⟨⟨⟨congrArg (fun facts : Facts => { facts with symbols := s.symbols.push fresh }) h.rest, ?_,
    hall (·.origin = none) h.origin rfl, ?_, ?_, ?_⟩, { Widens.refl s with
      symbols := Nat.le_of_lt (lt_size_push _)
      symbol := fun hid => ⟨[], by rw [(hold hid).2, List.append_nil]⟩ }, fun _ _ => rfl⟩,
    lt_size_push _, congrArg (·.declarations) (getD_push_size s.symbols default)⟩
  · refine hall (·.Closed known s') (fun id hid => ?_) (closed_fresh hnode hfits name isOptional)
    exact (h.symbol id hid).anywhere (h.origin id hid)
  · exact hall (fun symbol => ∃ home, ∀ node ∈ symbol.declarations, node.home? = home) h.together
      ⟨node.home?, fun declaration hin => congrArg Node.home? (List.mem_singleton.mp hin)⟩
  · intro scope sort own id hget
    obtain ⟨hid, hhome⟩ := h.scopes hget
    exact ⟨(hold hid).1, by rw [(hold hid).2]; exact hhome⟩
  · intro id symbol hget
    obtain ⟨hid, hnode⟩ := h.declarations hget
    exact ⟨(hold hid).1, by rw [(hold hid).2]; exact hnode⟩

/-- A symbol gets one more declaration in the scope that binds it. -/
theorem addDeclaration_declaring (h : Named known owner s) {symbol : SymbolId} {node : Node}
    (hnode : Declares known node) (hfits : (s.symbol symbol).kind.Fits node) (hsymbol : s.HasSymbol symbol)
    (hhome : ∀ other ∈ (s.symbol symbol).declarations, other.home? = node.home?) :
    Declaring known owner owner s (s.addDeclaration symbol [node]) ∧
      (s.addDeclaration symbol [node]).HasSymbol symbol ∧
      node ∈ ((s.addDeclaration symbol [node]).symbol symbol).declarations := by
  have hmore : ∀ {id}, s.HasSymbol id → ∃ more, (s.addDeclaration symbol [node]).symbol id =
      { s.symbol id with declarations := (s.symbol id).declarations ++ more } := by
    intro id hid
    rw [symbol_addDeclaration hid]
    split
    · exact ⟨[node], rfl⟩
    · exact ⟨[], by rw [List.append_nil]⟩
  -- The scope is the one in which the other declarations stand, and there is another one.
  have hhomes : ∀ {id home}, s.HasSymbol id → (∀ other ∈ (s.symbol id).declarations, other.home? = home) →
      ∀ other ∈ ((s.addDeclaration symbol [node]).symbol id).declarations, other.home? = home := by
    intro id home hid hall other hother
    rw [symbol_addDeclaration hid] at hother
    split at hother
    · subst ‹symbol = id›
      rcases List.mem_append.mp hother with hother | hother
      · exact hall other hother
      · obtain rfl := List.mem_singleton.mp hother
        obtain ⟨first, hfirst⟩ := List.exists_mem_of_ne_nil _ (h.symbol symbol hid).nonempty
        rw [← hhome first hfirst]
        exact hall first hfirst
    · exact hall other hother
  refine ⟨⟨⟨congrArg (fun facts : Facts => { facts with symbols := (s.addDeclaration symbol [node]).symbols }) h.rest,
    fun id hid => ?_, fun id hid => ?_, fun id hid => ?_, fun hget => ?_, fun hget => ?_⟩,
    { Widens.refl s with symbols := Nat.le_of_eq Array.size_modify.symm, symbol := hmore }, fun _ _ => rfl⟩,
    hasSymbol_addDeclaration.mpr hsymbol, ?_⟩
  · have hid := hasSymbol_addDeclaration.mp hid
    have hold : (s.symbol id).Closed known (s.addDeclaration symbol [node]) :=
      (h.symbol id hid).anywhere (h.origin id hid)
    rw [symbol_addDeclaration hid]
    split
    · subst ‹symbol = id›
      exact hold.declaredAgain (List.forall_mem_singleton.mpr hnode) (List.forall_mem_singleton.mpr hfits)
    · exact hold
  · have hid := hasSymbol_addDeclaration.mp hid
    obtain ⟨more, hsame⟩ := hmore hid
    rw [hsame]
    exact h.origin id hid
  · have hid := hasSymbol_addDeclaration.mp hid
    obtain ⟨home, hall⟩ := h.together id hid
    exact ⟨home, hhomes hid hall⟩
  · obtain ⟨hid, hall⟩ := h.scopes hget
    exact ⟨hasSymbol_addDeclaration.mpr hid, hhomes hid hall⟩
  · obtain ⟨hid, declaration, hin, hsame⟩ := h.declarations hget
    obtain ⟨more, hchanged⟩ := hmore hid
    refine ⟨hasSymbol_addDeclaration.mpr hid, declaration, ?_, hsame⟩
    rw [hchanged]
    exact List.mem_append_left _ hin
  · rw [symbol_addDeclaration hsymbol, if_pos rfl]
    exact List.mem_append_right _ (List.mem_singleton_self node)

theorem bindName_declaring (h : Named known owner s) {scope : ScopeId} (sort : NameSort) (name : String)
    {symbol : SymbolId} (hsymbol : s.HasSymbol symbol)
    (hhome : ∀ node ∈ (s.symbol symbol).declarations, node.home? = owner scope) :
    Declaring known owner owner s (s.bindName scope sort name symbol) := by
  unfold bindName
  split
  · rename_i scopes hdeclare
    refine ⟨⟨congrArg (fun facts : Facts => { facts with scopes }) h.rest, fun id hid => ?_, h.origin, h.together,
      fun {other sort' name' id} hget => ?_, h.declarations⟩,
      { Widens.refl s with
        scopes := Nat.le_of_eq (ScopeTree.size_declare hdeclare).symm
        bindings := ScopeTree.getLocal_declare_of_some hdeclare }, fun _ _ => rfl⟩
    · exact (h.symbol id hid).anywhere (h.origin id hid)
    · rcases ScopeTree.getLocal_declare hdeclare hget with ⟨rfl, rfl⟩ | hget
      · exact ⟨hsymbol, hhome⟩
      · exact h.scopes hget
  · exact .refl h

theorem setDeclared_declaring (h : Named known owner s) {node : Node} {symbol : SymbolId}
    (hsymbol : s.HasSymbol symbol) (hnode : node ∈ (s.symbol symbol).declarations) :
    Declaring known owner owner s (s.setDeclared node symbol) := by
  refine ⟨⟨congrArg (fun facts : Facts => { facts with declarations := s.declarations.insert node.id symbol }) h.rest,
    fun id hid => ?_, h.origin, h.together, h.scopes, fun hget => ?_⟩,
    { Widens.refl s with declared := fun {id} hsome => ?_ }, fun _ _ => rfl⟩
  · exact (h.symbol id hid).anywhere (h.origin id hid)
  · rcases Table.of_get?_insert hget with ⟨rfl, rfl⟩ | hget
    · exact ⟨hsymbol, node, hnode, rfl⟩
    · exact h.declarations hget
  · refine Eq.trans (congrArg Option.isSome (Table.get?_insert node.id id symbol s.declarations)) ?_
    split
    · rfl
    · exact hsome

/-- A new scope belongs to its node. -/
theorem openScope_declaring (h : Named known owner s) (node : Node) (scope : ScopeId) : ∃ owner',
    Declaring known owner owner' s (s.openScope node scope).2 ∧
      owner' (s.openScope node scope).1 = node.scopeOwner? ∧
      (s.openScope node scope).1.index < (s.openScope node scope).2.scopes.scopes.size := by
  let owner' : ScopeId → Option Node := fun other =>
    if other.index < s.scopes.scopes.size then owner other else node.scopeOwner?
  have hscopes : ∀ {other sort name id}, (s.openScope node scope).2.scopes.getLocal other sort name = some id →
      s.HasSymbol id ∧ ∀ node ∈ (s.symbol id).declarations, node.home? = owner' other := by
    intro other sort name id hget
    have hget : s.scopes.getLocal other sort name = some id := ScopeTree.getLocal_add hget
    rw [show owner' other = owner other from if_pos (ScopeTree.lt_size_of_getLocal hget)]
    exact h.scopes hget
  refine ⟨owner', ⟨⟨congrArg (fun facts : Facts => { facts with scopes := (s.scopes.add scope node.id).2 }) h.rest,
    fun id hid => ?_, h.origin, h.together, hscopes, h.declarations⟩,
    { Widens.refl s with
      scopes := Nat.le_of_lt (ScopeTree.lt_size_add scope node.id)
      bindings := ScopeTree.getLocal_add_of_some }, fun other hother => if_pos hother⟩,
    if_neg (Nat.lt_irrefl _), ScopeTree.lt_size_add scope node.id⟩
  exact (h.symbol id hid).anywhere (h.origin id hid)

/-! ## Declarations -/

theorem symbol_bindName (scope : ScopeId) (sort : NameSort) (name : String) (symbol id : SymbolId) :
    (s.bindName scope sort name symbol).symbol id = s.symbol id := by
  unfold bindName
  split <;> rfl

/-- The symbol of a declaration and all its declarations stand in the scope that binds it. -/
theorem declare_declaring (h : Named known owner s) {node : Node} (hnode : Declares known node) {scope : ScopeId}
    (hhome : node.home? = owner scope) (sort : NameSort) {kind : SymbolKind} (hfits : kind.Fits node) :
    Declaring known owner owner s (s.declare node scope sort kind).2 ∧
      ∀ symbol ∈ (s.declare node scope sort kind).1, (s.declare node scope sort kind).2.HasSymbol symbol ∧
        ∀ other ∈ ((s.declare node scope sort kind).2.symbol symbol).declarations, other.home? = owner scope := by
  unfold declare
  split
  · exact ⟨.refl h, fun _ hfound => by cases hfound⟩
  · rename_i name _
    obtain ⟨hadded, hid, hown⟩ := addSymbol_declaring h hnode hfits name node.isOptional
    dsimp only
    generalize s.addSymbol ⟨name, kind, [node], node.isOptional, none⟩ = added at hadded hid hown
    obtain ⟨symbol, s₁⟩ := added
    have hmem : node ∈ (s₁.symbol symbol).declarations := by
      rw [hown]
      exact List.mem_singleton_self node
    split
    · rename_i existing hexisting
      obtain ⟨hin, hscope⟩ := h.scopes hexisting
      split
      · rename_i hkind
        obtain ⟨hagain, hin, hmem⟩ := addDeclaration_declaring h hnode (hkind ▸ hfits) hin
          fun other hother => (hscope other hother).trans hhome.symm
        exact ⟨hagain.trans (setDeclared_declaring hagain.named hin hmem), fun _ hfound => by cases hfound⟩
      · exact ⟨hadded.trans (setDeclared_declaring hadded.named hid hmem), fun _ hfound => by cases hfound⟩
    · have hhomes : ∀ other ∈ (s₁.symbol symbol).declarations, other.home? = owner scope := fun other hother => by
        rw [hown] at hother
        exact List.mem_singleton.mp hother ▸ hhome
      have hbound := bindName_declaring hadded.named sort name hid hhomes
      have hsame := symbol_bindName (s := s₁) scope sort name symbol symbol
      have hin : (s₁.bindName scope sort name symbol).HasSymbol symbol := Nat.lt_of_lt_of_le hid hbound.widens.symbols
      refine ⟨hadded.trans (hbound.trans (setDeclared_declaring hbound.named hin (by rw [hsame]; exact hmem))),
        fun found hfound => ?_⟩
      cases hfound
      exact ⟨hin, fun other hother => hhomes other (hsame ▸ hother)⟩

/-- A parameter that has a name for the body of its function. -/
structure NamesParam (node : Node) : Prop where
  kind : node.kind = .param
  alone : (node.parentOf? .indexSignature).isSome = false
  other : isThisParam node = false
  name : node.declaredName?.isSome = true

/-- What a declaration with a name declares is noted. -/
theorem declared_declare (s : Facts) {node : Node} (hname : node.declaredName?.isSome = true) (scope : ScopeId)
    (sort : NameSort) (kind : SymbolKind) :
    ((s.declare node scope sort kind).2.declarations.get? node.id).isSome = true := by
  obtain ⟨name, hname⟩ := Option.isSome_iff_exists.mp hname
  unfold declare
  rw [hname]
  dsimp only
  split
  · split <;> exact congrArg Option.isSome (Table.get?_insert_self _ _ _)
  · exact congrArg Option.isSome (Table.get?_insert_self _ _ _)

theorem declared_enter (s : Facts) {node : Node} (h : NamesParam node) (scope : ScopeId) :
    ((s.enter node scope).2.declarations.get? node.id).isSome = true := by
  unfold enter
  rw [h.kind]
  dsimp only
  rw [h.alone, h.other]
  exact declared_declare s h.name scope .value .param

/-! ## The walk -/

/-- A node is entered: what is below it stands in the scope that it leads to. -/
def Enters (known : Node → Prop) (owner : ScopeId → Option Node) (s : Facts) (node : Node)
    (result : ScopeId × Facts) : Prop :=
  ∃ owner', Declaring known owner owner' s result.2 ∧ owner' result.1 = node.scopeOwner? ∧
    result.1.index < result.2.scopes.scopes.size

theorem enter_enters (h : Named known owner s) {node : Node} (hnode : known node) {scope : ScopeId}
    (hscope : scope.index < s.scopes.scopes.size) (howner : node.parent.bind Node.scopeOwner? = owner scope) :
    Enters known owner s node (s.enter node scope) := by
  have hstays : ∀ {s'}, node.kind.opensScope = false → Declaring known owner owner s s' →
      Enters known owner s node (scope, s') := fun hkind hdeclaring =>
    ⟨owner, hdeclaring, howner.symm.trans (Node.scopeOwner?_of_not_opens hkind).symm,
      Nat.lt_of_lt_of_le hscope hdeclaring.widens.scopes⟩
  have hopens : ∀ {s'}, Declaring known owner owner s s' → Enters known owner s node (s'.openScope node scope) :=
    fun hdeclaring => by
      obtain ⟨owner', hopened, hown, hin⟩ := openScope_declaring hdeclaring.named node scope
      exact ⟨owner', hdeclaring.trans hopened, hown, hin⟩
  have hhome : node.kind ≠ .functionExpr → node.home? = owner scope := fun hkind => (if_neg hkind).trans howner
  have hother : (node.isVariable || node.kind == .methodDecl) = false → ∀ {kind : SymbolKind},
      (∀ isConst, kind ≠ .variable isConst) → kind.Fits node := fun hnone _ hkind => by
    obtain ⟨hnone, hmethod⟩ := Bool.or_eq_false_iff.mp hnone
    exact .other hkind hnone fun h => absurd h (beq_eq_false_iff_ne.mp hmethod)
  have hvariable : node.isVariable = true → SymbolKind.Fits (.variable (isConstVariable node)) node := fun hsome =>
    { isVariable := fun isConst => ⟨fun heq => ⟨hsome, SymbolKind.variable.inj heq⟩, fun heq => by rw [heq.2]⟩
      method := fun hmethod => by rw [Node.isVariable, hmethod] at hsome; cases hsome }
  unfold enter
  split
  · rename_i hkind
    exact hstays (by rw [hkind]; rfl) (declare_declaring h (.ofKind hnode (by rw [hkind]; rfl))
      (hhome (by rw [hkind]; decide)) .value (hvariable (by rw [Node.isVariable, hkind]; rfl))).1
  · rename_i hkind
    exact hstays (by rw [hkind]; rfl) (declare_declaring h (.ofKind hnode (by rw [hkind]; rfl))
      (hhome (by rw [hkind]; decide)) .value (hvariable (by rw [Node.isVariable, hkind]; rfl))).1
  · rename_i hkind
    exact hopens (declare_declaring h (.ofKind hnode (by rw [hkind]; rfl)) (hhome (by rw [hkind]; decide)) .value
      (hother (by rw [Node.isVariable, hkind]; rfl) fun _ => SymbolKind.noConfusion)).1
  · rename_i hkind
    obtain ⟨owner', hopened, hown, hin⟩ := openScope_declaring h node scope
    have hself : node.home? = owner' (s.openScope node scope).1 := by
      rw [hown, Node.scopeOwner?_of_opens (by rw [hkind]; rfl)]
      exact if_pos hkind
    have hdeclared := declare_declaring hopened.named (.ofKind hnode (by rw [hkind]; rfl)) hself .value
      (hother (by rw [Node.isVariable, hkind]; rfl) fun isConst => (SymbolKind.noConfusion : SymbolKind.function ≠ _))
    exact ⟨owner', hopened.trans hdeclared.1, hown, Nat.lt_of_lt_of_le hin hdeclared.1.widens.scopes⟩
  · rename_i hkind
    have hdeclared := declare_declaring h (.ofKind hnode (by rw [hkind]; rfl)) (hhome (by rw [hkind]; decide)) .type
      (hother (by rw [Node.isVariable, hkind]; rfl) fun isConst => (SymbolKind.noConfusion : SymbolKind.classDecl ≠ _))
    generalize s.declare node scope .type .classDecl = result at hdeclared
    obtain ⟨found, s'⟩ := result
    cases found with
    | none => exact hopens hdeclared.1
    | some symbol =>
      obtain ⟨hin, hhomes⟩ := hdeclared.2 symbol rfl
      exact hopens (hdeclared.1.trans (bindName_declaring hdeclared.1.named .value _ hin hhomes))
  · rename_i hkind
    exact hopens (declare_declaring h (.ofKind hnode (by rw [hkind]; rfl)) (hhome (by rw [hkind]; decide)) .type
      (hother (by rw [Node.isVariable, hkind]; rfl) fun _ => SymbolKind.noConfusion)).1
  · rename_i hkind
    exact hopens (declare_declaring h (.ofKind hnode (by rw [hkind]; rfl)) (hhome (by rw [hkind]; decide)) .type
      (hother (by rw [Node.isVariable, hkind]; rfl) fun _ => SymbolKind.noConfusion)).1
  · rename_i hkind
    exact hstays (by rw [hkind]; rfl) (declare_declaring h (.ofKind hnode (by rw [hkind]; rfl))
      (hhome (by rw [hkind]; decide)) .type
      (hother (by rw [Node.isVariable, hkind]; rfl) fun _ => SymbolKind.noConfusion)).1
  · rename_i hkind
    have hopensNone : node.kind.opensScope = false := by rw [hkind]; rfl
    split
    · exact hstays hopensNone (.refl h)
    · rename_i hnot
      have hdeclares : Declares known node :=
        ⟨hnode, by rw [hkind]; rfl, fun _ hthis => absurd hthis fun h => hnot (by rw [h, Bool.or_true])⟩
      exact hstays hopensNone (declare_declaring h hdeclares (hhome (by rw [hkind]; decide)) .value
        (hother (by rw [Node.isVariable, hkind]; rfl) fun _ => SymbolKind.noConfusion)).1
  · exact hopens (.refl h)
  · exact hopens (.refl h)
  · exact hopens (.refl h)
  · exact hopens (.refl h)
  · exact hopens (.refl h)
  · exact hopens (.refl h)
  · refine hstays ?_ (.refl h)
    cases hkind : node.kind <;> first | rfl | exact absurd hkind ‹_›

/-- Everything in a part of a tree is declared: the parameters among it that have names declare symbols. -/
def Declares.All (known : Node → Prop) (owner : ScopeId → Option Node) (s s' : Facts) (nodes : List Node) : Prop :=
  ∃ owner', Declaring known owner owner' s s' ∧
    ∀ node ∈ nodes, NamesParam node → (s'.declarations.get? node.id).isSome = true

mutual

theorem bindPart_declares (hnodes : Node.Closed known) {source : Source} : ∀ {owner : ScopeId → Option Node}
    {s : Facts} {parent : Option Node} {scope : ScopeId} (part : Part), Named known owner s →
      (∀ span kind parts, part = .node span kind parts → known ⟨source, kind, span, parts, parent⟩) →
        scope.index < s.scopes.scopes.size → parent.bind Node.scopeOwner? = owner scope →
          Declares.All known owner s (bindPart source parent scope part s) (Node.nodesIn source parent part)
  | owner, s, _, _, .leaf _ _, h, _, _, _ => ⟨owner, .refl h, fun _ hnode => by cases hnode⟩
  | owner, s, parent, scope, .node span kind parts, h, hpart, hscope, howner => by
    have hhere := hpart span kind parts rfl
    obtain ⟨owner₁, hentered, hown, hin⟩ := enter_enters h hhere hscope howner
    obtain ⟨owner₂, hbelow, hparams⟩ :=
      bindParts_declares hnodes parts hentered.named (fun _ hmem => hmem) rfl hhere hin hown.symm
    refine ⟨owner₂, hentered.trans hbelow, fun node hnode hnames => ?_⟩
    rcases List.mem_cons.mp hnode with rfl | hnode
    · exact hbelow.widens.declared (declared_enter s hnames scope)
    · exact hparams node hnode hnames

theorem bindParts_declares (hnodes : Node.Closed known) {source : Source} {outer : Node} :
    ∀ {owner : ScopeId → Option Node} {s : Facts} {scope : ScopeId} (parts : List Part), Named known owner s →
      (∀ part ∈ parts, part ∈ outer.parts) → outer.source = source → known outer →
        scope.index < s.scopes.scopes.size → outer.scopeOwner? = owner scope →
          Declares.All known owner s (bindParts source (some outer) scope parts s)
            (Node.nodesInAll source (some outer) parts)
  | owner, s, _, [], h, _, _, _, _, _ => ⟨owner, .refl h, fun _ hnode => by cases hnode⟩
  | owner, s, scope, part :: rest, h, hparts, hsource, houter, hscope, howner => by
    have hpart : ∀ span kind inner, part = .node span kind inner → known ⟨source, kind, span, inner, some outer⟩ :=
      fun span kind inner hpart => hnodes.child houter (Node.mem_children.mpr
        ⟨span, kind, inner, hpart ▸ hparts part List.mem_cons_self, by rw [hsource]⟩)
    obtain ⟨owner₁, hfirst, hparams⟩ := bindPart_declares hnodes part h hpart hscope howner
    obtain ⟨owner₂, hrest, hparams'⟩ := bindParts_declares hnodes rest hfirst.named
      (fun part hin => hparts part (List.mem_cons_of_mem _ hin)) hsource houter
      (Nat.lt_of_lt_of_le hscope hfirst.widens.scopes) (howner.trans (hfirst.owners scope hscope).symm)
    refine ⟨owner₂, hfirst.trans hrest, fun node hnode hnames => ?_⟩
    rcases List.mem_append.mp hnode with hnode | hnode
    · exact hrest.widens.declared (hparams node hnode hnames)
    · exact hparams' node hnode hnames

end

/-! ## The beginning -/

theorem named_initial (known : Node → Prop) (owner : ScopeId → Option Node) : Named known owner Facts.initial where
  rest := rfl
  symbol _ hid := absurd hid (Nat.not_lt_zero _)
  origin _ hid := absurd hid (Nat.not_lt_zero _)
  together _ hid := absurd hid (Nat.not_lt_zero _)
  scopes hget := by
    have hnone := ScopeTree.getLocal_new.symm.trans hget
    cases hnone
  declarations hget := by
    have hnone := (Table.get?_empty _).symm.trans hget
    cases hnone

/-- The nodes below a root. -/
def below (root : Node) : List Node := Node.nodesInAll root.source (some root) root.parts

theorem descendants_eq (root : Node) : root.descendants = root :: below root := by
  cases root
  rfl

theorem bindTree_prelude {root : Node} (h : root.source = .prelude) : s.bindTree root =
    bindParts root.source (some root) ScopeTree.global root.parts
      { s with scopes := s.scopes.setOwner root.id ScopeTree.global } := by
  unfold bindTree
  rw [h]

theorem bindTree_program {root : Node} (h : root.source = .program) : s.bindTree root =
    bindParts root.source (some root) (s.openScope root ScopeTree.global).1 root.parts
      (s.openScope root ScopeTree.global).2 := by
  unfold bindTree
  rw [h]

theorem bindPrelude_declares (hnodes : Node.Closed known) {root : Node} (hroot : known root)
    (hsource : root.source = .prelude) : ∃ owner owner',
      Declaring known owner owner' Facts.initial (Facts.initial.bindTree root) := by
  let owner : ScopeId → Option Node := fun _ => root.scopeOwner?
  let start : Facts := { Facts.initial with scopes := ScopeTree.new.setOwner root.id ScopeTree.global }
  have hstart : Named known owner start :=
    { named_initial known owner with rest := rfl, symbol := fun _ hid => absurd hid (Nat.not_lt_zero _) }
  obtain ⟨owner', hbelow, -⟩ := bindParts_declares hnodes root.parts hstart (fun _ hin => hin) rfl hroot
    (show ScopeTree.global.index < start.scopes.scopes.size from Nat.zero_lt_one) rfl
  refine ⟨owner, owner', ?_⟩
  rw [bindTree_prelude hsource]
  exact ⟨hbelow.named, { hbelow.widens with }, hbelow.owners⟩

theorem bindProgram_declares (hnodes : Node.Closed known) (h : Named known owner s) {root : Node} (hroot : known root)
    (hsource : root.source = .program) :
    Declares.All known owner s (s.bindTree root) (below root) := by
  obtain ⟨owner₁, hopened, hown, hin⟩ := openScope_declaring h root ScopeTree.global
  obtain ⟨owner₂, hbelow, hparams⟩ := bindParts_declares hnodes root.parts hopened.named (fun _ hin => hin) rfl hroot
    hin hown.symm
  rw [bindTree_program hsource]
  exact ⟨owner₂, hopened.trans hbelow, hparams⟩

/-- Once every name is declared and the symbols that the language needs are found, the facts are closed. -/
theorem Named.closed (h : Named known owner s) {array string promise : Option SymbolId}
    (harray : ∀ id ∈ array, s.HasSymbol id) (hstring : ∀ id ∈ string, s.HasSymbol id)
    (hpromise : ∀ id ∈ promise, s.HasSymbol id) :
    Closed known { s with arraySymbol := array, stringSymbol := string, promiseSymbol := promise } := by
  obtain ⟨symbols, scopes, declarations, rfl⟩ : ∃ symbols scopes declarations,
      s = { Facts.initial with symbols, scopes, declarations } := ⟨_, _, _, h.rest⟩
  have hnone : ∀ {κ ν : Type} [Keyed κ] {key : κ} {value : ν}, (Table.empty : Table κ ν).get? key ≠ some value :=
    fun hget => by rw [Table.get?_empty] at hget; cases hget
  exact
    { symbol := fun id hid => (h.symbol id hid).anywhere (h.origin id hid)
      older := fun id hid _ _ horigin => by cases (h.origin id hid).symm.trans horigin
      typeData := fun id hid => by
        have hprimitive : ∀ data ∈ TypeData.primitives, data.Closed { Facts.initial with
            symbols, scopes, declarations, arraySymbol := array, stringSymbol := string, promiseSymbol := promise } := by
          simp [TypeData.primitives, TypeData.Closed]
        have hget : Facts.initial.types[id.index]? = some (Facts.initial.typeData id) := by
          rw [Facts.typeData, Array.getD_eq_getD_getElem?, Array.getElem?_eq_getElem hid]
          rfl
        exact hprimitive _ (Array.mem_toList_iff.mpr (Array.mem_of_getElem? hget))
      signature := fun id hid => absurd hid (Nat.not_lt_zero _)
      substitution := fun id hid => absurd hid (Nat.not_lt_zero _)
      primitives := Nat.le_of_eq rfl
      scopes := fun hget => (h.scopes hget).1
      declarations := h.declarations
      originals := fun hget => h.origin _ (h.declarations hget).1
      declaredSignatures := fun hget => absurd hget hnone
      written := fun hget => absurd hget hnone
      literals := .empty
      unions := .empty
      paramTypes := .empty
      substitutionIds := .empty
      references := .empty
      aliasInstances := .empty
      substitutedTypes := .empty
      substitutedSymbols := fun hget => absurd hget hnone
      substitutedSignatures := .empty
      symbolTypes := .empty
      declaredTypes := fun hget => absurd hget hnone
      expressionTypes := .empty
      writtenTypes := .empty
      resolutions := .empty
      contextual := .empty
      boundMembers := .empty
      arraySymbol := harray
      stringSymbol := hstring
      promiseSymbol := hpromise
      problems := fun _ hproblem => absurd hproblem List.not_mem_nil
      normal := Arena.normal_initial }

/-- What is known when checking begins: what the names of both texts stand for, and nothing about values. -/
structure Begins (known : Node → Prop) (root : Node) (s : Facts) : Prop where
  closed : s.Closed known
  expressionTypes : s.expressionTypes = .empty
  writtenTypes : s.writtenTypes = .empty
  resolutions : s.resolutions = .empty
  symbolTypes : s.symbolTypes = .empty
  boundMembers : s.boundMembers = .empty
  declaredSignatures : s.declaredSignatures = .empty
  declaredTypes : s.declaredTypes = .empty
  problems : s.problems = []
  origin : ∀ id, s.HasSymbol id → (s.symbol id).origin = none
  together : ∀ id, s.HasSymbol id → ∃ home, ∀ node ∈ (s.symbol id).declarations, node.home? = home
  params : ∀ node ∈ below root, NamesParam node → (s.declared? node).isSome = true

theorem bound_begins (hnodes : Node.Closed known) {prelude root : Node} (hprelude : known prelude) (hroot : known root)
    (hprelude' : prelude.source = .prelude) (hroot' : root.source = .program) :
    Begins known root (Facts.bound prelude root) := by
  obtain ⟨owner, owner₁, hfirst⟩ := bindPrelude_declares hnodes hprelude hprelude'
  obtain ⟨owner₂, hsecond, hparams⟩ := bindProgram_declares hnodes hfirst.named hroot hroot'
  have h := hsecond.named
  refine ⟨h.closed (fun _ hid => (h.scopes hid).1) (fun _ hid => (h.scopes hid).1) (fun _ hid => (h.scopes hid).1),
    ?_, ?_, ?_, ?_, ?_, ?_, ?_, ?_, h.origin, h.together, hparams⟩
  · exact congrArg (·.expressionTypes) h.rest
  · exact congrArg (·.writtenTypes) h.rest
  · exact congrArg (·.resolutions) h.rest
  · exact congrArg (·.symbolTypes) h.rest
  · exact congrArg (·.boundMembers) h.rest
  · exact congrArg (·.declaredSignatures) h.rest
  · exact congrArg (·.declaredTypes) h.rest
  · exact congrArg (·.problems) h.rest

end Facts

end RouteTypes
