-- The scopes of a program. One node is entered after the other, and each step keeps that the scopes say of the nodes
-- entered so far what the source says of them: a scope belongs to each node that has one and lies in those of the
-- nodes around, and it binds a name to what the first node declares that declares the name in it. So a look-up
-- finds what the source says, from the inside out.
import RouteTypes.Proofs.Typing.Scopes

namespace RouteTypes

namespace Facts

variable {s s' : Facts} {scope : ScopeId} {sort : NameSort} {name : String} {kind : SymbolKind}
  {all opened made : List Node} {prelude : Node}

/-! ## What entering nodes keeps -/

/-- The scopes of the opened nodes say what the source says of the nodes that have made their declarations. All
these are among nodes that are told apart. -/
structure Scoped (all : List Node) (prelude : Node) (opened made : List Node) (s : Facts) : Prop where
  nodup : all.Nodup
  told : ∀ a ∈ all, ∀ b ∈ all, a.id = b.id → a = b
  opens : ∀ node ∈ opened, node ∈ all
  makes : ∀ node ∈ made, node ∈ all
  outermost : prelude ∈ opened
  around : ∀ node ∈ opened, ∀ outer ∈ node.outwards, outer ∈ opened
  stands : ∀ node ∈ made, ∀ home ∈ node.standsIn?, home ∈ opened
  owned : ∀ {node}, node ∈ opened → node.isScope = true → ∃ scope, s.scopes.ownedBy node.id = some scope
  owner : ∀ {id scope}, s.scopes.ownedBy id = some scope → scope.index < s.scopes.scopes.size ∧
    ∃ node ∈ opened, node.isScope = true ∧ node.id = id
  apart : ∀ {id id' scope}, s.scopes.ownedBy id = some scope → s.scopes.ownedBy id' = some scope → id = id'
  path : ∀ node ∈ opened, ∃ scope, s.scopeAt node = some scope ∧
    s.scopes.path scope = (node.visible prelude).filterMap fun outer => s.scopes.ownedBy outer.id
  binds : ∀ {node scope}, node ∈ opened → s.scopes.ownedBy node.id = some scope → ∀ sort name,
    s.scopes.getLocal scope sort name = (node.first? made sort name).bind s.declared?
  declared : ∀ node ∈ made, ∀ {sort kind}, node.declares? = some (sort, kind) → node.declaredName?.isSome = true →
    ∃ id, s.declared? node = some id ∧ s.HasSymbol id ∧ (s.symbol id).kind = kind

namespace Scoped

variable (h : Scoped all prelude opened made s)

include h

theorem ownedBy_eq_none {node : Node} (hnode : node ∈ all) (hfresh : node ∉ opened) :
    s.scopes.ownedBy node.id = none := by
  refine Option.eq_none_iff_forall_ne_some.mpr fun scope hscope => hfresh ?_
  obtain ⟨-, other, hother, -, hid⟩ := h.owner hscope
  exact h.told other (h.opens other hother) node hnode hid ▸ hother

theorem mem_opened_of_visible {node outer : Node} (hnode : node ∈ opened) (houter : outer ∈ node.visible prelude) :
    outer ∈ opened := by
  rcases List.mem_append.mp houter with houter | houter
  · exact h.around node hnode outer houter
  · split at houter
    · exact List.mem_singleton.mp houter ▸ h.outermost
    · cases houter

/-- What binds a name declares it in the scope. -/
theorem declaresIn_of_first? {scope node : Node} (hfirst : scope.first? made sort name = some node) :
    node ∈ made ∧ ∃ sort, Node.declaresIn scope sort name node = true := by
  cases sort with
  | type => exact ⟨List.mem_of_find?_eq_some hfirst, .type, List.find?_some hfirst⟩
  | value =>
    replace hfirst : made.find? (Node.bindsValue made scope name) = some node := hfirst
    have hmem := List.mem_of_find?_eq_some hfirst
    have hbinds : Node.bindsValue made scope name node = true := List.find?_some hfirst
    refine ⟨hmem, ?_⟩
    rcases Bool.or_eq_true_iff.mp hbinds with hvalue | hclass
    · exact ⟨.value, hvalue⟩
    · obtain ⟨found, hfound, hsame⟩ := (Option.any_eq_true _ _).mp (Bool.and_eq_true_iff.mp hclass).2
      have hin := List.mem_of_find?_eq_some hfound
      obtain rfl := h.told found (h.makes found hin) node (h.makes node hmem) (beq_iff_eq.mp hsame)
      exact ⟨.type, List.find?_some hfound⟩

theorem declared_of_first? {scope node : Node} (hfirst : scope.first? made sort name = some node) :
    node ∈ made ∧ ∃ id, s.declared? node = some id ∧ s.HasSymbol id := by
  obtain ⟨hmem, own, hin⟩ := h.declaresIn_of_first? hfirst
  obtain ⟨⟨kind, hown⟩, hname, -⟩ := Node.declaresIn_iff.mp hin
  obtain ⟨id, hid, hhas, -⟩ := h.declared node hmem hown (by rw [hname]; rfl)
  exact ⟨hmem, id, hid, hhas⟩

/-- Nothing stands in a node that is not entered. -/
theorem first?_eq_none {node : Node} (hnode : node ∈ all) (hfresh : node ∉ opened) :
    node.first? made sort name = none := by
  refine Option.eq_none_iff_forall_ne_some.mpr fun found hfirst => hfresh ?_
  obtain ⟨hmem, own, hin⟩ := h.declaresIn_of_first? hfirst
  obtain ⟨-, -, home, hhome, hid⟩ := Node.declaresIn_iff.mp hin
  have hopened := h.stands found hmem home hhome
  exact h.told home (h.opens home hopened) node hnode hid ▸ hopened

/-- A scope that is seen from somewhere is there. -/
theorem lt_size_of_scopeAt {node : Node} (hscope : s.scopeAt node = some scope) : scope.index < s.scopes.scopes.size := by
  obtain ⟨outer, -, hown⟩ := List.exists_of_findSome?_eq_some hscope
  exact (h.owner hown).1

/-- A scope binds a name to a symbol if a node declares the name in it. -/
theorem getLocal_eq_none_iff {node : Node} (hnode : node ∈ opened) (hscope : s.scopes.ownedBy node.id = some scope)
    (sort : NameSort) (name : String) :
    s.scopes.getLocal scope sort name = none ↔ node.first? made sort name = none := by
  rw [h.binds hnode hscope]
  cases hfirst : node.first? made sort name with
  | none => exact ⟨fun _ => rfl, fun _ => rfl⟩
  | some found =>
    obtain ⟨-, id, hid, -⟩ := h.declared_of_first? hfirst
    rw [Option.bind_some, hid]
    exact ⟨fun hnone => (by cases hnone), fun hnone => (by cases hnone)⟩

theorem hasSymbol_of_getLocal {node : Node} (hnode : node ∈ opened) (hscope : s.scopes.ownedBy node.id = some scope)
    {id : SymbolId} (hget : s.scopes.getLocal scope sort name = some id) : s.HasSymbol id := by
  rw [h.binds hnode hscope] at hget
  obtain ⟨found, hfirst, hid⟩ := Option.bind_eq_some_iff.mp hget
  obtain ⟨-, own, hown, hhas⟩ := h.declared_of_first? hfirst
  cases hid.symm.trans hown
  exact hhas

end Scoped

/-! ## Steps -/

/-- A node declares what it declares in the scopes of the opened nodes, and nothing else changes. -/
structure Adds (opened made : List Node) (node : Node) (s s' : Facts) : Prop where
  owners : s'.scopes.owners = s.scopes.owners
  size : s'.scopes.scopes.size = s.scopes.scopes.size
  parents : ∀ index, s'.scopes.parent? index = s.scopes.parent? index
  others : ∀ {id}, id ≠ node.id → s'.declarations.get? id = s.declarations.get? id
  binds : ∀ {outer scope}, outer ∈ opened → s.scopes.ownedBy outer.id = some scope → ∀ sort name,
    s'.scopes.getLocal scope sort name = (s.scopes.getLocal scope sort name).or
      (if Node.adds made outer sort name node then s'.declared? node else none)
  declared : ∀ {sort kind}, node.declares? = some (sort, kind) → node.declaredName?.isSome = true →
    ∃ id, s'.declared? node = some id ∧ s'.HasSymbol id ∧ (s'.symbol id).kind = kind
  kinds : KeepsKinds s s'

theorem Scoped.fresh (h : Scoped all prelude opened made s) {node : Node} (hnode : node ∈ all) (hfresh : node ∉ made) :
    ∀ other ∈ made, other.id ≠ node.id :=
  fun other hother hid => hfresh (h.told other (h.makes other hother) node hnode hid ▸ hother)

/-- A node makes its declaration. -/
theorem Scoped.make (h : Scoped all prelude opened made s) {node : Node} (hnode : node ∈ all) (hfresh : node ∉ made)
    (hstands : ∀ home ∈ node.standsIn?, home ∈ opened) (hadds : Adds opened made node s s') :
    Scoped all prelude opened (made ++ [node]) s' := by
  have hids := h.fresh hnode hfresh
  have hownedBy : ∀ id, s'.scopes.ownedBy id = s.scopes.ownedBy id := fun id =>
    congrArg (Table.get? · id) hadds.owners
  have hdeclared : ∀ other ∈ made, s'.declared? other = s.declared? other := fun other hother =>
    hadds.others (hids other hother)
  have hpath : ∀ scope : ScopeId, s'.scopes.path scope = s.scopes.path scope := fun scope =>
    ScopeTree.path_congr (fun index _ => hadds.parents index) (Nat.lt_succ_self scope.index)
  refine ⟨h.nodup, h.told, h.opens, ?_, h.outermost, h.around, ?_, ?_, ?_, ?_, ?_, ?_, ?_⟩
  · exact List.forall_mem_append.mpr ⟨h.makes, List.forall_mem_singleton.mpr hnode⟩
  · exact List.forall_mem_append.mpr ⟨h.stands, List.forall_mem_singleton.mpr hstands⟩
  · exact fun hmem hscope => (h.owned hmem hscope).imp fun _ hown => (hownedBy _).trans hown
  · intro id scope hown
    rw [hadds.size]
    exact h.owner (hownedBy id ▸ hown)
  · intro id id' scope hown hown'
    exact h.apart (hownedBy id ▸ hown) (hownedBy id' ▸ hown')
  · intro other hother
    obtain ⟨scope, hat, hscopes⟩ := h.path other hother
    refine ⟨scope, ?_, ?_⟩
    · unfold scopeAt
      simp only [hownedBy]
      exact hat
    · rw [hpath, hscopes]
      simp only [hownedBy]
  · intro outer scope houter hown sort name
    have hown := hownedBy outer.id ▸ hown
    rw [hadds.binds houter hown, h.binds houter hown, Node.first?_append hids]
    cases hfirst : outer.first? made sort name with
    | some found =>
      obtain ⟨hin, id, hid, -⟩ := h.declared_of_first? hfirst
      rw [Option.some_or, Option.bind_some, Option.bind_some, hdeclared found hin, hid]
      rfl
    | none =>
      rw [Option.none_or, Option.bind_none, Option.none_or]
      split <;> rfl
  · intro other hother sort kind hown hname
    rcases List.mem_append.mp hother with hother | hother
    · obtain ⟨id, hid, hhas, hkind⟩ := h.declared other hother hown hname
      obtain ⟨hhas', hkind'⟩ := hadds.kinds hhas
      exact ⟨id, (hdeclared other hother).trans hid, hhas', hkind'.trans hkind⟩
    · obtain rfl := List.mem_singleton.mp hother
      exact hadds.declared hown hname

/-- A node that declares nothing, or has no name, changes nothing. -/
theorem Adds.nothing {node : Node} (hids : ∀ other ∈ made, other.id ≠ node.id)
    (hnothing : node.declares? = none ∨ node.declaredName? = none) : Adds opened made node s s where
  owners := rfl
  size := rfl
  parents _ := rfl
  others _ := rfl
  binds _ _ sort name := by
    rw [Node.adds_eq_false hids hnothing]
    exact (Option.or_none).symm
  declared hown hname := by
    rcases hnothing with hnone | hnone
    · cases hnone.symm.trans hown
    · rw [hnone] at hname
      cases hname
  kinds hid := ⟨hid, rfl⟩

/-- A node in whose scope others stand. -/
structure Homes (opened : List Node) (s : Facts) (node home : Node) (scope : ScopeId) : Prop where
  mem : home ∈ opened
  stands : node.standsIn? = some home
  owns : s.scopes.ownedBy home.id = some scope

/-- The scope is the one that the declaration stands in. -/
theorem Homes.scope_eq_iff {node home outer : Node} (hhome : Homes opened s node home scope)
    (h : Scoped all prelude opened made s) {scope' : ScopeId} (houter : s.scopes.ownedBy outer.id = some scope') :
    scope' = scope ↔ ∃ other, node.standsIn? = some other ∧ other.id = outer.id := by
  constructor
  · rintro rfl
    exact ⟨home, hhome.stands, h.apart hhome.owns houter⟩
  · rintro ⟨other, hother, hid⟩
    obtain rfl := Option.some_inj.mp (hhome.stands.symm.trans hother)
    exact Option.some_inj.mp (houter.symm.trans (hid ▸ hhome.owns))

/-- What a declaration that is no class binds. -/
theorem Adds.of_makes (h : Scoped all prelude opened made s) {node home : Node} (hhome : Homes opened s node home scope)
    (hown : node.declares? = some (sort, kind)) (hclass : node.kind ≠ .classDecl) (hname : node.declaredName? = some name)
    {symbol : SymbolId} (hmakes : Makes node scope sort name kind symbol s s') : Adds opened made node s s' where
  owners := hmakes.binds.owners
  size := hmakes.binds.size
  parents := hmakes.binds.parents
  others := hmakes.others
  binds {outer scope'} _ howns sort' name' := by
    rw [hmakes.declared]
    refine hmakes.binds.getLocal_eq ((Node.adds_iff hown hclass).trans ?_)
    rw [← hhome.scope_eq_iff h howns, hname, Option.some_inj, Prod.mk.injEq, Prod.mk.injEq]
    exact ⟨fun ⟨hsort, hname, hscope⟩ => ⟨hscope, hsort.symm, hname.symm⟩,
      fun ⟨hscope, hsort, hname⟩ => ⟨hsort.symm, hname.symm, hscope⟩⟩
  declared hown' _ := by
    cases hown.symm.trans hown'
    exact ⟨symbol, hmakes.declared, hmakes.has, hmakes.kind⟩
  kinds := hmakes.kinds

section

variable (h : Scoped all prelude opened made s) {node home outer : Node} (hhome : Homes opened s node home scope)
  (hids : ∀ other ∈ made, other.id ≠ node.id) (hclass : node.kind = .classDecl) (hname : node.declaredName? = some name)

include h hhome hclass hname

theorem adds_class_type_iff {scope' : ScopeId} (howns : s.scopes.ownedBy outer.id = some scope') {name' : String} :
    Node.adds made outer .type name' node = true ↔ (scope', NameSort.type, name') = (scope, .type, name) := by
  rw [Node.adds_type_of_classDecl hclass, ← hhome.scope_eq_iff h howns, hname, Option.some_inj, Prod.mk.injEq,
    Prod.mk.injEq]
  exact ⟨fun ⟨hname, hscope⟩ => ⟨hscope, rfl, hname.symm⟩, fun ⟨hscope, _, hname⟩ => ⟨hname.symm, hscope⟩⟩

include hids

theorem adds_class_value_iff (houter : outer ∈ opened) {scope' : ScopeId}
    (howns : s.scopes.ownedBy outer.id = some scope') {name' : String} :
    Node.adds made outer .value name' node = true ↔
      s.scopes.getLocal scope .type name = none ∧ (scope', NameSort.value, name') = (scope, .value, name) := by
  rw [Node.adds_value_of_classDecl hclass hids, adds_class_type_iff h hhome hclass hname howns]
  have hnone := h.getLocal_eq_none_iff houter howns .type name'
  constructor
  · rintro ⟨hfirst, heq⟩
    cases heq
    exact ⟨hnone.mpr hfirst, rfl⟩
  · rintro ⟨hget, heq⟩
    cases heq
    exact ⟨hnone.mp hget, rfl⟩

/-- What a class binds: its name as a type, and as a value too if it is the first type of that name. -/
theorem Adds.of_class : Adds opened made node s (match s.declare node scope .type .classDecl with
    | (none, facts) => facts
    | (some symbol, facts) => facts.bindName scope .value (node.declaredName?.getD "") symbol) := by
  have hown : node.declares? = some (.type, .classDecl) := by rw [Node.declares?, hclass]
  obtain ⟨hin, -⟩ := h.owner hhome.owns
  obtain ⟨symbol, hmakes, hfirst, hagain⟩ := declare_makes .type .classDecl hname hin fun _ hget =>
    h.hasSymbol_of_getLocal hhome.mem hhome.owns hget
  generalize s.declare node scope .type .classDecl = result at hmakes hfirst hagain
  obtain ⟨found, s₁⟩ := result
  dsimp only at hmakes hfirst hagain
  have hvalue : ∀ {scope' name'}, s₁.scopes.getLocal scope' .value name' = s.scopes.getLocal scope' .value name' :=
    hmakes.binds.other fun heq => by cases heq
  cases hget : s.scopes.getLocal scope .type name with
  | some existing =>
    obtain rfl := hagain existing hget
    refine ⟨hmakes.binds.owners, hmakes.binds.size, hmakes.binds.parents, hmakes.others, ?_, ?_, hmakes.kinds⟩
    · intro outer scope' houter howns sort' name'
      cases sort' with
      | type =>
        rw [hmakes.declared]
        exact hmakes.binds.getLocal_eq (adds_class_type_iff h hhome hclass hname howns)
      | value =>
        rw [if_neg fun hadds => ?_, Option.or_none]
        · exact hvalue
        · cases hget.symm.trans ((adds_class_value_iff h hhome hids hclass hname houter howns).mp hadds).1
    · intro sort kind hown' _
      cases hown.symm.trans hown'
      exact ⟨symbol, hmakes.declared, hmakes.has, hmakes.kind⟩
  | none =>
    obtain rfl := hfirst hget
    rw [hname]
    have hbinds : ScopeTree.Binds scope .value name symbol s₁.scopes (s₁.bindName scope .value name symbol).scopes :=
      bindName_binds (hmakes.binds.size ▸ hin)
    have hdeclared : (s₁.bindName scope .value name symbol).declared? node = some symbol :=
      (congrArg (Table.get? · node.id) declarations_bindName).trans hmakes.declared
    refine ⟨hbinds.owners.trans hmakes.binds.owners, hbinds.size.trans hmakes.binds.size,
      fun index => (hbinds.parents index).trans (hmakes.binds.parents index),
      fun {id} hne => (congrArg (Table.get? · id) declarations_bindName).trans (hmakes.others hne), ?_, ?_, ?_⟩
    · intro outer scope' houter howns sort' name'
      rw [show (some name).getD "" = name from rfl, hdeclared]
      cases sort' with
      | type =>
        rw [hbinds.other fun heq => by cases heq]
        exact hmakes.binds.getLocal_eq (adds_class_type_iff h hhome hclass hname howns)
      | value =>
        rw [← hvalue]
        exact hbinds.getLocal_eq ((adds_class_value_iff h hhome hids hclass hname houter howns).trans
          ⟨And.right, fun heq => ⟨hget, heq⟩⟩)
    · intro sort kind hown' _
      cases hown.symm.trans hown'
      exact ⟨symbol, hdeclared, hasSymbol_bindName.mpr hmakes.has,
        (congrArg (·.kind) (symbol_bindName _ _ _ _ _)).trans hmakes.kind⟩
    · exact fun hid => ⟨hasSymbol_bindName.mpr (hmakes.kinds hid).1,
        (congrArg (·.kind) (symbol_bindName _ _ _ _ _)).trans (hmakes.kinds hid).2⟩

end

/-! ### Scopes -/

theorem visible_eq {node outer : Node} (hparent : node.parent = some outer) (hsource : node.source = outer.source) :
    node.visible prelude = node :: outer.visible prelude := by
  unfold Node.visible
  rw [Node.outwards_eq hparent, hsource]
  rfl

section

variable (h : Scoped all prelude opened made s) {node beyond : Node} (hnode : node ∈ all) (hfresh : node ∉ opened)

include h hnode hfresh

/-- The scopes of other nodes stay theirs. -/
theorem ownedBy_openScope {other : Node} (hother : other ∈ opened) (scope : ScopeId) :
    (s.openScope node scope).2.scopes.ownedBy other.id = s.scopes.ownedBy other.id := by
  refine Table.get?_insert_of_ne (fun hid => hfresh ?_) _ _
  rw [h.told node hnode other (h.opens other hother) hid]
  exact hother

variable (hbeyond : beyond ∈ opened) (hvisible : node.visible prelude = node :: beyond.visible prelude)

include hbeyond hvisible

/-- What is around an entered node is entered. -/
theorem Scoped.around_append : ∀ other ∈ opened ++ [node], ∀ outer ∈ other.outwards, outer ∈ opened ++ [node] := by
  refine List.forall_mem_append.mpr ⟨fun other hother outer houter =>
    List.mem_append_left _ (h.around other hother outer houter), List.forall_mem_singleton.mpr fun outer houter => ?_⟩
  have hseen : outer ∈ node.visible prelude := List.mem_append_left _ houter
  rw [hvisible] at hseen
  rcases List.mem_cons.mp hseen with rfl | houter
  · exact List.mem_append_right _ (List.mem_singleton_self outer)
  · exact List.mem_append_left _ (h.mem_opened_of_visible hbeyond houter)

/-- A node gets a scope within that of another one. -/
theorem Scoped.openScope (hkind : node.isScope = true) {scope : ScopeId} (hscope : s.scopeAt beyond = some scope) :
    Scoped all prelude (opened ++ [node]) made (s.openScope node scope).2 ∧
      (s.openScope node scope).2.scopeAt node = some (s.openScope node scope).1 ∧
      ∀ other ∈ opened, (s.openScope node scope).2.scopeAt other = s.scopeAt other := by
  have hlt := h.lt_size_of_scopeAt hscope
  have hown : (s.openScope node scope).2.scopes.ownedBy node.id = some (s.openScope node scope).1 :=
    Table.get?_insert_self _ _ _
  have howned : ∀ other ∈ opened, (s.openScope node scope).2.scopes.ownedBy other.id = s.scopes.ownedBy other.id :=
    fun other hother => ownedBy_openScope h hnode hfresh hother scope
  have hback : ∀ {id scope'}, (s.openScope node scope).2.scopes.ownedBy id = some scope' →
      node.id = id ∧ (s.openScope node scope).1 = scope' ∨ s.scopes.ownedBy id = some scope' := Table.of_get?_insert
  have hat : ∀ other ∈ opened, (s.openScope node scope).2.scopeAt other = s.scopeAt other := fun other hother => by
    unfold scopeAt
    rw [← List.head?_filterMap, ← List.head?_filterMap]
    exact congrArg List.head? (List.filterMap_congr fun outer houter => howned outer (h.around other hother outer houter))
  have hvisibles : ∀ other ∈ opened,
      ((other.visible prelude).filterMap fun outer => (s.openScope node scope).2.scopes.ownedBy outer.id) =
        (other.visible prelude).filterMap fun outer => s.scopes.ownedBy outer.id := fun other hother =>
    List.filterMap_congr fun outer houter => howned outer (h.mem_opened_of_visible hother houter)
  have hatNode : (s.openScope node scope).2.scopeAt node = some (s.openScope node scope).1 := by
    unfold scopeAt Node.outwards
    rw [List.findSome?_cons, hown]
  refine ⟨⟨h.nodup, h.told, List.forall_mem_append.mpr ⟨h.opens, List.forall_mem_singleton.mpr hnode⟩, h.makes,
    List.mem_append_left _ h.outermost, h.around_append hnode hfresh hbeyond hvisible,
    fun other hother home hhome => List.mem_append_left _ (h.stands other hother home hhome), ?_, ?_, ?_, ?_, ?_,
    h.declared⟩, hatNode, hat⟩
  · intro other hother hkind'
    rcases List.mem_append.mp hother with hother | hother
    · exact (h.owned hother hkind').imp fun _ hown => (howned other hother).trans hown
    · rw [List.mem_singleton.mp hother]
      exact ⟨_, hown⟩
  · intro id scope' hget
    rcases hback hget with ⟨rfl, rfl⟩ | hget
    · exact ⟨ScopeTree.lt_size_add _ _, node, List.mem_append_right _ (List.mem_singleton_self node), hkind, rfl⟩
    · obtain ⟨hin, other, hother, hrest⟩ := h.owner hget
      exact ⟨Nat.lt_trans hin (ScopeTree.lt_size_add scope node.id), other, List.mem_append_left _ hother, hrest⟩
  · intro id id' scope' hget hget'
    rcases hback hget with ⟨rfl, rfl⟩ | hget <;> rcases hback hget' with ⟨hid, hsame⟩ | hget'
    · exact hid
    · exact absurd (h.owner hget').1 (Nat.lt_irrefl _)
    · subst hsame
      exact absurd (h.owner hget).1 (Nat.lt_irrefl _)
    · exact h.apart hget hget'
  · refine List.forall_mem_append.mpr ⟨fun other hother => ?_, List.forall_mem_singleton.mpr ?_⟩
    · obtain ⟨scope', hscope', hpath⟩ := h.path other hother
      refine ⟨scope', (hat other hother).trans hscope', ?_⟩
      rw [hvisibles other hother, ← hpath]
      exact ScopeTree.path_congr (fun _ => ScopeTree.parent?_add) (h.lt_size_of_scopeAt hscope')
    · obtain ⟨scope', hscope', hpath⟩ := h.path beyond hbeyond
      cases hscope.symm.trans hscope'
      refine ⟨_, hatNode, (ScopeTree.path_add hlt).trans ?_⟩
      rw [hvisible, List.filterMap_cons, hown, hvisibles beyond hbeyond, hpath]
      rfl
  · intro other scope' hother hget sort name
    refine (ScopeTree.getLocal_add_eq).trans ?_
    rcases List.mem_append.mp hother with hother | hother
    · exact h.binds hother (howned other hother ▸ hget) sort name
    · obtain rfl := List.mem_singleton.mp hother
      cases hown.symm.trans hget
      rw [h.first?_eq_none hnode hfresh]
      exact ScopeTree.getLocal_of_size_le (Nat.le_refl _)

/-- A node without a scope is in that of the node around it. -/
theorem Scoped.pass (hparent : node.parent = some beyond) (hkind : node.isScope = false) {scope : ScopeId}
    (hscope : s.scopeAt beyond = some scope) :
    Scoped all prelude (opened ++ [node]) made s ∧ s.scopeAt node = some scope := by
  have hown := h.ownedBy_eq_none hnode hfresh
  have hat : s.scopeAt node = some scope := by
    unfold scopeAt
    rw [Node.outwards_eq hparent, List.findSome?_cons, hown]
    exact hscope
  refine ⟨⟨h.nodup, h.told, List.forall_mem_append.mpr ⟨h.opens, List.forall_mem_singleton.mpr hnode⟩, h.makes,
    List.mem_append_left _ h.outermost, h.around_append hnode hfresh hbeyond hvisible,
    fun other hother home hhome => List.mem_append_left _ (h.stands other hother home hhome), ?_, ?_, h.apart, ?_, ?_,
    h.declared⟩, hat⟩
  · intro other hother hkind'
    rcases List.mem_append.mp hother with hother | hother
    · exact h.owned hother hkind'
    · rw [List.mem_singleton.mp hother, hkind] at hkind'
      cases hkind'
  · intro id scope' hget
    obtain ⟨hin, other, hother, hrest⟩ := h.owner hget
    exact ⟨hin, other, List.mem_append_left _ hother, hrest⟩
  · refine List.forall_mem_append.mpr ⟨h.path, List.forall_mem_singleton.mpr ?_⟩
    obtain ⟨scope', hscope', hpath⟩ := h.path beyond hbeyond
    cases hscope.symm.trans hscope'
    refine ⟨scope, hat, ?_⟩
    rw [hvisible, List.filterMap_cons, hown, hpath]
  · intro other scope' hother hget sort name
    rcases List.mem_append.mp hother with hother | hother
    · exact h.binds hother hget sort name
    · rw [List.mem_singleton.mp hother] at hget
      cases hown.symm.trans hget

end

/-! ## Entering -/

/-- More nodes are entered behind those that are. -/
structure Admits (all : List Node) (prelude : Node) (seen more : List Node) (s s' : Facts) : Prop where
  scopes : Scoped all prelude (seen ++ more) (seen ++ more) s'
  stays : ∀ other ∈ seen, s'.scopeAt other = s.scopeAt other

/-- What stands below a node stands in the innermost scope around. -/
theorem Scoped.homes (h : Scoped all prelude opened made s) {node outer : Node} (houter : outer ∈ opened)
    (hparent : node.parent = some outer) (hkind : node.kind ≠ .functionExpr) (hscope : s.scopeAt outer = some scope) :
    ∃ home, Homes opened s node home scope := by
  obtain ⟨before, home, behind, houtwards, hown, hbefore⟩ := List.findSome?_eq_some_iff.mp hscope
  have hmem : ∀ other ∈ outer.outwards, other ∈ opened := h.around outer houter
  rw [houtwards] at hmem
  have hhome := hmem home (List.mem_append_right _ List.mem_cons_self)
  refine ⟨home, hhome, ?_, hown⟩
  rw [Node.standsIn?, if_neg hkind, hparent, Option.bind_some, houtwards]
  refine List.find?_eq_some_iff_append.mpr ⟨?_, before, behind, rfl, fun other hother => ?_⟩
  · obtain ⟨-, found, hfound, hscope, hid⟩ := h.owner hown
    exact h.told found (h.opens found hfound) home (h.opens home hhome) hid ▸ hscope
  · rw [Bool.not_eq_true']
    refine Bool.eq_false_iff.mpr fun hother' => ?_
    obtain ⟨scope', hscope'⟩ := h.owned (hmem other (List.mem_append_left _ hother)) hother'
    cases (hbefore other hother).symm.trans hscope'

theorem Adds.scopeAt_eq {node : Node} (h : Adds opened made node s s') (other : Node) :
    s'.scopeAt other = s.scopeAt other := by
  unfold scopeAt
  exact congrArg (List.findSome? · other.outwards) (funext fun outer => congrArg (Table.get? · outer.id) h.owners)

/-- What a node declares that stands in the scope. -/
def declaring (s : Facts) (node : Node) (scope : ScopeId) : Facts :=
  match node.declares? with
  | some (sort, kind) => (s.declare node scope sort kind).2
  | none => s

/-- Most nodes declare what they declare in the scope around them. -/
theorem enter_eq (s : Facts) {node : Node} (scope : ScopeId) (hexpr : node.kind ≠ .functionExpr)
    (hclass : node.kind ≠ .classDecl) : s.enter node scope =
      if node.kind.opensScope then (s.declaring node scope).openScope node scope else (scope, s.declaring node scope) := by
  unfold enter declaring Node.declares?
  split
  case h_4 => exact absurd ‹node.kind = _› hexpr
  case h_5 => exact absurd ‹node.kind = _› hclass
  case h_9 hkind =>
    rw [hkind]
    dsimp only
    split <;> rfl
  case h_16 => cases hkind : node.kind <;> first | rfl | exact absurd hkind ‹_›
  all_goals
    rename_i hkind
    rw [hkind]
    rfl

/-- What a node that is no class declares. -/
theorem declaring_adds (h : Scoped all prelude opened made s) {node home : Node} (hhome : Homes opened s node home scope)
    (hids : ∀ other ∈ made, other.id ≠ node.id) (hclass : node.kind ≠ .classDecl) :
    Adds opened made node s (s.declaring node scope) := by
  unfold declaring
  split
  · rename_i sort kind hown
    cases hname : node.declaredName? with
    | none =>
      have hsame : s.declare node scope sort kind = (none, s) := by
        unfold declare
        rw [hname]
      rw [hsame]
      exact .nothing hids (.inr hname)
    | some name =>
      obtain ⟨symbol, hmakes, -⟩ := declare_makes sort kind hname (h.owner hhome.owns).1 fun _ hget =>
        h.hasSymbol_of_getLocal hhome.mem hhome.owns hget
      exact .of_makes h hhome hown hclass hname hmakes
  · exact .nothing hids (.inl ‹_›)

/-- What a class declares. -/
theorem class_adds (h : Scoped all prelude opened made s) {node home : Node} (hhome : Homes opened s node home scope)
    (hids : ∀ other ∈ made, other.id ≠ node.id) (hclass : node.kind = .classDecl) :
    Adds opened made node s (match s.declare node scope .type .classDecl with
      | (none, facts) => facts
      | (some symbol, facts) => facts.bindName scope .value (node.declaredName?.getD "") symbol) := by
  cases hname : node.declaredName? with
  | some name => exact hname ▸ .of_class h hhome hids hclass hname
  | none =>
    have hsame : s.declare node scope .type .classDecl = (none, s) := by
      unfold declare
      rw [hname]
    rw [hsame]
    exact .nothing hids (.inr hname)

section

variable {seen : List Node} (h : Scoped all prelude seen seen s) {node outer : Node} (hnode : node ∈ all)
  (hfresh : node ∉ seen) (houter : outer ∈ seen) (hparent : node.parent = some outer)
  (hsource : node.source = outer.source) (hscope : s.scopeAt outer = some scope)

include h hnode hfresh houter hparent hsource hscope

/-- A node makes its declaration in the scope around it, and then opens its own, if it has one. -/
theorem admits_of_adds (hexpr : node.kind ≠ .functionExpr) (hadds : Adds seen seen node s s') {result : ScopeId × Facts}
    (hresult : result = if node.kind.opensScope then s'.openScope node scope else (scope, s')) :
    Admits all prelude seen [node] s result.2 ∧ result.2.scopeAt node = some result.1 := by
  have hvisible : node.visible prelude = node :: outer.visible prelude := visible_eq hparent hsource
  have hroot : node.isScope = node.kind.opensScope := by rw [Node.isScope, hparent, Option.isNone_some, Bool.or_false]
  obtain ⟨home, hhome⟩ := h.homes houter hparent hexpr hscope
  have hmade := h.make hnode hfresh (fun other hother => by
    cases hhome.stands.symm.trans hother
    exact hhome.mem) hadds
  have hscope' := (hadds.scopeAt_eq outer).trans hscope
  subst hresult
  split
  · rename_i hkind
    obtain ⟨hopened, hat, hothers⟩ := hmade.openScope hnode hfresh houter hvisible (hroot.trans hkind) hscope'
    exact ⟨⟨hopened, fun other hother => (hothers other hother).trans (hadds.scopeAt_eq other)⟩, hat⟩
  · rename_i hkind
    obtain ⟨hpassed, hat⟩ := hmade.pass hnode hfresh houter hvisible hparent
      (hroot.trans (Bool.eq_false_iff.mpr hkind)) hscope'
    exact ⟨⟨hpassed, fun other _ => hadds.scopeAt_eq other⟩, hat⟩

/-- A function expression opens its scope, and then declares its name in it. -/
theorem admits_functionExpr (hkind : node.kind = .functionExpr) :
    Admits all prelude seen [node] s (s.enter node scope).2 ∧
      (s.enter node scope).2.scopeAt node = some (s.enter node scope).1 := by
  have hvisible : node.visible prelude = node :: outer.visible prelude := visible_eq hparent hsource
  have hisScope : node.isScope = true := by rw [Node.isScope, hkind]; rfl
  obtain ⟨hopened, hat, hothers⟩ := h.openScope hnode hfresh houter hvisible hisScope hscope
  have hown : node.declares? = some (.value, .function) := by rw [Node.declares?, hkind]
  have hin : node ∈ seen ++ [node] := List.mem_append_right _ (List.mem_singleton_self node)
  have hhome : Homes (seen ++ [node]) (s.openScope node scope).2 node node (s.openScope node scope).1 :=
    ⟨hin, if_pos hkind, Table.get?_insert_self _ _ _⟩
  have hadds := declaring_adds hopened hhome (h.fresh hnode hfresh) (by rw [hkind]; decide)
  have hmade := hopened.make hnode hfresh (fun other hother => by
    cases hhome.stands.symm.trans hother
    exact hin) hadds
  have hsame : s.enter node scope = ((s.openScope node scope).1,
      (s.openScope node scope).2.declaring node (s.openScope node scope).1) := by
    unfold enter declaring
    rw [hkind, hown]
  rw [hsame]
  exact ⟨⟨hmade, fun other hother => (hadds.scopeAt_eq other).trans (hothers other hother)⟩,
    (hadds.scopeAt_eq node).trans hat⟩

/-- A class declares its name, and then opens its scope. -/
theorem admits_classDecl (hkind : node.kind = .classDecl) :
    Admits all prelude seen [node] s (s.enter node scope).2 ∧
      (s.enter node scope).2.scopeAt node = some (s.enter node scope).1 := by
  have hexpr : node.kind ≠ .functionExpr := by rw [hkind]; decide
  obtain ⟨home, hhome⟩ := h.homes houter hparent hexpr hscope
  refine admits_of_adds h hnode hfresh houter hparent hsource hscope hexpr
    (class_adds h hhome (h.fresh hnode hfresh) hkind) ?_
  unfold enter
  rw [hkind]
  rcases s.declare node scope .type .classDecl with ⟨found, s'⟩
  cases found <;> rfl

/-- Entering a node opens its scope and makes its declaration. -/
theorem enter_admits : Admits all prelude seen [node] s (s.enter node scope).2 ∧
    (s.enter node scope).2.scopeAt node = some (s.enter node scope).1 := by
  by_cases hexpr : node.kind = .functionExpr
  · exact admits_functionExpr h hnode hfresh houter hparent hsource hscope hexpr
  by_cases hclass : node.kind = .classDecl
  · exact admits_classDecl h hnode hfresh houter hparent hsource hscope hclass
  · obtain ⟨home, hhome⟩ := h.homes houter hparent hexpr hscope
    exact admits_of_adds h hnode hfresh houter hparent hsource hscope hexpr
      (declaring_adds h hhome (h.fresh hnode hfresh) hclass) (enter_eq s scope hexpr hclass)

end

/-! ## The walk -/

theorem Admits.refl {seen : List Node} (h : Scoped all prelude seen seen s) : Admits all prelude seen [] s s :=
  ⟨by rwa [List.append_nil], fun _ _ => rfl⟩

theorem Admits.trans {s'' : Facts} {seen more others : List Node} (h : Admits all prelude seen more s s')
    (h' : Admits all prelude (seen ++ more) others s' s'') : Admits all prelude seen (more ++ others) s s'' where
  scopes := by
    rw [← List.append_assoc]
    exact h'.scopes
  stays other hother := (h'.stays other (List.mem_append_left _ hother)).trans (h.stays other hother)

section

variable {source : Source}

mutual

/-- The nodes of a part are entered from the outside in and from left to right. -/
theorem bindPart_admits : ∀ {seen rest : List Node} {s : Facts} {outer : Node} {scope : ScopeId} (part : Part),
    Scoped all prelude seen seen s → all = seen ++ (Node.nodesIn source (some outer) part ++ rest) → outer ∈ seen →
      outer.source = source → s.scopeAt outer = some scope →
        Admits all prelude seen (Node.nodesIn source (some outer) part) s (bindPart source (some outer) scope part s)
  | _, _, _, _, _, .leaf _ _, h, _, _, _, _ => .refl h
  | seen, rest, s, outer, scope, .node span kind parts, h, hall, houter, hsource, hscope => by
    let here : Node := ⟨source, kind, span, parts, some outer⟩
    rw [Node.nodesIn] at hall ⊢
    have hfresh : here ∉ seen := fun hin =>
      (List.nodup_append.mp (hall ▸ h.nodup)).2.2 here hin here List.mem_cons_self rfl
    have hnode : here ∈ all := by
      rw [hall]
      exact List.mem_append_right _ List.mem_cons_self
    obtain ⟨hentered, hat⟩ := enter_admits h hnode hfresh houter rfl hsource.symm hscope
    exact hentered.trans (bindParts_admits parts hentered.scopes (by rw [hall, List.append_assoc]; rfl)
      (List.mem_append_right _ (List.mem_singleton_self here)) rfl hat)

theorem bindParts_admits : ∀ {seen rest : List Node} {s : Facts} {outer : Node} {scope : ScopeId} (parts : List Part),
    Scoped all prelude seen seen s → all = seen ++ (Node.nodesInAll source (some outer) parts ++ rest) → outer ∈ seen →
      outer.source = source → s.scopeAt outer = some scope →
        Admits all prelude seen (Node.nodesInAll source (some outer) parts) s
          (bindParts source (some outer) scope parts s)
  | _, _, _, _, _, [], h, _, _, _, _ => .refl h
  | seen, rest, s, outer, scope, part :: others, h, hall, houter, hsource, hscope => by
    rw [Node.nodesInAll, List.append_assoc] at hall
    have hfirst := bindPart_admits part h hall houter hsource hscope
    exact hfirst.trans (bindParts_admits others hfirst.scopes (by rw [hall, List.append_assoc])
      (List.mem_append_left _ houter) hsource ((hfirst.stays outer houter).trans hscope))

end

end

/-! ## Whole texts -/

/-- The root of a text: nothing is around it, and it declares nothing. -/
structure IsText (source : Source) (root : Node) : Prop where
  source : root.source = source
  parent : root.parent = none
  kind : root.kind = .sourceFile

namespace IsText

variable {source : Source} {root : Node} (h : IsText source root)

include h

theorem outwards : root.outwards = [root] := by
  obtain ⟨_, _, _, _, parent⟩ := root
  cases h.parent
  rfl

theorem declares? : root.declares? = none := by
  rw [Node.declares?, h.kind]

theorem standsIn? : root.standsIn? = none := by
  rw [Node.standsIn?, h.kind, h.parent]
  rfl

theorem isScope : root.isScope = true := by
  rw [Node.isScope, h.parent]
  exact Bool.or_true _

end IsText

/-- In the beginning there is the scope of what every program sees. -/
def begun (prelude : Node) : Facts :=
  { Facts.initial with scopes := Facts.initial.scopes.setOwner prelude.id ScopeTree.global }

section

variable {root : Node} (hprelude : IsText .prelude prelude) (hroot : IsText .program root)

theorem first?_of_text {source : Source} {text : Node} (h : IsText source text) {scope : Node} :
    scope.first? [text] sort name = none := by
  have hnone : ∀ other ∈ ([] : List Node), other.id ≠ text.id := fun _ hother => by cases hother
  refine (Node.first?_append hnone).trans ?_
  rw [Node.adds_eq_false hnone (.inl h.declares?)]
  cases sort <;> rfl

theorem ownedBy_begun (prelude : Node) : (begun prelude).scopes.ownedBy prelude.id = some ScopeTree.global :=
  Table.get?_insert_self _ _ _

include hprelude

theorem visible_prelude : prelude.visible prelude = [prelude] := by
  rw [Node.visible, hprelude.outwards, hprelude.source]
  rfl

theorem scopeAt_begun : (begun prelude).scopeAt prelude = some ScopeTree.global := by
  rw [scopeAt, hprelude.outwards, List.findSome?_cons, ownedBy_begun prelude]

/-- Nothing is bound in the beginning. -/
theorem scoped_begun (htold : all.Pairwise Node.Unlike) (hmem : prelude ∈ all) :
    Scoped all prelude [prelude] [prelude] (begun prelude) := by
  have hown := ownedBy_begun prelude
  have honly : ∀ {id scope}, (begun prelude).scopes.ownedBy id = some scope → prelude.id = id ∧ ScopeTree.global = scope :=
    fun hget => (Table.of_get?_insert hget).resolve_right fun hnone => by cases (Table.get?_empty _).symm.trans hnone
  have hsame : ∀ a ∈ all, ∀ b ∈ all, a.id = b.id → a = b := fun a ha b hb hid =>
    Classical.byContradiction fun hne => htold.forall ha hb hne hid
  have hnodup : all.Nodup := htold.imp fun hne heq => hne (congrArg Node.id heq)
  refine ⟨hnodup, hsame, List.forall_mem_singleton.mpr hmem, List.forall_mem_singleton.mpr hmem,
    List.mem_singleton_self prelude, List.forall_mem_singleton.mpr fun outer houter => hprelude.outwards ▸ houter,
    List.forall_mem_singleton.mpr fun home hhome => ?_, fun hin _ => ⟨ScopeTree.global, List.mem_singleton.mp hin ▸ hown⟩,
    fun hget => ?_, fun hget hget' => (honly hget).1.symm.trans (honly hget').1,
    List.forall_mem_singleton.mpr ⟨ScopeTree.global, scopeAt_begun hprelude, ?_⟩, fun hin hget sort name => ?_,
    List.forall_mem_singleton.mpr fun hdeclares => ?_⟩
  · rw [hprelude.standsIn?] at hhome
    cases hhome
  · obtain ⟨rfl, rfl⟩ := honly hget
    exact ⟨Nat.zero_lt_one, prelude, List.mem_singleton_self prelude, hprelude.isScope, rfl⟩
  · rw [visible_prelude hprelude, List.filterMap_cons, hown, List.filterMap_nil, ScopeTree.path]
    rfl
  · rw [first?_of_text hprelude]
    exact ScopeTree.getLocal_new
  · rw [hprelude.declares?] at hdeclares
    cases hdeclares

include hroot

/-- Once every name is declared, the scopes say of all nodes what the source says of them. -/
theorem bound_scoped (htold : (prelude.descendants ++ root.descendants).Pairwise Node.Unlike) :
    Scoped (prelude.descendants ++ root.descendants) prelude (prelude.descendants ++ root.descendants)
      (prelude.descendants ++ root.descendants) (Facts.bound prelude root) := by
  generalize hall : prelude.descendants ++ root.descendants = all at htold
  have hnodes : all = [prelude] ++ (below prelude ++ (root :: below root)) := by
    rw [← hall, descendants_eq, descendants_eq, List.cons_append]
    rfl
  have hin : prelude ∈ all := hnodes ▸ List.mem_cons_self
  have hmem : root ∈ all := by
    rw [hnodes]
    exact List.mem_append_right _ (List.mem_append_right _ List.mem_cons_self)
  have hfresh : root ∉ [prelude] ++ below prelude := fun hbefore => by
    rw [hnodes, ← List.append_assoc] at htold
    exact (List.pairwise_append.mp htold).2.2 root hbefore root List.mem_cons_self rfl
  have hbefore : prelude ∈ [prelude] ++ below prelude := List.mem_cons_self
  have hvisible : root.visible prelude = root :: prelude.visible prelude := by
    rw [visible_prelude hprelude, Node.visible, hroot.outwards, hroot.source]
    rfl
  have hfirst := bindParts_admits prelude.parts (scoped_begun hprelude htold hin) hnodes
    (List.mem_singleton_self prelude) rfl (scopeAt_begun hprelude)
  have hat := (hfirst.stays prelude (List.mem_singleton_self prelude)).trans (scopeAt_begun hprelude)
  obtain ⟨hopened, hown, -⟩ := (hfirst.scopes.make hmem hfresh (fun home hhome => by
    rw [hroot.standsIn?] at hhome
    cases hhome) (.nothing (hfirst.scopes.fresh hmem hfresh) (.inl hroot.declares?))).openScope hmem hfresh hbefore
      hvisible hroot.isScope hat
  have hrest : all = [prelude] ++ below prelude ++ [root] ++ below root := by
    rw [hnodes, List.append_assoc, List.append_assoc]
    rfl
  have hsecond : Scoped all prelude ([prelude] ++ below prelude ++ [root] ++ below root)
      ([prelude] ++ below prelude ++ [root] ++ below root) ((Facts.initial.bindTree prelude).bindTree root) := by
    rw [bindTree_program hroot.source, bindTree_prelude hprelude.source]
    exact (bindParts_admits root.parts hopened (hrest.trans (congrArg _ (List.append_nil _).symm))
      (List.mem_append_right _ (List.mem_singleton_self root)) rfl hown).scopes
  rw [← hrest] at hsecond
  exact { hsecond with }

end

/-! ## Looking up -/

namespace Scoped

variable (h : Scoped all prelude opened made s)

include h

theorem isScope_of_ownedBy {node : Node} (hnode : node ∈ opened) (hown : s.scopes.ownedBy node.id = some scope) :
    node.isScope = true := by
  obtain ⟨-, other, hother, hscope, hid⟩ := h.owner hown
  exact h.told other (h.opens other hother) node (h.opens node hnode) hid ▸ hscope

/-- The scopes of some nodes bind the name to what the first of them says that declares it. -/
theorem findSome?_getLocal (sort : NameSort) (name : String) : ∀ nodes : List Node, (∀ node ∈ nodes, node ∈ opened) →
    (nodes.filterMap fun node => s.scopes.ownedBy node.id).findSome? (s.scopes.getLocal · sort name) =
      ((nodes.filter Node.isScope).findSome? (·.first? made sort name)).bind s.declared?
  | [], _ => rfl
  | node :: rest, hnodes => by
    have hnode := hnodes node List.mem_cons_self
    have ih := findSome?_getLocal sort name rest fun other hother => hnodes other (List.mem_cons_of_mem _ hother)
    cases hown : s.scopes.ownedBy node.id with
    | none =>
      have hnone : ¬node.isScope = true := fun hscope => by
        obtain ⟨scope, hscope⟩ := h.owned hnode hscope
        cases hown.symm.trans hscope
      rw [List.filterMap_cons, hown, List.filter_cons_of_neg hnone]
      exact ih
    | some scope =>
      rw [List.filterMap_cons, hown, List.filter_cons_of_pos (h.isScope_of_ownedBy hnode hown)]
      dsimp only
      rw [List.findSome?_cons, List.findSome?_cons, h.binds hnode hown]
      cases hfirst : node.first? made sort name with
      | none => exact ih
      | some found =>
        obtain ⟨-, id, hid, -⟩ := h.declared_of_first? hfirst
        rw [Option.bind_some, hid]

/-- A name stands for what the first node declares that declares it in the innermost scope with such a node. -/
theorem lookup_eq {node : Node} (hnode : node ∈ opened) (sort : NameSort) (name : String) :
    s.lookup node sort name = ((node.scopes prelude).findSome? (·.first? made sort name)).bind s.declared? := by
  obtain ⟨scope, hat, hpath⟩ := h.path node hnode
  rw [lookup, show (node.outwards.findSome? fun around => s.scopes.ownedBy around.id) = some scope from hat]
  dsimp only
  rw [ScopeTree.lookup, hpath]
  exact h.findSome?_getLocal sort name (node.visible prelude) fun outer houter => h.mem_opened_of_visible hnode houter

end Scoped

end Facts

end RouteTypes
