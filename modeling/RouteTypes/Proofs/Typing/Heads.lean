-- The first declarations of symbols. While the names of a tree are declared, a symbol comes up with the node that is
-- being entered, so the first declarations are nodes of the tree in the order of the tree, and no two symbols of a
-- program have the same one.
import RouteTypes.Proofs.Typing.Binding

namespace RouteTypes

namespace Facts

variable {s s' s'' : Facts} {nodes more : List Node} {node : Node}

/-- The first declarations of the symbols, one symbol after the other. -/
def heads (s : Facts) : List (Option NodeId) := s.symbols.toList.map fun symbol => symbol.declarations.head?.map Node.id

theorem getElem?_heads {id : SymbolId} (hnode : node ∈ (s.symbol id).declarations.head?) :
    s.heads[id.index]? = some (some node.id) := by
  by_cases hid : s.HasSymbol id
  · have hsymbol : s.symbols.toList[id.index]? = some (s.symbol id) := by
      rw [Array.getElem?_toList, Array.getElem?_eq_getElem hid, symbol, Array.getD_eq_getD_getElem?,
        Array.getElem?_eq_getElem hid]
      rfl
    have hhead : (s.symbol id).declarations.head? = some node := hnode
    rw [heads, List.getElem?_map, hsymbol, Option.map_some, hhead]
    rfl
  · rw [symbol, Array.getD_eq_getD_getElem?, Array.getElem?_eq_none (Nat.not_lt.mp hid)] at hnode
    cases hnode

/-- The first declarations of symbols that come up are some of the nodes, in their order; those that there are stay. -/
def Heads (s s' : Facts) (nodes : List Node) : Prop :=
  none ∉ s.heads → ∃ found : List Node, found.Sublist nodes ∧ s'.heads = s.heads ++ found.map (some ·.id)

namespace Heads

theorem of_same (h : s'.symbols = s.symbols) (nodes : List Node) : Heads s s' nodes := fun _ =>
  ⟨[], List.nil_sublist nodes, by rw [heads, h, heads, List.map_nil, List.append_nil]⟩

theorem trans (h : Heads s s' nodes) (h' : Heads s' s'' more) : Heads s s'' (nodes ++ more) := by
  intro hsome
  obtain ⟨found, hfound, hheads⟩ := h hsome
  have hsome' : none ∉ s'.heads := by
    rw [hheads]
    intro hnone
    rcases List.mem_append.mp hnone with hnone | hnone
    · exact hsome hnone
    · obtain ⟨node, -, hnode⟩ := List.mem_map.mp hnone
      cases hnode
  obtain ⟨others, hothers, hheads'⟩ := h' hsome'
  exact ⟨found ++ others, hfound.append hothers, by rw [hheads', hheads, List.map_append, List.append_assoc]⟩

/-- Where no symbol comes up first, all nodes are left to what follows. -/
theorem first (h : Heads s s' []) (h' : Heads s' s'' nodes) : Heads s s'' nodes := h.trans h'

theorem behind (h : Heads s s' nodes) (h' : Heads s' s'' []) : Heads s s'' nodes := by
  have hboth := h.trans h'
  rwa [List.append_nil] at hboth

end Heads

/-! ## Declarations -/

theorem addSymbol_heads {symbol : Symbol} (h : symbol.declarations = [node]) :
    Heads s (s.addSymbol symbol).2 [node] := by
  intro _
  refine ⟨[node], List.Sublist.refl _, ?_⟩
  rw [heads, show (s.addSymbol symbol).2.symbols = s.symbols.push symbol from rfl, Array.toList_push, List.map_append,
    List.map_singleton, h]
  rfl

theorem addDeclaration_heads (id : SymbolId) (nodes : List Node) : Heads s (s.addDeclaration id nodes) [] := by
  intro hsome
  refine ⟨[], List.nil_sublist [], ?_⟩
  rw [List.map_nil, List.append_nil]
  refine List.ext_getElem? fun index => ?_
  rw [heads, heads, List.getElem?_map, List.getElem?_map, Array.getElem?_toList, Array.getElem?_toList, addDeclaration,
    Array.getElem?_modify]
  split
  · cases hsymbol : s.symbols[index]? with
    | none => rfl
    | some symbol =>
      -- A symbol that has a first declaration keeps it.
      cases hdeclarations : symbol.declarations with
      | nil =>
        refine absurd (List.mem_map.mpr ⟨symbol, ?_, ?_⟩) hsome
        · exact Array.mem_toList_iff.mpr (Array.mem_of_getElem? hsymbol)
        · rw [hdeclarations]
          rfl
      | cons first rest => simp [hdeclarations]
  · rfl

theorem symbols_bindName (scope : ScopeId) (sort : NameSort) (name : String) (id : SymbolId) :
    (s.bindName scope sort name id).symbols = s.symbols := by
  unfold bindName
  split <;> rfl

theorem declare_heads (s : Facts) (node : Node) (scope : ScopeId) (sort : NameSort) (kind : SymbolKind) :
    Heads s (s.declare node scope sort kind).2 [node] := by
  unfold declare
  split
  · exact .of_same rfl _
  · have hadded : ∀ name, Heads s (s.addSymbol ⟨name, kind, [node], node.isOptional, none⟩).2 [node] :=
      fun name => addSymbol_heads rfl
    dsimp only
    split
    · split
      · exact (addDeclaration_heads _ _).first (.of_same rfl _)
      · exact (hadded _).behind (.of_same rfl _)
    · exact (hadded _).behind (.of_same (symbols_bindName _ _ _ _) _)

theorem enter_heads (s : Facts) (node : Node) (scope : ScopeId) : Heads s (s.enter node scope).2 [node] := by
  have hdeclares : ∀ (s : Facts) scope sort kind (s' : Facts), s'.symbols = (s.declare node scope sort kind).2.symbols →
      Heads s s' [node] :=
    fun s scope sort kind s' hsame => (declare_heads s node scope sort kind).behind (.of_same hsame _)
  unfold enter
  split
  · exact hdeclares _ _ _ _ _ rfl
  · exact hdeclares _ _ _ _ _ rfl
  · exact hdeclares _ _ _ _ _ rfl
  · exact (show Heads s (s.openScope node scope).2 [] from .of_same rfl []).first (declare_heads _ _ _ _ _)
  · have hclass := declare_heads s node scope .type .classDecl
    generalize s.declare node scope .type .classDecl = result at hclass
    obtain ⟨found, s₁⟩ := result
    cases found with
    | none => exact hclass.behind (.of_same rfl _)
    | some symbol => exact hclass.behind (.of_same (symbols_bindName _ _ _ _) _)
  · exact hdeclares _ _ _ _ _ rfl
  · exact hdeclares _ _ _ _ _ rfl
  · exact hdeclares _ _ _ _ _ rfl
  · split
    · exact .of_same rfl _
    · exact hdeclares _ _ _ _ _ rfl
  all_goals exact .of_same rfl _

/-! ## The walk -/

mutual

theorem bindPart_heads (source : Source) : ∀ (parent : Option Node) (scope : ScopeId) (part : Part) (s : Facts),
    Heads s (bindPart source parent scope part s) (Node.nodesIn source parent part)
  | _, _, .leaf _ _, _ => .of_same rfl _
  | parent, scope, .node span kind parts, s =>
    (enter_heads s ⟨source, kind, span, parts, parent⟩ scope).trans (bindParts_heads source _ _ parts _)

theorem bindParts_heads (source : Source) : ∀ (parent : Option Node) (scope : ScopeId) (parts : List Part) (s : Facts),
    Heads s (bindParts source parent scope parts s) (Node.nodesInAll source parent parts)
  | _, _, [], _ => .of_same rfl _
  | parent, scope, part :: rest, s =>
    (bindPart_heads source parent scope part s).trans (bindParts_heads source _ _ rest _)

end

theorem bindTree_heads (s : Facts) (root : Node) : Heads s (s.bindTree root) (below root) := by
  have hbelow : ∀ (scope : ScopeId) (opened : Facts), opened.symbols = s.symbols →
      Heads s (bindParts root.source (some root) scope root.parts opened) (below root) := fun scope opened hsame =>
    (Heads.of_same hsame []).first (bindParts_heads _ _ _ _ _)
  cases hsource : root.source with
  | prelude =>
    rw [bindTree_prelude hsource]
    exact hbelow _ _ rfl
  | program =>
    rw [bindTree_program hsource]
    exact hbelow _ _ rfl

theorem source_of_mem_below {root : Node} (h : node ∈ below root) : node.source = root.source :=
  Node.source_of_mem_all _ h

/-- No two symbols have the same node of the program as their first declaration. -/
theorem bound_head_unique {prelude root : Node} (hprelude : prelude.source = .prelude)
    (hdistinct : (below root).Pairwise fun a b => a.id ≠ b.id) {id id' : SymbolId} {node' : Node}
    (hnode : node ∈ ((bound prelude root).symbol id).declarations.head?)
    (hnode' : node' ∈ ((bound prelude root).symbol id').declarations.head?) (hsource : node.source = .program)
    (hsame : node.id = node'.id) : id = id' := by
  have hboth := (bindTree_heads Facts.initial prelude).trans (bindTree_heads _ root)
  obtain ⟨found, hfound, hheads⟩ := hboth List.not_mem_nil
  replace hheads : (bound prelude root).heads = found.map (some ·.id) := hheads
  have hapart : found.Pairwise fun a b => a.id = b.id → a.source ≠ .program := by
    refine (List.pairwise_append.mpr ⟨?_, hdistinct.imp fun hne heq => absurd heq hne, ?_⟩).sublist hfound
    · refine List.Pairwise.imp_mem.mpr (List.pairwise_of_forall fun a b ha _ _ => ?_)
      rw [source_of_mem_below ha, hprelude]
      decide
    · intro a ha b _ _
      rw [source_of_mem_below ha, hprelude]
      decide
  have hget : ∀ {id : SymbolId} {node : Node}, node ∈ ((bound prelude root).symbol id).declarations.head? →
      ∃ first, found[id.index]? = some first ∧ first.id = node.id := by
    intro id node hnode
    have hfirst := getElem?_heads hnode
    rw [hheads, List.getElem?_map] at hfirst
    obtain ⟨first, hfirst, hid⟩ := Option.map_eq_some_iff.mp hfirst
    exact ⟨first, hfirst, Option.some_inj.mp hid⟩
  obtain ⟨first, hfirst, hid⟩ := hget hnode
  obtain ⟨first', hfirst', hid'⟩ := hget hnode'
  have hprogram : ∀ {other : Node}, other.id = node.id → other.source = .program := fun heq =>
    (congrArg NodeId.source heq).trans hsource
  obtain ⟨hlt, hfirst⟩ := List.getElem?_eq_some_iff.mp hfirst
  obtain ⟨hlt', hfirst'⟩ := List.getElem?_eq_some_iff.mp hfirst'
  have hpairs := List.pairwise_iff_getElem.mp hapart
  rcases Nat.lt_trichotomy id.index id'.index with hless | heq | hless
  · refine absurd (hprogram hid) (hfirst ▸ hpairs id.index id'.index hlt hlt' hless ?_)
    rw [hfirst, hfirst', hid, hid', hsame]
  · exact congrArg SymbolId.mk heq
  · refine absurd (hprogram (hid'.trans hsame.symm)) (hfirst' ▸ hpairs id'.index id.index hlt' hlt hless ?_)
    rw [hfirst, hfirst', hid, hid', hsame]

end Facts

end RouteTypes
