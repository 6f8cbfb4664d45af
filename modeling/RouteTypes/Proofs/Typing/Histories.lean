-- Scopes as their history tells them. Scopes are made within others, given to nodes, and bind names; what is
-- asked of them later can be answered from what was done, in its order: a name stands for what the nearest scope
-- around declared it as first, and a node has the scope that it was given last.
import RouteTypes.Proofs.Typing.Scopes

namespace RouteTypes

/-! ## Histories -/

/-- What can be done to the scopes of a program. -/
inductive ScopeChange where
  | add (parent : ScopeId) (owner : NodeId)
  | setOwner (owner : NodeId) (scope : ScopeId)
  | declare (scope : ScopeId) (sort : NameSort) (name : String) (symbol : SymbolId)

namespace ScopeChange

/-- The scopes after a change. A declaration of a name that is taken leaves them as they are. -/
def apply (tree : ScopeTree) : ScopeChange → ScopeTree
  | add parent owner => (tree.add parent owner).2
  | setOwner owner scope => tree.setOwner owner scope
  | declare scope sort name symbol =>
    match tree.declare scope sort name symbol with
    | .ok after => after
    | .error _ => tree

/-- The scope that has to be there for the change. -/
def needs? : ScopeChange → Option ScopeId
  | add parent _ => some parent
  | setOwner _ _ => none
  | declare scope _ _ _ => some scope

/-- The scope around the one that the change makes, if it makes one. -/
def parent? : ScopeChange → Option ScopeId
  | add parent _ => some parent
  | _ => none

/-- What the change declares the name as. -/
def symbol? (scope : ScopeId) (sort : NameSort) (name : String) : ScopeChange → Option SymbolId
  | declare scope' sort' name' symbol =>
    if (scope', sort', name') = (scope, sort, name) then some symbol else none
  | _ => none

end ScopeChange

/-- Changes of scopes, the first one in front. They start from the global scope alone. -/
abbrev ScopeHistory := List ScopeChange

namespace ScopeHistory

/-- The scopes in the end. -/
def run (history : ScopeHistory) : ScopeTree := history.foldl ScopeChange.apply ScopeTree.new

/-! ### What a history says -/

/-- The scopes around the scopes that are made, in the order of their numbers. None is around the global one. -/
def parents (history : ScopeHistory) : List (Option ScopeId) :=
  none :: (history.filterMap ScopeChange.parent?).map some

/-- How many scopes there are. -/
def count (history : ScopeHistory) : Nat := (history.parents).length

def parent? (history : ScopeHistory) (scope : ScopeId) : Option ScopeId := history.parents[scope.index]?.join

/-- The first symbol that the name was declared as in the scope itself. -/
def declared? (history : ScopeHistory) (scope : ScopeId) (sort : NameSort) (name : String) : Option SymbolId :=
  history.findSome? (ScopeChange.symbol? scope sort name)

/-- Which scope each node is given, in the order in which that is done, if the next scope has that number. -/
def gifts : ScopeHistory → Nat → List (NodeId × ScopeId)
  | [], _ => []
  | .add _ owner :: rest, next => (owner, ⟨next⟩) :: gifts rest (next + 1)
  | .setOwner owner scope :: rest, next => (owner, scope) :: gifts rest next
  | .declare .. :: rest, next => gifts rest next

/-- The scope that the node was given last. -/
def owned? (history : ScopeHistory) (node : NodeId) : Option ScopeId :=
  ((history.gifts 1).reverse.find? (·.1 = node)).map (·.2)

/-- Changes that each find the scope that they need. -/
inductive Possible : ScopeHistory → Prop
  | nil : Possible []
  | snoc {history : ScopeHistory} {change : ScopeChange} : Possible history →
      (∀ scope, change.needs? = some scope → scope.index < count history) → Possible (history ++ [change])

/-- The way from a scope to the outermost one around it. -/
inductive Outwards (history : ScopeHistory) : ScopeId → List ScopeId → Prop
  | last {scope : ScopeId} : history.parent? scope = none → Outwards history scope [scope]
  | step {scope outer : ScopeId} {path : List ScopeId} : history.parent? scope = some outer →
      Outwards history outer path → Outwards history scope (scope :: path)

/-- A name that the scope declares can be used in the other one: the one is around the other, and no scope
between declares the name. -/
def Reaches (history : ScopeHistory) (scope : ScopeId) (sort : NameSort) (name : String) (inside : ScopeId) :
    Prop :=
  ∃ before behind, history.Outwards inside (before ++ scope :: behind) ∧
    ∀ inner ∈ before, history.declared? inner sort name = none

/-- What a declaration of the name in the scope has changed, among scopes that have the history besides: the name
stands for the symbol wherever it reaches, and nothing else. -/
structure Declares (history : ScopeHistory) (scope : ScopeId) (sort : NameSort) (name : String) (symbol : SymbolId)
    (before after : ScopeTree) : Prop where
  own : after.getLocal scope sort name = some symbol
  locals : ∀ {scope' sort' name'}, (scope', sort', name') ≠ (scope, sort, name) →
    after.getLocal scope' sort' name' = before.getLocal scope' sort' name'
  reached : ∀ {inside}, history.Reaches scope sort name inside → after.lookup inside sort name = some symbol
  lookups : ∀ {inside sort' name'}, ¬ ((sort', name') = (sort, name) ∧ history.Reaches scope sort name inside) →
    after.lookup inside sort' name' = before.lookup inside sort' name'
  owners : ∀ node, after.ownedBy node = before.ownedBy node

/-! ### One change more -/

section

variable {history : ScopeHistory} {change : ScopeChange}

theorem run_snoc : run (history ++ [change]) = change.apply history.run := by
  rw [run, List.foldl_append]
  rfl

theorem parents_snoc :
    parents (history ++ [change]) = history.parents ++ change.parent?.toList.map some := by
  rw [parents, parents, List.filterMap_append, List.map_append, List.cons_append]
  cases hparent : change.parent? with
  | none => rw [List.filterMap_cons_none hparent]; rfl
  | some parent => rw [List.filterMap_cons_some hparent]; rfl

theorem count_snoc : count (history ++ [change]) = history.count + change.parent?.toList.length := by
  rw [count, parents_snoc, List.length_append, List.length_map]
  rfl

theorem parent?_snoc_none (h : change.parent? = none) (scope : ScopeId) :
    (history ++ [change] : ScopeHistory).parent? scope = history.parent? scope := by
  rw [parent?, parents_snoc, h, parent?]
  simp

theorem declared?_snoc (scope : ScopeId) (sort : NameSort) (name : String) :
    declared? (history ++ [change]) scope sort name =
      (history.declared? scope sort name).or (change.symbol? scope sort name) := by
  rw [declared?, declared?, List.findSome?_append]
  cases hsymbol : change.symbol? scope sort name <;> simp [List.findSome?, hsymbol]

/-- What is given by one change, if the next scope has that number. -/
theorem gifts_snoc (next : Nat) : gifts (history ++ [change]) next =
    history.gifts next ++ gifts [change] (next + (history.filterMap ScopeChange.parent?).length) := by
  induction history generalizing next with
  | nil => rfl
  | cons first rest ih =>
    cases first with
    | add parent owner =>
      have hlength : ((ScopeChange.add parent owner :: rest).filterMap ScopeChange.parent?).length =
          (rest.filterMap ScopeChange.parent?).length + 1 := rfl
      rw [List.cons_append, gifts, ih, gifts, List.cons_append, hlength, Nat.add_right_comm, Nat.add_assoc next]
    | setOwner owner scope => rw [List.cons_append, gifts, ih, gifts]; rfl
    | declare scope sort name symbol => rw [List.cons_append, gifts, ih, gifts]; rfl

theorem owned?_snoc (node : NodeId) : owned? (history ++ [change]) node =
    (((gifts [change] history.count).find? (·.1 = node)).map (·.2)).or (history.owned? node) := by
  have hnext : 1 + (history.filterMap ScopeChange.parent?).length = history.count := by
    rw [count, parents, List.length_cons, List.length_map, Nat.add_comm]
  have hone : (gifts [change] history.count).reverse = gifts [change] history.count := by
    cases change <;> rfl
  rw [owned?, gifts_snoc, hnext, List.reverse_append, hone, List.find?_append, owned?]
  cases (gifts [change] history.count).find? (·.1 = node) <;> rfl

end

/-! ## The scopes record their history -/

/-- The scopes say what the history says. Every scope but the global one lies in one with a lower number. -/
structure Records (history : ScopeHistory) (tree : ScopeTree) : Prop where
  size : tree.scopes.size = history.count
  around : ∀ scope : ScopeId, tree.parent? scope.index = history.parent? scope
  below : ∀ scope outer : ScopeId, history.parent? scope = some outer → outer.index < scope.index
  inner : ∀ scope : ScopeId, scope.index < history.count → scope ≠ ScopeTree.global →
    ∃ outer, history.parent? scope = some outer
  locals : ∀ scope sort name, tree.getLocal scope sort name = history.declared? scope sort name
  owners : ∀ node, tree.ownedBy node = history.owned? node

theorem records_new : Records [] ScopeTree.new where
  size := rfl
  around := by
    rintro ⟨index⟩
    cases index <;> rfl
  below := by
    rintro ⟨index⟩ outer h
    cases index <;> cases h
  inner := by
    rintro ⟨index⟩ hlt hne
    exact absurd (congrArg ScopeId.mk (Nat.lt_one_iff.mp hlt)) hne
  locals _ _ _ := ScopeTree.getLocal_new
  owners node := Table.get?_empty node

section

variable {history : ScopeHistory} {tree : ScopeTree} (h : Records history tree)

include h

/-- A new scope has the next number, and lies in the one that it was made in. -/
theorem Records.add {parent : ScopeId} (hparent : parent.index < history.count) (owner : NodeId) :
    Records (history ++ [.add parent owner]) (tree.add parent owner).2 := by
  have hcount : count (history ++ [.add parent owner]) = history.count + 1 := count_snoc
  have hparents : parents (history ++ [.add parent owner]) = history.parents ++ [some parent] := parents_snoc
  have hnew : ∀ scope : ScopeId, scope.index = history.count →
      parent? (history ++ [.add parent owner]) scope = some parent := by
    intro scope heq
    rw [parent?, hparents, heq, count, List.getElem?_concat_length]
    rfl
  have hold : ∀ scope : ScopeId, scope.index ≠ history.count →
      parent? (history ++ [.add parent owner]) scope = history.parent? scope := by
    intro scope hne
    rw [parent?, hparents, parent?, List.getElem?_append]
    split
    · rfl
    · rename_i hge
      have hge : history.count ≤ scope.index := Nat.le_of_not_lt hge
      rw [List.getElem?_eq_none hge, List.getElem?_eq_none]
      rw [List.length_singleton]
      have : history.count = (parents history).length := rfl
      omega
  refine ⟨?_, ?_, ?_, ?_, ?_, ?_⟩
  · rw [hcount, ← h.size]
    exact Array.size_push ..
  · intro scope
    rcases Nat.lt_trichotomy scope.index history.count with hlt | heq | hgt
    · rw [hold scope (Nat.ne_of_lt hlt), ScopeTree.parent?_add (h.size ▸ hlt), h.around]
    · rw [hnew scope heq, heq, ← h.size, ScopeTree.parent?, ScopeTree.add]
      dsimp only
      rw [Array.getElem?_push_size]
      rfl
    · rw [hold scope (Nat.ne_of_gt hgt), ← h.around, ScopeTree.parent?, ScopeTree.parent?, ScopeTree.add]
      dsimp only
      have := h.size
      rw [Array.getElem?_eq_none (by rw [Array.size_push]; omega), Array.getElem?_eq_none (by omega)]
  · intro scope outer houter
    by_cases heq : scope.index = history.count
    · rw [hnew scope heq] at houter
      cases houter
      omega
    · exact h.below scope outer (hold scope heq ▸ houter)
  · intro scope hlt hne
    by_cases heq : scope.index = history.count
    · exact ⟨parent, hnew scope heq⟩
    · rw [hold scope heq]
      exact h.inner scope (by omega) hne
  · intro scope sort name
    rw [ScopeTree.getLocal_add_eq, h.locals, declared?_snoc]
    exact (Option.or_none).symm
  · intro node
    have hget : (tree.add parent owner).2.ownedBy node =
        if owner = node then some ⟨history.count⟩ else tree.ownedBy node := by
      rw [← h.size]
      exact Table.get?_insert _ _ _ _
    rw [hget, owned?_snoc, h.owners, gifts, gifts, List.find?_cons]
    split <;> rename_i heq <;> simp [heq]

theorem Records.setOwner (owner : NodeId) (given : ScopeId) :
    Records (history ++ [.setOwner owner given]) (tree.setOwner owner given) := by
  have hcount : count (history ++ [.setOwner owner given]) = history.count := count_snoc
  have hparent : ∀ scope, parent? (history ++ [.setOwner owner given]) scope = history.parent? scope :=
    parent?_snoc_none rfl
  refine ⟨?_, ?_, ?_, ?_, ?_, ?_⟩
  · rw [hcount, ← h.size]
    rfl
  · intro scope
    rw [hparent, ← h.around]
    rfl
  · intro scope outer houter
    exact h.below scope outer (hparent scope ▸ houter)
  · intro scope hlt hne
    rw [hparent]
    exact h.inner scope (hcount ▸ hlt) hne
  · intro scope sort name
    rw [declared?_snoc, ← h.locals]
    exact (Option.or_none).symm
  · intro node
    have hget : (tree.setOwner owner given).ownedBy node = if owner = node then some given else tree.ownedBy node :=
      Table.get?_insert _ _ _ _
    rw [hget, owned?_snoc, h.owners, gifts, gifts, List.find?_cons]
    split <;> rename_i heq <;> simp [heq]

/-- A declaration binds its name, if that is free, and changes nothing else. -/
theorem Records.declare {scope : ScopeId} (hscope : scope.index < history.count) (sort : NameSort) (name : String)
    (symbol : SymbolId) : Records (history ++ [.declare scope sort name symbol])
      ((ScopeChange.declare scope sort name symbol).apply tree) := by
  have hcount : count (history ++ [.declare scope sort name symbol]) = history.count := count_snoc
  have hparent : ∀ scope', parent? (history ++ [.declare scope sort name symbol]) scope' = history.parent? scope' :=
    parent?_snoc_none rfl
  have hbinds : ScopeTree.Binds scope sort name symbol tree
      ((ScopeChange.declare scope sort name symbol).apply tree) := by
    rw [ScopeChange.apply]
    split
    · exact ScopeTree.binds_declare (h.size ▸ hscope) ‹_›
    · rename_i existing herror
      rw [ScopeTree.declare] at herror
      split at herror
      · exact .of_some ‹_›
      · cases herror
  refine ⟨?_, ?_, ?_, ?_, ?_, ?_⟩
  · rw [hbinds.size, hcount, h.size]
  · intro scope'
    rw [hbinds.parents, hparent, h.around]
  · intro scope' outer houter
    exact h.below scope' outer (hparent scope' ▸ houter)
  · intro scope' hlt hne
    rw [hparent]
    exact h.inner scope' (hcount ▸ hlt) hne
  · intro scope' sort' name'
    rw [declared?_snoc, ← h.locals, ScopeChange.symbol?]
    split
    · rename_i heq
      cases heq
      exact hbinds.own
    · rename_i hne
      rw [hbinds.other fun heq => hne heq.symm, Option.or_none]
  · intro node
    rw [owned?_snoc, ← h.owners, ScopeTree.ownedBy, hbinds.owners]
    rfl

/-- One step: a change that finds the scope that it needs is recorded. -/
theorem Records.apply {change : ScopeChange}
    (hneeds : ∀ scope, change.needs? = some scope → scope.index < history.count) :
    Records (history ++ [change]) (change.apply tree) := by
  cases change with
  | add parent owner => exact h.add (hneeds parent rfl) owner
  | setOwner owner scope => exact h.setOwner owner scope
  | declare scope sort name symbol => exact h.declare (hneeds scope rfl) sort name symbol

end

/-- A whole run: whatever was done, the scopes record it. -/
theorem Possible.records {history : ScopeHistory} (h : Possible history) : Records history history.run := by
  induction h with
  | nil => exact records_new
  | snoc _ hneeds ih =>
    rw [run_snoc]
    exact ih.apply hneeds

/-! ## Looking outwards -/

theorem findSome?_congr {α β : Type} {f g : α → Option β} {row : List α} (h : ∀ x ∈ row, f x = g x) :
    row.findSome? f = row.findSome? g := by
  induction row with
  | nil => rfl
  | cons first rest ih =>
    rw [List.findSome?_cons, List.findSome?_cons, h first List.mem_cons_self,
      ih fun x hx => h x (List.mem_cons_of_mem _ hx)]

theorem Outwards.unique {history : ScopeHistory} {scope : ScopeId} {path other : List ScopeId}
    (h : history.Outwards scope path) (h' : history.Outwards scope other) : path = other := by
  induction h generalizing other with
  | last hnone =>
    cases h' with
    | last => rfl
    | step hsome => cases hnone.symm.trans hsome
  | step hsome _ ih =>
    cases h' with
    | last hnone => cases hnone.symm.trans hsome
    | step hsome' hrest =>
      cases hsome.symm.trans hsome'
      rw [ih hrest]

section

variable {history : ScopeHistory} {tree : ScopeTree} (h : Records history tree)

include h

/-- Looking outwards ends, since the scopes around have lower numbers. -/
theorem Records.outwards (scope : ScopeId) : history.Outwards scope (tree.path scope) := by
  have hparent := h.around scope
  rw [ScopeTree.parent?] at hparent
  rw [ScopeTree.path, hparent]
  split
  · exact .last ‹_›
  · rename_i outer houter
    have hbelow := h.below scope outer houter
    rw [if_pos hbelow]
    exact .step houter (Records.outwards outer)
termination_by scope.index

/-- It ends with the global scope. -/
theorem Records.global_last {scope : ScopeId} (hscope : scope.index < history.count) :
    (tree.path scope).getLast? = some ScopeTree.global := by
  have hparent := h.around scope
  rw [ScopeTree.parent?] at hparent
  rw [ScopeTree.path, hparent]
  by_cases hglobal : scope = ScopeTree.global
  · have hnone : history.parent? scope = none := by
      refine Option.eq_none_iff_forall_ne_some.mpr fun outer houter => ?_
      have := h.below scope outer houter
      rw [hglobal] at this
      exact absurd this (Nat.not_lt_zero _)
    rw [hnone, hglobal]
    rfl
  · obtain ⟨outer, houter⟩ := h.inner scope hscope hglobal
    have hbelow := h.below scope outer houter
    have hlast := Records.global_last (Nat.lt_trans hbelow hscope)
    rw [houter]
    dsimp only
    rw [if_pos hbelow, List.getLast?_cons, hlast]
    rfl
termination_by scope.index

theorem Records.lookup_eq {scope : ScopeId} {path : List ScopeId} (hpath : history.Outwards scope path)
    (sort : NameSort) (name : String) :
    tree.lookup scope sort name = path.findSome? (history.declared? · sort name) := by
  rw [ScopeTree.lookup, (h.outwards scope).unique hpath]
  exact congrArg path.findSome? (funext fun inner => h.locals inner sort name)

theorem Records.declare_eq (scope : ScopeId) (sort : NameSort) (name : String) (symbol : SymbolId) :
    tree.declare scope sort name symbol = match history.declared? scope sort name with
      | some bound => .error bound
      | none => .ok ((ScopeChange.declare scope sort name symbol).apply tree) := by
  rw [← h.locals, ScopeChange.apply, ScopeTree.declare]
  cases tree.getLocal scope sort name <;> rfl

end

/-! ## A declaration more -/

theorem possible_snoc_iff {history : ScopeHistory} {change : ScopeChange} : Possible (history ++ [change]) ↔
    Possible history ∧ ∀ scope, change.needs? = some scope → scope.index < history.count := by
  refine ⟨fun h => ?_, fun h => h.1.snoc h.2⟩
  generalize hall : history ++ [change] = all at h
  cases h with
  | nil => exact absurd hall (List.append_ne_nil_of_right_ne_nil _ (List.cons_ne_nil _ _))
  | snoc hbefore hneeds =>
    obtain ⟨rfl, rfl⟩ := List.append_singleton_inj.mp hall
    exact ⟨hbefore, hneeds⟩

section

variable (history later : ScopeHistory) (scope : ScopeId) (sort : NameSort) (name : String) (symbol : SymbolId)

/-- The history with a declaration within. -/
abbrev withDeclaration : ScopeHistory := history ++ .declare scope sort name symbol :: later

theorem parents_withDeclaration :
    (withDeclaration history later scope sort name symbol).parents = parents (history ++ later) := by
  rw [withDeclaration, parents, parents, List.filterMap_append, List.filterMap_append,
    List.filterMap_cons_none rfl]

theorem parent?_withDeclaration (inside : ScopeId) :
    (withDeclaration history later scope sort name symbol).parent? inside = parent? (history ++ later) inside := by
  rw [parent?, parents_withDeclaration, parent?]

theorem gifts_withDeclaration (next : Nat) :
    (withDeclaration history later scope sort name symbol).gifts next = gifts (history ++ later) next := by
  induction history generalizing next with
  | nil => rfl
  | cons first rest ih =>
    cases first with
    | add parent owner => exact congrArg _ (ih (next + 1))
    | setOwner owner scope => exact congrArg _ (ih next)
    | declare scope sort name symbol => exact ih next

theorem owned?_withDeclaration (node : NodeId) :
    (withDeclaration history later scope sort name symbol).owned? node = owned? (history ++ later) node := by
  rw [owned?, gifts_withDeclaration, owned?]

variable {history later scope sort name symbol}

theorem Outwards.withDeclaration {inside : ScopeId} {path : List ScopeId}
    (h : Outwards (history ++ later) inside path) :
    (withDeclaration history later scope sort name symbol).Outwards inside path := by
  induction h with
  | last hnone => exact .last ((parent?_withDeclaration history later scope sort name symbol _).trans hnone)
  | step hsome _ ih =>
    exact .step ((parent?_withDeclaration history later scope sort name symbol _).trans hsome) ih

theorem possible_withDeclaration (hscope : scope.index < history.count) (h : Possible (history ++ later)) :
    Possible (withDeclaration history later scope sort name symbol) := by
  induction later using List.reverseRecOn with
  | nil =>
    rw [List.append_nil] at h
    refine h.snoc fun other hother => ?_
    cases hother
    exact hscope
  | append_singleton later change ih =>
    rw [← List.append_assoc] at h
    obtain ⟨hbefore, hneeds⟩ := possible_snoc_iff.mp h
    have hall : withDeclaration history (later ++ [change]) scope sort name symbol =
        withDeclaration history later scope sort name symbol ++ [change] := by
      rw [withDeclaration, withDeclaration, List.append_assoc, List.cons_append]
    rw [hall]
    refine (ih hbefore).snoc fun other hother => ?_
    rw [count, parents_withDeclaration]
    exact hneeds other hother

/-- A name that was free is declared as the symbol, and all others as they are without. -/
theorem declared?_withDeclaration (hfree : history.declared? scope sort name = none) (scope' : ScopeId)
    (sort' : NameSort) (name' : String) :
    (withDeclaration history later scope sort name symbol).declared? scope' sort' name' =
      if (scope, sort, name) = (scope', sort', name') then some symbol
      else declared? (history ++ later) scope' sort' name' := by
  rw [declared?, List.findSome?_append, List.findSome?_cons, ScopeChange.symbol?]
  by_cases hsame : (scope, sort, name) = (scope', sort', name')
  · cases hsame
    rw [declared?] at hfree
    rw [hfree, if_pos rfl, if_pos rfl]
    rfl
  · rw [if_neg hsame, if_neg hsame, declared?, List.findSome?_append]

/-- Where the declared name reaches, it stands for the symbol. -/
theorem findSome?_reached (hfree : history.declared? scope sort name = none) {before behind : List ScopeId}
    (hbefore : ∀ inner ∈ before, declared? (history ++ later) inner sort name = none) :
    (before ++ scope :: behind).findSome?
      ((withDeclaration history later scope sort name symbol).declared? · sort name) = some symbol := by
  induction before with
  | nil =>
    rw [List.nil_append, List.findSome?_cons, declared?_withDeclaration hfree, if_pos rfl]
  | cons inner before ih =>
    rw [List.cons_append, List.findSome?_cons, declared?_withDeclaration hfree,
      hbefore inner List.mem_cons_self]
    split
    · rename_i found hfound
      split at hfound
      · exact hfound.symm
      · cases hfound
    · exact ih fun inner hinner => hbefore inner (List.mem_cons_of_mem _ hinner)

/-- Where it does not, names stand for what they stand for without. -/
theorem findSome?_unreached (hfree : history.declared? scope sort name = none) {inside : ScopeId}
    {path : List ScopeId} (hpath : Outwards (history ++ later) inside path) {sort' : NameSort} {name' : String}
    (hunreached : ¬ ((sort', name') = (sort, name) ∧ Reaches (history ++ later) scope sort name inside)) :
    path.findSome? ((withDeclaration history later scope sort name symbol).declared? · sort' name') =
      path.findSome? (declared? (history ++ later) · sort' name') := by
  have hother : ∀ {row : List ScopeId}, (∀ inner ∈ row, (scope, sort, name) ≠ (inner, sort', name')) →
      row.findSome? ((withDeclaration history later scope sort name symbol).declared? · sort' name') =
        row.findSome? (declared? (history ++ later) · sort' name') := fun hrow =>
    findSome?_congr fun inner hinner => by rw [declared?_withDeclaration hfree, if_neg (hrow inner hinner)]
  by_cases hname : (sort', name') = (sort, name)
  · cases hname
    by_cases hmem : scope ∈ path
    · obtain ⟨before, behind, rfl, hnotMem⟩ := List.eq_append_cons_of_mem hmem
      have hshadow : ¬ ∀ inner ∈ before, declared? (history ++ later) inner sort name = none :=
        fun hnone => hunreached ⟨rfl, before, behind, hpath, hnone⟩
      -- A scope before it on the way declares the name, and the search ends there.
      obtain ⟨found, hfound⟩ := Option.ne_none_iff_exists'.mp (mt List.findSome?_eq_none_iff.mp hshadow)
      rw [List.findSome?_append, List.findSome?_append, hother, hfound]
      · rfl
      · rintro inner hinner heq
        cases heq
        exact hnotMem hinner
    · exact hother fun inner hinner heq => hmem (by cases heq; exact hinner)
  · exact hother fun inner _ heq => hname (by cases heq; rfl)

/-- A name that was free stands for the symbol from then on wherever the declaration reaches, and nothing else is
changed, whatever is done later. -/
theorem declares_withDeclaration (hscope : scope.index < history.count)
    (hfree : history.declared? scope sort name = none) (hlater : Possible (history ++ later)) :
    Declares (history ++ later) scope sort name symbol (run (history ++ later))
      (run (withDeclaration history later scope sort name symbol)) := by
  have hbefore := hlater.records
  have hpossible : Possible (withDeclaration history later scope sort name symbol) :=
    possible_withDeclaration hscope hlater
  have hafter := hpossible.records
  refine ⟨?_, ?_, ?_, ?_, ?_⟩
  · rw [hafter.locals, declared?_withDeclaration hfree, if_pos rfl]
  · intro scope' sort' name' hne
    rw [hafter.locals, declared?_withDeclaration hfree, if_neg fun heq => hne heq.symm, hbefore.locals]
  · rintro inside ⟨before, behind, hpath, hnone⟩
    rw [hafter.lookup_eq hpath.withDeclaration]
    exact findSome?_reached hfree hnone
  · intro inside sort' name' hunreached
    have hpath := hbefore.outwards inside
    rw [hafter.lookup_eq hpath.withDeclaration, hbefore.lookup_eq hpath]
    exact findSome?_unreached hfree hpath hunreached
  · intro node
    rw [hafter.owners, hbefore.owners, owned?_withDeclaration]

/-- A declaration of a name that is taken leaves nothing behind. -/
theorem run_withDeclaration {bound : SymbolId} (h : history.run.declare scope sort name symbol = .error bound) :
    run (withDeclaration history later scope sort name symbol) = run (history ++ later) := by
  have happly : (ScopeChange.declare scope sort name symbol).apply history.run = history.run := by
    rw [ScopeChange.apply, h]
  rw [withDeclaration, run, List.foldl_append, List.foldl_cons, ← run, happly, run, run, List.foldl_append]

end

/-! ## Answers from the history -/

/-- Whatever was done to the scopes, looking up a name ends at the global scope and gives what the nearest scope
around that declares the name declared it as first. A node has the scope that it was given last. Declaring a name
that is taken tells what it is taken for and changes no answer ever; declaring one that is free changes what it
stands for where the declaration reaches, and no other answer. -/
theorem scopes_answer_from_history {history : ScopeHistory} (h : Possible history) :
    (∀ scope, scope.index < history.count → ∃ path, history.Outwards scope path ∧
      path.getLast? = some ScopeTree.global ∧ ∀ sort name,
        history.run.lookup scope sort name = path.findSome? (history.declared? · sort name)) ∧
    (∀ scope sort name, history.run.getLocal scope sort name = history.declared? scope sort name) ∧
    (∀ node, history.run.ownedBy node = history.owned? node) ∧
    ∀ scope sort name symbol, scope.index < history.count →
      (∀ bound, history.declared? scope sort name = some bound →
        history.run.declare scope sort name symbol = .error bound ∧
        ∀ later, run (withDeclaration history later scope sort name symbol) = run (history ++ later)) ∧
      (history.declared? scope sort name = none →
        history.run.declare scope sort name symbol =
          .ok (run (withDeclaration history [] scope sort name symbol)) ∧
        ∀ later, Possible (history ++ later) →
          Declares (history ++ later) scope sort name symbol (run (history ++ later))
            (run (withDeclaration history later scope sort name symbol))) := by
  have hrecords := h.records
  refine ⟨?_, hrecords.locals, hrecords.owners, ?_⟩
  · intro scope hscope
    exact ⟨_, hrecords.outwards scope, hrecords.global_last hscope,
      hrecords.lookup_eq (hrecords.outwards scope)⟩
  · intro scope sort name symbol hscope
    have hdeclare := hrecords.declare_eq scope sort name symbol
    refine ⟨fun bound hbound => ?_, fun hfree => ?_⟩
    · rw [hbound] at hdeclare
      exact ⟨hdeclare, fun later => run_withDeclaration hdeclare⟩
    · rw [hfree] at hdeclare
      refine ⟨?_, fun later hlater => declares_withDeclaration hscope hfree hlater⟩
      rw [hdeclare, withDeclaration, run_snoc]

/-- Two scopes that declare the same name. -/
def shadowing : ScopeHistory :=
  [.add ScopeTree.global ⟨.program, .block, ⟨0, 1⟩⟩, .declare ScopeTree.global .value "x" ⟨1⟩,
    .declare ⟨1⟩ .value "x" ⟨2⟩]

theorem possible_shadowing : Possible shadowing := by
  refine .snoc (.snoc (.snoc .nil ?_) ?_) ?_
  all_goals
    rintro _ ⟨⟩
    decide

/-- The inner scope shadows the outer one, both still have their own names, and the inner one declares its name
only once. -/
theorem shadowing_answers_from_history : Possible shadowing ∧
    shadowing.run.lookup ⟨1⟩ .value "x" = some ⟨2⟩ ∧
    shadowing.run.lookup ScopeTree.global .value "x" = some ⟨1⟩ ∧
    shadowing.run.ownedBy ⟨.program, .block, ⟨0, 1⟩⟩ = some ⟨1⟩ ∧
    shadowing.run.declare ⟨1⟩ .value "x" ⟨3⟩ = .error ⟨2⟩ ∧
    (run (withDeclaration shadowing [] ⟨1⟩ .type "x" ⟨4⟩)).lookup ⟨1⟩ .type "x" = some ⟨4⟩ := by
  have hglobal : shadowing.Outwards ScopeTree.global [ScopeTree.global] := .last rfl
  have hinner : shadowing.Outwards ⟨1⟩ [⟨1⟩, ScopeTree.global] := .step rfl hglobal
  obtain ⟨hlookups, -, howners, hdeclares⟩ := scopes_answer_from_history possible_shadowing
  obtain ⟨path, hpath, -, hone⟩ := hlookups ⟨1⟩ (by decide)
  obtain ⟨path', hpath', -, hzero⟩ := hlookups ScopeTree.global (by decide)
  cases hpath.unique hinner
  cases hpath'.unique hglobal
  have htaken := (hdeclares ⟨1⟩ .value "x" ⟨3⟩ (by decide)).1 ⟨2⟩ (by decide)
  have hfree := (hdeclares ⟨1⟩ .type "x" ⟨4⟩ (by decide)).2 (by decide)
  have hreaches : Reaches shadowing ⟨1⟩ .type "x" ⟨1⟩ := ⟨[], _, hinner, fun _ h => absurd h List.not_mem_nil⟩
  refine ⟨possible_shadowing, (hone _ _).trans (by decide), (hzero _ _).trans (by decide),
    (howners _).trans (by decide), htaken.1, (hfree.2 [] ?_).reached ?_⟩
  · rw [List.append_nil]
    exact possible_shadowing
  · rw [List.append_nil]
    exact hreaches

end ScopeHistory

end RouteTypes
