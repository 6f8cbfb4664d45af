-- Numbers in the result of a check. Each one that is kept is the number of something, a copy comes behind what
-- it is made from, and a substitution has a type for each of its type parameters. So whatever is asked of the
-- result, and whatever is put for a type parameter, nothing is looked up behind the end of a row.
import RouteTypes.Proofs.Tree.Holding
import RouteTypes.Proofs.Typing.Aliases

namespace RouteTypes

/-! ## Numbers of something -/

section

variable (s : Facts)

structure ObjectType.InBounds (object : ObjectType) : Prop where
  symbol : ∀ id ∈ object.symbol, s.HasSymbol id
  members : ∀ id ∈ object.members, s.HasSymbol id
  calls : ∀ id ∈ object.calls, s.HasSignature id
  constructs : ∀ id ∈ object.constructs, s.HasSignature id
  stringIndex : ∀ id ∈ object.stringIndex, s.HasType id
  typeParams : ∀ id ∈ object.typeParams, s.HasSymbol id
  target : ∀ id ∈ object.target, s.HasType id
  typeArguments : ∀ id ∈ object.typeArguments, s.HasType id

def TypeData.InBounds : TypeData → Prop
  | .union members => ∀ id ∈ members, s.HasType id
  | .object type => type.InBounds s
  | .param id => s.HasSymbol id
  | _ => True

structure Signature.InBounds (signature : Signature) : Prop where
  typeParams : ∀ id ∈ signature.typeParams, s.HasSymbol id
  params : ∀ id ∈ signature.params, s.HasSymbol id
  returns : ∀ id ∈ signature.returns, s.HasType id
  instanceOf : ∀ id ∈ signature.instanceOf, s.HasSymbol id
  origin : ∀ id substitution, signature.origin = some (id, substitution) →
    s.HasSignature id ∧ s.HasSubstitution substitution

/-- There is a type for each type parameter. -/
structure Substitution.InBounds (substitution : Substitution) : Prop where
  params : ∀ id ∈ substitution.params, s.HasSymbol id
  types : ∀ id ∈ substitution.types, s.HasType id
  even : substitution.types.length = substitution.params.length

/-- All numbers that are kept are numbers of something. -/
structure Facts.InBounds : Prop where
  /-- A copy comes behind what it is made from. -/
  origins : ∀ id, s.HasSymbol id → ∀ origin substitution, (s.symbol id).origin = some (origin, substitution) →
    origin.index < id.index ∧ s.HasSubstitution substitution
  primitives : ∀ id : TypeId, id.index < TypeData.primitives.length → s.HasType id
  types : ∀ id, s.HasType id → (s.typeData id).InBounds s
  signatures : ∀ id, s.HasSignature id → (s.signature id).InBounds s
  substitutions : ∀ id, s.HasSubstitution id → (s.substitution id).InBounds s
  symbolTypes : ∀ symbol type, s.symbolTypes.get? symbol = some type → s.HasSymbol symbol ∧ s.HasType type
  expressionTypes : ∀ node type, s.expressionTypes.get? node = some type → s.HasType type
  writtenTypes : ∀ node type, s.writtenTypes.get? node = some type → s.HasType type
  resolutions : ∀ node symbol, s.resolutions.get? node = some symbol → s.HasSymbol symbol
  declarations : ∀ node symbol, s.declarations.get? node = some symbol → s.HasSymbol symbol
  aliases : ∀ symbol target, s.aliased? symbol = some target → s.HasSymbol symbol ∧ s.HasSymbol target
  arraySymbol : ∀ id ∈ s.arraySymbol, s.HasSymbol id
  problems : ∀ problem ∈ s.problems, problem.what.Closed s

end

/-- What is asked about numbers of something is answered with numbers of something, and the place of what is put
for a type parameter is one that there is. -/
structure Checked.StaysInBounds (checked : Checked) : Prop where
  members : ∀ type, ∀ id ∈ checked.members type, checked.facts.HasSymbol id
  property? : ∀ type name, ∀ id ∈ checked.property? type name, checked.facts.HasSymbol id
  calls : ∀ type, ∀ id ∈ checked.calls type, checked.facts.HasSignature id
  typeArguments : ∀ type, ∀ id ∈ checked.typeArguments type, checked.facts.HasType id
  returnType : ∀ id, checked.facts.HasSignature id → checked.facts.HasType (checked.returnType id)
  typeOfSymbol : ∀ id, checked.facts.HasType (checked.typeOfSymbol id)
  typeOfNode : ∀ node, checked.facts.HasType (checked.typeOfNode node)
  resolve : ∀ node, ∀ id ∈ checked.resolve node, checked.facts.HasSymbol id
  resolveAliased : ∀ node, ∀ id ∈ checked.resolveAliased node, checked.facts.HasSymbol id
  follow : ∀ id, checked.facts.HasSymbol id → checked.facts.HasSymbol (checked.follow id)
  declared? : ∀ node, ∀ id ∈ checked.declared? node, checked.facts.HasSymbol id
  /-- The way from copies to what they are made from ends where nothing is a copy. -/
  originOf : ∀ id, checked.facts.HasSymbol id → checked.facts.HasSymbol (checked.originOf id) ∧
    (checked.symbol (checked.originOf id)).origin = none
  places : ∀ id, checked.facts.HasSubstitution id → ∀ param place,
    (checked.facts.substitution id).place? param = some place → place < (checked.facts.substitution id).types.length

/-! ## Containers -/

/-- The prelude declares `Array` and `Promise` as classes or interfaces with no more than one type parameter. -/
def HasContainers (prelude : Tree) : Bool :=
  let facts := Facts.initial.bindTree (Node.ofTree .prelude prelude)
  ["Array", "Promise"].all fun name => (facts.scopes.getLocal ScopeTree.global .type name).any fun id =>
    ((facts.symbol id).kind = .classDecl ∨ (facts.symbol id).kind = .interface) &&
      (facts.typeParamNodes id).length ≤ 1

set_option maxRecDepth 100000 in
/-- The declarations that every program does see are such. -/
theorem prelude_hasContainers : HasContainers (Program.ofSource preludeSource).tree = true := by
  obtain ⟨chars, hchars, hcontainers⟩ : ∃ chars, preludeSource = String.ofList chars ∧
      HasContainers (treeOfChars chars) = true := by
    refine ⟨_, rfl, ?_⟩
    decide +kernel
  rw [hchars, Program.tree_ofList, hcontainers]

namespace Facts

variable {prelude : Tree}

theorem promiseSymbol_bound (prelude root : Node) : (bound prelude root).promiseSymbol =
    (bound prelude root).scopes.getLocal ScopeTree.global .type "Promise" :=
  rfl

/-- A program sees the containers as they are declared for every program. -/
theorem exists_container (h : HasContainers prelude = true) (text : String) {name : String}
    (hname : name ∈ ["Array", "Promise"]) :
    ∃ id, (bound (Node.ofTree .prelude prelude) (Program.ofSource text).root).scopes.getLocal
        ScopeTree.global .type name = some id ∧
      (bound (Node.ofTree .prelude prelude) (Program.ofSource text).root).TakesOne id := by
  obtain ⟨owner, hnamed, hwidens⟩ := bound_widens (Program.visible_closed text prelude)
    (.inl (Node.self_mem_descendants _)) (.inr (Node.self_mem_descendants _)) (Node.source_ofTree _ _)
    (Node.source_ofTree _ _)
  obtain ⟨found, hfound, hone⟩ := (Option.any_eq_true _ _).mp (List.all_eq_true.mp h name hname)
  obtain ⟨hkind, hparams⟩ := (Bool.and_eq_true _ _).mp hone
  obtain ⟨hhas, -⟩ := hnamed.scopes hfound
  obtain ⟨more, hsymbol⟩ := hwidens.symbol hhas
  refine ⟨found, hwidens.bindings hfound, ?_, ?_⟩
  · rw [hsymbol]
    exact of_decide_eq_true hkind
  · rw [arity, typeParamNodes, hwidens.head hnamed hhas]
    exact Nat.max_eq_left (of_decide_eq_true hparams)

theorem takesOne_bound (h : HasContainers prelude = true) (text : String) {name : String}
    (hname : name ∈ ["Array", "Promise"]) {id : SymbolId}
    (hid : id ∈ (bound (Node.ofTree .prelude prelude) (Program.ofSource text).root).scopes.getLocal
      ScopeTree.global .type name) :
    (bound (Node.ofTree .prelude prelude) (Program.ofSource text).root).TakesOne id := by
  obtain ⟨found, hfound, hone⟩ := exists_container h text hname
  rw [hfound] at hid
  cases hid
  exact hone

/-- Among the type parameters of a declaration stands nothing else, whatever the texts. -/
theorem Closed.listed {s : Facts} {preludeText text : String}
    (hs : s.Closed (Visible (Node.ofTree .prelude (Program.ofSource preludeText).tree) (Program.ofSource text).root))
    {id : SymbolId} (hid : s.HasSymbol id) : ∀ node ∈ s.typeParamNodes id, node.kind = .typeParam := by
  intro node hnode
  have hnodes := Program.visible_closed text (Program.ofSource preludeText).tree
  unfold typeParamNodes at hnode
  cases hhead : (s.symbol id).declarations.head? with
  | none =>
    rw [hhead] at hnode
    cases hnode
  | some declaration =>
    rw [hhead] at hnode
    obtain ⟨list, hlist, hnode⟩ := List.mem_flatMap.mp hnode
    obtain ⟨hchild, hkind⟩ := List.mem_filter.mp hlist
    rcases hnodes.child (hs.declarations_head? hid declaration hhead).known hchild with hin | hin
    · exact Node.typeParam_of_mem_children hin (beq_iff_eq.mp hkind) hnode
    · exact Node.typeParam_of_mem_children hin (beq_iff_eq.mp hkind) hnode

/-- What a constant stands for is what it is bound to or what its value refers to. -/
theorem Closed.hasSymbol_aliased? {known : Node → Prop} {s : Facts} (hs : s.Closed known) {id target : SymbolId}
    (h : s.aliased? id = some target) : s.HasSymbol target := by
  rw [Checked.aliased?_eq (Checked.kind_of_aliased? h)] at h
  rcases Option.or_eq_some_iff.mp h with hmember | ⟨-, hwritten⟩
  · exact hs.boundMembers id target hmember
  · obtain ⟨value, -, hresolve⟩ := Option.bind_eq_some_iff.mp hwritten
    split at hresolve
    · exact hs.resolutions _ target hresolve
    · cases hresolve

/-- Facts that are closed, and right about values, keep numbers of something. -/
theorem Closed.inBounds {known : Node → Prop} {s : Facts} (hs : s.Closed known) (haccesses : s.Accesses known [])
    (hregular : s.Regular) : s.InBounds where
  origins id hid _ _ horigin := ⟨hs.older id hid horigin, ((hs.symbol id hid).origin horigin).2⟩
  primitives _ hid := hs.hasType_primitive hid
  types id hid := by
    have hdata := hs.typeData id hid
    cases hown : s.typeData id with
    | object object =>
      rw [hown] at hdata
      have hobject : object.Closed s := hdata
      exact { hobject with members := fun id hid => (hobject.members id hid).has }
    | union members =>
      rw [hown] at hdata
      exact hdata
    | param symbol =>
      rw [hown] at hdata
      exact hdata
    | _ => trivial
  signatures id hid := { hs.signature id hid with origin := fun _ _ => (hs.signature id hid).origin }
  substitutions id hid := { hs.substitution id hid with even := ((hs.substitution id hid).even hregular).symm }
  symbolTypes symbol type htype := ⟨(haccesses.valued htype).1, hs.symbolTypes symbol type htype⟩
  expressionTypes := hs.expressionTypes
  writtenTypes := hs.writtenTypes
  resolutions := hs.resolutions
  declarations _ _ hsymbol := (hs.declarations hsymbol).1
  aliases _ _ halias :=
    ⟨Checked.hasSymbol_of_constant (Checked.kind_of_aliased? halias), hs.hasSymbol_aliased? halias⟩
  arraySymbol := hs.arraySymbol
  problems := hs.problems

end Facts

/-! ## What is asked of the result -/

theorem Facts.InBounds.hasType_any {s : Facts} (h : s.InBounds) : s.HasType .any := h.primitives _ (by decide)

/-- What is true of a part of each object type that keeps numbers of something is true of that part of any type. -/
theorem Facts.InBounds.ofObject {s : Facts} (h : s.InBounds) {α : Type} {part : ObjectType → List α}
    {holds : α → Prop} (hpart : ∀ object, ObjectType.InBounds s object → ∀ a ∈ part object, holds a) (type : TypeId) :
    ∀ a ∈ ((s.object? type).map part).getD [], holds a := by
  cases hobject : s.object? type with
  | none => exact fun a ha => absurd ha List.not_mem_nil
  | some object =>
    obtain ⟨htype, hdata⟩ := Facts.object?_eq_some hobject
    have hin := h.types type htype
    rw [hdata] at hin
    exact hpart object hin

theorem Substitution.InBounds.place?_lt {s : Facts} {substitution : Substitution} (h : substitution.InBounds s)
    {param : SymbolId} {place : Nat} (hplace : substitution.place? param = some place) :
    place < substitution.types.length := by
  rw [h.even]
  exact (List.findIdx?_eq_some_iff_getElem.mp hplace).1

namespace Checked

variable {checked : Checked} (h : checked.facts.InBounds)

include h

theorem originOf_inBounds {id : SymbolId} (hid : checked.facts.HasSymbol id) :
    checked.facts.HasSymbol (checked.originOf id) ∧ (checked.symbol (checked.originOf id)).origin = none := by
  rw [originOf]
  split
  · exact ⟨hid, ‹_›⟩
  · rename_i origin substitution horigin
    obtain ⟨hlt, -⟩ := h.origins id hid origin substitution horigin
    rw [if_pos hlt]
    exact originOf_inBounds (Nat.lt_trans hlt hid)
termination_by id.index

theorem followFor_inBounds (steps : Nat) {id : SymbolId} (hid : checked.facts.HasSymbol id) :
    checked.facts.HasSymbol (checked.followFor steps id) := by
  induction steps generalizing id with
  | zero => exact hid
  | succ steps ih =>
    rw [followFor]
    split
    · rename_i next hnext
      split
      · exact hid
      · exact ih (h.aliases id next hnext).2
    · exact hid

theorem members_inBounds : ∀ type, ∀ id ∈ checked.members type, checked.facts.HasSymbol id :=
  h.ofObject fun _ hobject => hobject.members

theorem typeOfSymbol_inBounds (id : SymbolId) : checked.facts.HasType (checked.typeOfSymbol id) := by
  unfold typeOfSymbol
  cases htype : checked.facts.symbolTypes.get? id with
  | none => exact h.hasType_any
  | some type => exact (h.symbolTypes id type htype).2

/-- What is asked of a result that keeps numbers of something is answered with such numbers. -/
theorem staysInBounds : checked.StaysInBounds where
  members := members_inBounds h
  property? type _ id hid := members_inBounds h type id (List.mem_of_find?_eq_some hid)
  calls := h.ofObject fun _ hobject => hobject.calls
  typeArguments := h.ofObject fun _ hobject => hobject.typeArguments
  returnType id hid := by
    rw [returnType]
    cases hreturns : (checked.signature id).returns with
    | none => exact h.hasType_any
    | some type => exact (h.signatures id hid).returns type hreturns
  typeOfSymbol := typeOfSymbol_inBounds h
  typeOfNode node := by
    unfold typeOfNode
    split
    · rename_i type htype
      exact h.expressionTypes node.id type htype
    · cases checked.declared? node with
      | none => exact h.hasType_any
      | some id => exact typeOfSymbol_inBounds h id
  resolve node id hid := h.resolutions node.id id hid
  resolveAliased node id hid := by
    obtain ⟨named, hnamed, rfl⟩ := Option.map_eq_some_iff.mp hid
    exact followFor_inBounds h 64 (h.resolutions node.id named hnamed)
  follow id hid := followFor_inBounds h 64 hid
  declared? node id hid := h.declarations node.id id hid
  originOf id hid := originOf_inBounds h hid
  places id hid param place hplace := (h.substitutions id hid).place?_lt hplace

omit h

/-- In the end the containers take one type argument, as they did before anything was asked. -/
theorem Ends.regular {text preludeText : String}
    (h : Ends (Node.ofTree .prelude (Program.ofSource preludeText).tree) (Program.ofSource text).root checked)
    (hcontainers : HasContainers (Program.ofSource preludeText).tree = true) : checked.facts.Regular where
  array id hid _ := by
    rw [h.later.arraySymbol] at hid
    refine (h.later.takesOne_iff (h.begins.closed.arraySymbol id hid)).mpr ?_
    rw [Facts.arraySymbol_bound] at hid
    exact Facts.takesOne_bound hcontainers text List.mem_cons_self hid
  promise id hid _ := by
    rw [h.later.promiseSymbol] at hid
    refine (h.later.takesOne_iff (h.begins.closed.promiseSymbol id hid)).mpr ?_
    rw [Facts.promiseSymbol_bound] at hid
    exact Facts.takesOne_bound hcontainers text (List.mem_cons_of_mem _ List.mem_cons_self) hid
  listed id hid := h.closed.listed hid

/-- Whatever the text, all numbers in the result of a check are numbers of something, copies come behind what
they are made from, and substitutions have a type for each of their type parameters. So nothing that is asked of
the result is looked up behind the end of a row. -/
theorem numbers_are_in_bounds {text preludeText : String} {depth : Nat}
    (hcontainers : HasContainers (Program.ofSource preludeText).tree = true)
    (hchecked : upTo depth (Node.ofTree .prelude (Program.ofSource preludeText).tree) (Program.ofSource text).root =
      some checked) :
    HasContainers (Program.ofSource preludeSource).tree = true ∧ checked.facts.InBounds ∧ checked.StaysInBounds := by
  have hends := ends_upTo hchecked
  have hbounds := hends.closed.inBounds hends.accesses (hends.regular hcontainers)
  exact ⟨prelude_hasContainers, hbounds, staysInBounds hbounds⟩

/-- The least that declares the containers. -/
def leastContainers : String := "interface Array<T> \x7b\x7d interface Promise<T> \x7b\x7d"

/-- A class with a type argument, whose members are copies. -/
def boxOfNumber : String := "class Box<T> \x7b value: T; \x7d const box: Box<number> = new Box(); box.value;"

/-- The copied member leads to the one that is declared, and what is put for the type parameter is found. -/
theorem boxOfNumber_is_in_bounds : ∃ checked,
    upTo 40 (Node.ofTree .prelude (Program.ofSource leastContainers).tree) (Program.ofSource boxOfNumber).root =
      some checked ∧ checked.facts.InBounds ∧
      ∃ id origin substitution, checked.facts.HasSymbol id ∧ (checked.symbol id).origin = some (origin, substitution) ∧
        (checked.symbol (checked.originOf id)).origin = none ∧ (checked.facts.substitution substitution).types ≠ [] ∧
        (checked.facts.substitution substitution).InBounds checked.facts := by
  have hall : ((upTo 40 (Node.ofTree .prelude (Program.ofSource leastContainers).tree)
      (Program.ofSource boxOfNumber).root).any fun checked => (List.range checked.facts.symbols.size).any fun index =>
        (checked.symbol ⟨index⟩).origin.any fun origin =>
          !(checked.facts.substitution origin.2).types.isEmpty) = true := by decide +kernel
  obtain ⟨checked, hchecked, hall⟩ := (Option.any_eq_true _ _).mp hall
  obtain ⟨index, hindex, hall⟩ := List.any_eq_true.mp hall
  obtain ⟨⟨origin, substitution⟩, horigin, hsome⟩ := (Option.any_eq_true _ _).mp hall
  obtain ⟨-, hbounds, hstays⟩ := numbers_are_in_bounds (by decide +kernel) hchecked
  have hid : checked.facts.HasSymbol ⟨index⟩ := List.mem_range.mp hindex
  refine ⟨checked, hchecked, hbounds, ⟨index⟩, origin, substitution, hid, horigin, (hstays.originOf _ hid).2, ?_,
    hbounds.substitutions substitution (hbounds.origins _ hid origin substitution horigin).2⟩
  intro hnone
  dsimp only at hsome
  rw [hnone] at hsome
  cases hsome

end Checked

end RouteTypes
