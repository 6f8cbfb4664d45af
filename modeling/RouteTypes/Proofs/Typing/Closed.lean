-- Facts that are closed: every number in them is the number of something, every declaration is a node of
-- one of the texts, what object types have as members are properties and methods, and generic types have
-- no more type arguments than type parameters, and just as many where the containers take one. Noting
-- something keeps facts closed, and changes of what is known already only that a reference may get its
-- members.
import RouteTypes.Proofs.Tree.Places
import RouteTypes.Proofs.Typing.Arena
import RouteTypes.Proofs.Typing.Law

namespace RouteTypes

/-! ## Tables -/

namespace Table

variable {κ ν : Type} [Keyed κ]

/-- All that is known in the table has the property. -/
def All (holds : ν → Prop) (table : Table κ ν) : Prop :=
  ∀ key value, table.get? key = some value → holds value

variable {holds : ν → Prop} {table : Table κ ν} {key : κ} {value : ν}

theorem All.mono {weaker : ν → Prop} (h : table.All holds) (hle : ∀ value, holds value → weaker value) :
    table.All weaker :=
  fun key value hget => hle value (h key value hget)

theorem All.empty : (Table.empty : Table κ ν).All holds := by
  intro key value h
  rw [get?_empty] at h
  cases h

theorem All.insert (h : table.All holds) (hvalue : holds value) : (table.insert key value).All holds := by
  classical
  intro other found hget
  rw [get?_insert] at hget
  split at hget
  · cases hget
    exact hvalue
  · exact h other found hget

theorem All.keepFirst (h : table.All holds) (hvalue : holds value) :
    holds (table.keepFirst key value).1 ∧ (table.keepFirst key value).2.All holds := by
  unfold Table.keepFirst
  split
  · rename_i kept hkept
    exact ⟨h key kept hkept, h⟩
  · exact ⟨hvalue, h.insert hvalue⟩

/-- What is found is what is there now, or was there before. -/
theorem of_get?_insert {other : κ} {found : ν} (h : (table.insert key value).get? other = some found) :
    key = other ∧ value = found ∨ table.get? other = some found := by
  classical
  rw [get?_insert] at h
  split at h
  · exact .inl ⟨‹_›, Option.some_inj.mp h⟩
  · exact .inr h

theorem of_get?_insertIfNew {other : κ} {found : ν} (h : (table.insertIfNew key value).get? other = some found) :
    key = other ∧ value = found ∨ table.get? other = some found := by
  unfold Table.insertIfNew at h
  split at h
  · exact .inr h
  · exact of_get?_insert h

theorem of_get?_keepFirst {other : κ} {found : ν} (h : (table.keepFirst key value).2.get? other = some found) :
    key = other ∧ value = found ∨ table.get? other = some found := by
  unfold Table.keepFirst at h
  split at h
  · exact .inr h
  · exact of_get?_insert h

theorem keepFirst_of_some {kept : ν} (h : table.get? key = some kept) : table.keepFirst key value = (kept, table) := by
  unfold keepFirst
  rw [h]

theorem keepFirst_of_none (h : table.get? key = none) : table.keepFirst key value = (value, table.insert key value) := by
  unfold keepFirst
  rw [h]

/-- Nothing that is there is replaced. -/
theorem get?_insertIfNew_cases (table : Table κ ν) (key other : κ) (value : ν) :
    (table.insertIfNew key value).get? other = table.get? other ∨ table.get? other = none ∧ key = other := by
  classical
  by_cases hkey : key = other
  · cases hother : table.get? other with
    | none => exact .inr ⟨rfl, hkey⟩
    | some found => exact .inl (get?_insertIfNew_of_some value hother)
  · exact .inl (get?_insertIfNew_of_ne hkey value table)

theorem isSome_get?_insertIfNew (table : Table κ ν) (key : κ) (value : ν) :
    ((table.insertIfNew key value).get? key).isSome = true := by
  unfold insertIfNew
  split
  · assumption
  · rw [get?_insert_self]
    rfl

theorem isSome_get?_insert {table : Table κ ν} (key : κ) {other : κ} (value : ν)
    (h : (table.get? other).isSome = true) : ((table.insert key value).get? other).isSome = true := by
  classical
  rw [get?_insert]
  split
  · rfl
  · exact h

/-- A new row takes the place of none. -/
theorem get?_insert_of_some {other : κ} {found : ν} (hkey : table.get? key = none) (h : table.get? other = some found) :
    (table.insert key value).get? other = some found := by
  have hne : key ≠ other := fun heq => by
    rw [heq, h] at hkey
    cases hkey
  rw [get?_insert_of_ne hne, h]

end Table

/-! ## Nodes -/

/-- Below the node stands what it is about: the receiver of an access, or what a call calls. -/
def NodeKind.hasHead (kind : NodeKind) : Bool := kind == .propertyAccess || kind == .callExpr

theorem NodeKind.isExpression_of_hasHead {kind : NodeKind} (h : kind.hasHead = true) : kind.isExpression = true := by
  rcases Bool.or_eq_true_iff.mp h with h | h <;> rw [beq_iff_eq.mp h] <;> rfl

namespace Node

/-- Whether the node declares a variable. -/
def isVariable (node : Node) : Bool := node.kind == .varDeclarator || node.kind == .bindingElement

/-- Whether the node may declare a member: no variable and no type parameter does, and no parameter but those
of constructors. -/
def isMember (node : Node) : Bool :=
  if node.kind = .param then (node.parent.bind (·.parent)).any (·.kind == .constructorDecl)
  else !node.isVariable && node.kind != .typeParam

/-- A method that instances of a class have. -/
def isInstanceMethod (node : Node) : Bool := node.kind == .methodDecl && !node.isStatic

theorem isVariable_of_isMember {node : Node} (h : node.isMember = true) : node.isVariable = false := by
  unfold isMember at h
  split at h
  · rename_i hkind
    rw [isVariable, hkind]
    rfl
  · exact (Bool.not_eq_true' _).mp (Bool.and_eq_true_iff.mp h).1

theorem isMember_typeParam {node : Node} (h : node.kind = .typeParam) : node.isMember = false := by
  rw [isMember, h, if_neg (by decide)]
  exact Bool.and_false _

end Node

/-- A node that is told apart from all others by its kind and its place. In a text with misfits a node may
stand where another one of its kind does; nothing is said of such nodes. -/
structure IsUnique (known : Node → Prop) (node : Node) : Prop where
  isKnown : known node
  eq_of_id : ∀ {other : Node}, known other → other.id = node.id → other = node

/-- The symbol is a variable if the node declares one, and a constant if the node says so. What a method of a class
declares is a method. -/
structure SymbolKind.Fits (kind : SymbolKind) (node : Node) : Prop where
  isVariable : ∀ isConst, kind = .variable isConst ↔ node.isVariable = true ∧ Facts.isConstVariable node = isConst
  method : node.kind = .methodDecl → kind = .method

/-- What is no variable is declared by nodes that declare none. -/
theorem SymbolKind.Fits.other {kind : SymbolKind} {node : Node} (hkind : ∀ isConst, kind ≠ .variable isConst)
    (hnode : node.isVariable = false) (hmethod : node.kind = .methodDecl → kind = .method) : kind.Fits node where
  isVariable isConst := ⟨fun h => absurd h (hkind isConst), fun h => absurd h.1 (Bool.eq_false_iff.mp hnode)⟩
  method := hmethod

/-- Members are properties and methods, and what a method of a class declares is a method. -/
structure SymbolKind.OfMember (kind : SymbolKind) (node : Node) : Prop where
  member : kind = .property ∨ kind = .method
  method : node.kind = .methodDecl → kind = .method

theorem SymbolKind.OfMember.ofProperty {node : Node} (h : node.kind ≠ .methodDecl) : OfMember .property node :=
  ⟨.inl rfl, fun hmethod => absurd hmethod h⟩

theorem SymbolKind.OfMember.ofMethod (node : Node) : OfMember .method node := ⟨.inr rfl, fun _ => rfl⟩

/-- A member is declared by nodes that declare no variable. -/
theorem SymbolKind.OfMember.fits {kind : SymbolKind} {node : Node} (h : kind.OfMember node)
    (hnode : node.isVariable = false) : kind.Fits node :=
  .other (fun _ => by rcases h.member with rfl | rfl <;> exact SymbolKind.noConfusion) hnode h.method

namespace Facts

variable {known : Node → Prop} {s s' s'' : Facts}

/-! ## Numbers -/

def HasSymbol (s : Facts) (id : SymbolId) : Prop := id.index < s.symbols.size

def HasType (s : Facts) (id : TypeId) : Prop := id.index < s.types.size

def HasSignature (s : Facts) (id : SignatureId) : Prop := id.index < s.signatures.size

def HasSubstitution (s : Facts) (id : SubstitutionId) : Prop := id.index < s.substitutions.size

/-- The number of a property or a method. -/
structure HasMember (s : Facts) (id : SymbolId) : Prop where
  has : s.HasSymbol id
  kind : (s.symbol id).kind = .property ∨ (s.symbol id).kind = .method

/-- The class or interface that an object type comes from. -/
def declarer? (s : Facts) (id : TypeId) : Option SymbolId := (s.object? id).bind (·.symbol)

/-- What stands in the list of the type parameters of a generic declaration. -/
def typeParamNodes (s : Facts) (id : SymbolId) : List Node :=
  ((s.symbol id).declarations.head?.map fun node =>
    (node.childrenOf (· == .typeParamList)).flatMap (·.children)).getD []

theorem declarer?_eq {id : TypeId} (h : s'.typeData id = s.typeData id) : s'.declarer? id = s.declarer? id := by
  unfold declarer? object?
  rw [h]

theorem declaredTypeParams_eq (s : Facts) (id : SymbolId) :
    s.declaredTypeParams id = (s.typeParamNodes id).filterMap s.declared? := by
  unfold declaredTypeParams typeParamNodes
  cases (s.symbol id).declarations.head? with
  | none => rfl
  | some node => exact List.filterMap_flatMap.symm

/-- How many type arguments a class or an interface may have. The types that every program sees are
given one, whatever they declare. -/
def arity (s : Facts) (id : SymbolId) : Nat := max 1 (s.typeParamNodes id).length

/-- The type parameters of a class or an interface as a type. -/
def typeParamsOf (s : Facts) (id : TypeId) : List SymbolId := ((s.object? id).map (·.typeParams)).getD []

theorem typeParamsOf_eq {id : TypeId} (h : s'.typeData id = s.typeData id) :
    s'.typeParamsOf id = s.typeParamsOf id := by
  unfold typeParamsOf object?
  rw [h]

/-- A class or an interface that has no more than one type parameter. -/
structure TakesOne (s : Facts) (id : SymbolId) : Prop where
  kind : (s.symbol id).kind = .classDecl ∨ (s.symbol id).kind = .interface
  arity : s.arity id = 1

/-- The types of arrays and promises take one type argument, and in the list of type parameters of a declaration
stands nothing else. -/
structure Regular (s : Facts) : Prop where
  array : ∀ id ∈ s.arraySymbol, s.HasSymbol id → s.TakesOne id
  promise : ∀ id ∈ s.promiseSymbol, s.HasSymbol id → s.TakesOne id
  listed : ∀ id, s.HasSymbol id → ∀ node ∈ s.typeParamNodes id, node.kind = .typeParam

theorem declaredTypeParams_le_arity (s : Facts) (id : SymbolId) :
    (s.declaredTypeParams id).length ≤ s.arity id := by
  rw [declaredTypeParams_eq]
  exact Nat.le_trans (List.length_filterMap_le _ _) (Nat.le_max_right _ _)

/-- These names need no declaration. -/
def isPredefined (name : String) : Bool := name == "undefined" || name == "NaN" || name == "Infinity"

/-- The node is a name in an expression that stands for nothing, though it needs a declaration. -/
structure Lacks (known : Node → Prop) (s : Facts) (node : Node) : Prop where
  isKnown : known node
  kind : node.kind = .nameRef
  lookup : s.lookup node .value node.refText = none
  needs : isPredefined node.refText = false

/-- What a signature is read from stays. Only signatures of constructors come to make instances. -/
structure KeepsSignature (before after : Signature) : Prop where
  declaration : after.declaration = before.declaration
  origin : after.origin = before.origin
  instanceOf : after.instanceOf = before.instanceOf ∨ ∀ node ∈ before.declaration, node.kind = .constructorDecl

/-- What there is stays, a symbol only gets more declarations, and only members come to be declared, by new symbols.
Names that stand for nothing are all that is reported of names. -/
structure Extends (known : Node → Prop) (s s' : Facts) : Prop where
  symbols : s.symbols.size ≤ s'.symbols.size
  types : s.types.size ≤ s'.types.size
  signatures : s.signatures.size ≤ s'.signatures.size
  substitutions : s.substitutions.size ≤ s'.substitutions.size
  symbol : ∀ {id}, s.HasSymbol id → ∃ more,
    s'.symbol id = { s.symbol id with declarations := (s.symbol id).declarations ++ more }
  head : ∀ {id}, s.HasSymbol id → (s'.symbol id).declarations.head? = (s.symbol id).declarations.head?
  declared : ∀ id, s'.declarations.get? id = s.declarations.get? id ∨
    s.declarations.get? id = none ∧ ∃ node, known node ∧ node.isMember = true ∧ node.id = id
  fresh : ∀ {id symbol}, s'.declarations.get? id = some symbol → s.declarations.get? id = some symbol ∨ ¬s.HasSymbol symbol
  signature : ∀ {id}, s.HasSignature id → KeepsSignature (s.signature id) (s'.signature id)
  params : ∀ {id}, s.HasSignature id → (s'.signature id).params = (s.signature id).params
  returns : ∀ {id}, s.HasSignature id →
    (s'.signature id).returns = (s.signature id).returns ∨ (s.signature id).returns = none
  declarer : ∀ {id}, s.HasType id → s'.declarer? id = s.declarer? id
  typeParams : ∀ {id}, s.HasType id → s'.typeParamsOf id = s.typeParamsOf id
  arraySymbol : s'.arraySymbol = s.arraySymbol
  stringSymbol : s'.stringSymbol = s.stringSymbol
  promiseSymbol : s'.promiseSymbol = s.promiseSymbol
  arena : s.arena.Becomes s'.arena
  scopes : s'.scopes = s.scopes
  problems : ∀ problem ∈ s.problems, problem ∈ s'.problems
  unresolved : ∀ {span name}, ⟨span, .unresolvedName name⟩ ∈ s'.problems → ⟨span, .unresolvedName name⟩ ∈ s.problems ∨
    ∃ node, s.Lacks known node ∧ node.source = .program ∧ node.span = span ∧ node.refText = name

theorem KeepsSignature.refl (signature : Signature) : KeepsSignature signature signature := ⟨rfl, rfl, .inl rfl⟩

theorem KeepsSignature.trans {a b c : Signature} (h : KeepsSignature a b) (h' : KeepsSignature b c) :
    KeepsSignature a c where
  declaration := h'.declaration.trans h.declaration
  origin := h'.origin.trans h.origin
  instanceOf := by
    rcases h'.instanceOf with hsame' | hall
    · exact h.instanceOf.imp_left hsame'.trans
    · exact .inr (h.declaration ▸ hall)

theorem lookup_eq (h : s'.scopes = s.scopes) (node : Node) (sort : NameSort) (name : String) :
    s'.lookup node sort name = s.lookup node sort name := by
  unfold lookup
  rw [h]

namespace Extends

theorem refl (s : Facts) : Extends known s s :=
  ⟨Nat.le_refl _, Nat.le_refl _, Nat.le_refl _, Nat.le_refl _, fun _ => ⟨[], by rw [List.append_nil]⟩,
    fun _ => rfl, fun _ => .inl rfl, .inl, fun _ => .refl _, fun _ => rfl, fun _ => .inl rfl, fun _ => rfl, fun _ => rfl,
    rfl, rfl, rfl, .refl, rfl, fun _ => id, .inl⟩

variable (h : Extends known s s')

include h

theorem hasSymbol {id : SymbolId} (hid : s.HasSymbol id) : s'.HasSymbol id := Nat.lt_of_lt_of_le hid h.symbols

theorem hasType {id : TypeId} (hid : s.HasType id) : s'.HasType id := Nat.lt_of_lt_of_le hid h.types

theorem hasSignature {id : SignatureId} (hid : s.HasSignature id) : s'.HasSignature id :=
  Nat.lt_of_lt_of_le hid h.signatures

theorem hasSubstitution {id : SubstitutionId} (hid : s.HasSubstitution id) : s'.HasSubstitution id :=
  Nat.lt_of_lt_of_le hid h.substitutions

theorem name {id : SymbolId} (hid : s.HasSymbol id) : (s'.symbol id).name = (s.symbol id).name := by
  obtain ⟨more, hsymbol⟩ := h.symbol hid
  rw [hsymbol]

theorem kind {id : SymbolId} (hid : s.HasSymbol id) : (s'.symbol id).kind = (s.symbol id).kind := by
  obtain ⟨more, hsymbol⟩ := h.symbol hid
  rw [hsymbol]

theorem hasMember {id : SymbolId} (hid : s.HasMember id) : s'.HasMember id :=
  ⟨h.hasSymbol hid.has, by rw [h.kind hid.has]; exact hid.kind⟩

/-- What a call is known to give it goes on to give. -/
theorem known_returns {id : SignatureId} {type : TypeId} (hid : s.HasSignature id)
    (hreturns : (s.signature id).returns = some type) : (s'.signature id).returns = some type := by
  rcases h.returns hid with hsame | hnone
  · exact hsame.trans hreturns
  · rw [hnone] at hreturns
    cases hreturns

/-- What a node declares it goes on to declare. -/
theorem declared? {node : Node} {id : SymbolId} (hid : s.declared? node = some id) : s'.declared? node = some id := by
  rcases h.declared node.id with hsame | ⟨hnone, -⟩
  · exact hsame.trans hid
  · rw [Facts.declared?, hnone] at hid
    cases hid

theorem isSome_declared? {node : Node} (hsome : (s.declared? node).isSome = true) :
    (s'.declared? node).isSome = true := by
  obtain ⟨id, hid⟩ := Option.isSome_iff_exists.mp hsome
  exact Option.isSome_iff_exists.mpr ⟨id, h.declared? hid⟩

/-- A node that declares no member goes on to declare what it does. -/
theorem declared?_eq {node : Node} (hnode : ∀ other, known other → other.id = node.id → other.isMember = false) :
    s'.declared? node = s.declared? node := by
  rcases h.declared node.id with hsame | ⟨-, other, hother, hmember, hid⟩
  · exact hsame
  · rw [hnode other hother hid] at hmember
    cases hmember

theorem typeParamNodes {id : SymbolId} (hid : s.HasSymbol id) : s'.typeParamNodes id = s.typeParamNodes id := by
  unfold Facts.typeParamNodes
  rw [h.head hid]

theorem arity {id : SymbolId} (hid : s.HasSymbol id) : s'.arity id = s.arity id := by
  unfold Facts.arity
  rw [h.typeParamNodes hid]

theorem length_declaredTypeParams_le {id : SymbolId} (hid : s.HasSymbol id) :
    (s.declaredTypeParams id).length ≤ (s'.declaredTypeParams id).length := by
  rw [declaredTypeParams_eq, declaredTypeParams_eq, h.typeParamNodes hid, List.length_filterMap_eq_countP,
    List.length_filterMap_eq_countP]
  refine List.countP_mono_left fun node _ hsome => ?_
  obtain ⟨symbol, hsymbol⟩ := Option.isSome_iff_exists.mp hsome
  exact Option.isSome_iff_exists.mpr ⟨symbol, h.declared? hsymbol⟩

theorem takesOne_iff {id : SymbolId} (hid : s.HasSymbol id) : s'.TakesOne id ↔ s.TakesOne id :=
  ⟨fun hone => ⟨h.kind hid ▸ hone.kind, h.arity hid ▸ hone.arity⟩,
    fun hone => ⟨(h.kind hid).symm ▸ hone.kind, (h.arity hid).trans hone.arity⟩⟩

/-- What is regular in the end was regular before. -/
theorem regular (hregular : s'.Regular) : s.Regular where
  array id hid hhas := (h.takesOne_iff hhas).mp (hregular.array id (h.arraySymbol.symm ▸ hid) (h.hasSymbol hhas))
  promise id hid hhas :=
    (h.takesOne_iff hhas).mp (hregular.promise id (h.promiseSymbol.symm ▸ hid) (h.hasSymbol hhas))
  listed id hid := h.typeParamNodes hid ▸ hregular.listed id (h.hasSymbol hid)

/-- No type parameter is a member, so none comes to be declared. -/
theorem declaredTypeParams (hregular : s.Regular) {id : SymbolId} (hid : s.HasSymbol id) :
    s'.declaredTypeParams id = s.declaredTypeParams id := by
  rw [declaredTypeParams_eq, declaredTypeParams_eq, h.typeParamNodes hid]
  refine List.filterMap_congr fun node hnode => h.declared?_eq fun other _ hsame => ?_
  exact Node.isMember_typeParam ((NodeId.mk.inj hsame).2.1.trans (hregular.listed id hid node hnode))

theorem trans (h' : Extends known s' s'') : Extends known s s'' where
  symbols := Nat.le_trans h.symbols h'.symbols
  types := Nat.le_trans h.types h'.types
  signatures := Nat.le_trans h.signatures h'.signatures
  substitutions := Nat.le_trans h.substitutions h'.substitutions
  symbol hid := by
    obtain ⟨more, hsymbol⟩ := h.symbol hid
    obtain ⟨others, hsymbol'⟩ := h'.symbol (h.hasSymbol hid)
    exact ⟨more ++ others, by rw [hsymbol', hsymbol, List.append_assoc]⟩
  head hid := (h'.head (h.hasSymbol hid)).trans (h.head hid)
  declared id := by
    rcases h'.declared id with hsame' | ⟨hnone', hmember⟩
    · rw [hsame']
      exact h.declared id
    · rcases h.declared id with hsame | hmember'
      · exact .inr ⟨hsame ▸ hnone', hmember⟩
      · exact .inr hmember'
  fresh hget := by
    rcases h'.fresh hget with hget | hnone
    · exact h.fresh hget
    · exact .inr fun hid => hnone (h.hasSymbol hid)
  signature hid := (h.signature hid).trans (h'.signature (h.hasSignature hid))
  params hid := (h'.params (h.hasSignature hid)).trans (h.params hid)
  returns hid := by
    rcases h.returns hid with hsame | hnone
    · exact (h'.returns (h.hasSignature hid)).imp (·.trans hsame) hsame.symm.trans
    · exact .inr hnone
  declarer hid := (h'.declarer (h.hasType hid)).trans (h.declarer hid)
  typeParams hid := (h'.typeParams (h.hasType hid)).trans (h.typeParams hid)
  arraySymbol := h'.arraySymbol.trans h.arraySymbol
  stringSymbol := h'.stringSymbol.trans h.stringSymbol
  promiseSymbol := h'.promiseSymbol.trans h.promiseSymbol
  arena := h.arena.trans h'.arena
  scopes := h'.scopes.trans h.scopes
  problems problem hproblem := h'.problems problem (h.problems problem hproblem)
  unresolved hproblem := by
    rcases h'.unresolved hproblem with hproblem | ⟨node, hnode, hplace⟩
    · exact h.unresolved hproblem
    · exact .inr ⟨node, { hnode with lookup := (lookup_eq h.scopes node .value node.refText).symm.trans hnode.lookup },
        hplace⟩

end Extends

end Facts

/-! ## What is in facts -/

section

variable {known : Node → Prop} {s s' : Facts}

/-- A node that may declare something. A parameter that says what `this` is declares nothing, unless it is
a property too. -/
structure Declares (known : Node → Prop) (node : Node) : Prop where
  known : known node
  kind : node.kind.hasHead = false
  named : node.kind = .param → Facts.isThisParam node = true → node.isMember = true

theorem Declares.ofKind {node : Node} (hnode : known node)
    (hkind : (node.kind.hasHead || node.kind == .param) = false) : Declares known node where
  known := hnode
  kind := (Bool.or_eq_false_iff.mp hkind).1
  named hparam := absurd hparam (beq_eq_false_iff_ne.mp (Bool.or_eq_false_iff.mp hkind).2)

/-- A node that may declare a member. -/
structure DeclaresMember (known : Node → Prop) (node : Node) : Prop extends Declares known node where
  member : node.isMember = true

theorem DeclaresMember.ofKind {node : Node} (hnode : known node)
    (hkind : (node.kind.hasHead || node.kind == .param ||
      (node.kind == .varDeclarator || node.kind == .bindingElement || node.kind == .typeParam)) = false) :
    DeclaresMember known node where
  toDeclares := .ofKind hnode (Bool.or_eq_false_iff.mp hkind).1
  member := by
    obtain ⟨hhead, hother⟩ := Bool.or_eq_false_iff.mp hkind
    obtain ⟨hvariable, htypeParam⟩ := Bool.or_eq_false_iff.mp hother
    rw [Node.isMember, if_neg (beq_eq_false_iff_ne.mp (Bool.or_eq_false_iff.mp hhead).2), Node.isVariable, hvariable,
      bne, htypeParam]
    rfl

/-- Parameters stand in a list of them. -/
theorem Node.exists_of_mem_params {node param : Node} (h : param ∈ node.params) :
    ∃ list ∈ node.paramList?, param ∈ list.children ∧ param.kind = .param := by
  unfold Node.params at h
  cases hlist : node.paramList? with
  | none =>
    rw [hlist] at h
    cases h
  | some list =>
    rw [hlist] at h
    exact ⟨list, rfl, List.mem_of_mem_filter h, beq_iff_eq.mp (List.mem_filter.mp h).2⟩

/-- A parameter of a constructor may declare a property. -/
theorem DeclaresMember.ofConstructor {node param : Node} (hparam : known param) (hkind : node.kind = .constructorDecl)
    (hmem : param ∈ node.params) : DeclaresMember known param := by
  obtain ⟨list, hlist, hmem, hown⟩ := Node.exists_of_mem_params hmem
  have hmember : param.isMember = true := by
    rw [Node.isMember, if_pos hown, Node.parent_of_mem_children hmem, Option.bind_some,
      Node.parent_of_mem_children (List.mem_of_find?_eq_some hlist), Option.any_some, hkind]
    rfl
  exact ⟨⟨hparam, by rw [hown]; rfl, fun _ _ => hmember⟩, hmember⟩

structure Symbol.Closed (known : Node → Prop) (s : Facts) (symbol : Symbol) : Prop where
  declarations : ∀ node ∈ symbol.declarations, Declares known node
  nonempty : symbol.declarations ≠ []
  fits : ∀ node ∈ symbol.declarations, symbol.kind.Fits node
  origin : ∀ {id substitution}, symbol.origin = some (id, substitution) →
    s.HasSymbol id ∧ s.HasSubstitution substitution

structure ObjectType.Closed (s : Facts) (object : ObjectType) : Prop where
  symbol : ∀ id ∈ object.symbol, s.HasSymbol id
  members : ∀ id ∈ object.members, s.HasMember id
  calls : ∀ id ∈ object.calls, s.HasSignature id
  constructs : ∀ id ∈ object.constructs, s.HasSignature id
  stringIndex : ∀ id ∈ object.stringIndex, s.HasType id
  typeParams : ∀ id ∈ object.typeParams, s.HasSymbol id
  target : ∀ id ∈ object.target, s.HasType id
  typeArguments : ∀ id ∈ object.typeArguments, s.HasType id
  unfilled : object.hasMembers = false → object.target.isSome = true
  arity : ∀ id ∈ object.symbol, object.typeParams.length ≤ (s.declaredTypeParams id).length
  arguments : object.kind = .reference → ∀ id ∈ object.symbol,
    1 ≤ object.typeArguments.length ∧ object.typeArguments.length ≤ s.arity id
  generic : ∀ id ∈ object.target, s.declarer? id = object.symbol
  plain : object.kind = .anonymous ∨ object.kind = .constructor → object.typeParams = []
  /-- The type parameters of a type are those that its declaration has, as often as one looks. -/
  own : s.Regular → object.typeParams ≠ [] → ∃ id ∈ object.symbol, object.typeParams = s.declaredTypeParams id
  even : s.Regular → ∀ id ∈ object.target, (s.typeParamsOf id).length = object.typeArguments.length

def TypeData.Closed (s : Facts) : TypeData → Prop
  | .union members => ∀ id ∈ members, s.HasType id
  | .object type => type.Closed s
  | .param id => s.HasSymbol id
  | _ => True

structure Signature.Closed (known : Node → Prop) (s : Facts) (signature : Signature) : Prop where
  typeParams : ∀ id ∈ signature.typeParams, s.HasSymbol id
  params : ∀ id ∈ signature.params, s.HasSymbol id
  declaration : ∀ node ∈ signature.declaration, Declares known node
  returns : ∀ id ∈ signature.returns, s.HasType id
  origin : ∀ {id substitution}, signature.origin = some (id, substitution) →
    s.HasSignature id ∧ s.HasSubstitution substitution
  instanceOf : ∀ id ∈ signature.instanceOf, s.HasSymbol id

structure Substitution.Closed (s : Facts) (substitution : Substitution) : Prop where
  params : ∀ id ∈ substitution.params, s.HasSymbol id
  types : ∀ id ∈ substitution.types, s.HasType id
  even : s.Regular → substitution.params.length = substitution.types.length

def Problem.Closed (s : Facts) : Problem TypeId → Prop
  | .unknownProperty type _ | .notCallable type | .notConstructable type => s.HasType type
  | .unresolvedName _ | .unresolvedType _ | .typeArgumentCount _ _ _ => True

structure MemberTable.Closed (s : Facts) (table : MemberTable) : Prop where
  members : ∀ id ∈ table.members, s.HasMember id
  stringIndex : ∀ id ∈ table.stringIndex, s.HasType id

theorem Symbol.Closed.mono {symbol : Symbol} (h : symbol.Closed known s) (hle : s.Extends known s') :
    symbol.Closed known s' :=
  { h with
    origin := fun horigin =>
      ⟨hle.hasSymbol (h.origin horigin).1, hle.hasSubstitution (h.origin horigin).2⟩ }

/-- A symbol that is no copy is closed whatever else is there. -/
theorem Symbol.Closed.anywhere {symbol : Symbol} (h : symbol.Closed known s) (horigin : symbol.origin = none) :
    symbol.Closed known s' :=
  { h with origin := fun hsome => by rw [horigin] at hsome; cases hsome }

/-- A symbol is still closed when it gets more declarations of its kind. -/
theorem Symbol.Closed.declaredAgain {symbol : Symbol} {nodes : List Node} (h : symbol.Closed known s)
    (hnodes : ∀ node ∈ nodes, Declares known node) (hfits : ∀ node ∈ nodes, symbol.kind.Fits node) :
    Symbol.Closed known s { symbol with declarations := symbol.declarations ++ nodes } where
  declarations node hnode := (List.mem_append.mp hnode).elim (h.declarations node) (hnodes node)
  nonempty := List.append_ne_nil_of_left_ne_nil h.nonempty _
  fits node hnode := (List.mem_append.mp hnode).elim (h.fits node) (hfits node)
  origin := h.origin

theorem ObjectType.Closed.mono {object : ObjectType} (h : object.Closed s) (hle : s.Extends known s') :
    object.Closed s' where
  symbol id hid := hle.hasSymbol (h.symbol id hid)
  members id hid := hle.hasMember (h.members id hid)
  calls id hid := hle.hasSignature (h.calls id hid)
  constructs id hid := hle.hasSignature (h.constructs id hid)
  stringIndex id hid := hle.hasType (h.stringIndex id hid)
  typeParams id hid := hle.hasSymbol (h.typeParams id hid)
  target id hid := hle.hasType (h.target id hid)
  typeArguments id hid := hle.hasType (h.typeArguments id hid)
  unfilled := h.unfilled
  arity id hid := Nat.le_trans (h.arity id hid) (hle.length_declaredTypeParams_le (h.symbol id hid))
  arguments hkind id hid := by
    rw [hle.arity (h.symbol id hid)]
    exact h.arguments hkind id hid
  generic id hid := (hle.declarer (h.target id hid)).trans (h.generic id hid)
  plain := h.plain
  own hregular hsome := by
    obtain ⟨id, hid, hown⟩ := h.own (hle.regular hregular) hsome
    exact ⟨id, hid, hown.trans (hle.declaredTypeParams (hle.regular hregular) (h.symbol id hid)).symm⟩
  even hregular id hid := by
    rw [hle.typeParams (h.target id hid)]
    exact h.even (hle.regular hregular) id hid

/-- An object type without anything in it. -/
theorem ObjectType.Closed.bare (kind : ObjectKind) (symbol : Option SymbolId) (hkind : kind ≠ .reference)
    (hsymbol : ∀ id ∈ symbol, s.HasSymbol id) : (ObjectType.bare kind symbol).Closed s where
  symbol := hsymbol
  members _ hid := absurd hid List.not_mem_nil
  calls _ hid := absurd hid List.not_mem_nil
  constructs _ hid := absurd hid List.not_mem_nil
  stringIndex _ hid := by cases hid
  typeParams _ hid := absurd hid List.not_mem_nil
  target _ hid := by cases hid
  typeArguments _ hid := absurd hid List.not_mem_nil
  unfilled hnone := absurd (bne_iff_ne.mpr hkind) (ne_true_of_eq_false hnone)
  arity _ _ := Nat.zero_le _
  arguments hreference := absurd hreference hkind
  generic _ hid := by cases hid
  plain _ := rfl
  own _ hsome := absurd rfl hsome
  even _ _ hid := by cases hid

theorem TypeData.Closed.mono {data : TypeData} (h : data.Closed s) (hle : s.Extends known s') :
    data.Closed s' := by
  cases data with
  | union members => exact fun id hid => hle.hasType (h id hid)
  | object object => exact ObjectType.Closed.mono h hle
  | param symbol => exact hle.hasSymbol h
  | _ => trivial

theorem Signature.Closed.mono {signature : Signature} (h : signature.Closed known s)
    (hle : s.Extends known s') : signature.Closed known s' where
  typeParams id hid := hle.hasSymbol (h.typeParams id hid)
  params id hid := hle.hasSymbol (h.params id hid)
  declaration := h.declaration
  returns id hid := hle.hasType (h.returns id hid)
  origin horigin := ⟨hle.hasSignature (h.origin horigin).1, hle.hasSubstitution (h.origin horigin).2⟩
  instanceOf id hid := hle.hasSymbol (h.instanceOf id hid)

/-- A signature without anything in it. -/
theorem Signature.Closed.default : (default : Signature).Closed known s where
  typeParams _ hid := absurd hid List.not_mem_nil
  params _ hid := absurd hid List.not_mem_nil
  declaration _ hnode := by cases hnode
  returns _ hid := by cases hid
  origin horigin := by cases horigin
  instanceOf _ hid := by cases hid

theorem Substitution.Closed.mono {substitution : Substitution} (h : substitution.Closed s)
    (hle : s.Extends known s') : substitution.Closed s' where
  params id hid := hle.hasSymbol (h.params id hid)
  types id hid := hle.hasType (h.types id hid)
  even hregular := h.even (hle.regular hregular)

theorem Problem.Closed.mono {problem : Problem TypeId} (h : problem.Closed s) (hle : s.Extends known s') :
    problem.Closed s' := by
  cases problem with
  | unknownProperty type name => exact hle.hasType h
  | notCallable type => exact hle.hasType h
  | notConstructable type => exact hle.hasType h
  | _ => trivial

theorem MemberTable.Closed.mono {table : MemberTable} (h : table.Closed s) (hle : s.Extends known s') :
    table.Closed s' :=
  ⟨fun id hid => hle.hasMember (h.members id hid), fun id hid => hle.hasType (h.stringIndex id hid)⟩

theorem MemberTable.Closed.empty : MemberTable.empty.Closed s :=
  ⟨fun _ hid => absurd hid List.not_mem_nil, fun _ hid => by cases hid⟩

/-- An object type with the members of a table. -/
theorem ObjectType.Closed.ofTable {table : MemberTable} (h : table.Closed s) :
    ObjectType.Closed s { ObjectType.bare .anonymous none with
      members := table.members, stringIndex := table.stringIndex } :=
  { ObjectType.Closed.bare .anonymous none (by decide) (fun id hid => by cases hid) with
    members := h.members, stringIndex := h.stringIndex }

/-- The type is there, and if the symbol is a class or an interface, then the type is that of its
instances. -/
structure Facts.Names (s : Facts) (symbol : SymbolId) (type : TypeId) : Prop where
  has : s.HasType type
  declarer : (s.symbol symbol).kind = .classDecl ∨ (s.symbol symbol).kind = .interface →
    s.declarer? type = some symbol

/-- What the symbol names; of a class or an interface it is noted. -/
structure Facts.Denotes (s : Facts) (symbol : SymbolId) (type : TypeId) : Prop extends s.Names symbol type where
  noted : (s.symbol symbol).kind = .classDecl ∨ (s.symbol symbol).kind = .interface →
    s.declaredTypes.get? symbol = some type

theorem Facts.Names.mono {symbol : SymbolId} {type : TypeId} (h : s.Names symbol type) (hsymbol : s.HasSymbol symbol)
    (hle : s.Extends known s') : s'.Names symbol type where
  has := hle.hasType h.has
  declarer hkind := (hle.declarer h.has).trans (h.declarer (hle.kind hsymbol ▸ hkind))

/-- An object type that can only be called. -/
theorem ObjectType.Closed.ofCalls {calls : List SignatureId} (h : ∀ call ∈ calls, s.HasSignature call) :
    ObjectType.Closed s { ObjectType.bare .anonymous none with calls } :=
  { ObjectType.Closed.bare .anonymous none (by decide) (fun id hid => by cases hid) with calls := h }

/-- All numbers in `part` are numbers of `s`, and the declarations are known nodes. -/
structure Facts.Covers (known : Node → Prop) (s part : Facts) : Prop where
  symbol : ∀ id, part.HasSymbol id → (part.symbol id).Closed known s
  /-- A copy is made behind what it is made from. -/
  older : ∀ id, part.HasSymbol id → ∀ {origin substitution}, (part.symbol id).origin = some (origin, substitution) →
    origin.index < id.index
  typeData : ∀ id, part.HasType id → (part.typeData id).Closed s
  signature : ∀ id, part.HasSignature id → (part.signature id).Closed known s
  substitution : ∀ id, part.HasSubstitution id → (part.substitution id).Closed s
  primitives : TypeData.primitives.length ≤ s.types.size
  scopes : ∀ {scope sort name id}, part.scopes.getLocal scope sort name = some id → s.HasSymbol id
  declarations : ∀ {id symbol}, part.declarations.get? id = some symbol →
    s.HasSymbol symbol ∧ ∃ node ∈ (s.symbol symbol).declarations, node.id = id
  /-- Copies are declared nowhere. -/
  originals : ∀ {id symbol}, part.declarations.get? id = some symbol → (s.symbol symbol).origin = none
  /-- The parameters of a function are those that were declared when it was looked at first. -/
  declaredSignatures : ∀ {id signature}, part.declaredSignatures.get? id = some signature →
    s.HasSignature signature ∧ ∃ node, known node ∧ node.id = id ∧ ∃ before : Facts, before.Extends known s ∧
      (s.signature signature).params = before.declaredIn node .paramList
  /-- The signature of a function is read from it. Only signatures of constructors make instances. -/
  written : ∀ {id signature}, part.declaredSignatures.get? id = some signature → ∃ node, known node ∧ node.id = id ∧
    (s.signature signature).declaration = some node ∧ (s.signature signature).origin = none ∧
      (node.kind ≠ .constructorDecl → (s.signature signature).instanceOf = none)
  literals : part.literals.All s.HasType
  unions : part.unions.All s.HasType
  paramTypes : part.paramTypes.All s.HasType
  substitutionIds : part.substitutionIds.All s.HasSubstitution
  references : part.references.All s.HasType
  aliasInstances : part.aliasInstances.All s.HasType
  substitutedTypes : part.substitutedTypes.All s.HasType
  substitutedSymbols : ∀ {id substitution copy},
    part.substitutedSymbols.get? (id, substitution) = some copy →
      s.HasSymbol id ∧ s.HasSymbol copy ∧ (s.symbol copy).kind = (s.symbol id).kind
  substitutedSignatures : part.substitutedSignatures.All s.HasSignature
  symbolTypes : part.symbolTypes.All s.HasType
  declaredTypes : ∀ {symbol type}, part.declaredTypes.get? symbol = some type →
    s.HasSymbol symbol ∧ s.Names symbol type
  expressionTypes : part.expressionTypes.All s.HasType
  writtenTypes : part.writtenTypes.All s.HasType
  resolutions : part.resolutions.All s.HasSymbol
  contextual : part.contextual.All s.HasType
  boundMembers : part.boundMembers.All s.HasSymbol
  arraySymbol : ∀ id ∈ part.arraySymbol, s.HasSymbol id
  stringSymbol : ∀ id ∈ part.stringSymbol, s.HasSymbol id
  promiseSymbol : ∀ id ∈ part.promiseSymbol, s.HasSymbol id
  problems : ∀ problem ∈ part.problems, problem.what.Closed s
  normal : s.arena.Normal

/-- Every number is the number of something. -/
def Facts.Closed (known : Node → Prop) (s : Facts) : Prop := s.Covers known s

theorem Facts.Covers.mono {part : Facts} (h : s.Covers known part) (hle : s.Extends known s') :
    s'.Covers known part where
  symbol id hid := (h.symbol id hid).mono hle
  older := h.older
  typeData id hid := (h.typeData id hid).mono hle
  signature id hid := (h.signature id hid).mono hle
  substitution id hid := (h.substitution id hid).mono hle
  primitives := Nat.le_trans h.primitives hle.types
  scopes hget := hle.hasSymbol (h.scopes hget)
  declarations hget := by
    obtain ⟨hid, node, hnode, hown⟩ := h.declarations hget
    obtain ⟨more, hsymbol⟩ := hle.symbol hid
    exact ⟨hle.hasSymbol hid, node, by rw [hsymbol]; exact List.mem_append_left _ hnode, hown⟩
  originals hget := by
    obtain ⟨more, hsymbol⟩ := hle.symbol (h.declarations hget).1
    rw [hsymbol]
    exact h.originals hget
  declaredSignatures hget := by
    obtain ⟨hid, node, hnode, hown, before, hbefore, hparams⟩ := h.declaredSignatures hget
    exact ⟨hle.hasSignature hid, node, hnode, hown, before, hbefore.trans hle, (hle.params hid).trans hparams⟩
  written hget := by
    have hkeeps := hle.signature (h.declaredSignatures hget).1
    obtain ⟨node, hnode, hown, hdeclaration, horigin, hinstance⟩ := h.written hget
    refine ⟨node, hnode, hown, hkeeps.declaration.trans hdeclaration, hkeeps.origin.trans horigin, fun hkind => ?_⟩
    rcases hkeeps.instanceOf with hsame | hall
    · exact hsame.trans (hinstance hkind)
    · exact absurd (hall node hdeclaration) hkind
  literals := h.literals.mono fun _ => hle.hasType
  unions := h.unions.mono fun _ => hle.hasType
  paramTypes := h.paramTypes.mono fun _ => hle.hasType
  substitutionIds := h.substitutionIds.mono fun _ => hle.hasSubstitution
  references := h.references.mono fun _ => hle.hasType
  aliasInstances := h.aliasInstances.mono fun _ => hle.hasType
  substitutedTypes := h.substitutedTypes.mono fun _ => hle.hasType
  substitutedSymbols hget := by
    obtain ⟨hid, hcopy, hkind⟩ := h.substitutedSymbols hget
    exact ⟨hle.hasSymbol hid, hle.hasSymbol hcopy, by rw [hle.kind hcopy, hle.kind hid, hkind]⟩
  substitutedSignatures := h.substitutedSignatures.mono fun _ => hle.hasSignature
  symbolTypes := h.symbolTypes.mono fun _ => hle.hasType
  declaredTypes hget := by
    obtain ⟨hsymbol, hnames⟩ := h.declaredTypes hget
    exact ⟨hle.hasSymbol hsymbol, hnames.mono hsymbol hle⟩
  expressionTypes := h.expressionTypes.mono fun _ => hle.hasType
  writtenTypes := h.writtenTypes.mono fun _ => hle.hasType
  resolutions := h.resolutions.mono fun _ => hle.hasSymbol
  contextual := h.contextual.mono fun _ => hle.hasType
  boundMembers := h.boundMembers.mono fun _ => hle.hasSymbol
  arraySymbol id hid := hle.hasSymbol (h.arraySymbol id hid)
  stringSymbol id hid := hle.hasSymbol (h.stringSymbol id hid)
  promiseSymbol id hid := hle.hasSymbol (h.promiseSymbol id hid)
  problems problem hproblem := (h.problems problem hproblem).mono hle
  normal := (h.normal.becomes hle.arena).1

end

end RouteTypes
