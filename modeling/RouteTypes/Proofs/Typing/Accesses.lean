-- What is noted for expressions and variables. While a program is checked, an expression is looked at anew
-- each time that a part of it leads back to it, so what is noted must be right from the first time on: for a
-- member access the member of the type that is noted for the receiver, and that type has its members by
-- then; for a function an object type with its signature; for a destructured variable the member it reads.
import RouteTypes.Proofs.Typing.Types

namespace RouteTypes

/-! ## Nodes of the program -/

/-- `e` is what an access or a call is about. -/
structure IsHead (known : Node → Prop) (outer e : Node) : Prop extends IsUnique known outer where
  kind : outer.kind.hasHead = true
  head : outer.expression? = some e
  unique : IsUnique known e

/-- `e.name` -/
structure IsAccess (known : Node → Prop) (access e : Node) (name : String) : Prop extends IsUnique known access where
  kind : access.kind = .propertyAccess
  receiver : access.expression? = some e
  name : access.memberName? = some name
  unique : IsUnique known e

section

variable {known : Node → Prop} {outer access e node : Node} {name : String}

theorem IsAccess.isHead (h : IsAccess known access e name) : IsHead known access e :=
  { h.toIsUnique with kind := by rw [h.kind]; rfl, head := h.receiver, unique := h.unique }

theorem IsHead.mem_children (h : IsHead known outer e) : e ∈ outer.children :=
  List.mem_of_find?_eq_some h.head

theorem IsHead.parent (h : IsHead known outer e) : e.parent = some outer :=
  Node.parent_of_mem_children h.mem_children

end

/-- A function whose body may say what it gives. -/
def NodeKind.isFunction (kind : NodeKind) : Bool :=
  kind == .functionDecl || kind == .methodDecl || kind == .functionExpr || kind == .arrowFunction

/-- A symbol whose declarations are looked at when its type is worked out. -/
def SymbolKind.isSettled : SymbolKind → Bool
  | .function | .method | .classDecl => true
  | _ => false

namespace Node

/-- For an element of a binding pattern: the declarator whose value it takes apart. -/
def boundDeclarator? (node : Node) : Option Node :=
  (node.parentOf? .objectBindingPattern).bind (·.parentOf? .varDeclarator)

/-- Whether it says what the type of the declared value is. -/
def hasValue (declarator : Node) : Bool := declarator.ascribed?.isSome || declarator.expression?.isSome

end Node

/-- The type of a text: `string`, or that of one string. -/
def TypeData.isText : TypeData → Bool
  | .string | .literal (.string _) => true
  | _ => false

/-! ## What is found -/

namespace Facts

variable {known : Node → Prop} {opened : List NodeId} {s s' s'' : Facts}

/-- Among the members of the object type, which are all known, the one of that name is the given one. -/
def Holds (s : Facts) (type : TypeId) (name : String) (member : Option SymbolId) : Prop :=
  ∃ object, s.typeData type = .object object ∧ object.hasMembers = true ∧ s.memberNamed? object.members name = member

/-- The member of that name of the type, if there is one. A text has the members of the interface `String`,
a type that is neither a text nor an object type has none. -/
structure Finds (s : Facts) (type : TypeId) (name : String) (member : Option SymbolId) : Prop where
  has : s.HasType type
  object : ∀ object, s.typeData type = .object object → s.Holds type name member
  text : (s.typeData type).isText = true → ∀ string ∈ s.stringSymbol,
    (s.symbol string).kind = .classDecl ∨ (s.symbol string).kind = .interface →
      ∃ declared ∈ s.declaredTypes.get? string, s.Holds declared name member
  other : (s.typeData type).isText = false → (∀ object, s.typeData type ≠ .object object) → member = none

theorem memberNamed?_eq (hle : s.Extends known s') {members : List SymbolId}
    (hmembers : ∀ id ∈ members, s.HasMember id) (name : String) :
    s'.memberNamed? members name = s.memberNamed? members name := by
  unfold memberNamed?
  induction members with
  | nil => rfl
  | cons id rest ih =>
    rw [List.find?_cons, List.find?_cons, hle.name (hmembers id List.mem_cons_self).has,
      ih fun id hid => hmembers id (List.mem_cons_of_mem _ hid)]

theorem Holds.mono {type : TypeId} {name : String} {member : Option SymbolId} (h : s.Holds type name member)
    (hs : s.Closed known) (hle : s.Grows known s') : s'.Holds type name member := by
  obtain ⟨object, hobject, hfilled, hmember⟩ := h
  have hsome : s.object? type = some object := by rw [Facts.object?, hobject]; rfl
  refine ⟨object, hle.object_eq (object?_eq_some hsome).1 hobject hfilled, hfilled, ?_⟩
  exact (memberNamed?_eq hle.toExtends (hs.object hsome).members name).trans hmember

/-- What is no object type stays as it is. -/
theorem Grows.typeData_eq (h : Grows known s s') {type : TypeId} (htype : s.HasType type)
    (hother : ∀ object, s.typeData type ≠ .object object) : s'.typeData type = s.typeData type := by
  rcases h.typeData htype with hsame | ⟨object, members, index, hobject, -⟩
  · exact hsame
  · exact absurd hobject (hother object)

/-- What is found once is found ever after. -/
theorem Finds.mono {type : TypeId} {name : String} {member : Option SymbolId}
    (h : Finds s type name member) (hs : s.Closed known) (hle : s.Grows known s') :
    Finds s' type name member := by
  by_cases hobject : ∃ object, s.typeData type = .object object
  · obtain ⟨object, hobject⟩ := hobject
    have hholds := (h.object object hobject).mono hs hle
    have hafter : ∃ after, s'.typeData type = .object after := hholds.imp fun _ h => h.1
    obtain ⟨after, hafter⟩ := hafter
    exact ⟨hle.hasType h.has, fun _ _ => hholds, fun htext => (by rw [hafter] at htext; cases htext),
      fun _ hother => absurd hafter (hother after)⟩
  · have hsame := hle.typeData_eq h.has fun object heq => hobject ⟨object, heq⟩
    refine ⟨hle.hasType h.has, fun object heq => absurd ⟨object, hsame ▸ heq⟩ hobject,
      fun htext string hstring hkind => ?_,
      fun htext hother => h.other (hsame ▸ htext) (hsame ▸ hother)⟩
    rw [hle.stringSymbol] at hstring
    rw [hle.kind (hs.stringSymbol string hstring)] at hkind
    obtain ⟨declared, hdeclared, hholds⟩ := h.text (hsame ▸ htext) string hstring hkind
    exact ⟨declared, hle.declaredTypes hdeclared, hholds.mono hs hle⟩

/-- The type of the value that a declarator takes apart. -/
def initialType? (s : Facts) (declarator : Node) : Option TypeId :=
  match declarator.ascribed? with
  | some type => s.writtenTypes.get? type.id
  | none => declarator.expression?.bind fun value => s.expressionTypes.get? value.id

/-- The element of a binding pattern reads that member of the value of the declarator, if there is one. -/
def Reads (s : Facts) (element declarator : Node) (member : Option SymbolId) : Prop :=
  ∃ type, s.initialType? declarator = some type ∧ Finds s type element.boundProperty member

/-- A function has an object type that can be called with its signature. -/
def IsFunction (s : Facts) (node : Node) (type : TypeId) : Prop :=
  ∃ signature, s.declaredSignatures.get? node.id = some signature ∧
    s.typeData type = .object { ObjectType.bare .anonymous none with calls := [signature] }

theorem IsFunction.mono {node : Node} {type : TypeId} (h : s.IsFunction node type) (hle : s.Grows known s') :
    s'.IsFunction node type := by
  obtain ⟨signature, hdeclared, hdata⟩ := h
  have hsome : s.object? type = some { ObjectType.bare .anonymous none with calls := [signature] } := by
    rw [Facts.object?, hdata]
    rfl
  exact ⟨signature, hle.declaredSignatures hdeclared, hle.object_eq (object?_eq_some hsome).1 hdata rfl⟩

/-! ## What is noted -/

/-- A type is noted for the expression. -/
def Noticed (s : Facts) (node : Node) : Prop := ∃ type, s.expressionTypes.get? node.id = some type

/-- Types are noted for the items of an array or the arguments of a call. -/
def NoticedAll (s : Facts) (items : List Node) : Prop :=
  ∀ item ∈ items, ∀ e ∈ Check.spreadOrItem? item, s.Noticed e

/-- What is there stays, and so do the types that are noted for expressions and values. What refers to something
goes on to refer to something. -/
structure Later (known : Node → Prop) (s s' : Facts) : Prop extends Grows known s s' where
  expressionTypes : ∀ {id type}, s.expressionTypes.get? id = some type → s'.expressionTypes.get? id = some type
  symbolTypes : ∀ {id type}, s.symbolTypes.get? id = some type → s'.symbolTypes.get? id = some type
  resolutions : ∀ {id}, (s.resolutions.get? id).isSome = true → (s'.resolutions.get? id).isSome = true

theorem Later.refl (s : Facts) : Later known s s := ⟨.refl s, id, id, id⟩

theorem Later.trans (h : Later known s s') (h' : Later known s' s'') : Later known s s'' :=
  ⟨h.toGrows.trans h'.toGrows, fun hget => h'.expressionTypes (h.expressionTypes hget),
    fun hget => h'.symbolTypes (h.symbolTypes hget), fun hsome => h'.resolutions (h.resolutions hsome)⟩

theorem Quiet.later (h : Quiet known s s') : Later known s s' :=
  ⟨h.toGrows, fun hget => by rw [h.expressionTypes]; exact hget, fun hget => by rw [h.symbolTypes]; exact hget,
    fun hsome => by rw [h.resolutions]; exact hsome⟩

theorem Noticed.later {node : Node} (h : s.Noticed node) (hle : Later known s s') : s'.Noticed node :=
  h.imp fun _ hget => hle.expressionTypes hget

theorem NoticedAll.later {items : List Node} (h : s.NoticedAll items) (hle : Later known s s') : s'.NoticedAll items :=
  fun item hitem e he => (h item hitem e he).later hle

/-- The type that a declarator says goes on to be what it says. -/
theorem Later.initialType? {declarator : Node} {type : TypeId} (hle : Later known s s')
    (htype : s.initialType? declarator = some type) : s'.initialType? declarator = some type := by
  unfold Facts.initialType? at htype ⊢
  split at htype
  · exact hle.writtenTypes htype
  · obtain ⟨value, hvalue, htype⟩ := Option.bind_eq_some_iff.mp htype
    exact Option.bind_eq_some_iff.mpr ⟨value, hvalue, hle.expressionTypes htype⟩

theorem Reads.mono {element declarator : Node} {member : Option SymbolId} (h : s.Reads element declarator member)
    (hs : s.Closed known) (hle : Later known s s') : s'.Reads element declarator member := by
  obtain ⟨type, htype, hfinds⟩ := h
  exact ⟨type, hle.initialType? htype, hfinds.mono hs hle.toGrows⟩

/-- What is noted for the access and its receiver, if the node is an access. -/
def SeesAccess (known : Node → Prop) (s : Facts) (node : Node) (member : Option SymbolId) : Prop :=
  ∀ e name, IsAccess known node e name → ∃ receiver,
    s.expressionTypes.get? e.id = some receiver ∧ Finds s receiver name member

theorem SeesAccess.mono {node : Node} {member : Option SymbolId} (h : s.SeesAccess known node member)
    (hs : s.Closed known) (hle : Later known s s') : s'.SeesAccess known node member := by
  intro e name haccess
  obtain ⟨receiver, hreceiver, hfinds⟩ := h e name haccess
  exact ⟨receiver, hle.expressionTypes hreceiver, hfinds.mono hs hle.toGrows⟩

/-- What a name or an access refers to: for a name, what it stands for. -/
structure Resolves (known : Node → Prop) (s : Facts) (node : Node) (symbol : SymbolId) : Prop where
  access : s.SeesAccess known node (some symbol)
  name : node.kind = .nameRef → s.lookup node .value node.refText = some symbol

theorem Resolves.mono {node : Node} {symbol : SymbolId} (h : s.Resolves known node symbol) (hs : s.Closed known)
    (hle : Later known s s') : s'.Resolves known node symbol :=
  ⟨h.access.mono hs hle, fun hkind => (lookup_eq hle.scopes node _ _).trans (h.name hkind)⟩

/-- The name refers to something, if it stands for something. Else it needs no declaration, or it is reported. -/
structure IsNamed (s : Facts) (node : Node) : Prop where
  resolved : (s.lookup node .value node.refText).isSome = true → (s.resolutions.get? node.id).isSome = true
  reported : s.lookup node .value node.refText = none → isPredefined node.refText = true ∨
    (node.source = .program → ⟨node.span, .unresolvedName node.refText⟩ ∈ s.problems)

theorem IsNamed.mono {node : Node} (h : s.IsNamed node) (hle : Later known s s') : s'.IsNamed node where
  resolved hsome := hle.resolutions (h.resolved (lookup_eq hle.scopes node _ _ ▸ hsome))
  reported hnone := (h.reported (lookup_eq hle.scopes node _ _ ▸ hnone)).imp_right fun hreported hsource =>
    hle.problems _ (hreported hsource)

/-- What is noted along with the type of an expression: for a name, what it stands for; for an access, its member;
for a function, its signature; for a call, the types of the arguments. -/
structure Sees (known : Node → Prop) (s : Facts) (node : Node) (type : TypeId) : Prop where
  name : node.kind = .nameRef → s.IsNamed node
  access : s.SeesAccess known node (s.resolutions.get? node.id)
  function : node.kind = .arrowFunction ∨ node.kind = .functionExpr → s.IsFunction node type
  arguments : node.kind = .callExpr → s.NoticedAll node.args

/-- A variable that takes an element out of a value. -/
structure Destructures (s : Facts) (symbol : SymbolId) (element declarator : Node) : Prop where
  has : s.HasSymbol symbol
  head : (s.symbol symbol).declarations.head? = some element
  kind : element.kind = .bindingElement
  declarator : element.boundDeclarator? = some declarator

theorem Destructures.mono {symbol : SymbolId} {element declarator : Node} (h : s.Destructures symbol element declarator)
    (hle : s.Extends known s') : s'.Destructures symbol element declarator :=
  { h with has := hle.hasSymbol h.has, head := (hle.head h.has).trans h.head }

/-- If the variable takes an element out of a value, then what it is bound to is the member that it reads. -/
def Bound (s : Facts) (symbol : SymbolId) : Prop :=
  (s.symbol symbol).origin = none → (∃ isConst, (s.symbol symbol).kind = .variable isConst) →
    ∀ element declarator, s.Destructures symbol element declarator → declarator.hasValue = true →
      s.Reads element declarator (s.boundMembers.get? symbol)

/-- A function or method whose type is known has a signature for each node that declares it; a class whose type is
known names its instances, and its own methods are declared, as far as they stand in its first declaration. -/
structure Settled (known : Node → Prop) (s : Facts) (symbol : SymbolId) : Prop where
  functions : (s.symbol symbol).kind = .function ∨ (s.symbol symbol).kind = .method → ∀ node, IsUnique known node →
    s.declared? node = some symbol → (s.declaredSignatures.get? node.id).isSome = true
  classes : (s.symbol symbol).kind = .classDecl → (s.declaredTypes.get? symbol).isSome = true ∧
    ∀ node ∈ (s.symbol symbol).declarations.head?, ∀ member ∈ node.classMembers, member.kind = .methodDecl →
      member.isStatic = true → (s.declared? member).isSome = true

/-- What is known of a value whose type is known. A copy is known through what it is made from. -/
structure Values (known : Node → Prop) (s : Facts) (symbol : SymbolId) : Prop where
  bound : s.Bound symbol
  settled : (s.symbol symbol).origin = none → s.Settled known symbol

/-- What is noted for what a return statement gives. -/
def givenType? (s : Facts) (statement : Node) : Option TypeId :=
  match statement.expression? with
  | some value => s.expressionTypes.get? value.id
  | none => some .undefined

/-- The union of what the return statements of the body give, in the order of the source. -/
structure Gives (s : Facts) (body : Node) (type : TypeId) : Prop where
  nothing : body.returns = [] → type = .void
  something : body.returns ≠ [] → ∃ types, body.returns.map s.givenType? = types.map some ∧ Arena.Unites s types type

/-- What a call gives of a function whose body is a block and that does not say what it gives. -/
def Infers (s : Facts) (node : Node) (type : TypeId) : Prop :=
  ∀ body, node.block? = some body → node.ascribed? = none → ∃ given, s.Gives body given ∧
    if node.isAsync then s.Applies s.promiseSymbol given type else type = given

/-- What is noted for expressions and values is right. Expressions that are being looked at are opened. -/
structure Accesses (known : Node → Prop) (opened : List NodeId) (s : Facts) : Prop where
  found : ∀ {node type}, IsUnique known node → s.expressionTypes.get? node.id = some type → s.Sees known node type
  resolved : ∀ {node symbol}, IsUnique known node → s.resolutions.get? node.id = some symbol →
    s.Resolves known node symbol ∧ (node.id ∈ opened ∨ s.Noticed node)
  asked : ∀ {outer e}, IsHead known outer e → s.Noticed e → outer.id ∈ opened ∨ s.Noticed outer
  bound : ∀ {symbol member}, s.boundMembers.get? symbol = some member → ∃ element declarator,
    s.Destructures symbol element declarator ∧ s.Reads element declarator (some member)
  valued : ∀ {symbol type}, s.symbolTypes.get? symbol = some type → s.HasSymbol symbol ∧ s.Values known symbol
  returned : ∀ {node signature type}, IsUnique known node → node.kind.isFunction = true →
    s.declaredSignatures.get? node.id = some signature → (s.signature signature).returns = some type → s.Infers node type

/-! ### What stays right -/

theorem Sees.mono {node : Node} {type : TypeId} (h : s.Sees known node type) (hs : s.Closed known)
    (hle : Later known s s') (hsame : s'.resolutions.get? node.id = s.resolutions.get? node.id) :
    s'.Sees known node type where
  name hkind := (h.name hkind).mono hle
  access := by
    rw [hsame]
    exact h.access.mono hs hle
  function hkind := (h.function hkind).mono hle.toGrows
  arguments hkind := (h.arguments hkind).later hle

theorem Bound.mono {symbol : SymbolId} (h : s.Bound symbol) (hs : s.Closed known) (hid : s.HasSymbol symbol)
    (hle : Later known s s') (hsame : s'.boundMembers.get? symbol = s.boundMembers.get? symbol) :
    s'.Bound symbol := by
  intro horigin hkind element declarator hdestructures hvalue
  obtain ⟨more, hsymbol⟩ := hle.symbol hid
  rw [hsymbol] at horigin hkind
  rw [hsame]
  exact (h horigin hkind element declarator { hdestructures with
    has := hid
    head := (hle.head hid).symm.trans hdestructures.head } hvalue).mono hs hle

theorem Settled.mono {symbol : SymbolId} (h : s.Settled known symbol) (hid : s.HasSymbol symbol)
    (hle : Grows known s s') : s'.Settled known symbol where
  functions hkind node hnode hdeclared := by
    have hbefore := (hle.fresh hdeclared).resolve_right fun hnone => hnone hid
    obtain ⟨signature, hsignature⟩ := Option.isSome_iff_exists.mp
      (h.functions (hle.kind hid ▸ hkind) node hnode hbefore)
    exact Option.isSome_iff_exists.mpr ⟨signature, hle.declaredSignatures hsignature⟩
  classes hkind := by
    obtain ⟨hnamed, hmethods⟩ := h.classes (hle.kind hid ▸ hkind)
    obtain ⟨type, htype⟩ := Option.isSome_iff_exists.mp hnamed
    refine ⟨Option.isSome_iff_exists.mpr ⟨type, hle.declaredTypes htype⟩, fun node hnode member hmember hmethod hstatic => ?_⟩
    exact hle.isSome_declared? (hmethods node (hle.head hid ▸ hnode) member hmember hmethod hstatic)

theorem Values.mono {symbol : SymbolId} (h : s.Values known symbol) (hs : s.Closed known) (hid : s.HasSymbol symbol)
    (hle : Later known s s') (hsame : s'.boundMembers.get? symbol = s.boundMembers.get? symbol) :
    s'.Values known symbol where
  bound := h.bound.mono hs hid hle hsame
  settled horigin := by
    obtain ⟨more, hsymbol⟩ := hle.symbol hid
    rw [hsymbol] at horigin
    exact (h.settled horigin).mono hid hle.toGrows

theorem givenType?_later {statement : Node} {type : TypeId} (h : s.givenType? statement = some type)
    (hle : Later known s s') : s'.givenType? statement = some type := by
  unfold givenType? at h ⊢
  split at h
  · exact hle.expressionTypes h
  · exact h

theorem hasType_givenType? (hs : s.Closed known) {statement : Node} {type : TypeId}
    (h : s.givenType? statement = some type) : s.HasType type := by
  unfold givenType? at h
  split at h
  · exact hs.expressionTypes _ type h
  · cases h
    exact hs.hasType_primitive (by decide)

section

variable {statements : List Node} {types : List TypeId} (h : statements.map s.givenType? = types.map some)

include h

theorem hasType_of_givenTypes (hs : s.Closed known) : ∀ type ∈ types, s.HasType type := fun type htype => by
  obtain ⟨statement, -, hgiven⟩ := List.mem_map.mp
    (h ▸ List.mem_map_of_mem htype : some type ∈ statements.map s.givenType?)
  exact hasType_givenType? hs hgiven

theorem givenTypes_later (hle : Later known s s') : statements.map s'.givenType? = types.map some := by
  rw [← h]
  refine List.map_congr_left fun statement hstatement => ?_
  obtain ⟨type, -, hgiven⟩ := List.mem_map.mp (h ▸ List.mem_map_of_mem hstatement)
  rw [← hgiven]
  exact givenType?_later hgiven.symm hle

end

/-- What return statements give together they go on to give. -/
theorem Gives.mono {body : Node} {type : TypeId} (h : s.Gives body type) (hs : s.Closed known) (hle : Later known s s') :
    s'.Gives body type where
  nothing := h.nothing
  something hsome := by
    obtain ⟨types, htypes, hunion⟩ := h.something hsome
    obtain ⟨hnormal, hkeeps⟩ := hs.normal.becomes hle.arena
    exact ⟨types, givenTypes_later htypes hle, hunion.keeps hs.normal (hasType_of_givenTypes htypes hs) hnormal hkeeps⟩

theorem Infers.mono {node : Node} {type : TypeId} (h : s.Infers node type) (hs : s.Closed known)
    (hle : Later known s s') : s'.Infers node type := by
  intro body hbody hnone
  obtain ⟨given, hgives, hgiven⟩ := h body hbody hnone
  refine ⟨given, hgives.mono hs hle, ?_⟩
  split at hgiven
  · rw [if_pos ‹_›, hle.promiseSymbol]
    exact hgiven.mono hs hs.promiseSymbol hle.toGrows
  · rwa [if_neg ‹_›]

section

variable (h : Accesses known opened s) (hs : s.Closed known) (hle : Later known s s')

include h hs hle

/-- What refers to something goes on to be right, and to be looked at or done with. -/
theorem Accesses.resolved_later {node : Node} {symbol : SymbolId} (hnode : IsUnique known node)
    (hsymbol : s.resolutions.get? node.id = some symbol) :
    s'.Resolves known node symbol ∧ (node.id ∈ opened ∨ s'.Noticed node) :=
  (h.resolved hnode hsymbol).imp (·.mono hs hle) (·.imp_right (·.later hle))

/-- A destructured variable goes on to read the member that it stands for. -/
theorem Accesses.bound_later {symbol member : SymbolId} (hmember : s.boundMembers.get? symbol = some member) :
    ∃ element declarator, s'.Destructures symbol element declarator ∧ s'.Reads element declarator (some member) := by
  obtain ⟨element, declarator, hdestructures, hreads⟩ := h.bound hmember
  exact ⟨element, declarator, hdestructures.mono hle.toExtends, hreads.mono hs hle⟩

/-- What values are noted for goes on to be right, as long as nothing is destructured. -/
theorem Accesses.valued_later (hsame : s'.boundMembers = s.boundMembers) {symbol : SymbolId} {type : TypeId}
    (htype : s.symbolTypes.get? symbol = some type) : s'.HasSymbol symbol ∧ s'.Values known symbol := by
  obtain ⟨hid, hvalues⟩ := h.valued htype
  exact ⟨hle.hasSymbol hid, hvalues.mono hs hid hle (by rw [hsame])⟩

/-- What calls give goes on to be right, as long as nothing new is known of it. -/
theorem Accesses.returned_later {node : Node} {signature : SignatureId} {type : TypeId} (hnode : IsUnique known node)
    (hkind : node.kind.isFunction = true) (hget : s.declaredSignatures.get? node.id = some signature)
    (hreturns : (s.signature signature).returns = some type) : s'.Infers node type :=
  (h.returned hnode hkind hget hreturns).mono hs hle

end

theorem Accesses.quiet (h : Accesses known opened s) (hs : s.Closed known) (hle : Quiet known s s') :
    Accesses known opened s' where
  found hnode htype :=
    (h.found hnode (hle.expressionTypes ▸ htype)).mono hs hle.later (by rw [hle.resolutions])
  resolved hnode hsymbol := h.resolved_later hs hle.later hnode (hle.resolutions ▸ hsymbol)
  asked hhead hnoticed := by
    refine (h.asked hhead ?_).imp_right (·.later hle.later)
    rwa [Noticed, ← hle.expressionTypes]
  bound hmember := h.bound_later hs hle.later (hle.boundMembers ▸ hmember)
  valued htype := h.valued_later hs hle.later hle.boundMembers (hle.symbolTypes ▸ htype)
  returned hnode hkind hget hreturns :=
    h.returned_later hs hle.later hnode hkind (hle.answered hget hreturns).1 (hle.answered hget hreturns).2

/-- The law of questions about values: what is noted stays right. -/
def noting (known : Node → Prop) (opened : List NodeId) : Law where
  holds s := s.Closed known ∧ s.Accesses known opened
  step := Later known
  refl := Later.refl
  trans := Later.trans

theorem noting_stable_hasType : (noting known opened).Stable fun id s => s.HasType id :=
  fun _ _ _ hstep hid => Extends.hasType hstep.toExtends hid

end Facts

/-! ## Steps -/

open Facts (quiet noting Finds)

variable {known : Node → Prop} {opened : List NodeId} {s : Facts}

namespace Check

theorem Obeys.quietly {α : Type} {check : Check α} {post : α → Facts → Prop}
    (h : Obeys (quiet known) s check post) : Obeys (noting known opened) s check post :=
  h.lift (fun hs => hs.1) fun _ hs hs' hstep => ⟨⟨hs', hs.2.quiet hs.1 hstep⟩, hstep.later⟩

/-- A name or an access that is being looked at refers to something; an access, to the member of the type of
its receiver. -/
theorem resolveTo_obeys {node : Node} (hnode : known node) (hopened : node.id ∈ opened)
    {symbol : SymbolId} (hsymbol : s.HasSymbol symbol) (hright : s.Resolves known node symbol) :
    Obeys (noting known opened) s (resolveTo node symbol) fun _ s =>
      s.resolutions.get? node.id = some symbol := by
  refine .modify fun ⟨hs, haccesses⟩ => ?_
  let s' : Facts := { s with resolutions := s.resolutions.insert node.id symbol }
  have hlater : s.Later known s' := { Facts.Later.refl s with
    resolutions := fun hsome => Table.isSome_get?_insert node.id symbol hsome }
  have hown : s'.resolutions.get? node.id = some symbol := Table.get?_insert_self _ _ _
  have hother : ∀ {id}, node.id ≠ id → s'.resolutions.get? id = s.resolutions.get? id :=
    fun hne => Table.get?_insert_of_ne hne _ _
  have hright' := hright.mono hs hlater
  refine ⟨⟨{ hs.mono hlater.toExtends with resolutions := hs.resolutions.insert hsymbol }, ?_, ?_, haccesses.asked,
    haccesses.bound_later hs hlater, haccesses.valued_later hs hlater rfl, haccesses.returned_later hs hlater⟩, hlater,
    hown⟩
  · intro other type hin htype
    have hbefore := haccesses.found hin htype
    by_cases hid : node.id = other.id
    · obtain rfl := hin.eq_of_id hnode hid
      exact { hbefore with
        name := fun hkind => (hbefore.name hkind).mono hlater
        access := by rw [hown]; exact hright'.access
        function := fun hkind => (hbefore.function hkind).mono hlater.toGrows }
    · exact hbefore.mono hs hlater (hother hid)
  · intro other found hin hfound
    by_cases hid : node.id = other.id
    · obtain rfl := hin.eq_of_id hnode hid
      rw [hown] at hfound
      cases hfound
      exact ⟨hright', .inl hopened⟩
    · exact haccesses.resolved_later hs hlater hin (hother hid ▸ hfound)

/-- A destructured variable stands for the member that it reads. -/
theorem bindMember_obeys {symbol member : SymbolId} {element declarator : Node} (hmember : s.HasSymbol member)
    (hdestructures : s.Destructures symbol element declarator) (hreads : s.Reads element declarator (some member)) :
    Obeys (noting known opened) s
      (modify fun facts => { facts with boundMembers := facts.boundMembers.insert symbol member })
      fun _ s => s.Reads element declarator (s.boundMembers.get? symbol) := by
  refine .modify fun ⟨hs, haccesses⟩ => ?_
  let s' : Facts := { s with boundMembers := s.boundMembers.insert symbol member }
  have hlater : s.Later known s' := { Facts.Later.refl s with }
  have hown : s'.boundMembers.get? symbol = some member := Table.get?_insert_self _ _ _
  have hreads' : s'.Reads element declarator (s'.boundMembers.get? symbol) := by
    rw [hown]
    exact hreads.mono hs hlater
  refine ⟨⟨{ hs.mono hlater.toExtends with boundMembers := hs.boundMembers.insert hmember },
    fun hin htype => (haccesses.found hin htype).mono hs hlater rfl, haccesses.resolved_later hs hlater,
    haccesses.asked, ?_, ?_, haccesses.returned_later hs hlater⟩, hlater, hreads'⟩
  · intro other found hfound
    rcases Table.of_get?_insert hfound with ⟨rfl, rfl⟩ | hfound
    · exact ⟨element, declarator, hdestructures.mono hlater.toExtends, hreads.mono hs hlater⟩
    · exact haccesses.bound_later hs hlater hfound
  · intro other type htype
    obtain ⟨hid, hvalues⟩ := haccesses.valued htype
    refine ⟨hid, ?_⟩
    by_cases hsame : symbol = other
    · subst hsame
      refine ⟨?_, fun horigin => (hvalues.settled horigin).mono hid hlater.toGrows⟩
      intro _ _ element' declarator' hdestructures' _
      have helement : element' = element :=
        Option.some_inj.mp (hdestructures'.head.symm.trans hdestructures.head)
      subst helement
      have hdeclarator : declarator' = declarator :=
        Option.some_inj.mp (hdestructures'.declarator.symm.trans hdestructures.declarator)
      subst hdeclarator
      exact hreads'
    · exact hvalues.mono hs hid hlater (Table.get?_insert_of_ne hsame _ _)

/-- A type is noted for the value of a symbol, unless there is one. -/
theorem keepValue_obeys {symbol : SymbolId} (hsymbol : s.HasSymbol symbol) {type : TypeId} (htype : s.HasType type)
    (hvalues : s.Values known symbol) :
    Obeys (noting known opened) s (modifyGet fun facts =>
        let (type, symbolTypes) := facts.symbolTypes.keepFirst symbol type
        (type, { facts with symbolTypes }))
      fun type s => s.HasType type ∧ s.symbolTypes.get? symbol = some type := by
  refine .modifyGet fun ⟨hs, haccesses⟩ => ?_
  let s' : Facts := { s with symbolTypes := (s.symbolTypes.keepFirst symbol type).2 }
  have hlater : s.Later known s' := { Facts.Later.refl s with
    symbolTypes := fun hget => Table.get?_keepFirst_of_some _ hget }
  obtain ⟨hkept, hall⟩ : s.HasType (s.symbolTypes.keepFirst symbol type).1 ∧ _ :=
    hs.symbolTypes.keepFirst htype
  refine ⟨⟨{ hs.mono hlater.toExtends with symbolTypes := hall },
    fun hin htype => (haccesses.found hin htype).mono hs hlater rfl, haccesses.resolved_later hs hlater,
    haccesses.asked, haccesses.bound_later hs hlater, ?_, haccesses.returned_later hs hlater⟩, hlater, hkept,
    Table.get?_keepFirst_self _ _ _⟩
  intro other found hfound
  have hright : s.HasSymbol other ∧ s.Values known other := by
    rcases Table.of_get?_keepFirst hfound with ⟨rfl, -⟩ | hfound
    · exact ⟨hsymbol, hvalues⟩
    · exact haccesses.valued hfound
  exact ⟨hright.1, hright.2.mono hs hright.1 hlater rfl⟩

/-- What a call with a signature gives is noted, unless it is known by now. -/
theorem keepReturn_obeys {id : SignatureId} (hid : s.HasSignature id) {type : TypeId} (htype : s.HasType type)
    (hinfers : ∀ node, node.kind.isFunction = true → (s.signature id).declaration = some node →
      (s.signature id).origin = none → (s.signature id).instanceOf = none → s.Infers node type) :
    Obeys (noting known opened) s (modifyGet fun facts =>
        let type := ((facts.signature id).returns).getD type
        (type, facts.modifySignature id ({ · with returns := some type })))
      fun type s => s.HasType type ∧ (s.signature id).returns = some type := by
  refine .modifyGet fun ⟨hs, haccesses⟩ => ?_
  have hgiven : s.HasType ((s.signature id).returns.getD type) := by
    cases hreturns : (s.signature id).returns with
    | none => exact htype
    | some kept => exact (hs.signature id hid).returns kept hreturns
  generalize hkept : (s.signature id).returns.getD type = kept at hgiven
  let s' : Facts := s.modifySignature id ({ · with returns := some kept })
  have hext : s.Extends known s' := Facts.extends_modifySignature (fun _ => rfl) ⟨rfl, rfl, .inl rfl⟩ (by
    cases hreturns : (s.signature id).returns with
    | none => exact .inr rfl
    | some before =>
      rw [hreturns] at hkept
      exact .inl (congrArg some hkept.symm))
  have hlater : s.Later known s' := { (Facts.Later.refl s : s.Later known s) with
    toExtends := hext, finished := Facts.nothing_finished }
  have hclosed : s'.Closed known := Facts.closed_modifySignature (fun old hold =>
    { hold with returns := fun given hsome => by cases hsome; exact hgiven }) hs hext
  have hown : (s'.signature id).returns = some kept := by
    rw [Facts.signature_modifySignature hid, if_pos rfl]
  refine ⟨⟨hclosed, fun hin htype => (haccesses.found hin htype).mono hs hlater rfl, haccesses.resolved_later hs hlater,
    haccesses.asked, haccesses.bound_later hs hlater, haccesses.valued_later hs hlater rfl, ?_⟩, hlater,
    hext.hasType hgiven, hown⟩
  intro node signature found hnode hkind hget hfound
  obtain ⟨hhas, -⟩ := hs.declaredSignatures hget
  by_cases hsame : id = signature
  · subst hsame
    rw [hown] at hfound
    cases hfound
    cases hreturns : (s.signature id).returns with
    | some before =>
      rw [hreturns] at hkept
      obtain rfl : before = kept := hkept
      exact haccesses.returned_later hs hlater hnode hkind hget hreturns
    | none =>
      rw [hreturns] at hkept
      obtain ⟨other, hother, hid, hdeclaration, horigin, hmade⟩ := hs.written hget
      obtain rfl := hnode.eq_of_id hother hid
      obtain rfl : type = kept := hkept
      exact (hinfers other hkind hdeclaration horigin (hmade fun heq => by
        rw [heq] at hkind
        cases hkind)).mono hs hlater
  · rw [Facts.signature_modifySignature hhas, if_neg hsame] at hfound
    exact haccesses.returned_later hs hlater hnode hkind hget hfound

end Check

end RouteTypes
