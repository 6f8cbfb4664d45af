-- The rules of a check, one by one: what they ask and note, and what they report themselves.
import RouteTypes.Proofs.Typing.Building

namespace RouteTypes

open Facts (Gains)

namespace Check

variable {A : Setting} {n : Nat}

section

variable (hA : A.Fits)

/-! ## Common steps -/

theorem ifThere_built {rule : Node → Ask → Check TypeId} (node : Option Node)
    (h : ∀ there ∈ node, Built A n (rule there)) : Built A n fun ask => ifThere node fun there => rule there ask := by
  cases node with
  | none => exact .any
  | some there => exact h there rfl

theorem expressionType_built (node : Option Node) (h : ∀ there ∈ node, A.known there) :
    Built A 0 fun ask => expressionType ask node :=
  ifThere_built node fun there hthere => .ask (.expression there) (h there hthere)

theorem writtenType_built (node : Option Node) (h : ∀ there ∈ node, A.known there) :
    Built A 0 fun ask => writtenType ask node :=
  ifThere_built node fun there hthere => .ask (.written there) (h there hthere)

theorem typeNamedBy_built (declaration : Option Node) : Built A 0 fun ask => typeNamedBy ask declaration := by
  refine .get fun s _ => ?_
  cases declaration.bind s.declared? with
  | none => exact .any
  | some symbol => exact .ask (.declared symbol) trivial

theorem membersOf_built (type : TypeId) : Built A 0 fun ask => membersOf ask type :=
  .first (.ask (.members type) trivial) fun found => .get fun s _ => .pure (s.membersOf found)

theorem callsOf_built (type : TypeId) : Built A 0 fun ask => callsOf ask type :=
  .first (.ask (.members type) trivial) fun _ => .get fun _ _ => .pure _

include hA

theorem ascribedOr_built {node : Node} (hnode : A.known node) {rule : Ask → Check TypeId} (h : Built A n rule) :
    Built A n fun ask => ascribedOr ask node (rule ask) := by
  unfold ascribedOr
  cases htype : node.ascribed? with
  | none => exact h
  | some type => exact .free (.ask (.written type) (hA.nodes.ascribed? hnode type htype))

theorem applied_built (generic : Option SymbolId) (arg : TypeId) : Built A 0 fun ask => applied ask generic arg := by
  cases generic with
  | none => exact .any
  | some symbol => exact .first (.ask (.declared symbol) trivial) fun type => .core hA (Facts.reference_core type [arg])

theorem arrayOf_built (element : TypeId) : Built A 0 fun ask => arrayOf ask element :=
  .get fun s _ => applied_built hA s.arraySymbol element

theorem promiseOf_built (type : TypeId) : Built A 0 fun ask => promiseOf ask type :=
  .get fun s _ => applied_built hA s.promiseSymbol type

theorem functionType_built (declarations : List Node) (h : ∀ node ∈ declarations, A.known node) :
    Built A 0 fun _ => functionType declarations :=
  .first (.gains hA fun s _ =>
    Facts.each_gains declarations (fun node hnode s => Facts.signatureOf_gains (h node hnode) s) s) fun _ =>
      .core hA fun _ => rfl

theorem addType_built (data : TypeData) : Built A 0 fun _ => (modifyGet (Facts.addType data) : Check TypeId) :=
  .core hA fun _ => rfl

theorem modifyObject_built (type : TypeId) (change : ObjectType → ObjectType) :
    Built A 0 fun _ => (modify (Facts.modifyObject type change) : Check PUnit) :=
  .core hA fun _ => rfl

/-! ## Substitution -/

theorem copySymbols_built (substitution : SubstitutionId) (members : List SymbolId) :
    Built A 0 fun _ => (modifyGet (Facts.each (Facts.copySymbol substitution) members) : Check (List SymbolId)) :=
  .gains hA fun s _ => Facts.each_gains members (fun member _ s => Facts.copySymbol_gains substitution member s) s

theorem copySignatures_built (substitution : SubstitutionId) (signatures : List SignatureId) : Built A 0 fun _ =>
    (modifyGet (Facts.each (Facts.copySignature substitution) signatures) : Check (List SignatureId)) :=
  .gains hA fun s _ =>
    Facts.each_gains signatures (fun signature _ s => Facts.copySignature_gains substitution signature s) s

omit hA in
theorem substitutedIndex_built (index : Option TypeId) (substitution : SubstitutionId) :
    Built A 0 fun ask => index.mapM fun type => ask (.substituted type substitution) := by
  cases index with
  | none => exact .pure none
  | some type => exact .first (.ask (.substituted type substitution) trivial) fun found => .pure (some found)

theorem substituteInObject_built (type : TypeId) (object : ObjectType) (substitution : SubstitutionId) :
    Built A 0 fun ask => substituteInObject ask type object substitution :=
  .first (addType_built hA _) fun copy =>
  .first (.core hA fun _ => rfl) fun _ =>
  .first (copySymbols_built hA substitution object.members) fun _ =>
  .first (copySignatures_built hA substitution object.calls) fun _ =>
  .first (copySignatures_built hA substitution object.constructs) fun _ =>
  .first (substitutedIndex_built object.stringIndex substitution) fun _ =>
  .first (modifyObject_built hA copy _) fun _ => .pure copy

theorem substitute_built (type : TypeId) (substitution : SubstitutionId) :
    Built A 0 fun ask => substitute ask type substitution := by
  refine .get fun s _ => ?_
  cases s.typeData type with
  | param param => exact .get fun _ _ => .pure _
  | union members =>
    exact .first (.mapM members fun member _ => .ask (.substituted member substitution) trivial) fun members =>
      .core hA (Facts.union_core members)
  | object object =>
    dsimp only
    cases object.kind with
    | reference =>
      refine .first (.mapM object.typeArguments fun arg _ =>
        .ask (.substituted arg substitution) trivial) fun args => ?_
      cases object.target with
      | none => exact .pure type
      | some target =>
        exact .ite (fun _ => .pure type) fun _ => .core hA (Facts.reference_core target args)
    | classType | interface =>
      refine .ite (fun _ => .pure type) fun _ => .first (.mapM object.typeParams fun param _ => ?_) fun args =>
        .core hA (Facts.reference_core type args)
      exact .first (.core hA (Facts.paramType_core param)) fun own => .ask (.substituted own substitution) trivial
    | anonymous | constructor => exact substituteInObject_built hA type object substitution
  | _ => exact .pure type

theorem substituted_built (type : TypeId) (substitution : SubstitutionId) :
    Built A 0 fun ask => substituted ask type substitution := by
  refine .get fun s _ => ?_
  cases s.substitutedTypes.get? (type, substitution) with
  | some known => exact .pure known
  | none =>
    exact .first (substitute_built hA type substitution) fun result =>
      .first (.core hA fun _ => rfl) fun _ => .pure result

theorem fillMembers_built (type : TypeId) : Built A 0 fun ask => fillMembers ask type := by
  refine .get fun s _ => ?_
  cases s.object? type with
  | none => exact .pure type
  | some object =>
    obtain ⟨_, _, _, _, _, _, _, target, args, hasMembers⟩ := object
    cases hasMembers with
    | true => cases target <;> exact .pure type
    | false =>
      cases target with
      | none => exact .pure type
      | some target =>
        exact .first (modifyObject_built hA type _) fun _ => .get fun s _ =>
          .first (.core hA (Facts.shareSubstitution_core _ args)) fun substitution => .get fun s _ =>
          .first (copySymbols_built hA substitution _) fun _ => .get fun s _ =>
          .first (substitutedIndex_built _ substitution) fun _ =>
          .first (modifyObject_built hA type _) fun _ => .pure type

/-! ## Written types -/

theorem declareMember_built {kind : SymbolKind} (hkind : kind.isVariable = false) (isOptional : Bool) {node : Node}
    (hnode : A.known node) (table : MemberTable) :
    Built A 0 fun _ => (modifyGet (Facts.declareMember kind isOptional node table) : Check MemberTable) :=
  .gains hA fun s _ => Facts.declareMember_gains hkind isOptional hnode table s

theorem indexMember_built {node : Node} (hnode : A.known node) (table : MemberTable) :
    Built A 0 fun ask => indexMember ask node table := by
  unfold indexMember
  cases htype : node.ascribed? with
  | none => exact .pure table
  | some type =>
    exact .first (.ask (.written type) (hA.nodes.ascribed? hnode type htype)) fun index =>
      .pure { table with stringIndex := some index }

theorem typeMember_built {node : Node} (hnode : A.known node) (table : MemberTable) :
    Built A 0 fun ask => typeMember ask table node := by
  unfold typeMember
  cases node.kind with
  | propertySignature | methodSignature => exact declareMember_built hA rfl _ hnode table
  | indexSignature => exact indexMember_built hA hnode table
  | _ => exact .pure table

theorem objectType_built {node : Node} (hnode : A.known node) : Built A 0 fun ask => objectType ask node :=
  .first (.foldlM node.typeMembers (fun member hmember table =>
    typeMember_built hA (hA.nodes.childrenOf hnode member hmember) table) .empty) fun _ => addType_built hA _

theorem defaultOf_built (param : SymbolId) : Built A 0 fun ask => defaultOf ask param := by
  refine .get fun s hs => writtenType_built _ fun type htype => ?_
  obtain ⟨node, hnode, hdefault⟩ := Option.bind_eq_some_iff.mp htype
  have hknown := hA.declared hs param node (List.mem_of_mem_head? hnode)
  unfold Node.defaultType? at hdefault
  split at hdefault
  · exact hA.nodes.childrenOf hknown type (List.mem_of_getLast? hdefault)
  · cases hdefault

theorem fillArgs_built (params : List SymbolId) (args : List TypeId) : Built A 0 fun ask => fillArgs ask params args :=
  .first (.mapM _ fun param _ => defaultOf_built hA param) fun _ => .pure _

theorem aliasWith_built (symbol : SymbolId) (params : List SymbolId) (args : List TypeId) :
    Built A 0 fun ask => aliasWith ask symbol params args := by
  refine .get fun s _ => ?_
  cases s.aliasInstances.get? (symbol, args) with
  | some known => exact .pure known
  | none =>
    exact .first (.ask (.declared symbol) trivial) fun generic =>
      .first (.core hA (Facts.shareSubstitution_core params args)) fun substitution =>
      .first (.ask (.substituted generic substitution) trivial) fun type =>
      .first (.core hA fun _ => rfl) fun _ => .pure type

omit hA in
/-- The one report of a reference to something that there is. -/
theorem checkArgCount_built {node : Node} {name : String} {span : Text.Span} (params : List SymbolId) (found : Nat)
    (hcost : A.cost node span "T0006" ≤ n) : Built A n fun _ => checkArgCount node name span params found :=
  .get fun _ _ => .ite (fun _ => .mono hcost (.report node span (.typeArgumentCount name params.length found)))
    fun _ => .free (.pure _)

theorem namedType_built {node : Node} (name : String) {span : Text.Span} (symbol : SymbolId) (args : List TypeId)
    (hcost : A.cost node span "T0006" ≤ n) : Built A n fun ask => namedType ask node name span symbol args := by
  refine .get fun s _ => ?_
  cases (s.symbol symbol).kind with
  | typeParam => exact .free (.ask (.declared symbol) trivial)
  | classDecl | interface =>
    refine .first (.ask (.declared symbol) trivial) fun generic => .get fun s _ =>
      .behind (checkArgCount_built _ args.length hcost) fun _ => .ite (fun _ => .pure generic) fun _ => ?_
    exact .first (fillArgs_built hA _ args) fun filled => .core hA (Facts.reference_core generic filled)
  | «alias» =>
    refine .get fun s _ => .behind (checkArgCount_built _ args.length hcost) fun _ =>
      .ite (fun _ => .ask (.declared symbol) trivial) fun _ => ?_
    exact .first (fillArgs_built hA _ args) fun filled => aliasWith_built hA symbol _ filled
  | _ => exact .any

/-- Where a reference to a type is reported. -/
def refSpan (node : Node) : Text.Span := (node.nameRef?.getD node).span

theorem referredType_built {node : Node} (hnode : A.known node) (hmissing : A.cost node (refSpan node) "T0002" ≤ n)
    (hcount : A.cost node (refSpan node) "T0006" ≤ n) : Built A n fun ask => referredType ask node := by
  unfold referredType
  dsimp only
  split
  · exact .free (.pure _)
  · refine .get fun s _ => ?_
    cases s.lookup node .type ((node.nameRef?.map (·.refText)).getD "") with
    | none => exact .behind (.mono hmissing (.report node (refSpan node) (.unresolvedType _))) fun _ => .any
    | some symbol =>
      exact .first (.mapM node.typeArgs fun arg harg => .ask (.written arg) (hA.nodes.map_childrenOf hnode arg harg))
        fun args => namedType_built hA _ symbol args hcount

theorem constantType_built (node : Node) : Built A 0 fun _ => constantType node := by
  unfold constantType
  split
  · exact .any
  · split
    · exact .core hA (Facts.literalType_core _)
    · exact .core hA (Facts.literalType_core _)
    · exact .core hA (Facts.literalType_core _)
    · exact .core hA (Facts.literalType_core _)
    · exact .any

/-- What is known of the costs of reports about the node as a type expression. -/
structure Setting.WrittenCost (A : Setting) (node : Node) (n : Nat) : Prop where
  missing : node.kind = .typeRef → A.cost node (refSpan node) "T0002" ≤ n
  count : node.kind = .typeRef → A.cost node (refSpan node) "T0006" ≤ n

theorem readType_built {node : Node} (hnode : A.known node) (hcost : A.WrittenCost node n) :
    Built A n fun ask => readType ask node := by
  unfold readType
  cases hkind : node.kind with
  | typeRef => exact referredType_built hA hnode (hcost.missing hkind) (hcost.count hkind)
  | arrayType =>
    exact .free (.first (writtenType_built _ (hA.nodes.child? hnode)) fun element => arrayOf_built hA element)
  | unionType =>
    exact .free (.first (.mapM node.types fun member hmember =>
      .ask (.written member) (hA.nodes.childrenOf hnode member hmember)) fun members =>
        .core hA (Facts.union_core members))
  | typeLiteral => exact .free (objectType_built hA hnode)
  | functionType => exact .free (functionType_built hA [node] (List.forall_mem_singleton.mpr hnode))
  | parenType => exact .free (writtenType_built _ (hA.nodes.child? hnode))
  | thisType => exact .free (typeNamedBy_built _)
  | literalType => exact .free (constantType_built hA node)
  | predefinedType =>
    dsimp only
    split
    · exact .free (.pure _)
    · exact .free (.pure _)
    · exact .any
  | _ => exact .any

theorem written_built {node : Node} (hnode : A.known node) (hwrites : A.writes node) (hcost : A.WrittenCost node n) :
    Built A n fun ask => written ask node := by
  refine .get fun s _ => ?_
  cases s.writtenTypes.get? node.id with
  | some known => exact .free (.pure known)
  | none =>
    exact .behind (readType_built hA hnode hcost) fun type =>
      .first (.note fun s hs => hA.writing hs hnode hwrites type) fun _ => .pure type

/-! ## Declarations -/

theorem instanceMember_built {node : Node} (hnode : A.known node) (table : MemberTable) :
    Built A 0 fun ask => instanceMember ask table node := by
  unfold instanceMember
  cases node.kind with
  | propertyDecl | methodDecl =>
    exact .ite (fun _ => .pure table) fun _ => declareMember_built hA rfl _ hnode table
  | constructorDecl =>
    refine .foldlM _ (fun param hparam table => ?_) table
    exact declareMember_built hA rfl _ (hA.nodes.map_childrenOf hnode param (List.mem_filter.mp hparam).1) table
  | indexSignature => exact indexMember_built hA hnode table
  | _ => exact .pure table

theorem interfaceBody_built {node : Node} (hnode : A.known node) (table : MemberTable) :
    Built A 0 fun ask => interfaceBody ask table node := by
  unfold interfaceBody
  cases hbody : node.typeLiteral? with
  | none => exact .pure table
  | some body =>
    exact .first (.ask (.written body) (hA.nodes.child? hnode body hbody)) fun type =>
      .first (membersOf_built type) fun added =>
      .first (.gains hA fun s _ => Facts.pushMembers_gains table.members added s) fun _ => .get fun _ _ => .pure _

omit hA in
theorem inheritFrom_built {base : Node} (hbase : A.known base) (table : MemberTable) :
    Built A 0 fun ask => inheritFrom ask table base :=
  .first (.ask (.written base) hbase) fun type => .first (membersOf_built type) fun _ => .get fun _ _ => .pure _

theorem classTable_built {declarations : List Node} (h : ∀ node ∈ declarations, A.known node) :
    Built A 0 fun ask => classTable ask declarations := by
  refine .first (.foldlM _ (fun member hmember table => ?_) MemberTable.empty) fun table => ?_
  · obtain ⟨node, hnode, hmember⟩ := List.mem_flatMap.mp hmember
    exact instanceMember_built hA (hA.nodes.map_childrenOf (h node hnode) member hmember) table
  · cases hbase : declarations.findSome? (·.extended.head?) with
    | none => exact .pure table
    | some base =>
      obtain ⟨node, hnode, hbase⟩ := List.exists_of_findSome?_eq_some hbase
      exact inheritFrom_built (hA.nodes.map_childrenOf (h node hnode) base (List.mem_of_mem_head? hbase)) table

theorem interfaceTable_built {declarations : List Node} (h : ∀ node ∈ declarations, A.known node) :
    Built A 0 fun ask => interfaceTable ask declarations := by
  refine .first (.foldlM _ (fun node hnode table =>
    interfaceBody_built hA (h node hnode) table) MemberTable.empty) fun table =>
      .foldlM _ (fun base hbase table => ?_) table
  obtain ⟨node, hnode, hbase⟩ := List.mem_flatMap.mp hbase
  exact inheritFrom_built (hA.nodes.map_childrenOf (h node hnode) base hbase) table

theorem declareObject_built (symbol : SymbolId) (kind : ObjectKind) {table : List Node → Ask → Check MemberTable}
    (h : ∀ declarations, (∀ node ∈ declarations, A.known node) → Built A 0 (table declarations)) :
    Built A 0 fun ask => declareObject symbol kind fun declarations => table declarations ask :=
  .get fun _ _ => .first (addType_built hA _) fun type =>
    .first (.core hA fun _ => rfl) fun _ =>
    .get fun _ hs => .first (h _ (hA.declared hs symbol)) fun _ =>
    .first (modifyObject_built hA type _) fun _ => .pure type

theorem aliasType_built (symbol : SymbolId) : Built A 0 fun ask => aliasType ask symbol := by
  refine .read fun pending => .ite (fun _ => .any) fun _ => .get fun s hs => ?_
  refine .first (.withReader (fun _ => List.Subset.refl _) (writtenType_built _ fun type htype => ?_)) fun type =>
    .core hA fun _ => rfl
  obtain ⟨node, hnode, htype⟩ := Option.bind_eq_some_iff.mp htype
  exact hA.nodes.child? (hA.declared hs symbol node (List.mem_of_mem_head? hnode)) type htype

theorem declared_built (symbol : SymbolId) : Built A 0 fun ask => declared ask symbol := by
  refine .get fun s _ => ?_
  cases s.declaredTypes.get? symbol with
  | some known => exact .pure known
  | none =>
    refine .get fun s _ => ?_
    cases (s.symbol symbol).kind with
    | typeParam =>
      exact .first (.core hA (Facts.paramType_core symbol)) fun type =>
        .first (.core hA fun _ => rfl) fun _ => .pure type
    | classDecl => exact declareObject_built hA symbol .classType fun _ h => classTable_built hA h
    | interface => exact declareObject_built hA symbol .interface fun _ h => interfaceTable_built hA h
    | «alias» => exact aliasType_built hA symbol
    | _ => exact .any

/-! ## Members of values -/

omit hA in
theorem memberOfObject_built (object : TypeId) (name : String) :
    Built A 0 fun ask => memberOfObject ask object name := by
  refine .first (membersOf_built object) fun members => .get fun s _ => ?_
  cases s.memberNamed? members name with
  | some member => exact .first (.ask (.valueOf member) trivial) fun type => .pure (Access.found (some member) type)
  | none =>
    cases s.stringIndexOf object with
    | some index => exact .pure (Access.found none index)
    | none => exact .pure Access.missing

omit hA in
theorem memberOfOne_built (type : TypeId) (name : String) : Built A 0 fun ask => memberOfOne ask type name := by
  have hstring : ∀ string : SymbolId,
      Built A 0 fun ask => ask (.declared string) >>= fun type => memberOfObject ask type name := fun string =>
    .first (.ask (.declared string) trivial) fun type => memberOfObject_built type name
  refine .get fun s _ => ?_
  cases s.typeData type with
  | string =>
    refine .get fun s _ => ?_
    cases s.stringSymbol with
    | some string => exact hstring string
    | none => exact .pure Access.unchecked
  | literal value => cases value with
    | string =>
      refine .get fun s _ => ?_
      cases s.stringSymbol with
      | some string => exact hstring string
      | none => exact .pure Access.unchecked
    | _ => exact .pure Access.unchecked
  | object object => exact memberOfObject_built type name
  | _ => exact .pure Access.unchecked

omit hA in
theorem memberTypes_built (name : String) : ∀ types : List TypeId, Built A 0 fun ask => memberTypes ask name types
  | [] => .pure (some [])
  | type :: rest => by
    refine .first (memberOfOne_built type name) fun access => ?_
    cases access.type? with
    | none => exact .pure none
    | some member => exact .first (memberTypes_built name rest) fun others => .pure (others.map (member :: ·))

theorem memberOf_built (type : TypeId) (name : String) : Built A 0 fun ask => memberOf ask type name := by
  refine .get fun s _ => ?_
  cases s.typeData type with
  | union members =>
    refine .first (memberTypes_built name members) fun types => ?_
    cases types with
    | some types => exact .first (.core hA (Facts.union_core types)) fun type => .pure (Access.found none type)
    | none => exact .pure Access.missing
  | _ => exact memberOfOne_built type name

theorem accessedType_built {node : Node} {span : Text.Span} (type : TypeId) (name : String)
    {use : SymbolId → Check Unit} (huse : ∀ member, Built A 0 fun _ => use member)
    (hcost : A.cost node span "T0003" ≤ n) : Built A n fun ask => accessedType ask node span type name use := by
  refine .first (memberOf_built hA type name) fun access => ?_
  cases access with
  | found member type =>
    cases member with
    | none => exact .free (.pure type)
    | some member => exact .free (.first (huse member) fun _ => .pure type)
  | unchecked => exact .any
  | missing => exact .behind (.mono hcost (.report node span (.unknownProperty type name))) fun _ => .any

/-! ## Values -/

theorem initializedType_built {node : Node} (hnode : A.known node) : Built A 0 fun ask => initializedType ask node :=
  ascribedOr_built hA hnode (expressionType_built _ (hA.nodes.child? hnode))

theorem paramValueType_built {node : Node} (hnode : A.known node) : Built A 0 fun ask => paramValueType ask node := by
  refine ascribedOr_built hA hnode ?_
  cases hdefault : node.expression? with
  | some value => exact .ask (.expression value) (hA.nodes.child? hnode value hdefault)
  | none =>
    refine .get fun s _ => ?_
    cases s.contextual.get? node.id with
    | some type => exact .pure type
    | none => exact .ite (fun _ => arrayOf_built hA .any) fun _ => .any

/-- Where a member is reported that is taken out of a value. -/
def boundSpan (node : Node) : Text.Span := (node.bindingKey?.map (·.span)).getD node.span

theorem boundType_built (symbol : SymbolId) {node : Node} (hnode : A.known node)
    (hcost : A.cost node (boundSpan node) "T0003" ≤ n) : Built A n fun ask => boundType ask symbol node := by
  unfold boundType
  cases hdeclarator : (node.parentOf? .objectBindingPattern).bind (·.parentOf? .varDeclarator) with
  | none => exact .any
  | some declarator =>
    refine .ite (fun _ => .any) fun _ => .first (initializedType_built hA ?_) fun type =>
      accessedType_built hA type _ (fun _ => .core hA fun _ => rfl) hcost
    obtain ⟨pattern, hpattern, houter⟩ := Option.bind_eq_some_iff.mp hdeclarator
    have hknown := hA.nodes.parent hnode (Option.filter_eq_some_iff.mp hpattern).1
    exact hA.nodes.parent hknown (Option.filter_eq_some_iff.mp houter).1

theorem staticMember_built {node : Node} (hnode : A.known node) (members : List SymbolId) :
    Built A 0 fun _ => staticMember members node := by
  have hadd : ∀ {kind : SymbolKind} (isOptional : Bool), kind.isVariable = false → Built A 0 fun _ => (do
      let symbol ← modifyGet (Facts.addMember kind isOptional node)
      modifyGet (Facts.pushMember members symbol) : Check (List SymbolId)) := fun isOptional hkind =>
    .first (.gains hA fun s _ => Facts.addNamedMember_gains _ hkind isOptional hnode s) fun symbol =>
      .gains hA fun s _ => Facts.pushMember_gains members symbol s
  unfold staticMember
  cases node.kind with
  | propertyDecl | methodDecl => exact .ite (fun _ => hadd _ rfl) fun _ => .pure members
  | _ => exact .pure members

theorem classValueType_built (symbol : SymbolId) {node : Node} (hnode : A.known node) :
    Built A 0 fun ask => classValueType ask symbol node := by
  refine .first (.ask (.declared symbol) trivial) fun instances => .get fun s _ =>
    .first (.foldlM _ (fun member hmember members =>
      staticMember_built hA (hA.nodes.map_childrenOf hnode member hmember) members) []) fun members => ?_
  have hrest : ∀ construct, Built A 0 fun _ => (do
      modify (Facts.modifySignature construct fun known =>
        { known with
          typeParams := ((s.object? instances).map (·.typeParams)).getD []
          instanceOf := some symbol })
      modifyGet (Facts.addType (.object
        { ObjectType.bare .constructor (some symbol) with members, constructs := [construct] })) : Check TypeId) :=
    fun construct => by
      refine .first (.gains hA fun s _ => ?_) fun _ => addType_built hA _
      refine Facts.modifySignature_gains construct (fun signature => ?_) s
      rfl
  cases hconstructor : node.classMembers.find? (·.kind == .constructorDecl) with
  | some constructor =>
    refine .first (.gains hA fun s _ => Facts.signatureOf_gains ?_ s) hrest
    exact hA.nodes.map_childrenOf hnode constructor (List.mem_of_find?_eq_some hconstructor)
  | none =>
    exact .first (.gains hA fun s _ => (Facts.Gains.refl s).addSignature fun _ _ hnone => by cases hnone) hrest

/-- What is known of the costs of reports about a symbol: whatever it is in the end, it does not cost more. -/
def Setting.ValueCost (A : Setting) (id : SymbolId) (n : Nat) : Prop :=
  ∀ s, A.holds s → (s.symbol id).kind.isVariable = true → (s.symbol id).origin = none →
    ∀ node ∈ (s.symbol id).declarations.head?, node.kind = .bindingElement → A.cost node (boundSpan node) "T0003" ≤ n

theorem valueType_built (id : SymbolId) (hcost : A.ValueCost id n) : Built A n fun ask => valueType ask id := by
  refine .get fun s hs => ?_
  dsimp only
  cases horigin : (s.symbol id).origin with
  | some copy =>
    exact .free (.first (.ask (.valueOf copy.1) trivial) fun generic => .ask (.substituted generic copy.2) trivial)
  | none =>
    refine ifThere_built _ fun node hnode => ?_
    have hknown := hA.declared hs id node (List.mem_of_mem_head? hnode)
    have hvariable := hcost s hs
    unfold declaredValueType
    cases hkind : (s.symbol id).kind with
    | «variable» isConst =>
      rw [hkind] at hvariable
      refine .ite (fun hbound => ?_) fun _ => .free (initializedType_built hA hknown)
      exact boundType_built hA id hknown (hvariable rfl horigin node hnode (beq_iff_eq.mp hbound))
    | param => exact .free (paramValueType_built hA hknown)
    | function | method => exact .free (functionType_built hA _ (hA.declared hs id))
    | classDecl => exact .free (classValueType_built hA id hknown)
    | property =>
      dsimp only
      split
      · exact .free (expressionType_built _ (hA.nodes.child? hknown))
      · exact .free (expressionType_built _ (hA.nodes.child? hknown))
      · exact .free (paramValueType_built hA hknown)
      · exact .free (initializedType_built hA hknown)
    | interface | «alias» | typeParam => exact .any

theorem valueOf_built (id : SymbolId) (hcost : A.ValueCost id n) : Built A n fun ask => valueOf ask id := by
  refine .get fun s _ => ?_
  cases s.symbolTypes.get? id with
  | some known => exact .free (.pure known)
  | none =>
    refine .read fun pending => .ite (fun _ => .any) fun _ => ?_
    refine .behind (.withReader (fun _ => List.subset_cons_self _ _) (valueType_built hA id hcost)) fun type => ?_
    exact .gains hA fun s _ => Facts.keepValue_gains id type s

/-! ## Returns -/

theorem returnedType_built {node : Node} (hnode : A.known node) : Built A 0 fun ask => returnedType ask node := by
  unfold returnedType
  cases hvalue : node.expression? with
  | none => exact .pure TypeId.undefined
  | some value => exact .ask (.expression value) (hA.nodes.child? hnode value hvalue)

theorem inferredReturn_built {node : Node} (hnode : A.known node) : Built A 0 fun ask => inferredReturn ask node := by
  unfold inferredReturn
  cases hbody : node.block? with
  | some body =>
    refine .ite (fun _ => .pure TypeId.void) fun _ => .first (.mapM body.returns fun found hfound => ?_) fun types =>
      .core hA (Facts.union_core types)
    exact returnedType_built hA (hA.nodes.returns (hA.nodes.child? hnode body hbody) found hfound).1
  | none =>
    refine .ite (fun _ => expressionType_built _ fun body hbody => ?_) fun _ => .any
    exact hA.nodes.child hnode (List.mem_of_getLast? (Option.filter_eq_some_iff.mp hbody).1)

theorem declaredReturn_built {node : Node} (hnode : A.known node) : Built A 0 fun ask => declaredReturn ask node := by
  have hinferred : Built A 0 fun ask => ascribedOr ask node do
      let type ← inferredReturn ask node
      if node.isAsync then promiseOf ask type else return type :=
    ascribedOr_built hA hnode (.first (inferredReturn_built hA hnode) fun type =>
      .ite (fun _ => promiseOf_built hA type) fun _ => .pure type)
  unfold declaredReturn
  cases node.kind with
  | functionType => exact writtenType_built _ (hA.nodes.child? hnode)
  | constructorDecl => exact .pure TypeId.void
  | _ => exact hinferred

theorem returnType_built (id : SignatureId) : Built A 0 fun ask => returnType ask id := by
  refine .get fun s hs => ?_
  have hsigned := hA.signed hs id
  dsimp only
  generalize s.signature id = signature at hsigned
  obtain ⟨declaration, params, typeParams, returns, origin, instanceOf⟩ := signature
  cases origin with
  | some copy =>
    exact .first (.ask (.returnOf copy.1) trivial) fun generic => .ask (.substituted generic copy.2) trivial
  | none =>
    cases instanceOf with
    | some made => exact .ask (.declared made) trivial
    | none => exact ifThere_built _ fun node hnode => declaredReturn_built hA (hsigned node hnode)

theorem returnOf_built (id : SignatureId) : Built A 0 fun ask => returnOf ask id := by
  refine .get fun s _ => ?_
  cases (s.signature id).returns with
  | some known => exact .pure known
  | none =>
    refine .read fun pending => .ite (fun _ => .any) fun _ => ?_
    refine .first (.withReader (fun _ => List.Subset.refl _) (returnType_built hA id)) fun type =>
      .gains hA fun s _ => ?_
    refine Facts.modifySignature_gains id (fun signature => ?_) s
    rfl

/-! ## Expressions -/

/-- What is known of the costs of reports about the node as an expression. -/
structure Setting.ExpressionCost (A : Setting) (node : Node) (n : Nat) : Prop where
  name : node.kind = .nameRef → A.cost node node.span "T0001" ≤ n
  member : node.kind = .propertyAccess → ∀ token ∈ node.memberToken?, A.cost node token.span "T0003" ≤ n
  called : node.kind = .callExpr → A.cost node (node.expression?.getD node).span "T0004" ≤ n
  made : node.kind = .newExpr → A.cost node (node.expression?.getD node).span "T0005" ≤ n

theorem elementType_built {item : Node} (hitem : A.known item) : Built A 0 fun ask => elementType ask item :=
  .ite (fun _ => .first (expressionType_built _ (hA.nodes.child? hitem)) fun _ => .get fun _ _ => .pure _) fun _ =>
    .ask (.expression item) hitem

theorem arrayLiteral_built {node : Node} (hnode : A.known node) : Built A 0 fun ask => arrayLiteral ask node :=
  .first (.mapM node.elements fun item hitem =>
    elementType_built hA (hA.nodes.childrenOf hnode item hitem)) fun types =>
    .ite (fun _ => .first .any fun element => arrayOf_built hA element) fun _ =>
      .first (.core hA (Facts.union_core types)) fun element => arrayOf_built hA element

theorem literalMember_built {node : Node} (hnode : A.known node) (members : List SymbolId) :
    Built A 0 fun ask => literalMember ask members node := by
  have hmember : ∀ name isOptional, Built A 0 fun _ => (do
      let symbol ← modifyGet (Facts.addNamedMember name .property isOptional node)
      return (← get).setMember members symbol : Check (List SymbolId)) := fun name isOptional =>
    .first (.gains hA fun s _ => Facts.addNamedMember_gains name rfl isOptional hnode s) fun _ =>
      .get fun _ _ => .pure _
  unfold literalMember
  cases node.kind with
  | spreadElement =>
    exact .first (expressionType_built _ (hA.nodes.child? hnode)) fun type => .first (membersOf_built type) fun _ =>
      .get fun _ _ => .pure _
  | _ => exact hmember _ _

theorem objectLiteral_built {node : Node} (hnode : A.known node) : Built A 0 fun ask => objectLiteral ask node :=
  .first (.foldlM node.objectMembers (fun member hmember members =>
    literalMember_built hA (hA.nodes.childrenOf hnode member hmember) members) []) fun _ => addType_built hA _

theorem resolveTo_built (node : Node) (symbol : SymbolId) : Built A 0 fun _ => resolveTo node symbol :=
  .core hA fun _ => rfl

theorem nameType_built {node : Node} (hcost : A.cost node node.span "T0001" ≤ n) :
    Built A n fun ask => nameType ask node := by
  refine .get fun s _ => ?_
  cases s.lookup node .value node.refText with
  | some symbol => exact .free (.first (resolveTo_built hA node symbol) fun _ => .ask (.valueOf symbol) trivial)
  | none =>
    dsimp only
    split
    · exact .free (.pure _)
    · exact .free (.pure _)
    · exact .free (.pure _)
    · exact .behind (.mono hcost (.report node node.span (.unresolvedName _))) fun _ => .any

theorem propertyType_built {node : Node} (hnode : A.known node)
    (hcost : ∀ token ∈ node.memberToken?, A.cost node token.span "T0003" ≤ n) :
    Built A n fun ask => propertyType ask node := by
  refine .first (expressionType_built _ (hA.nodes.child? hnode)) fun receiver => ?_
  unfold Node.memberName?
  cases htoken : node.memberToken? with
  | none => exact .any
  | some token => exact accessedType_built hA receiver _ (resolveTo_built hA node) (hcost token htoken)

theorem expressionAt?_known {node : Node} (hnode : A.known node) (n : Nat) :
    ∀ found ∈ node.expressionAt? n, A.known found :=
  fun found hfound => hA.nodes.childrenOf hnode found (List.mem_of_getElem? hfound)

theorem indexedType_built {node : Node} (hnode : A.known node) : Built A 0 fun ask => indexedType ask node := by
  refine .first (expressionType_built _ (expressionAt?_known hA hnode 0)) fun receiver =>
    .first (expressionType_built _ (expressionAt?_known hA hnode 1)) fun _ => .ite (fun _ => .pure _) fun _ =>
    .get fun s _ => ?_
  cases s.arrayElement? receiver with
  | some element => exact .pure element
  | none => exact .first (.ask (.members receiver) trivial) fun _ => .get fun _ _ => .pure _

theorem checkArgs_built {args : List Node} (h : ∀ arg ∈ args, A.known arg) :
    Built A 0 fun ask => checkArgs ask args := by
  refine .forM args fun arg harg => .first (expressionType_built _ fun value hvalue => ?_) fun _ => .pure _
  unfold spreadOrItem? at hvalue
  split at hvalue
  · exact hA.nodes.child? (h arg harg) value hvalue
  · cases hvalue
    exact h arg harg

omit hA in
theorem writtenArgs_built {args : List Node} (h : ∀ arg ∈ args, A.known arg) :
    Built A 0 fun ask => args.mapM fun arg => ask (.written arg) :=
  .mapM args fun arg harg => .ask (.written arg) (h arg harg)

theorem withTypeArgs_built (signature : SignatureId) {args : List Node} (h : ∀ arg ∈ args, A.known arg) :
    Built A 0 fun ask => withTypeArgs ask signature args :=
  .get fun _ _ => .ite (fun _ => .pure signature) fun _ => .first (writtenArgs_built h) fun _ =>
    .first (.core hA (Facts.shareSubstitution_core _ _)) fun substitution =>
      .gains hA fun s _ => Facts.copySignature_gains substitution signature s

theorem giveType_built (param : Node) (expected : SymbolId) : Built A 0 fun ask => giveType ask param expected :=
  .ite (fun _ => .pure _) fun _ => .get fun _ _ => .ite (fun _ => .pure _) fun _ =>
    .first (.ask (.valueOf expected) trivial) fun _ => .core hA fun _ => rfl

theorem giveTypes_built (arg : Node) (param : SymbolId) : Built A 0 fun ask => giveTypes ask arg param := by
  refine .ite (fun _ => .first (.ask (.valueOf param) trivial) fun expected =>
    .first (callsOf_built expected) fun calls => ?_) fun _ => .pure _
  cases calls with
  | nil => exact .pure _
  | cons callback rest => exact .get fun _ _ => .forM _ fun entry _ => giveType_built hA entry.1 entry.2

theorem callWith_built (signature : SignatureId) {typeArgs args : List Node} (htypes : ∀ arg ∈ typeArgs, A.known arg)
    (hargs : ∀ arg ∈ args, A.known arg) : Built A 0 fun ask => callWith ask signature typeArgs args :=
  .first (withTypeArgs_built hA signature htypes) fun signature => .get fun _ _ =>
    .first (.forM _ fun entry _ => giveTypes_built hA entry.1 entry.2) fun _ =>
    .first (checkArgs_built hA hargs) fun _ => .ask (.returnOf signature) trivial

theorem callType_built {node : Node} (hnode : A.known node)
    (hcost : A.cost node (node.expression?.getD node).span "T0004" ≤ n) : Built A n fun ask => callType ask node := by
  have hargs : ∀ arg ∈ node.args, A.known arg := hA.nodes.map_childrenOf hnode
  have htypes : ∀ arg ∈ node.typeArgs, A.known arg := hA.nodes.map_childrenOf hnode
  refine .first (expressionType_built _ (hA.nodes.child? hnode)) fun callee =>
    .first (callsOf_built callee) fun calls => ?_
  cases calls with
  | cons signature rest => exact .free (callWith_built hA signature htypes hargs)
  | nil =>
    refine .first (checkArgs_built hA hargs) fun _ => .get fun s _ => ?_
    cases s.typeData callee with
    | any | unknown | param => exact .any
    | _ => exact .behind (.mono hcost (.report node _ (.notCallable callee))) fun _ => .any

theorem newType_built {node : Node} (hnode : A.known node)
    (hcost : A.cost node (node.expression?.getD node).span "T0005" ≤ n) : Built A n fun ask => newType ask node := by
  have hargs : ∀ arg ∈ node.args, A.known arg := hA.nodes.map_childrenOf hnode
  have htypes : ∀ arg ∈ node.typeArgs, A.known arg := hA.nodes.map_childrenOf hnode
  refine .first (expressionType_built _ (hA.nodes.child? hnode)) fun callee => .get fun s _ => ?_
  cases (((s.object? callee).map (·.constructs)).getD []) with
  | cons signature rest => exact .free (callWith_built hA signature htypes hargs)
  | nil =>
    refine .first (checkArgs_built hA hargs) fun _ => .get fun s _ => ?_
    cases constructedByName? s node.expression? with
    | some symbol =>
      exact .free (.first (.ask (.declared symbol) trivial) fun generic => .get fun _ _ =>
        .first (writtenArgs_built htypes) fun _ => .core hA (Facts.reference_core generic _))
    | none =>
      exact .ite (fun _ => .behind (.mono hcost (.report node _ (.notConstructable callee))) fun _ => .any)
        fun _ => .any

theorem binaryType_built (operator : Option TokenKind) (left right : TypeId) :
    Built A 0 fun _ => binaryType operator left right := by
  unfold binaryType
  split
  all_goals first | exact .pure _ | exact .core hA (Facts.union_core _)

theorem readExpression_built {node : Node} (hnode : A.known node) (hcost : A.ExpressionCost node n) :
    Built A n fun ask => readExpression ask node := by
  have hat := expressionAt?_known hA hnode
  have hinner : Built A 0 fun ask => expressionType ask node.expression? :=
    expressionType_built _ (hA.nodes.child? hnode)
  unfold readExpression
  cases hkind : node.kind with
  | literal => exact .free (.pure _)
  | nameRef => exact nameType_built hA (hcost.name hkind)
  | thisExpr => exact .free (typeNamedBy_built _)
  | parenExpr => exact .free hinner
  | objectLiteral => exact .free (objectLiteral_built hA hnode)
  | arrayLiteral => exact .free (arrayLiteral_built hA hnode)
  | arrowFunction | functionExpr => exact .free (functionType_built hA [node] (List.forall_mem_singleton.mpr hnode))
  | callExpr => exact callType_built hA hnode (hcost.called hkind)
  | newExpr => exact newType_built hA hnode (hcost.made hkind)
  | propertyAccess => exact propertyType_built hA hnode (hcost.member hkind)
  | indexExpr => exact .free (indexedType_built hA hnode)
  | prefixExpr => exact .free (.first hinner fun _ => .pure _)
  | binaryExpr =>
    exact .free (.first (expressionType_built _ (hat 0)) fun left =>
      .first (expressionType_built _ (hat 1)) fun right => binaryType_built hA _ left right)
  | conditionalExpr =>
    exact .free (.first (expressionType_built _ (hat 0)) fun _ => .first (expressionType_built _ (hat 1)) fun yes =>
      .first (expressionType_built _ (hat 2)) fun no => .core hA (Facts.union_core [yes, no]))
  | assignExpr =>
    exact .free (.first (expressionType_built _ (hat 0)) fun _ => expressionType_built _ (hat 1))
  | asExpr => exact .free (.first hinner fun _ => writtenType_built _ (hA.nodes.child? hnode))
  | _ => exact .any

theorem expression_built {node : Node} (hnode : A.known node) (hcost : A.ExpressionCost node n) :
    Built A n fun ask => expression ask node := by
  refine .get fun s _ => ?_
  cases s.expressionTypes.get? node.id with
  | some known => exact .free (.pure known)
  | none =>
    exact .behind (readExpression_built hA hnode hcost) fun type =>
      .gains hA fun s _ => Facts.keepExpression_gains node.id type s

/-! ## All rules together -/

/-- What is known of the costs of reports when a question is answered. -/
def Setting.AnswerCost (A : Setting) (n : Nat) : Query → Prop
  | .written node => A.writes node ∧ A.WrittenCost node n
  | .expression node => A.ExpressionCost node n
  | .valueOf symbol => A.ValueCost symbol n
  | _ => True

theorem answerWith_built {query : Query} (hquery : A.Asks query) (hcost : A.AnswerCost n query) :
    Built A n fun ask => answerWith ask query := by
  cases query with
  | valueOf symbol => exact valueOf_built hA symbol hcost
  | declared symbol => exact .free (declared_built hA symbol)
  | written node => exact written_built hA hquery hcost.1 hcost.2
  | expression node => exact expression_built hA hquery hcost
  | returnOf signature => exact .free (returnOf_built hA signature)
  | substituted type substitution => exact .free (substituted_built hA type substitution)
  | members type => exact .free (fillMembers_built hA type)

end

/-! ## Programs -/

mutual

theorem lookAt_built (hA : A.Fits) {source : Source} {outer : Node} : ∀ part : Part, part ∈ outer.parts →
    outer.source = source → A.known outer → Built A 0 fun ask => lookAt ask source (some outer) part
  | .leaf _ _, _, _, _ => .pure ()
  | .node span kind parts, hpart, hsource, houter => by
    have hhere : A.known ⟨source, kind, span, parts, some outer⟩ :=
      hA.nodes.child houter (Node.mem_children.mpr ⟨span, kind, parts, hpart, by rw [hsource]⟩)
    have hbelow : Built A 0 fun ask => lookAtAll ask source (some _) parts :=
      lookAtAll_built hA parts (fun _ hin => hin) rfl hhere
    simp only [lookAt]
    refine .ite (fun _ => .first (.ask (.written _) hhere) fun _ => .pure _) fun _ => .ite (fun _ => ?_) fun _ => hbelow
    exact .first (.ask (.expression _) hhere) fun _ => hbelow

theorem lookAtAll_built (hA : A.Fits) {source : Source} {outer : Node} : ∀ parts : List Part,
    (∀ part ∈ parts, part ∈ outer.parts) → outer.source = source → A.known outer →
      Built A 0 fun ask => lookAtAll ask source (some outer) parts
  | [], _, _, _ => .pure ()
  | part :: rest, hparts, hsource, houter => by
    simp only [lookAtAll]
    exact .first (lookAt_built hA part (hparts part List.mem_cons_self) hsource houter) fun _ =>
      lookAtAll_built hA rest (fun part hin => hparts part (List.mem_cons_of_mem _ hin)) hsource houter

end

theorem forAll_built (bound : Nat) {query : Facts → Nat → Query} (h : ∀ s index, A.Asks (query s index)) :
    Built A 0 fun ask => forAll ask bound query :=
  .forM _ fun index _ => .get fun s _ => .first (.ask (query s index) (h s index)) fun _ => .pure _

theorem round_built : Built A 0 round := by
  refine .get fun _ _ => .first (forAll_built _ fun s index => ?_) fun _ =>
    .get fun _ _ => .first (forAll_built _ fun _ _ => trivial) fun _ =>
    .get fun _ _ => forAll_built _ fun _ _ => trivial
  split <;> trivial

theorem rounds_built : ∀ count : Nat, Built A 0 fun ask => rounds ask count
  | 0 => .pure ()
  | more + 1 => .get fun _ _ => .first round_built fun _ => .get fun _ _ =>
      .ite (fun _ => rounds_built more) fun _ => .pure _

theorem program_built (hA : A.Fits) {root : Node} (hroot : A.known root) : Built A 0 fun ask => program ask root :=
  .first (lookAtAll_built hA root.parts (fun _ hin => hin) rfl hroot) fun _ => rounds_built 16

end Check

end RouteTypes
