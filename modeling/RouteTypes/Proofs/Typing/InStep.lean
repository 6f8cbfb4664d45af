-- Facts in step: all that has been found out about two matching programs is the same but for the numbers. What
-- the second check has found out about its records stands apart and is never asked for by the first.
import RouteTypes.Proofs.Typing.Sync

namespace RouteTypes

open List

/-! ## Entries -/

section

variable (P : Pairing) (w : Sync)

/-- The same symbol in both checks. -/
structure SymbolsMatch (symbol symbol' : Symbol) : Prop where
  name : symbol'.name = symbol.name
  kind : symbol'.kind = symbol.kind
  declarations : Forall₂ P.Alike symbol.declarations symbol'.declarations
  isOptional : symbol'.isOptional = symbol.isOptional
  origin : Option.Rel (Both w.SameSymbol (· = ·)) symbol.origin symbol'.origin

/-- A property of a record, as a symbol. -/
structure OfRecord (symbol' : Symbol) : Prop where
  kind : symbol'.kind = .property
  origin : symbol'.origin = none
  declared : ∃ record member, P.Record record ∧ member ∈ record.objectMembers ∧ symbol'.declarations = [member]

/-- The same object type in both checks. -/
structure ObjectsMatch (object object' : ObjectType) : Prop where
  kind : object'.kind = object.kind
  symbol : Option.Rel w.SameSymbol object.symbol object'.symbol
  members : Forall₂ w.SameSymbol object.members object'.members
  calls : object'.calls = object.calls
  constructs : object'.constructs = object.constructs
  stringIndex : Option.Rel w.SameType object.stringIndex object'.stringIndex
  typeParams : Forall₂ w.SameSymbol object.typeParams object'.typeParams
  target : Option.Rel w.SameType object.target object'.target
  typeArguments : Forall₂ w.SameType object.typeArguments object'.typeArguments
  hasMembers : object'.hasMembers = object.hasMembers

/-- The same type in both checks. -/
inductive TypesMatch : TypeData → TypeData → Prop
  | any : TypesMatch .any .any
  | unknown : TypesMatch .unknown .unknown
  | never : TypesMatch .never .never
  | void : TypesMatch .void .void
  | undefined : TypesMatch .undefined .undefined
  | null : TypesMatch .null .null
  | string : TypesMatch .string .string
  | number : TypesMatch .number .number
  | boolean : TypesMatch .boolean .boolean
  | literal (value : Literal) : TypesMatch (.literal value) (.literal value)
  | union {members members' : List TypeId} (h : Forall₂ w.SameType members members') :
      TypesMatch (.union members) (.union members')
  | object {type type' : ObjectType} (h : ObjectsMatch w type type') : TypesMatch (.object type) (.object type')
  | param {symbol symbol' : SymbolId} (h : w.SameSymbol symbol symbol') : TypesMatch (.param symbol) (.param symbol')

/-- The type of a record: its members are known from the beginning. -/
def IsRecordType (data' : TypeData) : Prop := ∃ object, data' = .object object ∧ object.target = none

/-- The same signature in both checks. -/
structure SignaturesMatch (signature signature' : Signature) : Prop where
  typeParams : Forall₂ w.SameSymbol signature.typeParams signature'.typeParams
  params : Forall₂ w.SameSymbol signature.params signature'.params
  declaration : Option.Rel P.Alike signature.declaration signature'.declaration
  returns : Option.Rel w.SameType signature.returns signature'.returns
  origin : signature'.origin = signature.origin
  instanceOf : Option.Rel w.SameSymbol signature.instanceOf signature'.instanceOf

/-- The same scope in both checks. -/
structure ScopesMatch (scope scope' : Scope) : Prop where
  parent : scope'.parent = scope.parent
  values : Tables (· = ·) (fun _ => False) w.SameSymbol scope.values scope'.values
  types : Tables (· = ·) (fun _ => False) w.SameSymbol scope.types scope'.types

/-! ## Facts -/

/-- All facts but the symbols and the types themselves. -/
structure OthersMatch (f f' : Facts) : Prop where
  signatures : Alongside (SignaturesMatch P w) f.signatures f'.signatures
  substitutions : Alongside w.SameSubstitution f.substitutions f'.substitutions
  scopes : Alongside (ScopesMatch w) f.scopes.scopes f'.scopes.scopes
  owners : Tables P.SameId P.OtherId (· = ·) f.scopes.owners f'.scopes.owners
  declarations : Tables P.SameId P.OtherId w.SameSymbol f.declarations f'.declarations
  declaredSignatures : Tables P.SameId P.OtherId (· = ·) f.declaredSignatures f'.declaredSignatures
  literals : Tables (· = ·) (fun _ => False) w.SameType f.literals f'.literals
  unions : Tables (Forall₂ w.SameType) (fun _ => False) w.SameType f.unions f'.unions
  paramTypes : Tables w.SameSymbol (fun _ => False) w.SameType f.paramTypes f'.paramTypes
  substitutionIds : Tables w.SameSubstitution (fun _ => False) (· = ·) f.substitutionIds f'.substitutionIds
  references : Tables (Both w.SameType (Forall₂ w.SameType)) (fun _ => False) w.SameType f.references f'.references
  aliasInstances : Tables (Both w.SameSymbol (Forall₂ w.SameType)) (fun _ => False) w.SameType
    f.aliasInstances f'.aliasInstances
  substitutedTypes : Tables (Both w.SameType (· = ·)) (fun _ => False) w.SameType
    f.substitutedTypes f'.substitutedTypes
  substitutedSymbols : Tables (Both w.SameSymbol (· = ·)) (fun _ => False) w.SameSymbol
    f.substitutedSymbols f'.substitutedSymbols
  substitutedSignatures : Tables (· = ·) (fun _ => False) (· = ·) f.substitutedSignatures f'.substitutedSignatures
  symbolTypes : Tables w.SameSymbol w.OtherSymbol w.SameType f.symbolTypes f'.symbolTypes
  declaredTypes : Tables w.SameSymbol (fun _ => False) w.SameType f.declaredTypes f'.declaredTypes
  expressionTypes : Tables P.SameId P.OtherId w.SameType f.expressionTypes f'.expressionTypes
  writtenTypes : Tables P.SameId P.OtherId w.SameType f.writtenTypes f'.writtenTypes
  resolutions : Tables P.SameId P.OtherId w.SameSymbol f.resolutions f'.resolutions
  contextual : Tables P.SameId P.OtherId w.SameType f.contextual f'.contextual
  boundMembers : Tables w.SameSymbol (fun _ => False) w.SameSymbol f.boundMembers f'.boundMembers
  arraySymbol : Option.Rel w.SameSymbol f.arraySymbol f'.arraySymbol
  stringSymbol : Option.Rel w.SameSymbol f.stringSymbol f'.stringSymbol
  promiseSymbol : Option.Rel w.SameSymbol f.promiseSymbol f'.promiseSymbol

/-- Whether the facts of two checks that are that far are the same but for the numbers. -/
structure InStep (f f' : Facts) : Prop extends OthersMatch P w f f' where
  symbols : Entries w.symbols (SymbolsMatch P w) (OfRecord P) f.symbols f'.symbols
  types : Entries w.types (TypesMatch w) IsRecordType f.types f'.types

end

variable {P : Pairing} {w w' : Sync}

/-! ## Getting on -/

theorem SymbolsMatch.mono {symbol symbol' : Symbol} (h : SymbolsMatch P w symbol symbol') (hle : w ≤ w') :
    SymbolsMatch P w' symbol symbol' :=
  { h with origin := h.origin.imp fun _ _ horigin => ⟨horigin.1.mono hle, horigin.2⟩ }

theorem sameSymbols_mono {ids ids' : List SymbolId} (h : Forall₂ w.SameSymbol ids ids') (hle : w ≤ w') :
    Forall₂ w'.SameSymbol ids ids' :=
  h.imp fun _ _ hid => hid.mono hle

theorem sameTypes_mono {types types' : List TypeId} (h : Forall₂ w.SameType types types') (hle : w ≤ w') :
    Forall₂ w'.SameType types types' :=
  h.imp fun _ _ htype => htype.mono hle

theorem ObjectsMatch.mono {object object' : ObjectType} (h : ObjectsMatch w object object') (hle : w ≤ w') :
    ObjectsMatch w' object object' :=
  { h with
    symbol := h.symbol.imp fun _ _ hid => hid.mono hle
    members := sameSymbols_mono h.members hle
    stringIndex := h.stringIndex.imp fun _ _ htype => htype.mono hle
    typeParams := sameSymbols_mono h.typeParams hle
    target := h.target.imp fun _ _ htype => htype.mono hle
    typeArguments := sameTypes_mono h.typeArguments hle }

theorem TypesMatch.mono {data data' : TypeData} (h : TypesMatch w data data') (hle : w ≤ w') :
    TypesMatch w' data data' := by
  cases h with
  | union h => exact .union (sameTypes_mono h hle)
  | object h => exact .object (h.mono hle)
  | param h => exact .param (h.mono hle)
  | _ => constructor

theorem SignaturesMatch.mono {signature signature' : Signature} (h : SignaturesMatch P w signature signature')
    (hle : w ≤ w') : SignaturesMatch P w' signature signature' :=
  { h with
    typeParams := sameSymbols_mono h.typeParams hle
    params := sameSymbols_mono h.params hle
    returns := h.returns.imp fun _ _ htype => htype.mono hle
    instanceOf := h.instanceOf.imp fun _ _ hid => hid.mono hle }

theorem ScopesMatch.mono {scope scope' : Scope} (h : ScopesMatch w scope scope') (hle : w ≤ w') :
    ScopesMatch w' scope scope' :=
  ⟨h.parent, h.values.imp (fun _ _ => id) (fun _ => id) fun _ _ hid => hid.mono hle,
    h.types.imp (fun _ _ => id) (fun _ => id) fun _ _ hid => hid.mono hle⟩

theorem OthersMatch.mono {f f' : Facts} (h : OthersMatch P w f f') (hle : w ≤ w') : OthersMatch P w' f f' := by
  have hsymbol : ∀ id id', w.SameSymbol id id' → w'.SameSymbol id id' := fun _ _ hid => hid.mono hle
  have htype : ∀ type type', w.SameType type type' → w'.SameType type type' := fun _ _ htype => htype.mono hle
  have htypes : ∀ types types', Forall₂ w.SameType types types' → Forall₂ w'.SameType types types' :=
    fun _ _ htypes => sameTypes_mono htypes hle
  exact {
    signatures := h.signatures.imp fun _ _ hsignature => hsignature.mono hle
    substitutions := h.substitutions.imp fun _ _ hsubstitution => hsubstitution.mono hle
    scopes := h.scopes.imp fun _ _ hscope => hscope.mono hle
    owners := h.owners
    declarations := h.declarations.imp (fun _ _ => id) (fun _ => id) hsymbol
    declaredSignatures := h.declaredSignatures
    literals := h.literals.imp (fun _ _ => id) (fun _ => id) htype
    unions := h.unions.imp htypes (fun _ => id) htype
    paramTypes := h.paramTypes.imp hsymbol (fun _ => id) htype
    substitutionIds := h.substitutionIds.imp (fun _ _ hsame => hsame.mono hle) (fun _ => id) fun _ _ => id
    references := h.references.imp (fun _ _ hkey => ⟨htype _ _ hkey.1, htypes _ _ hkey.2⟩) (fun _ => id) htype
    aliasInstances := h.aliasInstances.imp (fun _ _ hkey => ⟨hsymbol _ _ hkey.1, htypes _ _ hkey.2⟩) (fun _ => id)
      htype
    substitutedTypes := h.substitutedTypes.imp (fun _ _ hkey => ⟨htype _ _ hkey.1, hkey.2⟩) (fun _ => id) htype
    substitutedSymbols := h.substitutedSymbols.imp (fun _ _ hkey => ⟨hsymbol _ _ hkey.1, hkey.2⟩) (fun _ => id)
      hsymbol
    substitutedSignatures := h.substitutedSignatures
    symbolTypes := h.symbolTypes.imp hsymbol (fun _ hother => hother.mono hle) htype
    declaredTypes := h.declaredTypes.imp hsymbol (fun _ => id) htype
    expressionTypes := h.expressionTypes.imp (fun _ _ => id) (fun _ => id) htype
    writtenTypes := h.writtenTypes.imp (fun _ _ => id) (fun _ => id) htype
    resolutions := h.resolutions.imp (fun _ _ => id) (fun _ => id) hsymbol
    contextual := h.contextual.imp (fun _ _ => id) (fun _ => id) htype
    boundMembers := h.boundMembers.imp hsymbol (fun _ => id) hsymbol
    arraySymbol := h.arraySymbol.imp hsymbol
    stringSymbol := h.stringSymbol.imp hsymbol
    promiseSymbol := h.promiseSymbol.imp hsymbol }

/-! ## Looking up -/

namespace InStep

variable {f f' : Facts} (h : InStep P w f f')

include h

theorem symbol {id id' : SymbolId} (hid : w.SameSymbol id id') : SymbolsMatch P w (f.symbol id) (f'.symbol id') :=
  h.symbols.getD hid _ _

theorem typeData {type type' : TypeId} (htype : w.SameType type type') :
    TypesMatch w (f.typeData type) (f'.typeData type') :=
  h.types.getD htype _ _

theorem object? {type type' : TypeId} (htype : w.SameType type type') :
    Option.Rel (ObjectsMatch w) (f.object? type) (f'.object? type') := by
  have hdata := h.typeData htype
  rw [Facts.object?, Facts.object?]
  revert hdata
  generalize f.typeData type = data
  generalize f'.typeData type' = data'
  intro hdata
  cases hdata with
  | object h => exact .some h
  | _ => exact .none

theorem signature (id : SignatureId) : SignaturesMatch P w (f.signature id) (f'.signature id) :=
  h.signatures.getD _ ⟨.nil, .nil, .none, .none, rfl, .none⟩

theorem substitution (id : SubstitutionId) : w.SameSubstitution (f.substitution id) (f'.substitution id) :=
  h.substitutions.getD _ ⟨.nil, .nil⟩

theorem declared? {node node' : Node} (hnode : P.Twin node node') :
    Option.Rel w.SameSymbol (f.declared? node) (f'.declared? node') :=
  h.declarations.get? P.nodeKeys hnode.sameId

theorem membersOf {type type' : TypeId} (htype : w.SameType type type') :
    Forall₂ w.SameSymbol (f.membersOf type) (f'.membersOf type') :=
  ((h.object? htype).map fun _ _ hobject => hobject.members).getD .nil

theorem stringIndexOf {type type' : TypeId} (htype : w.SameType type type') :
    Option.Rel w.SameType (f.stringIndexOf type) (f'.stringIndexOf type') :=
  (h.object? htype).bind fun _ _ hobject => hobject.stringIndex

theorem name {id id' : SymbolId} (hid : w.SameSymbol id id') : (f'.symbol id').name = (f.symbol id).name :=
  (h.symbol hid).name

theorem memberNamed? {members members' : List SymbolId} (hmembers : Forall₂ w.SameSymbol members members')
    (name : String) : Option.Rel w.SameSymbol (f.memberNamed? members name) (f'.memberNamed? members' name) :=
  hmembers.find? fun _ _ hid => by rw [h.name hid]

theorem declaredTypeParams {id id' : SymbolId} (hid : w.SameSymbol id id') :
    Forall₂ w.SameSymbol (f.declaredTypeParams id) (f'.declaredTypeParams id') := by
  have hhead := (h.symbol hid).declarations.head?
  rw [Facts.declaredTypeParams, Facts.declaredTypeParams]
  revert hhead
  generalize (f.symbol id).declarations.head? = node
  generalize (f'.symbol id').declarations.head? = node'
  rintro (hnode | _)
  · exact (hnode.childrenOf rfl).flatMap fun _ _ hlist => hlist.children.filterMap fun _ _ hchild => h.declared? hchild
  · exact .nil

theorem declaredIn {node node' : Node} (hnode : P.Alike node node') {kind : NodeKind} (hkind : .argList ≠ kind) :
    Forall₂ w.SameSymbol (f.declaredIn node kind) (f'.declaredIn node' kind) :=
  (hnode.childrenOf (p := (· == kind)) (beq_eq_false_iff_ne.mpr hkind)).flatMap fun _ _ hlist =>
    hlist.children.filterMap fun _ _ hchild => h.declared? hchild

/-! ### Scopes -/

theorem getLocal (scope : ScopeId) (sort : NameSort) (name : String) :
    Option.Rel w.SameSymbol (f.scopes.getLocal scope sort name) (f'.scopes.getLocal scope sort name) := by
  refine (h.scopes.getElem? scope.index).bind fun scope scope' hscope => ?_
  cases sort
  · exact hscope.values.get? Sync.eqKeys rfl
  · exact hscope.types.get? Sync.eqKeys rfl

theorem path (scope : ScopeId) : f'.scopes.path scope = f.scopes.path scope := by
  obtain ⟨index⟩ := scope
  induction index using Nat.strongRecOn with
  | ind index ih =>
    have hscope := h.scopes.getElem? index
    rw [ScopeTree.path, ScopeTree.path]
    dsimp only
    have hparent : (f'.scopes.scopes[index]?).bind (·.parent) = (f.scopes.scopes[index]?).bind (·.parent) := by
      revert hscope
      generalize f.scopes.scopes[index]? = scope
      generalize f'.scopes.scopes[index]? = scope'
      rintro (hscope | _)
      · exact hscope.parent
      · rfl
    rw [hparent]
    split
    · rfl
    · rename_i parent _
      split
      · rename_i hlt
        rw [ih parent.index hlt]
      · rfl

theorem lookupIn (scope : ScopeId) (sort : NameSort) (name : String) :
    Option.Rel w.SameSymbol (f.scopes.lookup scope sort name) (f'.scopes.lookup scope sort name) := by
  rw [ScopeTree.lookup, ScopeTree.lookup, h.path scope]
  exact (forall₂_eq_eq_eq.symm ▸ (rfl : f.scopes.path scope = _)).findSome? fun _ _ hscope =>
    hscope ▸ h.getLocal _ sort name

theorem lookup {node node' : Node} (hnode : P.Twin node node') (sort : NameSort) (name : String) :
    Option.Rel w.SameSymbol (f.lookup node sort name) (f'.lookup node' sort name) := by
  have hscope : Option.Rel (· = ·) (node.outwards.findSome? fun around => f.scopes.ownedBy around.id)
      (node'.outwards.findSome? fun around => f'.scopes.ownedBy around.id) :=
    hnode.outwards.findSome? fun _ _ haround => h.owners.get? P.nodeKeys haround.sameId
  rw [Facts.lookup, Facts.lookup]
  revert hscope
  generalize (node.outwards.findSome? fun around => f.scopes.ownedBy around.id) = scope
  generalize (node'.outwards.findSome? fun around => f'.scopes.ownedBy around.id) = scope'
  rintro (hscope | _)
  · subst hscope
    exact h.lookupIn _ sort name
  · exact .none

end InStep

end RouteTypes
