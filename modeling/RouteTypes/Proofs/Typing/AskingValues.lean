-- Questions about values in step: where the same questions have the same answers in both checks, so have those
-- about the members of values, about what symbols stand for and about what calls give.
import RouteTypes.Proofs.Typing.Asking

namespace RouteTypes

open List Check

/-- The same is found in both checks. -/
inductive AccessesMatch (w : Sync) : Access → Access → Prop
  | found {member member' : Option SymbolId} (hmember : Option.Rel w.SameSymbol member member') {type type' : TypeId}
      (htype : w.SameType type type') : AccessesMatch w (.found member type) (.found member' type')
  | unchecked : AccessesMatch w .unchecked .unchecked
  | missing : AccessesMatch w .missing .missing

theorem AccessesMatch.type? {w : Sync} {access access' : Access} (h : AccessesMatch w access access') :
    Option.Rel w.SameType access.type? access'.type? := by
  cases h with
  | found _ htype => exact .some htype
  | unchecked => exact .some w.sameType_any
  | missing => exact .none

namespace Asks

variable {P : Pairing} {w : Sync} {ask ask' : Ask} (hask : Asks P ask ask')

include hask

/-! ## Members -/

theorem memberOfObject {object object' : TypeId} (hobject : w.SameType object object') (name : String) :
    Follows P w AccessesMatch (memberOfObject ask object name) (memberOfObject ask' object' name) := by
  refine .bind (hask.membersOf hobject) fun hle hmembers => .get fun hf => ?_
  refine (hf.memberNamed? hmembers name).elim (fun _ _ hmember => ?_) ?_
  · exact .bind (hask.valueOf hmember) fun hle' htype => .pure (.found (.some (hmember.mono hle')) htype)
  · exact (hf.stringIndexOf (hobject.mono hle)).elim (fun _ _ hindex => .pure (.found .none hindex)) (.pure .missing)

theorem memberOfText (name : String) : Follows P w AccessesMatch (do
    match (← get).stringSymbol with
    | some string => Check.memberOfObject ask (← ask (.declared string)) name
    | none => return .unchecked) (do
    match (← get).stringSymbol with
    | some string => Check.memberOfObject ask' (← ask' (.declared string)) name
    | none => return .unchecked) :=
  .get fun hf => hf.stringSymbol.elim (fun _ _ hid => .bind (hask.declared hid) fun _ htype =>
    hask.memberOfObject htype name) (.pure .unchecked)

theorem memberOfOne {type type' : TypeId} (htype : w.SameType type type') (name : String) :
    Follows P w AccessesMatch (memberOfOne ask type name) (memberOfOne ask' type' name) := by
  refine .get fun {f f'} hf => ?_
  have hdata := hf.typeData htype
  generalize f.typeData type = data at hdata ⊢
  generalize f'.typeData type' = data' at hdata ⊢
  cases hdata with
  | string => exact hask.memberOfText name
  | literal value =>
    cases value with
    | string text => exact hask.memberOfText name
    | _ => exact .pure .unchecked
  | object => exact hask.memberOfObject htype name
  | _ => exact .pure .unchecked

theorem memberTypes (name : String) : ∀ {w : Sync} {types types' : List TypeId}, Forall₂ w.SameType types types' →
    Follows P w (fun w => Option.Rel (Forall₂ w.SameType)) (memberTypes ask name types) (memberTypes ask' name types')
  | _, _, _, .nil => .pure (.some .nil)
  | _, _, _, .cons htype hrest => by
    rw [Check.memberTypes, Check.memberTypes]
    refine .bind (hask.memberOfOne htype name) fun hle haccess => ?_
    refine haccess.type?.elim (fun _ _ hmember => ?_) (.pure .none)
    exact .bind (memberTypes name (sameTypes_mono hrest hle)) fun hle' hothers =>
      .pure (hothers.map fun _ _ hothers => .cons (hmember.mono hle') hothers)

theorem memberOf {type type' : TypeId} (htype : w.SameType type type') (name : String) :
    Follows P w AccessesMatch (memberOf ask type name) (memberOf ask' type' name) := by
  have hone := hask.memberOfOne htype name
  refine .get fun {f f'} hf => ?_
  have hdata := hf.typeData htype
  generalize f.typeData type = data at hdata ⊢
  generalize f'.typeData type' = data' at hdata ⊢
  cases hdata with
  | union hmembers =>
    refine .bind (hask.memberTypes name hmembers) fun _ htypes => ?_
    exact htypes.elim (fun _ _ htypes => .bind (.modifyGet fun hf => hf.union htypes) fun _ htype =>
      .pure (.found .none htype)) (.pure .missing)
  | _ => exact hone

theorem accessedType {node node' : Node} (hnode : node'.source = node.source) (span span' : Text.Span)
    {type type' : TypeId} (htype : w.SameType type type') (name : String) {use use' : SymbolId → Check Unit}
    (huse : ∀ {w' : Sync} {member member' : SymbolId}, w ≤ w' → w'.SameSymbol member member' →
      Follows P w' Follows.Nothing (use member) (use' member')) :
    Follows P w Sync.SameType (accessedType ask node span type name use)
      (accessedType ask' node' span' type' name use') := by
  refine .bind (hask.memberOf htype name) fun {w' access access'} hle haccess => ?_
  cases haccess with
  | found hmember hfound =>
    exact .bind (.optionForM hmember fun hmember => huse hle hmember) fun hle _ => .pure (hfound.mono hle)
  | unchecked => exact .pure w'.sameType_any
  | missing => exact .reported hnode

/-! ## Variables and parameters -/

theorem initializedType {node node' : Node} (hnode : P.Alike node node') :
    Follows P w Sync.SameType (initializedType ask node) (initializedType ask' node') :=
  hask.ascribedOr hnode (hask.expressionType hnode.expression?)

theorem paramValueType {node node' : Node} (hnode : P.Alike node node') :
    Follows P w Sync.SameType (paramValueType ask node) (paramValueType ask' node') := by
  refine hask.ascribedOr hnode ?_
  refine hnode.expression?.elim (fun _ _ hdefault => hask.expression hdefault) (.get fun hf => ?_)
  refine (hf.contextual.get? P.nodeKeys hnode.twin.sameId).elim (fun _ _ htype => .pure htype) ?_
  exact .ite (by rw [hnode.isRest]) (hask.arrayOf w.sameType_any) (.pure w.sameType_any)

theorem boundType {symbol symbol' : SymbolId} (hsymbol : w.SameSymbol symbol symbol') {node node' : Node}
    (hnode : P.Alike node node') :
    Follows P w Sync.SameType (boundType ask symbol node) (boundType ask' symbol' node') := by
  have hdeclarator : Option.Rel P.Alike
      ((node.parentOf? .objectBindingPattern).bind (·.parentOf? .varDeclarator))
      ((node'.parentOf? .objectBindingPattern).bind (·.parentOf? .varDeclarator)) :=
    (hnode.parentOf? (by decide)).bind fun _ _ hpattern => hpattern.parentOf? (by decide)
  unfold Check.boundType
  refine hdeclarator.elim (fun declarator declarator' hdeclarator => ?_) (.pure w.sameType_any)
  rw [hnode.boundProperty]
  refine .ite (by rw [hdeclarator.ascribed?.isNone_eq, hdeclarator.expression?.isNone_eq]) (.pure w.sameType_any) ?_
  refine .bind (hask.initializedType hdeclarator) fun hle htype => ?_
  refine hask.accessedType hnode.source _ _ htype _ fun {w' _ _} hle' hmember => .modify fun hf => ?_
  exact { hf with
    boundMembers := hf.boundMembers.insert w'.symbolKeys' (hsymbol.mono (hle.trans hle')) hmember }

/-! ## Classes as values -/

omit hask in
theorem staticMember {node node' : Node} (hnode : P.Alike node node') {members members' : List SymbolId}
    (hmembers : Forall₂ w.SameSymbol members members') :
    Follows P w (fun w => Forall₂ w.SameSymbol) (staticMember members node) (staticMember members' node') := by
  have hadd : ∀ kind isOptional, Follows P w (fun w => Forall₂ w.SameSymbol) (do
      let symbol ← modifyGet (Facts.addMember kind isOptional node)
      modifyGet (Facts.pushMember members symbol)) (do
      let symbol ← modifyGet (Facts.addMember kind isOptional node')
      modifyGet (Facts.pushMember members' symbol)) := fun kind isOptional =>
    .bind (.modifyGet fun hf => hf.addMember kind isOptional hnode) fun hle hsymbol => .modifyGet fun hf =>
      hf.pushMember (sameSymbols_mono hmembers hle) hsymbol
  unfold Check.staticMember
  rw [hnode.kind, hnode.isStatic, hnode.isOptional]
  split
  · exact .ite Iff.rfl (hadd _ _) (.pure hmembers)
  · exact .ite Iff.rfl (hadd _ _) (.pure hmembers)
  · exact .pure hmembers

omit hask in
/-- What `new` gives is noted with the signature, whether it is written down or not. -/
theorem constructorType {symbol symbol' : SymbolId} (hsymbol : w.SameSymbol symbol symbol')
    {typeParams typeParams' members members' : List SymbolId} (hparams : Forall₂ w.SameSymbol typeParams typeParams')
    (hmembers : Forall₂ w.SameSymbol members members') (construct : SignatureId) :
    Follows P w Sync.SameType (do
      modify (Facts.modifySignature construct fun known => { known with typeParams, instanceOf := some symbol })
      modifyGet (Facts.addType (.object
        { ObjectType.bare .constructor (some symbol) with members, constructs := [construct] }))) (do
      modify (Facts.modifySignature construct fun known =>
        { known with typeParams := typeParams', instanceOf := some symbol' })
      modifyGet (Facts.addType (.object
        { ObjectType.bare .constructor (some symbol') with members := members', constructs := [construct] }))) := by
  refine .bind (.modify fun hf => hf.modifySignature construct fun _ _ hknown => { hknown with
    typeParams := hparams
    instanceOf := .some hsymbol }) fun hle _ => .modifyGet fun hf => ?_
  exact hf.addType (.object { ObjectsMatch.bare .constructor (.some (hsymbol.mono hle)) with
    members := sameSymbols_mono hmembers hle
    constructs := rfl })

theorem classValueType {symbol symbol' : SymbolId} (hsymbol : w.SameSymbol symbol symbol') {node node' : Node}
    (hnode : P.Alike node node') :
    Follows P w Sync.SameType (classValueType ask symbol node) (classValueType ask' symbol' node') := by
  have hconstructor : Option.Rel P.Alike (node.classMembers.find? (·.kind == .constructorDecl))
      (node'.classMembers.find? (·.kind == .constructorDecl)) :=
    hnode.classMembers.find? fun _ _ hmember => by rw [hmember.kind]
  refine .bind (hask.declared hsymbol) fun hle₁ hinstances => .get fun hf => ?_
  have hparams := ((hf.object? hinstances).map fun _ _ hobject => hobject.typeParams).getD .nil
  refine .bind (.foldlM (kept_const P.Alike) hnode.classMembers (fun _ hmember => staticMember hmember) .nil)
    fun {w₂ members members'} hle₂ hmembers => ?_
  have hmade : ∀ {w' : Sync} (construct : SignatureId), w₂ ≤ w' → Follows P w' Sync.SameType _ _ :=
    fun construct hle₃ => constructorType (hsymbol.mono (hle₁.trans (hle₂.trans hle₃)))
      (sameSymbols_mono hparams (hle₂.trans hle₃)) (sameSymbols_mono hmembers hle₃) construct
  dsimp only
  refine hconstructor.elim (fun constructor constructor' hconstructor => ?_) ?_
  · refine .bind (.modifyGet fun hf => hf.signatureOf hconstructor) fun {_ construct _} hle₃ hsame => ?_
    obtain rfl := hsame
    exact hmade construct hle₃
  · refine .bind (.modifyGet fun hf => hf.addSignature ⟨.nil, .nil, .none, .none, rfl, .none⟩)
      fun {_ construct _} hle₃ hsame => ?_
    obtain rfl := hsame
    exact hmade construct hle₃

/-! ## Symbols -/

theorem declaredValueType {id id' : SymbolId} (hid : w.SameSymbol id id') {symbol symbol' : Symbol}
    (hsymbol : SymbolsMatch P w symbol symbol') {node node' : Node} (hnode : P.Alike node node') :
    Follows P w Sync.SameType (declaredValueType ask id symbol node) (declaredValueType ask' id' symbol' node') := by
  unfold Check.declaredValueType
  rw [hsymbol.kind, hnode.kind]
  split
  · exact .ite Iff.rfl (hask.boundType hid hnode) (hask.initializedType hnode)
  · exact hask.paramValueType hnode
  · exact functionType hsymbol.declarations
  · exact functionType hsymbol.declarations
  · exact hask.classValueType hid hnode
  · split
    · exact hask.expressionType hnode.expression?
    · exact hask.expressionType hnode.expression?
    · exact hask.paramValueType hnode
    · exact hask.initializedType hnode
  · exact .pure w.sameType_any
  · exact .pure w.sameType_any
  · exact .pure w.sameType_any

theorem valueType {id id' : SymbolId} (hid : w.SameSymbol id id') :
    Follows P w Sync.SameType (valueType ask id) (valueType ask' id') := by
  refine .get fun {f f'} hf => ?_
  have hsymbol := hf.symbol hid
  dsimp only
  refine hsymbol.origin.elim (fun origin origin' horigin => ?_) ?_
  · obtain ⟨origin, substitution⟩ := origin
    obtain ⟨origin', substitution'⟩ := origin'
    obtain ⟨horigin, rfl⟩ := horigin
    exact .bind (hask.valueOf horigin) fun _ hgeneric => hask.substituted hgeneric substitution
  · exact hsymbol.declarations.head?.elim (fun _ _ hnode => hask.declaredValueType hid hsymbol hnode)
      (.pure w.sameType_any)

theorem valueOnce {id id' : SymbolId} (hid : w.SameSymbol id id') :
    Follows P w Sync.SameType (Check.valueOf ask id) (Check.valueOf ask' id') := by
  refine .get fun hf => ?_
  refine (hf.symbolTypes.get? w.symbolKeys hid).elim (fun _ _ hknown => .pure hknown) (.read fun hpending => ?_)
  refine .ite (by rw [hpending.values.contains_eq Sync.SameSymbol.eq_iff hid]) (.pure w.sameType_any) ?_
  refine .bind (.withReader (fun hpending => { hpending with values := .cons hid hpending.values })
    (hask.valueType hid)) fun {w' _ _} hle htype => .modifyGet fun hf => ?_
  obtain ⟨hfirst, htable⟩ := hf.symbolTypes.keepFirst w'.symbolKeys (hid.mono hle) htype
  exact .here { hf with symbolTypes := htable } hfirst

/-! ## Calls -/

theorem returnedType {node node' : Node} (hnode : P.Alike node node') :
    Follows P w Sync.SameType (returnedType ask node) (returnedType ask' node') := by
  unfold Check.returnedType
  exact hnode.expression?.elim (fun _ _ hvalue => hask.expression hvalue) (.pure w.sameType_undefined)

theorem inferredReturn {node node' : Node} (hnode : P.Alike node node') :
    Follows P w Sync.SameType (inferredReturn ask node) (inferredReturn ask' node') := by
  unfold Check.inferredReturn
  refine hnode.block?.elim (fun body body' hbody => ?_) ?_
  · refine .ite (by rw [hbody.returns.isEmpty_eq]) (.pure w.sameType_void) ?_
    exact .bind (.mapM (kept_const P.Alike) kept_type hbody.returns fun _ hreturn => hask.returnedType hreturn)
      fun _ htypes => .modifyGet fun hf => hf.union htypes
  · exact .ite (by rw [hnode.kind]) (hask.expressionType hnode.arrowBody?) (.pure w.sameType_any)

theorem declaredReturn {node node' : Node} (hnode : P.Alike node node') :
    Follows P w Sync.SameType (declaredReturn ask node) (declaredReturn ask' node') := by
  unfold Check.declaredReturn
  rw [hnode.kind]
  split
  · exact hask.writtenType hnode.type?
  · exact .pure w.sameType_void
  · refine hask.ascribedOr hnode (.bind (hask.inferredReturn hnode) fun _ htype => ?_)
    exact .ite (by rw [hnode.isAsync]) (hask.promiseOf htype) (.pure htype)

theorem returnType (id : SignatureId) : Follows P w Sync.SameType (returnType ask id) (returnType ask' id) := by
  refine .get fun {f f'} hf => ?_
  have hsignature := hf.signature id
  dsimp only
  rw [hsignature.origin]
  cases (f.signature id).origin with
  | some origin =>
    obtain ⟨origin, substitution⟩ := origin
    exact .bind (hask.returnOf origin) fun _ hgeneric => hask.substituted hgeneric substitution
  | none =>
    refine hsignature.instanceOf.elim (fun _ _ hmade => hask.declared hmade) ?_
    exact hsignature.declaration.elim (fun _ _ hnode => hask.declaredReturn hnode) (.pure w.sameType_any)

theorem returnOnce (id : SignatureId) :
    Follows P w Sync.SameType (Check.returnOf ask id) (Check.returnOf ask' id) := by
  refine .get fun hf => ?_
  refine (hf.signature id).returns.elim (fun _ _ hknown => .pure hknown) (.read fun hpending => ?_)
  refine .ite (by rw [hpending.returns]) (.pure w.sameType_any) ?_
  refine .bind (.withReader (fun hpending => { hpending with returns := congrArg (id :: ·) hpending.returns })
    (hask.returnType id)) fun _ htype => .modifyGet fun hf => ?_
  have htype := (hf.signature id).returns.getD htype
  exact .here (hf.modifySignature id fun _ _ hknown => { hknown with returns := .some htype }) htype

end Asks

end RouteTypes
