-- What is read off two programs that were checked in step: names and constants refer to the same, the types of
-- twins are the same types, and types are written in the same way.
import RouteTypes.Proofs.Typing.Lockstep
import RouteTypes.Typing.Display

namespace RouteTypes

open List

variable {P : Pairing} {w : Sync}

namespace InStep

section

variable {f f' : Facts} (h : InStep P w f f')

include h

/-- A constant stands for the same in both. -/
theorem aliased? {id id' : SymbolId} (hid : w.SameSymbol id id') :
    Option.Rel w.SameSymbol (f.aliased? id) (f'.aliased? id') := by
  have hsymbol := h.symbol hid
  rw [Facts.aliased?, Facts.aliased?]
  dsimp only
  rw [hsymbol.kind]
  split
  · refine (h.boundMembers.get? w.symbolKeys' hid).or ?_
    refine hsymbol.declarations.head?.bind fun _ _ hnode => hnode.expression?.bind fun _ _ hvalue => ?_
    have hbare := hvalue.withoutParens
    rw [hbare.kind]
    split
    · exact h.resolutions.get? P.nodeKeys hbare.twin.sameId
    · exact .none
  · exact .none

end

variable {checked checked' : Checked} (h : InStep P w checked.facts checked'.facts)

include h

/-! ## Symbols -/

theorem followFor : ∀ (steps : Nat) {id id' : SymbolId}, w.SameSymbol id id' →
    w.SameSymbol (checked.followFor steps id) (checked'.followFor steps id')
  | 0, _, _, hid => hid
  | steps + 1, id, id', hid => by
    rw [Checked.followFor, Checked.followFor]
    refine (h.aliased? hid).elim (fun next next' hnext => ?_) hid
    dsimp only
    by_cases hsame : next = id
    · rw [if_pos hsame, if_pos ((hnext.eq_iff hid).mp hsame)]
      exact hid
    · rw [if_neg hsame, if_neg fun hsame' => hsame ((hnext.eq_iff hid).mpr hsame')]
      exact followFor steps hnext

/-- What a name refers to is followed to the same. -/
theorem resolveAliased {node node' : Node} (hnode : P.Twin node node') :
    Option.Rel w.SameSymbol (checked.resolveAliased node) (checked'.resolveAliased node') :=
  (h.resolutions.get? P.nodeKeys hnode.sameId).map fun _ _ hid => h.followFor 64 hid

theorem originOf {id id' : SymbolId} (hid : w.SameSymbol id id') :
    w.SameSymbol (checked.originOf id) (checked'.originOf id') := by
  obtain ⟨index⟩ := id
  induction index using Nat.strongRecOn generalizing id' with
  | ind index ih =>
    have horigin := (h.symbol hid).origin
    rw [Checked.originOf, Checked.originOf, Checked.symbol, Checked.symbol]
    refine horigin.elim (fun origin origin' hsame => ?_) hid
    dsimp only
    by_cases hlt : origin.1.index < index
    · rw [if_pos hlt, if_pos ((hsame.1.lt_iff hid).mp hlt)]
      exact ih _ hlt hsame.1
    · rw [if_neg hlt, if_neg fun hlt' => hlt ((hsame.1.lt_iff hid).mpr hlt')]
      exact hsame.1

theorem valueDeclaration? {id id' : SymbolId} (hid : w.SameSymbol id id') :
    Option.Rel P.Alike (checked.valueDeclaration? id) (checked'.valueDeclaration? id') := by
  have hsymbol := h.symbol (h.originOf hid)
  rw [Checked.valueDeclaration?, Checked.valueDeclaration?, Checked.symbol, Checked.symbol, hsymbol.kind]
  split
  · exact hsymbol.declarations.head?
  · exact .none

/-! ## Types -/

theorem typeOfSymbol {id id' : SymbolId} (hid : w.SameSymbol id id') :
    w.SameType (checked.typeOfSymbol id) (checked'.typeOfSymbol id') :=
  (h.symbolTypes.get? w.symbolKeys hid).getD w.sameType_any

theorem typeOfNode {node node' : Node} (hnode : P.Twin node node') :
    w.SameType (checked.typeOfNode node) (checked'.typeOfNode node') := by
  rw [Checked.typeOfNode, Checked.typeOfNode]
  refine (h.expressionTypes.get? P.nodeKeys hnode.sameId).elim (fun _ _ htype => htype) ?_
  exact ((h.declared? hnode).map fun _ _ hid => h.typeOfSymbol hid).getD w.sameType_any

theorem property? {type type' : TypeId} (htype : w.SameType type type') (name : String) :
    Option.Rel w.SameSymbol (checked.property? type name) (checked'.property? type' name) :=
  h.memberNamed? (h.membersOf htype) name

theorem calls {type type' : TypeId} (htype : w.SameType type type') : checked'.calls type' = checked.calls type :=
  congrArg (·.getD []) ((h.object? htype).map_eq fun _ _ hobject => hobject.calls)

theorem typeArguments {type type' : TypeId} (htype : w.SameType type type') :
    Forall₂ w.SameType (checked.typeArguments type) (checked'.typeArguments type') :=
  ((h.object? htype).map fun _ _ hobject => hobject.typeArguments).getD .nil

theorem returnType (id : SignatureId) : w.SameType (checked.returnType id) (checked'.returnType id) :=
  (h.signature id).returns.getD w.sameType_any

theorem typeName? {type type' : TypeId} (htype : w.SameType type type') :
    checked'.typeName? type' = checked.typeName? type := by
  rw [Checked.typeName?, Checked.typeName?, Checked.object?, Checked.object?]
  refine (h.object? htype).elim (fun object object' hobject => ?_) rfl
  dsimp only
  rw [hobject.kind]
  split
  · rfl
  · exact hobject.symbol.map_eq fun _ _ hid => h.name hid

theorem isArray {type type' : TypeId} (htype : w.SameType type type') :
    checked'.isArray type' = checked.isArray type := by
  rw [Checked.isArray, Checked.isArray, Checked.object?, Checked.object?]
  refine (h.object? htype).elim (fun object object' hobject => ?_) rfl
  dsimp only
  rw [hobject.kind, hobject.symbol.isSome_eq, hobject.symbol.beq_eq Sync.SameSymbol.eq_iff h.arraySymbol]

theorem isClass {type type' : TypeId} (htype : w.SameType type type') :
    checked'.isClass type' = checked.isClass type :=
  (h.object? htype).any_eq fun _ _ hobject => by rw [hobject.kind]

/-! ## Texts -/

theorem asFunction? {type type' : TypeId} (htype : w.SameType type type') :
    checked'.asFunction? type' = checked.asFunction? type := by
  rw [Checked.asFunction?, Checked.asFunction?, Checked.object?, Checked.object?]
  refine (h.object? htype).elim (fun object object' hobject => ?_) rfl
  dsimp only
  rw [hobject.calls, hobject.kind]
  have hmembers : object'.members = [] ↔ object.members = [] := by
    rw [← List.isEmpty_iff, ← List.isEmpty_iff, hobject.members.isEmpty_eq]
  simp only [hmembers]

theorem needsParens {type type' : TypeId} (htype : w.SameType type type') :
    checked'.needsParens type' = checked.needsParens type := by
  have hdata := h.typeData htype
  rw [Checked.needsParens, Checked.needsParens, h.asFunction? htype, Checked.typeData, Checked.typeData]
  revert hdata
  generalize checked.facts.typeData type = data
  generalize checked'.facts.typeData type' = data'
  intro hdata
  cases hdata <;> rfl

section

variable {display display' : TypeId → String}
  (hdisplay : ∀ {type type' : TypeId}, w.SameType type type' → display' type' = display type)

include hdisplay

theorem memberText {id id' : SymbolId} (hid : w.SameSymbol id id') :
    checked'.memberText display' id' = checked.memberText display id := by
  have hsymbol := h.symbol hid
  rw [Checked.memberText, Checked.memberText, Checked.symbol, Checked.symbol]
  rw [hsymbol.name, hsymbol.isOptional, hdisplay (h.typeOfSymbol hid)]

theorem paramText {id id' : SymbolId} (hid : w.SameSymbol id id') :
    checked'.paramText display' id' = checked.paramText display id := by
  have hrest := (h.symbol hid).declarations.head?.any_eq (p := (·.isRest)) (q := (·.isRest)) fun _ _ hnode => hnode.isRest
  rw [Checked.paramText, Checked.paramText, Checked.symbol, Checked.symbol, h.memberText hdisplay hid, hrest]

theorem anonymousText {type type' : TypeId} (htype : w.SameType type type') {object object' : ObjectType}
    (hobject : ObjectsMatch w object object') :
    checked'.anonymousText display' type' object' = checked.anonymousText display type object := by
  rw [Checked.anonymousText, Checked.anonymousText, h.asFunction? htype]
  split
  · rename_i call _
    rw [hdisplay (h.returnType call), Checked.signature, Checked.signature,
      (h.signature call).params.map_eq fun _ _ hid => h.paramText hdisplay hid]
  · dsimp only
    rw [hobject.members.map_eq fun _ _ hid => h.memberText hdisplay hid,
      hobject.stringIndex.toList.map_eq fun _ _ hindex => by rw [hdisplay hindex]]

theorem objectText {type type' : TypeId} (htype : w.SameType type type') {object object' : ObjectType}
    (hobject : ObjectsMatch w object object') :
    checked'.objectText display' type' object' = checked.objectText display type object := by
  rw [Checked.objectText, Checked.objectText]
  dsimp only
  have hname : object'.symbol.map (fun id => (checked'.symbol id).name) =
      object.symbol.map fun id => (checked.symbol id).name := hobject.symbol.map_eq fun _ _ hid => h.name hid
  have helement : w.SameType (object.typeArguments.headD .any) (object'.typeArguments.headD .any) := by
    rw [List.headD_eq_head?_getD, List.headD_eq_head?_getD]
    exact hobject.typeArguments.head?.getD w.sameType_any
  have hparams : object'.typeParams.map (fun param => (checked'.symbol param).name) =
      object.typeParams.map fun param => (checked.symbol param).name :=
    hobject.typeParams.map_eq fun _ _ hid => h.name hid
  have hargs : object'.typeArguments.map display' = object.typeArguments.map display :=
    hobject.typeArguments.map_eq fun _ _ harg => hdisplay harg
  rw [hobject.kind, hname, h.isArray htype, h.needsParens helement, hdisplay helement,
    h.anonymousText hdisplay htype hobject, hargs, hparams]

end

theorem displayUpTo : ∀ (depth : Nat) {type type' : TypeId}, w.SameType type type' →
    checked'.displayUpTo depth type' = checked.displayUpTo depth type
  | 0, _, _, _ => rfl
  | depth + 1, type, type', htype => by
    have hdata := h.typeData htype
    rw [Checked.displayUpTo, Checked.displayUpTo, Checked.typeData, Checked.typeData]
    revert hdata
    generalize checked.facts.typeData type = data
    generalize checked'.facts.typeData type' = data'
    intro hdata
    cases hdata with
    | union hmembers => exact congrArg (" | ".intercalate ·) (hmembers.map_eq fun _ _ hmember => displayUpTo depth hmember)
    | object hobject => exact h.objectText (displayUpTo depth) htype hobject
    | param hid => exact h.name hid
    | _ => rfl

/-- A type is written in the same way in both. -/
theorem display {type type' : TypeId} (htype : w.SameType type type') :
    checked'.display type' = checked.display type :=
  h.displayUpTo 4 htype

end InStep

end RouteTypes
