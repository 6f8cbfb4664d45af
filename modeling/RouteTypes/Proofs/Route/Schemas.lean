-- The schemas of two programs that were checked in step. Where the second program has no records and no types of its
-- own, the registrations have the same schemas, or fail to have them for the same reasons.
import RouteTypes.Proofs.Route.Counterparts

namespace RouteTypes

open List

/-! ## Schemas of types -/

namespace InStep

variable {P : Pairing} {w : Sync} {checked checked' : Checked} (h : InStep P w checked.facts checked'.facts)
  {type type' : TypeId}

include h

theorem sortOf (htype : w.SameType type type') : checked'.sortOf type' = checked.sortOf type := by
  have hdata := h.typeData htype
  rw [Checked.sortOf, Checked.sortOf, Checked.typeData, Checked.typeData, h.isArray htype]
  revert hdata
  generalize checked.facts.typeData type = data
  generalize checked'.facts.typeData type' = data'
  intro hdata
  cases hdata with
  | object hobject => dsimp only; rw [hobject.kind, hobject.calls]
  | _ => rfl

/-- The properties have the same names and types. -/
theorem properties (htype : w.SameType type type') :
    Forall₂ (fun property property' => property'.1 = property.1 ∧ w.SameType property.2 property'.2)
      (checked.typeTable.properties type) (checked'.typeTable.properties type') :=
  (h.membersOf htype).map fun _ _ hid => ⟨h.name hid, h.typeOfSymbol hid⟩

section

variable {lower lower' : TypeId → Except Cause Schema}
  (hlower : ∀ {type type' : TypeId}, w.SameType type type' → lower' type' = lower type)

include hlower

omit h in
theorem lowerFields {properties properties' : List (String × TypeId)}
    (hproperties : Forall₂ (fun property property' => property'.1 = property.1 ∧ w.SameType property.2 property'.2)
      properties properties') (fields : List (String × Schema)) :
    TypeTable.lowerFields lower' properties' fields = TypeTable.lowerFields lower properties fields := by
  induction hproperties generalizing fields with
  | nil => rfl
  | @cons property property' _ _ hproperty _ ih =>
    obtain ⟨name, type⟩ := property
    obtain ⟨name', type'⟩ := property'
    obtain ⟨rfl, htype⟩ := hproperty
    rw [TypeTable.lowerFields, TypeTable.lowerFields, hlower htype]
    exact congrArg _ (funext fun schema => ih _)

theorem lowerObject (htype : w.SameType type type') (sort : ObjectSort) :
    checked'.typeTable.lowerObject lower' type' sort = checked.typeTable.lowerObject lower type sort := by
  have hproperties := h.properties htype
  have hname : checked'.typeTable.name? type' = checked.typeTable.name? type := h.typeName? htype
  have hdisplay : checked'.typeTable.display type' = checked.typeTable.display type := h.display htype
  have hmember : ∀ member, checked'.typeTable.hasProperty type' member =
      checked.typeTable.hasProperty type member := fun member =>
    hproperties.any_eq fun _ _ hproperty => by rw [hproperty.1]
  have hbuiltin : ∀ name member, checked'.typeTable.isBuiltin type' name member =
      checked.typeTable.isBuiltin type name member := fun name member => by
    rw [TypeTable.isBuiltin, TypeTable.isBuiltin, hname, hmember]
  unfold TypeTable.lowerObject
  by_cases hsort : sort = .array
  · rw [if_pos hsort, if_pos hsort, hdisplay]
    have hargs : Forall₂ w.SameType (checked.typeTable.typeArguments type) (checked'.typeTable.typeArguments type') :=
      h.typeArguments htype
    generalize checked.typeTable.typeArguments type = args at hargs ⊢
    generalize checked'.typeTable.typeArguments type' = args' at hargs ⊢
    cases hargs with
    | nil => rfl
    | cons hone hrest =>
      cases hrest with
      | nil => exact congrArg (Schema.array <$> ·) (hlower hone)
      | cons _ hrest => simp [hrest.length_eq]
  · rw [if_neg hsort, if_neg hsort, hbuiltin, hbuiltin, hname, lowerFields hlower hproperties, TypeTable.unsupported,
      TypeTable.unsupported, hdisplay]

end

/-- Within types that are the same a type has the same schema, or none for the same reason. -/
theorem lowerWithin : ∀ (depth : Nat) {around around' : List TypeId} {type type' : TypeId},
    Forall₂ w.SameType around around' → w.SameType type type' →
      checked'.typeTable.lowerWithin depth around' type' = checked.typeTable.lowerWithin depth around type
  | depth, around, around', type, type', haround, htype => by
    have hsort : checked'.typeTable.sort type' = checked.typeTable.sort type := h.sortOf htype
    have hdisplay : checked'.typeTable.display type' = checked.typeTable.display type := h.display htype
    rw [TypeTable.lowerWithin, TypeTable.lowerWithin, hsort]
    simp only [TypeTable.unsupported, hdisplay, haround.contains_eq Sync.SameType.eq_iff htype]
    cases depth with
    | zero => rfl
    | succ depth =>
      simp only [h.lowerObject (fun hsame => lowerWithin depth (.cons htype haround) hsame) htype]

/-- A type has the same schema if there are as many types. -/
theorem lower (hsize : checked'.facts.types.size = checked.facts.types.size) (htype : w.SameType type type') :
    checked'.typeTable.lower type' = checked.typeTable.lower type := by
  rw [TypeTable.lower, TypeTable.lower, show checked'.typeTable.size = checked.typeTable.size from hsize]
  exact h.lowerWithin _ .nil htype

/-- The second program has as many types at least. -/
theorem types_le : checked.facts.types.size ≤ checked'.facts.types.size := by
  rw [h.types.size, h.types.size']
  exact List.count_le_length

end InStep

/-! ## Schemas of registrations -/

/-- Lists of arguments have the same items where the second program has no records. -/
theorem Pairing.Twin.elements {P : Pairing} {node node' : Node} (h : P.Twin node node') (hgrows : P.grows = false) :
    Forall₂ P.Alike node.elements node'.elements := by
  obtain ⟨own, put, hchildren, hown, hput⟩ := h.children
  have hnone : put = [] := hput.resolve_right fun ⟨_, _, _, hrecord⟩ => by
    rw [hrecord.grows] at hgrows
    cases hgrows
  rw [Node.elements, Node.elements, Node.childrenOf, Node.childrenOf, hchildren, hnone, List.append_nil]
  exact Pairing.filter_alike hown rfl

namespace Counterparts

open Route

variable {P : Pairing} {w : Sync} {text text' : String} {checked checked' : Checked}
  (h : Counterparts P w text text' checked checked') {node node' : Node}

include h

/-- What stands in the place of a handler is called the same. -/
theorem notAHandler? (hnode : P.Alike node node') : notAHandler? node' = notAHandler? node := by
  unfold Route.notAHandler?
  rw [hnode.kind]
  split
  · rfl
  · have hname := hnode.name?
    have hword : ∀ name ∈ node.name?, name.kind.isWord = true := fun name hin => by
      have hfound : node.children.find? (·.kind == .name) = some name := hin
      have hkind := List.find?_some hfound
      rw [NodeKind.isWord, show (name.kind == .name) = true from hkind, Bool.true_or]
    generalize node.name? = name at hname hword ⊢
    generalize node'.name? = name' at hname ⊢
    cases hname with
    | none => rfl
    | some hname => rw [Option.map_some, Option.map_some, h.word hname (hword _ rfl)]
  · rename_i hkind
    rw [h.word hnode (by rw [hkind]; rfl)]
  · rfl
  · rfl

omit h in
/-- Counterparts have a list of arguments or none. -/
theorem expectChild (hnode : P.Alike node node') : SameResult P.Twin (node.expectChild (.node .argList))
    (node'.expectChild (.node .argList)) := by
  have hlist := hnode.argList?
  rw [Node.argList?, Node.argList?] at hlist
  rw [expectChild_eq, expectChild_eq]
  generalize node.child? (· == .argList) = found at hlist ⊢
  generalize node'.child? (· == .argList) = found' at hlist ⊢
  cases hlist with
  | some hlist => exact .ok hlist
  | none => exact .error (by rw [Node.malformed, Node.malformed, hnode.kind])

theorem handlerOf (hgrows : P.grows = false) (config : Config) (hnode : P.Alike node node') :
    SameResult P.Alike (handlerOf config node) (handlerOf config node') := by
  unfold Route.handlerOf
  refine (expectChild hnode).bind fun list list' hlist => ?_
  have helements := hlist.elements hgrows
  generalize list.elements = args at helements ⊢
  generalize list'.elements = args' at helements ⊢
  rcases helements with _ | ⟨_, _ | ⟨_, _ | ⟨harg, _ | ⟨_, hrest⟩⟩⟩⟩
  · exact .error rfl
  · exact .error rfl
  · exact .error rfl
  · dsimp only
    rw [h.notAHandler? harg]
    split
    · exact .ok harg
    · exact .error rfl
  · exact .error (by simp [hrest.length_eq])

theorem signatureOf (hnode : P.Alike node node') :
    SameResult (fun signature signature' => signature' = signature) (signatureOf (callables checked) node)
      (signatureOf (callables checked') node') := by
  have hcalls : (callables checked').calls (checked'.typeOfNode node') = (callables checked).calls (checked.typeOfNode node) :=
    h.inStep.calls (h.inStep.typeOfNode hnode.twin)
  rw [Route.signatureOf, Route.signatureOf]
  dsimp only [callables] at hcalls ⊢
  rw [hcalls]
  split
  · exact .ok rfl
  · exact .error rfl

theorem paramOf (signature : SignatureId) :
    SameResult w.SameSymbol (paramOf checked node signature) (paramOf checked' node' signature) := by
  have hparams : Forall₂ w.SameSymbol (checked.signature signature).params (checked'.signature signature).params :=
    (h.inStep.signature signature).params
  rw [Route.paramOf, Route.paramOf]
  generalize (checked.signature signature).params = params at hparams ⊢
  generalize (checked'.signature signature).params = params' at hparams ⊢
  rcases hparams with _ | ⟨hone, _ | ⟨_, hrest⟩⟩
  · exact .error rfl
  · exact .ok hone
  · exact .error (by simp [hrest.length_eq])

/-- A type has the same schema wherever it comes from. -/
theorem lowerAt (hsize : checked'.facts.types.size = checked.facts.types.size) (span span' : Text.Span) {type type' : TypeId}
    (htype : w.SameType type type') :
    SameResult (fun schema schema' => schema' = schema) (lowerAt checked span type) (lowerAt checked' span' type') := by
  rw [Route.lowerAt, Route.lowerAt, h.inStep.lower hsize htype]
  cases checked.typeTable.lower type with
  | ok schema => exact .ok rfl
  | error cause => exact .error rfl

/-- The schemas of a registration are the same, or there are none for the same reason. -/
theorem schemasOf (hgrows : P.grows = false) (hsize : checked'.facts.types.size = checked.facts.types.size)
    (config : Config) (hnode : P.Alike node node') :
    SameResult (fun schemas schemas' => schemas' = schemas) (schemasOf config (callables checked) node)
      (schemasOf config (callables checked') node') := by
  refine (h.handlerOf hgrows config hnode).bind fun handler handler' hhandler => ?_
  refine (h.signatureOf hhandler).bind fun signature signature' hsignature => ?_
  rw [hsignature]
  refine (h.paramOf signature).bind fun param param' hparam => ?_
  refine (h.lowerAt hsize _ _ (h.inStep.typeOfSymbol hparam)).bind fun params params' hparams => ?_
  rw [hparams]
  refine (h.lowerAt hsize _ _ (h.inStep.returnType signature)).bind fun returned returned' hreturned => ?_
  rw [hreturned]
  exact .ok rfl

end Counterparts

end RouteTypes
