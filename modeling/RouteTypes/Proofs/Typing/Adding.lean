-- Facts stay in step when the same is noted in both: what is new to both checks gets its next numbers, and what
-- is new to the second one alone, as a part of a record, is skipped.
import RouteTypes.Proofs.Typing.InStep

namespace RouteTypes

open List

namespace Sync

/-- One more symbol, of both checks or of the second one alone. -/
def withSymbol (w : Sync) (mark : Bool) : Sync := { w with symbols := w.symbols ++ [mark] }

/-- One more type, of both checks or of the second one alone. -/
def withType (w : Sync) (mark : Bool) : Sync := { w with others := w.others ++ [mark] }

variable {w : Sync}

theorem le_withSymbol (w : Sync) (mark : Bool) : w ≤ w.withSymbol mark := ⟨prefix_append _ _, prefix_rfl⟩

theorem le_withType (w : Sync) (mark : Bool) : w ≤ w.withType mark := ⟨prefix_rfl, prefix_append _ _⟩

theorem types_withType (w : Sync) (mark : Bool) : (w.withType mark).types = w.types ++ [mark] :=
  (List.append_assoc _ _ _).symm

end Sync

/-- Two results of noting facts: the facts are in step, with no less known than before, and what is given with
them is related. -/
def Out {α β : Type} (P : Pairing) (w : Sync) (R : Sync → α → β → Prop) (out : α × Facts) (out' : β × Facts) : Prop :=
  ∃ w', w ≤ w' ∧ InStep P w' out.2 out'.2 ∧ R w' out.1 out'.1

/-- A relation that is kept when more is known. -/
structure Kept {α β : Type} (R : Sync → α → β → Prop) : Prop where
  mono : ∀ {w w' : Sync} {a : α} {b : β}, w ≤ w' → R w a b → R w' a b

theorem kept_symbol : Kept Sync.SameSymbol := ⟨fun hle h => h.mono hle⟩

theorem kept_type : Kept Sync.SameType := ⟨fun hle h => h.mono hle⟩

theorem kept_const {α β : Type} (R : α → β → Prop) : Kept fun _ : Sync => R := ⟨fun _ h => h⟩

theorem Kept.both {α β γ δ : Type} {R : Sync → α → β → Prop} {S : Sync → γ → δ → Prop} (hR : Kept R) (hS : Kept S) :
    Kept fun w (x : α × γ) (y : β × δ) => R w x.1 y.1 ∧ S w x.2 y.2 :=
  ⟨fun hle h => ⟨hR.mono hle h.1, hS.mono hle h.2⟩⟩

theorem Kept.list {α β : Type} {R : Sync → α → β → Prop} (h : Kept R) : Kept fun w => Forall₂ (R w) :=
  ⟨fun hle hall => hall.imp fun _ _ => h.mono hle⟩

variable {P : Pairing} {w : Sync} {f f' : Facts}

namespace Out

variable {α β : Type} {R S : Sync → α → β → Prop} {out : α × Facts} {out' : β × Facts}

theorem here {a : α} {b : β} (h : InStep P w f f') (hR : R w a b) : Out P w R (a, f) (b, f') :=
  ⟨w, w.le_refl, h, hR⟩

theorem imp (h : Out P w R out out') (himp : ∀ w', w ≤ w' → R w' out.1 out'.1 → S w' out.1 out'.1) :
    Out P w S out out' :=
  have ⟨w', hle, hstep, hR⟩ := h
  ⟨w', hle, hstep, himp w' hle hR⟩

end Out

namespace InStep

variable (h : InStep P w f f')

include h

/-! ## Symbols and types -/

theorem addSymbol {symbol symbol' : Symbol} (hsymbol : SymbolsMatch P w symbol symbol') :
    Out P w Sync.SameSymbol (f.addSymbol symbol) (f'.addSymbol symbol') := by
  have hle := w.le_withSymbol true
  refine ⟨w.withSymbol true, hle, ?_, ?_⟩
  · exact { h.toOthersMatch.mono hle with
      symbols := (h.symbols.push hsymbol).imp fun _ _ hmatch => hmatch.mono hle
      types := h.types.imp fun _ _ hmatch => hmatch.mono hle }
  · show Shared _ f.symbols.size f'.symbols.size
    rw [h.symbols.size, h.symbols.size']
    exact .next _

theorem addType {data data' : TypeData} (hdata : TypesMatch w data data') :
    Out P w Sync.SameType (f.addType data) (f'.addType data') := by
  have hle := w.le_withType true
  refine ⟨w.withType true, hle, ?_, ?_⟩
  · exact { h.toOthersMatch.mono hle with
      symbols := h.symbols.imp fun _ _ hmatch => hmatch.mono hle
      types := by
        rw [w.types_withType]
        exact (h.types.push hdata).imp fun _ _ hmatch => hmatch.mono hle }
  · show Shared _ f.types.size f'.types.size
    rw [h.types.size, h.types.size', w.types_withType]
    exact .next _

/-- A property of a record is a symbol of the second check alone. -/
theorem skipSymbol {symbol' : Symbol} (hsymbol : OfRecord P symbol') :
    InStep P (w.withSymbol false) f (f'.addSymbol symbol').2 ∧
      (w.withSymbol false).OtherSymbol (f'.addSymbol symbol').1 := by
  have hle := w.le_withSymbol false
  refine ⟨?_, ?_⟩
  · exact { h.toOthersMatch.mono hle with
      symbols := (h.symbols.pushOther hsymbol).imp fun _ _ hmatch => hmatch.mono hle
      types := h.types.imp fun _ _ hmatch => hmatch.mono hle }
  · show (w.symbols ++ [false])[f'.symbols.size]? = some false
    rw [h.symbols.size']
    simp

theorem skipType {data' : TypeData} (hdata : IsRecordType data') :
    InStep P (w.withType false) f (f'.addType data').2 := by
  have hle := w.le_withType false
  exact { h.toOthersMatch.mono hle with
    symbols := h.symbols.imp fun _ _ hmatch => hmatch.mono hle
    types := by
      rw [w.types_withType]
      exact (h.types.pushOther hdata).imp fun _ _ hmatch => hmatch.mono hle }

theorem literalType (value : Literal) : Out P w Sync.SameType (f.literalType value) (f'.literalType value) := by
  have hknown := h.literals.get? Sync.eqKeys (rfl : value = value)
  rw [Facts.literalType, Facts.literalType]
  revert hknown
  generalize f.literals.get? value = known
  generalize f'.literals.get? value = known'
  rintro (hknown | _)
  · exact .here h hknown
  · obtain ⟨w', hle, hstep, htype⟩ := h.addType (.literal value)
    exact ⟨w', hle, { hstep with literals := hstep.literals.insert Sync.eqKeys rfl htype }, htype⟩

theorem unionType {members members' : List TypeId} (hmembers : Forall₂ w.SameType members members') :
    Out P w Sync.SameType (f.unionType members) (f'.unionType members') := by
  have hknown := h.unions.get? w.typesKeys hmembers
  rw [Facts.unionType, Facts.unionType]
  revert hknown
  generalize f.unions.get? members = known
  generalize f'.unions.get? members' = known'
  rintro (hknown | _)
  · exact .here h hknown
  · obtain ⟨w', hle, hstep, htype⟩ := h.addType (.union hmembers)
    exact ⟨w', hle,
      { hstep with unions := hstep.unions.insert w'.typesKeys (sameTypes_mono hmembers hle) htype }, htype⟩

theorem paramType {param param' : SymbolId} (hparam : w.SameSymbol param param') :
    Out P w Sync.SameType (f.paramType param) (f'.paramType param') := by
  have hknown := h.paramTypes.get? w.symbolKeys' hparam
  rw [Facts.paramType, Facts.paramType]
  revert hknown
  generalize f.paramTypes.get? param = known
  generalize f'.paramTypes.get? param' = known'
  rintro (hknown | _)
  · exact .here h hknown
  · obtain ⟨w', hle, hstep, htype⟩ := h.addType (.param hparam)
    exact ⟨w', hle, { hstep with paramTypes := hstep.paramTypes.insert w'.symbolKeys' (hparam.mono hle) htype },
      htype⟩

/-! ## Signatures and substitutions -/

theorem addSignature {signature signature' : Signature} (hsignature : SignaturesMatch P w signature signature') :
    Out P w (fun _ => (· = ·)) (f.addSignature signature) (f'.addSignature signature') :=
  ⟨w, w.le_refl, { h with signatures := h.signatures.push hsignature },
    congrArg SignatureId.mk h.signatures.size.symm⟩

theorem shareSubstitution {params params' : List SymbolId} {types types' : List TypeId}
    (hparams : Forall₂ w.SameSymbol params params') (htypes : Forall₂ w.SameType types types') :
    Out P w (fun _ => (· = ·)) (f.shareSubstitution params types) (f'.shareSubstitution params' types') := by
  have hsame : w.SameSubstitution ⟨params, types⟩ ⟨params', types'⟩ := ⟨hparams, htypes⟩
  have hknown := h.substitutionIds.get? w.substitutionKeys hsame
  rw [Facts.shareSubstitution, Facts.shareSubstitution]
  dsimp only
  revert hknown
  generalize f.substitutionIds.get? ⟨params, types⟩ = known
  generalize f'.substitutionIds.get? ⟨params', types'⟩ = known'
  rintro (hknown | _)
  · exact .here h hknown
  · have hid : SubstitutionId.mk f.substitutions.size = ⟨f'.substitutions.size⟩ :=
      congrArg SubstitutionId.mk h.substitutions.size.symm
    exact ⟨w, w.le_refl, { h with
      substitutions := h.substitutions.push hsame
      substitutionIds := h.substitutionIds.insert w.substitutionKeys hsame hid }, hid⟩

/-! ## Changes -/

theorem addDeclaration {id id' : SymbolId} (hid : w.SameSymbol id id') {nodes nodes' : List Node}
    (hnodes : Forall₂ P.Alike nodes nodes') :
    InStep P w (f.addDeclaration id nodes) (f'.addDeclaration id' nodes') := by
  have hsymbols := h.symbols.modify hid (g := fun known => { known with declarations := known.declarations ++ nodes })
    (k := fun known => { known with declarations := known.declarations ++ nodes' }) fun _ _ hmatch =>
      { hmatch with declarations := hmatch.declarations.append hnodes }
  exact { h with symbols := hsymbols }

theorem modifyObject {type type' : TypeId} (htype : w.SameType type type') {change change' : ObjectType → ObjectType}
    (hchange : ∀ object object', ObjectsMatch w object object' → ObjectsMatch w (change object) (change' object')) :
    InStep P w (f.modifyObject type change) (f'.modifyObject type' change') := by
  refine { h with types := ?_ }
  dsimp only [Facts.modifyObject]
  refine h.types.modify htype fun _ _ hmatch => ?_
  cases hmatch with
  | object h => exact .object (hchange _ _ h)
  | union h => exact .union h
  | param h => exact .param h
  | _ => constructor

theorem modifySignature (id : SignatureId) {change change' : Signature → Signature}
    (hchange : ∀ signature signature', SignaturesMatch P w signature signature' →
      SignaturesMatch P w (change signature) (change' signature')) :
    InStep P w (f.modifySignature id change) (f'.modifySignature id change') :=
  { h with signatures := h.signatures.modify id.index hchange }

theorem report {node node' : Node} (hnode : node'.source = node.source) (span span' : Text.Span)
    (problem problem' : Problem TypeId) :
    InStep P w (f.report node span problem) (f'.report node' span' problem') := by
  rw [Facts.report, Facts.report, hnode]
  cases node.source
  · exact { h with }
  · exact h

end InStep

end RouteTypes
