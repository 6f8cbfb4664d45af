-- Facts stay in step when types are combined, members are collected and what is generic is copied.
import RouteTypes.Proofs.Typing.Adding

namespace RouteTypes

open List

variable {P : Pairing} {w : Sync} {f f' : Facts}

/-- The same members in both checks. -/
structure MembersMatch (w : Sync) (table table' : MemberTable) : Prop where
  members : Forall₂ w.SameSymbol table.members table'.members
  stringIndex : Option.Rel w.SameType table.stringIndex table'.stringIndex

theorem MembersMatch.mono {w' : Sync} {table table' : MemberTable} (h : MembersMatch w table table') (hle : w ≤ w') :
    MembersMatch w' table table' :=
  ⟨sameSymbols_mono h.members hle, h.stringIndex.imp fun _ _ hindex => hindex.mono hle⟩

theorem MembersMatch.empty (w : Sync) : MembersMatch w .empty .empty := ⟨.nil, .none⟩

/-- Object types without anything in them. -/
theorem ObjectsMatch.bare (kind : ObjectKind) {symbol symbol' : Option SymbolId}
    (h : Option.Rel w.SameSymbol symbol symbol') : ObjectsMatch w (.bare kind symbol) (.bare kind symbol') :=
  ⟨rfl, h, .nil, rfl, rfl, .none, .nil, .none, .nil, rfl⟩

/-- References to the same type with the same arguments. -/
theorem ObjectsMatch.reference {object object' : ObjectType} (h : ObjectsMatch w object object') {w' : Sync}
    {target target' : TypeId} (htarget : w'.SameType target target') {args args' : List TypeId}
    (hargs : Forall₂ w'.SameType args args') (hle : w ≤ w') :
    ObjectsMatch w' { ObjectType.bare .reference object.symbol with target := some target, typeArguments := args }
      { ObjectType.bare .reference object'.symbol with target := some target', typeArguments := args' } :=
  { ObjectsMatch.bare .reference (h.mono hle).symbol with target := .some htarget, typeArguments := hargs }

namespace InStep

/-! ## Lists -/

/-- What is noted for each item of a list. -/
theorem each {α α' β β' : Type} {R : Sync → α → α' → Prop} {S : Sync → β → β' → Prop} (hR : Kept R) (hS : Kept S)
    {note : α → Facts → β × Facts} {note' : α' → Facts → β' × Facts}
    (hnote : ∀ {w : Sync} {f f' : Facts} {x : α} {x' : α'}, InStep P w f f' → R w x x' →
      Out P w S (note x f) (note' x' f')) :
    ∀ {w : Sync} {f f' : Facts} {items : List α} {items' : List α'}, InStep P w f f' → Forall₂ (R w) items items' →
      Out P w (fun w => Forall₂ (S w)) (Facts.each note items f) (Facts.each note' items' f')
  | w, f, f', _, _, h, .nil => .here h .nil
  | w, f, f', _, _, h, .cons hx hrest => by
    obtain ⟨w₁, hle, hstep, hy⟩ := hnote h hx
    obtain ⟨w₂, hle', hstep', hys⟩ := each hR hS hnote hstep (hR.list.mono hle hrest)
    exact ⟨w₂, Sync.le_trans hle hle', hstep', .cons (hS.mono hle' hy) hys⟩

/-- What is noted for each item of a list, if both get the same. -/
theorem eachSame {α α' β : Type} {R : Sync → α → α' → Prop} (hR : Kept R) {note : α → Facts → β × Facts}
    {note' : α' → Facts → β × Facts}
    (hnote : ∀ {w : Sync} {f f' : Facts} {x : α} {x' : α'}, InStep P w f f' → R w x x' →
      Out P w (fun _ => (· = ·)) (note x f) (note' x' f'))
    (h : InStep P w f f') {items : List α} {items' : List α'} (hitems : Forall₂ (R w) items items') :
    Out P w (fun _ => (· = ·)) (Facts.each note items f) (Facts.each note' items' f') :=
  have hall : Out P w (fun _ => Forall₂ (· = ·)) (Facts.each note items f) (Facts.each note' items' f') :=
    each hR (kept_const _) hnote h hitems
  hall.imp fun _ _ hresults => forall₂_eq_eq_eq ▸ hresults

variable (h : InStep P w f f')

include h

/-! ## Unions and references -/

theorem unionParts {type type' : TypeId} (htype : w.SameType type type') :
    Forall₂ w.SameType (f.unionParts type) (f'.unionParts type') := by
  have hdata := h.typeData htype
  rw [Facts.unionParts, Facts.unionParts]
  revert hdata
  generalize f.typeData type = data
  generalize f'.typeData type' = data'
  intro hdata
  cases hdata with
  | union hmembers => exact hmembers
  | never => exact .nil
  | _ => exact .cons htype .nil

theorem union {types types' : List TypeId} (htypes : Forall₂ w.SameType types types') :
    Out P w Sync.SameType (f.union types) (f'.union types') := by
  have hparts := htypes.flatMap fun _ _ htype => h.unionParts htype
  rw [Facts.union, Facts.union, hparts.contains_eq Sync.SameType.eq_iff w.sameType_any]
  split
  · exact .here h w.sameType_any
  · have hmembers := hparts.eraseDups Sync.SameType.eq_iff
    revert hmembers
    generalize (types.flatMap f.unionParts).eraseDups = members
    generalize (types'.flatMap f'.unionParts).eraseDups = members'
    rintro (_ | ⟨htype, _ | ⟨hnext, hrest⟩⟩)
    · exact .here h w.sameType_never
    · exact .here h htype
    · exact h.unionType (.cons htype (.cons hnext hrest))

theorem reference {target target' : TypeId} (htarget : w.SameType target target') {args args' : List TypeId}
    (hargs : Forall₂ w.SameType args args') :
    Out P w Sync.SameType (f.reference target args) (f'.reference target' args') := by
  have hobject := h.object? htarget
  rw [Facts.reference, Facts.reference]
  revert hobject
  generalize f.object? target = object
  generalize f'.object? target' = object'
  rintro (hobject | _)
  · rename_i object object'
    dsimp only
    rw [hobject.typeParams.isEmpty_eq]
    split
    · exact .here h htarget
    · obtain ⟨w₁, hle, hstep, hown⟩ := each kept_symbol kept_type (fun h hparam => h.paramType hparam) h
        hobject.typeParams
      revert hstep hown
      generalize f.each Facts.paramType object.typeParams = out
      generalize f'.each Facts.paramType object'.typeParams = out'
      obtain ⟨own, g⟩ := out
      obtain ⟨own', g'⟩ := out'
      intro hstep hown
      have hsame : own = args ↔ own' = args' := hown.eq_iff Sync.SameType.eq_iff (sameTypes_mono hargs hle)
      dsimp only
      by_cases heq : own = args
      · rw [if_pos heq, if_pos (hsame.mp heq)]
        exact ⟨w₁, hle, hstep, htarget.mono hle⟩
      · rw [if_neg heq, if_neg fun heq' => heq (hsame.mpr heq')]
        have hkey : Both w₁.SameType (Forall₂ w₁.SameType) (target, args) (target', args') :=
          ⟨htarget.mono hle, sameTypes_mono hargs hle⟩
        have hknown := hstep.references.get? w₁.referenceKeys hkey
        revert hknown
        generalize g.references.get? (target, args) = known
        generalize g'.references.get? (target', args') = known'
        rintro (hknown | _)
        · exact ⟨w₁, hle, hstep, hknown⟩
        · obtain ⟨w₂, hle', hstep', htype⟩ := hstep.addType (.object (hobject.reference hkey.1 hkey.2 hle))
          exact ⟨w₂, Sync.le_trans hle hle', { hstep' with
            references := hstep'.references.insert w₂.referenceKeys
              (show Both _ _ _ _ from ⟨hkey.1.mono hle', sameTypes_mono hkey.2 hle'⟩) htype }, htype⟩
  · exact .here h htarget

theorem arrayElement? {type type' : TypeId} (htype : w.SameType type type') :
    Option.Rel w.SameType (f.arrayElement? type) (f'.arrayElement? type') := by
  have hobject := h.object? htype
  rw [Facts.arrayElement?, Facts.arrayElement?]
  revert hobject
  generalize f.object? type = object
  generalize f'.object? type' = object'
  rintro (hobject | _)
  · rename_i object object'
    have htarget := hobject.target.bind fun _ _ htarget => h.object? htarget
    dsimp only
    revert htarget
    generalize object.target.bind f.object? = target
    generalize object'.target.bind f'.object? = target'
    rintro (htarget | _)
    · dsimp only
      rw [h.arraySymbol.isSome_eq, htarget.symbol.beq_eq Sync.SameSymbol.eq_iff h.arraySymbol]
      split
      · exact hobject.typeArguments.head?
      · exact .none
    · exact .none
  · exact .none

/-! ## Members -/

theorem addNamedMember (name : String) (kind : SymbolKind) (isOptional : Bool) {node node' : Node}
    (hnode : P.Alike node node') :
    Out P w Sync.SameSymbol (f.addNamedMember name kind isOptional node)
      (f'.addNamedMember name kind isOptional node') := by
  obtain ⟨w', hle, hstep, hid⟩ := h.addSymbol (show SymbolsMatch P w ⟨name, kind, [node], isOptional, none⟩
    ⟨name, kind, [node'], isOptional, none⟩ from ⟨rfl, rfl, .cons hnode .nil, rfl, .none⟩)
  exact ⟨w', hle,
    { hstep with declarations := hstep.declarations.insertIfNew P.nodeKeys hnode.twin.sameId hid }, hid⟩

theorem addMember (kind : SymbolKind) (isOptional : Bool) {node node' : Node} (hnode : P.Alike node node') :
    Out P w Sync.SameSymbol (f.addMember kind isOptional node) (f'.addMember kind isOptional node') := by
  rw [Facts.addMember, Facts.addMember, hnode.declaredName?]
  exact h.addNamedMember _ kind isOptional hnode

theorem overloaded? {members members' : List SymbolId} (hmembers : Forall₂ w.SameSymbol members members')
    {id id' : SymbolId} (hid : w.SameSymbol id id') :
    Option.Rel w.SameSymbol (f.overloaded? members id) (f'.overloaded? members' id') :=
  hmembers.find? fun _ _ hmember => by
    rw [h.name hmember, h.name hid, (h.symbol hmember).kind, (h.symbol hid).kind]

theorem pushMember {members members' : List SymbolId} (hmembers : Forall₂ w.SameSymbol members members')
    {id id' : SymbolId} (hid : w.SameSymbol id id') :
    Out P w (fun w => Forall₂ w.SameSymbol) (f.pushMember members id) (f'.pushMember members' id') := by
  have hmethod := h.overloaded? hmembers hid
  rw [Facts.pushMember, Facts.pushMember]
  revert hmethod
  generalize f.overloaded? members id = method
  generalize f'.overloaded? members' id' = method'
  rintro (hmethod | _)
  · exact .here (h.addDeclaration hmethod (h.symbol hid).declarations) hmembers
  · exact .here h (hmembers.append (.cons hid .nil))

omit h in
theorem pushMembers : ∀ {w : Sync} {f f' : Facts} {members members' ids ids' : List SymbolId}, InStep P w f f' →
    Forall₂ w.SameSymbol members members' → Forall₂ w.SameSymbol ids ids' →
      Out P w (fun w => Forall₂ w.SameSymbol) (Facts.pushMembers members ids f) (Facts.pushMembers members' ids' f')
  | _, _, _, _, _, _, _, h, hmembers, .nil => .here h hmembers
  | _, _, _, _, _, _, _, h, hmembers, .cons hid hrest => by
    obtain ⟨w₁, hle, hstep, hpushed⟩ := h.pushMember hmembers hid
    obtain ⟨w₂, hle', hstep', hall⟩ := pushMembers hstep hpushed (sameSymbols_mono hrest hle)
    exact ⟨w₂, Sync.le_trans hle hle', hstep', hall⟩

theorem declareMember (kind : SymbolKind) (isOptional : Bool) {node node' : Node} (hnode : P.Alike node node')
    {table table' : MemberTable} (htable : MembersMatch w table table') :
    Out P w MembersMatch (f.declareMember kind isOptional node table)
      (f'.declareMember kind isOptional node' table') := by
  obtain ⟨w₁, hle, hstep, hid⟩ := h.addMember kind isOptional hnode
  obtain ⟨w₂, hle', hstep', hmembers⟩ := hstep.pushMember (sameSymbols_mono htable.members hle) hid
  exact ⟨w₂, Sync.le_trans hle hle', hstep', { htable.mono (Sync.le_trans hle hle') with members := hmembers }⟩

theorem setMember {members members' : List SymbolId} (hmembers : Forall₂ w.SameSymbol members members')
    {id id' : SymbolId} (hid : w.SameSymbol id id') :
    Forall₂ w.SameSymbol (f.setMember members id) (f'.setMember members' id') := by
  rw [Facts.setMember, Facts.setMember, hmembers.findIdx?_eq
    (q := fun member => (f'.symbol member).name == (f'.symbol id').name) fun _ _ hmember => by rw [h.name hmember, h.name hid]]
  split
  · exact hmembers.set hid _
  · exact hmembers.append (.cons hid .nil)

theorem setMembers {members members' ids ids' : List SymbolId} (hmembers : Forall₂ w.SameSymbol members members')
    (hids : Forall₂ w.SameSymbol ids ids') :
    Forall₂ w.SameSymbol (ids.foldl f.setMember members) (ids'.foldl f'.setMember members') := by
  induction hids generalizing members members' with
  | nil => exact hmembers
  | cons hid _ ih => exact ih (h.setMember hmembers hid)

theorem inheritMembers {inherited inherited' members members' : List SymbolId}
    (hinherited : Forall₂ w.SameSymbol inherited inherited') (hmembers : Forall₂ w.SameSymbol members members') :
    Forall₂ w.SameSymbol (f.inheritMembers inherited members) (f'.inheritMembers inherited' members') := by
  rw [Facts.inheritMembers, Facts.inheritMembers]
  induction hinherited generalizing members members' with
  | nil => exact hmembers
  | @cons id id' _ _ hid _ ih =>
    refine ih ?_
    dsimp only
    rw [h.name hid, (h.memberNamed? hmembers _).isSome_eq]
    split
    · exact hmembers
    · exact hmembers.append (.cons hid .nil)

/-! ## Signatures -/

theorem signatureOf {node node' : Node} (hnode : P.Alike node node') :
    Out P w (fun _ => (· = ·)) (f.signatureOf node) (f'.signatureOf node') := by
  have hknown := h.declaredSignatures.get? P.nodeKeys hnode.twin.sameId
  rw [Facts.signatureOf, Facts.signatureOf]
  revert hknown
  generalize f.declaredSignatures.get? node.id = known
  generalize f'.declaredSignatures.get? node'.id = known'
  rintro (hknown | _)
  · exact .here h hknown
  · obtain ⟨w', hle, hstep, hid⟩ := h.addSignature (show SignaturesMatch P w
      ⟨f.declaredIn node .typeParamList, f.declaredIn node .paramList, some node, none, none, none⟩
      ⟨f'.declaredIn node' .typeParamList, f'.declaredIn node' .paramList, some node', none, none, none⟩ from
      ⟨h.declaredIn hnode (by decide), h.declaredIn hnode (by decide), .some hnode, .none, rfl, .none⟩)
    exact ⟨w', hle,
      { hstep with declaredSignatures := hstep.declaredSignatures.insert P.nodeKeys hnode.twin.sameId hid }, hid⟩

theorem signaturesOf {nodes nodes' : List Node} (hnodes : Forall₂ P.Alike nodes nodes') :
    Out P w (fun _ => (· = ·)) (Facts.each Facts.signatureOf nodes f) (Facts.each Facts.signatureOf nodes' f') :=
  eachSame (kept_const P.Alike) (fun h hnode => h.signatureOf hnode) h hnodes

/-! ## Copies -/

theorem copySymbol (substitution : SubstitutionId) {id id' : SymbolId} (hid : w.SameSymbol id id') :
    Out P w Sync.SameSymbol (f.copySymbol substitution id) (f'.copySymbol substitution id') := by
  have hkey : Both w.SameSymbol (· = ·) (id, substitution) (id', substitution) := ⟨hid, rfl⟩
  have hknown := h.substitutedSymbols.get? w.copyKeys hkey
  rw [Facts.copySymbol, Facts.copySymbol]
  revert hknown
  generalize f.substitutedSymbols.get? (id, substitution) = known
  generalize f'.substitutedSymbols.get? (id', substitution) = known'
  rintro (hknown | _)
  · exact .here h hknown
  · obtain ⟨w', hle, hstep, hcopy⟩ := h.addSymbol (show SymbolsMatch P w
      { f.symbol id with origin := some (id, substitution) }
      { f'.symbol id' with origin := some (id', substitution) } from
      { h.symbol hid with origin := .some hkey })
    have hkey' : Both w'.SameSymbol (· = ·) (id, substitution) (id', substitution) := ⟨hid.mono hle, rfl⟩
    exact ⟨w', hle,
      { hstep with substitutedSymbols := hstep.substitutedSymbols.insert w'.copyKeys hkey' hcopy }, hcopy⟩

theorem copySignature (substitution : SubstitutionId) (id : SignatureId) :
    Out P w (fun _ => (· = ·)) (f.copySignature substitution id) (f'.copySignature substitution id) := by
  have hknown := h.substitutedSignatures.get? Sync.eqKeys (rfl : (id, substitution) = (id, substitution))
  rw [Facts.copySignature, Facts.copySignature]
  revert hknown
  generalize f.substitutedSignatures.get? (id, substitution) = known
  generalize f'.substitutedSignatures.get? (id, substitution) = known'
  rintro (hknown | _)
  · exact .here h hknown
  · dsimp only
    have hgeneric := h.signature id
    have hreplaced : Forall₂ w.SameSymbol (f.substitution substitution).params (f'.substitution substitution).params :=
      (h.substitution substitution).params
    obtain ⟨w₁, hle, hstep, hparams⟩ := each kept_symbol kept_symbol (fun h hid => h.copySymbol substitution hid) h
      hgeneric.params
    revert hstep hparams
    generalize f.each (Facts.copySymbol substitution) (f.signature id).params = out
    generalize f'.each (Facts.copySymbol substitution) (f'.signature id).params = out'
    obtain ⟨params, g⟩ := out
    obtain ⟨params', g'⟩ := out'
    intro hstep hparams
    have hown : Forall₂ w₁.SameSymbol
        ((f.signature id).typeParams.filter (!(f.substitution substitution).params.contains ·))
        ((f'.signature id).typeParams.filter (!(f'.substitution substitution).params.contains ·)) :=
      sameSymbols_mono (hgeneric.typeParams.filter fun _ _ hparam => by
        rw [hreplaced.contains_eq Sync.SameSymbol.eq_iff hparam]) hle
    obtain ⟨w₂, hle', hstep', hcopy⟩ := hstep.addSignature (show SignaturesMatch P w₁
      { f.signature id with
        typeParams := (f.signature id).typeParams.filter (!(f.substitution substitution).params.contains ·)
        params := params
        returns := none
        origin := some (id, substitution) }
      { f'.signature id with
        typeParams := (f'.signature id).typeParams.filter (!(f'.substitution substitution).params.contains ·)
        params := params'
        returns := none
        origin := some (id, substitution) } from
      { hgeneric.mono hle with typeParams := hown, params := hparams, returns := .none, origin := rfl })
    exact ⟨w₂, Sync.le_trans hle hle', { hstep' with
      substitutedSignatures := hstep'.substitutedSignatures.insert Sync.eqKeys rfl hcopy }, hcopy⟩

theorem copySymbols (substitution : SubstitutionId) {ids ids' : List SymbolId} (hids : Forall₂ w.SameSymbol ids ids') :
    Out P w (fun w => Forall₂ w.SameSymbol) (Facts.each (Facts.copySymbol substitution) ids f)
      (Facts.each (Facts.copySymbol substitution) ids' f') :=
  each kept_symbol kept_symbol (fun h hid => h.copySymbol substitution hid) h hids

theorem copySignatures (substitution : SubstitutionId) (ids : List SignatureId) :
    Out P w (fun _ => (· = ·)) (Facts.each (Facts.copySignature substitution) ids f)
      (Facts.each (Facts.copySignature substitution) ids f') :=
  eachSame (kept_const (· = ·)) (fun h hid => hid ▸ h.copySignature substitution _) h (forall₂_eq_eq_eq ▸ rfl)

theorem setSubstituted {type type' result result' : TypeId} (htype : w.SameType type type')
    (substitution : SubstitutionId) (hresult : w.SameType result result') :
    InStep P w (f.setSubstituted type substitution result) (f'.setSubstituted type' substitution result') :=
  have hkey : Both w.SameType (· = ·) (type, substitution) (type', substitution) := ⟨htype, rfl⟩
  { h with substitutedTypes := h.substitutedTypes.insert w.substitutedKeys hkey hresult }

end InStep

end RouteTypes
