-- Two matching programs declare the same: the walk that gives declarations their symbols and nodes their scopes
-- keeps both checks in step. A record declares nothing.
import RouteTypes.Proofs.Typing.Combining

namespace RouteTypes

open List

variable {P : Pairing} {w : Sync} {f f' : Facts}

/-! ## Nothing to declare -/

namespace Facts

theorem enter_still {node : Node} (h : node.kind.isStill = true ∨ node.kind = .objectLiteral) (scope : ScopeId)
    (f : Facts) : f.enter node scope = (scope, f) := by
  rw [enter]
  revert h
  cases node.kind <;> first | exact fun _ => rfl | exact fun h => by rcases h with h | h <;> cases h

mutual

theorem bindPart_still {source : Source} {parent : Option Node} {scope : ScopeId} {f : Facts} : ∀ part : Part,
    Part.Still [part] → bindPart source parent scope part f = f
  | .leaf _ _, _ => rfl
  | .node span kind inner, h => by
    obtain ⟨hkind, hinner⟩ := h.node
    rw [bindPart]
    dsimp only
    rw [enter_still (.inl hkind)]
    exact bindParts_still inner hinner

theorem bindParts_still {source : Source} {parent : Option Node} {scope : ScopeId} {f : Facts} : ∀ parts : List Part,
    Part.Still parts → bindParts source parent scope parts f = f
  | [], _ => rfl
  | part :: rest, h => by
    rw [bindParts, bindPart_still part h.first, bindParts_still rest h.left]

end

end Facts

/-! ## Declarations -/

namespace Pairing.Alike

variable {node node' : Node}

theorem isThisParam (h : P.Alike node node') : Facts.isThisParam node' = Facts.isThisParam node := by
  have hfirst : ∀ node : Node, Facts.isThisParam node =
      ((node.name?.bind (·.firstToken?)).map (·.token)).any (·.kind == .thisKw) := by
    intro node
    rw [Option.any_map]
    rfl
  rw [hfirst, hfirst]
  congr 1
  exact h.name?.elim (fun _ _ hname => hname.firstToken?) rfl

theorem isConstVariable (h : P.Alike node node') : Facts.isConstVariable node' = Facts.isConstVariable node := by
  have hword : Meant fun token => token.kind == .constKw || token.kind == .letKw || token.kind == .varKw :=
    .kind (p := fun kind => kind == .constKw || kind == .letKw || kind == .varKw) (by decide)
  have hfirst : ∀ stmt : Node,
      (stmt.tokens.map (·.token.kind)).find? (fun word => word == .constKw || word == .letKw || word == .varKw) =
        ((stmt.tokens.find? fun placed => placed.token.kind == .constKw || placed.token.kind == .letKw ||
          placed.token.kind == .varKw).map (·.token)).map (·.kind) := by
    intro stmt
    rw [List.find?_map, Option.map_map]
    rfl
  rw [Facts.isConstVariable, Facts.isConstVariable]
  refine (h.find?_outwards (p := (· == .varStmt)) rfl).elim (fun stmt stmt' hstmt => ?_) rfl
  dsimp only
  rw [hfirst, hfirst, hstmt.find? hword]

end Pairing.Alike

namespace InStep

theorem bindName (h : InStep P w f f') (scope : ScopeId) (sort : NameSort) (name : String) {symbol symbol' : SymbolId}
    (hsymbol : w.SameSymbol symbol symbol') :
    InStep P w (f.bindName scope sort name symbol) (f'.bindName scope sort name symbol') := by
  have hlocal := h.getLocal scope sort name
  rw [Facts.bindName, Facts.bindName, ScopeTree.declare, ScopeTree.declare]
  refine hlocal.elim (fun _ _ _ => h) ?_
  have hscopes := h.scopes.modify scope.index (g := Scope.bind sort name symbol) (k := Scope.bind sort name symbol')
    fun inner inner' hinner => by
      cases sort
      · exact { hinner with values := hinner.values.insert Sync.eqKeys rfl hsymbol }
      · exact { hinner with types := hinner.types.insert Sync.eqKeys rfl hsymbol }
  exact { h with scopes := hscopes }

theorem setDeclared (h : InStep P w f f') {node node' : Node} (hnode : P.Twin node node') {symbol symbol' : SymbolId}
    (hsymbol : w.SameSymbol symbol symbol') : InStep P w (f.setDeclared node symbol) (f'.setDeclared node' symbol') :=
  { h with declarations := h.declarations.insert P.nodeKeys hnode.sameId hsymbol }

theorem declare (h : InStep P w f f') {node node' : Node} (hnode : P.Alike node node') (scope : ScopeId)
    (sort : NameSort) (kind : SymbolKind) :
    Out P w (fun w => Option.Rel w.SameSymbol) (f.declare node scope sort kind) (f'.declare node' scope sort kind) := by
  rw [Facts.declare, Facts.declare, hnode.declaredName?]
  cases node.declaredName? with
  | none => exact .here h .none
  | some name =>
    have hfresh : SymbolsMatch P w ⟨name, kind, [node], node.isOptional, none⟩
        ⟨name, kind, [node'], node'.isOptional, none⟩ :=
      ⟨rfl, rfl, .cons hnode .nil, hnode.isOptional, .none⟩
    obtain ⟨w', hle, hadded, hsymbol⟩ := h.addSymbol hfresh
    dsimp only
    refine (h.getLocal scope sort name).elim (fun existing existing' hexisting => ?_) ?_
    · dsimp only
      rw [(h.symbol hexisting).kind]
      split
      · exact .here ((h.addDeclaration hexisting (.cons hnode .nil)).setDeclared hnode.twin hexisting) .none
      · exact ⟨w', hle, hadded.setDeclared hnode.twin hsymbol, .none⟩
    · exact ⟨w', hle, (hadded.bindName scope sort name hsymbol).setDeclared hnode.twin hsymbol, .some hsymbol⟩

theorem openScope (h : InStep P w f f') {node node' : Node} (hnode : P.Twin node node') (scope : ScopeId) :
    Out P w (fun _ => (· = ·)) (f.openScope node scope) (f'.openScope node' scope) := by
  have hid : ScopeId.mk f.scopes.scopes.size = ⟨f'.scopes.scopes.size⟩ := congrArg ScopeId.mk h.scopes.size.symm
  exact .here { h with
    scopes := h.scopes.push ⟨rfl, .empty, .empty⟩
    owners := h.owners.insert P.nodeKeys hnode.sameId hid } hid

/-! ## The walk -/

theorem enter (h : InStep P w f f') {node node' : Node} (hnode : P.Twin node node') (scope : ScopeId) :
    Out P w (fun _ => (· = ·)) (f.enter node scope) (f'.enter node' scope) := by
  by_cases hlist : node.kind = .argList
  · rw [Facts.enter, Facts.enter, hnode.kind, hlist]
    exact .here h rfl
  · have halike : P.Alike node node' := ⟨hnode, hlist⟩
    have hdeclare : ∀ sort kind, Out P w (fun _ => (· = ·)) (scope, (f.declare node scope sort kind).2)
        (scope, (f'.declare node' scope sort kind).2) := fun sort kind =>
      have ⟨w', hle, hstep, _⟩ := h.declare halike scope sort kind
      ⟨w', hle, hstep, rfl⟩
    have hopen : ∀ sort kind, Out P w (fun _ => (· = ·)) ((f.declare node scope sort kind).2.openScope node scope)
        ((f'.declare node' scope sort kind).2.openScope node' scope) := fun sort kind =>
      have ⟨w', hle, hstep, _⟩ := h.declare halike scope sort kind
      have ⟨w'', hle', hstep', hid⟩ := hstep.openScope hnode scope
      ⟨w'', hle.trans hle', hstep', hid⟩
    have hsame : Out P w (fun _ => (· = ·)) (scope, f) (scope, f') := .here h rfl
    rw [Facts.enter, Facts.enter, hnode.kind, halike.isConstVariable, halike.isThisParam]
    split
    · exact hdeclare _ _
    · exact hdeclare _ _
    · exact hopen _ _
    · obtain ⟨w₁, hle₁, hstep₁, hid⟩ := h.openScope hnode scope
      obtain ⟨w₂, hle₂, hstep₂, -⟩ := hstep₁.declare halike (f.openScope node scope).1 .value .function
      refine ⟨w₂, hle₁.trans hle₂, ?_, hid⟩
      dsimp only
      rw [← hid]
      exact hstep₂
    · obtain ⟨w₁, hle₁, hstep₁, hsymbol⟩ := h.declare halike scope .type .classDecl
      rw [halike.declaredName?]
      revert hstep₁ hsymbol
      generalize f.declare node scope .type .classDecl = out
      generalize f'.declare node' scope .type .classDecl = out'
      obtain ⟨symbol, g⟩ := out
      obtain ⟨symbol', g'⟩ := out'
      rintro hstep₁ (hsymbol | _)
      · obtain ⟨w₂, hle₂, hstep₂, hid⟩ := (hstep₁.bindName scope .value _ hsymbol).openScope hnode scope
        exact ⟨w₂, hle₁.trans hle₂, hstep₂, hid⟩
      · obtain ⟨w₂, hle₂, hstep₂, hid⟩ := hstep₁.openScope hnode scope
        exact ⟨w₂, hle₁.trans hle₂, hstep₂, hid⟩
    · exact hopen _ _
    · exact hopen _ _
    · exact hdeclare _ _
    · rw [(halike.parentOf? (by decide)).isSome_eq]
      split
      · exact hsame
      · exact hdeclare _ _
    · exact h.openScope hnode scope
    · exact h.openScope hnode scope
    · exact h.openScope hnode scope
    · exact h.openScope hnode scope
    · exact h.openScope hnode scope
    · exact h.openScope hnode scope
    · exact hsame

theorem bindParts (h : InStep P w f f') {node node' : Node} (hnode : P.Twin node node') (scope : ScopeId) :
    ∃ w', w ≤ w' ∧ InStep P w' (Facts.bindParts node.source (some node) scope node.parts f)
      (Facts.bindParts node'.source (some node') scope node'.parts f') := by
  refine hnode.walk (motive := fun outer outer' parts parts' => ∀ w f f' scope, InStep P w f f' →
    ∃ w', w ≤ w' ∧ InStep P w' (Facts.bindParts outer.source (some outer) scope parts f)
      (Facts.bindParts outer'.source (some outer') scope parts' f')) ?_ ?_ ?_ ?_ ?_ w f f' scope h
  · exact fun _ w f f' _ h => ⟨w, le_rfl, h⟩
  · intro outer outer' part parts parts' hpart hrest
    cases part with
    | leaf _ _ => exact hrest
    | node _ _ _ => cases hpart
  · intro outer outer' part parts parts' hpart hrest
    cases part with
    | leaf _ _ => exact hrest
    | node _ _ _ => cases hpart
  · intro outer outer' span span' kind inner inner' parts parts' htwin hinner hrest w f f' scope h
    obtain ⟨w₁, hle₁, hentered, hscope⟩ := h.enter htwin scope
    obtain ⟨w₂, hle₂, hbelow⟩ := hinner w₁ _ _ (f.enter ⟨outer.source, kind, span, inner, some outer⟩ scope).1 hentered
    obtain ⟨w₃, hle₃, hall⟩ := hrest w₂ _ _ scope hbelow
    refine ⟨w₃, hle₁.trans (hle₂.trans hle₃), ?_⟩
    rw [Facts.bindParts, Facts.bindParts, Facts.bindPart, Facts.bindPart]
    dsimp only
    rw [← hscope]
    exact hall
  · intro outer outer' span kind parts inner behind htwin _ hrecord hparts hbehind w f f' scope h
    obtain ⟨rfl, hinner⟩ := Part.IsRecord.still hrecord.isRecord
    refine ⟨w, le_rfl, ?_⟩
    rw [Facts.bindParts_still parts (Part.still_leaves hparts), Facts.bindParts, Facts.bindPart]
    dsimp only
    rw [Facts.enter_still (.inr rfl), Facts.bindParts_still inner hinner,
      Facts.bindParts_still behind (Part.still_leaves hbehind)]
    exact h

theorem bindTree (h : InStep P w f f') {node node' : Node} (hnode : P.Twin node node') :
    ∃ w', w ≤ w' ∧ InStep P w' (f.bindTree node) (f'.bindTree node') := by
  rw [Facts.bindTree, Facts.bindTree, hnode.source]
  cases hsource : node.source with
  | prelude =>
    have howners := h.owners.insert P.nodeKeys hnode.sameId (rfl : ScopeTree.global = ScopeTree.global)
    have hstep := (show InStep P w { f with scopes := f.scopes.setOwner node.id ScopeTree.global }
      { f' with scopes := f'.scopes.setOwner node'.id ScopeTree.global } from { h with owners := howners })
    have hbound := hstep.bindParts hnode ScopeTree.global
    rwa [hnode.source, hsource] at hbound
  | program =>
    obtain ⟨w₁, hle₁, hstep, hid⟩ := h.openScope hnode ScopeTree.global
    obtain ⟨w₂, hle₂, hbound⟩ := hstep.bindParts hnode (f.openScope node ScopeTree.global).1
    refine ⟨w₂, hle₁.trans hle₂, ?_⟩
    rw [hnode.source, hsource] at hbound
    dsimp only
    rw [← hid]
    exact hbound

/-! ## What is bound -/

theorem primitives_match (w : Sync) : ∀ data ∈ TypeData.primitives, TypesMatch w data data := by
  simp only [TypeData.primitives, List.forall_mem_cons, List.not_mem_nil, false_imp_iff, forall_const, and_true]
  exact ⟨.any, .unknown, .never, .void, .undefined, .null, .string, .number, .boolean⟩

/-- Both checks begin with the primitive types. -/
theorem initial (P : Pairing) : InStep P ⟨[], []⟩ Facts.initial Facts.initial where
  signatures := ⟨rfl, fun hx => by cases hx⟩
  substitutions := ⟨rfl, fun hx => by cases hx⟩
  scopes :=
    have hnone : Alongside (ScopesMatch ⟨[], []⟩) #[] #[] := ⟨rfl, fun hx => by cases hx⟩
    hnone.push ⟨rfl, .empty, .empty⟩
  owners := .empty
  declarations := .empty
  declaredSignatures := .empty
  literals := .empty
  unions := .empty
  paramTypes := .empty
  substitutionIds := .empty
  references := .empty
  aliasInstances := .empty
  substitutedTypes := .empty
  substitutedSymbols := .empty
  substitutedSignatures := .empty
  symbolTypes := .empty
  declaredTypes := .empty
  expressionTypes := .empty
  writtenTypes := .empty
  resolutions := .empty
  contextual := .empty
  boundMembers := .empty
  arraySymbol := .none
  stringSymbol := .none
  promiseSymbol := .none
  symbols := ⟨rfl, rfl, fun hij => absurd hij.lt_length (Nat.not_lt_zero _), fun hj => by cases hj⟩
  types := by
    have hmarks : Sync.types ⟨[], []⟩ = List.replicate TypeData.primitives.length true := List.append_nil _
    rw [hmarks]
    refine ⟨by rw [List.count_replicate_self]; rfl, by rw [List.length_replicate]; rfl, fun {i j} hij => ?_, fun hj => ?_⟩
    · have hj : j < TypeData.primitives.length := by simpa using hij.lt_length
      obtain rfl : j = i := (Shared.replicate hj).2.symm.trans hij.2
      have hdata : Facts.initial.types[j]? = some TypeData.primitives[j] :=
        List.getElem?_toArray.trans (List.getElem?_eq_getElem hj)
      exact ⟨_, _, hdata, hdata, primitives_match _ _ (List.getElem_mem hj)⟩
    · rw [List.getElem?_eq_some_iff] at hj
      obtain ⟨_, hj⟩ := hj
      rw [List.getElem_replicate] at hj
      cases hj

/-- What both programs declare is the same. -/
theorem bound (P : Pairing) : ∃ w, InStep P w (Facts.bound P.prelude P.root) (Facts.bound P.prelude P.root') := by
  obtain ⟨w₁, -, hprelude⟩ := (initial P).bindTree P.twin_prelude
  obtain ⟨w₂, -, hprogram⟩ := hprelude.bindTree P.twin_root
  exact ⟨w₂, { hprogram with
    arraySymbol := hprogram.getLocal ScopeTree.global .type "Array"
    stringSymbol := hprogram.getLocal ScopeTree.global .type "String"
    promiseSymbol := hprogram.getLocal ScopeTree.global .type "Promise" }⟩

end InStep

end RouteTypes
