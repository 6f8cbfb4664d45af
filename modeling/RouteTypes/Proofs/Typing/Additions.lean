-- What is added to facts when something is noted. What stands in the source stays as it is, and a symbol that comes
-- up is a member or a copy, so no new name for a variable ever comes up; and no problem is reported.
import RouteTypes.Proofs.Typing.Noting

namespace RouteTypes

/-- A variable: neither a member nor a parameter nor anything that a declaration of its own kind names. -/
def SymbolKind.isVariable : SymbolKind → Bool
  | .variable _ => true
  | _ => false

/-- All that is known under the keys of a table stays known, though it may change. -/
def Table.Covers {κ ν : Type} [Keyed κ] (table table' : Table κ ν) : Prop :=
  ∀ key, (table.get? key).isSome = true → (table'.get? key).isSome = true

namespace Table.Covers

variable {κ ν : Type} [Keyed κ] {table : Table κ ν}

theorem refl (table : Table κ ν) : table.Covers table := fun _ h => h

theorem insert (key : κ) (value : ν) : table.Covers (table.insert key value) := by
  classical
  intro other h
  rw [get?_insert]
  split
  · rfl
  · exact h

theorem keepFirst (key : κ) (value : ν) : table.Covers (table.keepFirst key value).2 := by
  unfold Table.keepFirst
  split
  · exact refl table
  · exact insert key value

end Table.Covers

namespace Facts

variable {known : Node → Prop} {s s' s'' : Facts}

/-- The declarations of all symbols are known. -/
def DeclaredBy (known : Node → Prop) (s : Facts) : Prop := ∀ id, ∀ node ∈ (s.symbol id).declarations, known node

/-- The declarations of all signatures are known. -/
def SignedBy (known : Node → Prop) (s : Facts) : Prop := ∀ id, ∀ node ∈ (s.signature id).declaration, known node

/-- What is bound stays so: the scopes, and what is known of a symbol from the beginning. A new symbol is no variable,
or a copy. -/
structure Keeps (s s' : Facts) : Prop where
  scopes : s'.scopes = s.scopes
  symbols : s.symbols.size ≤ s'.symbols.size
  kind : ∀ {id}, s.HasSymbol id → (s'.symbol id).kind = (s.symbol id).kind
  origin : ∀ {id}, s.HasSymbol id → (s'.symbol id).origin = (s.symbol id).origin
  head : ∀ {id}, s.HasSymbol id → (s.symbol id).kind ≠ .method →
    (s'.symbol id).declarations.head? = (s.symbol id).declarations.head?
  fresh : ∀ {id}, s'.HasSymbol id → (s'.symbol id).kind.isVariable = true → (s'.symbol id).origin = none →
    s.HasSymbol id
  declarations : ∀ {id symbol}, s.declarations.get? id = some symbol → s'.declarations.get? id = some symbol

/-- How facts change when something is noted that is neither a problem nor what a type expression writes. -/
structure Gains (known : Node → Prop) (s s' : Facts) : Prop extends Keeps s s' where
  problems : s'.problems = s.problems
  writtenTypes : s'.writtenTypes = s.writtenTypes
  declared : s.DeclaredBy known → s'.DeclaredBy known
  signed : s.SignedBy known → s'.SignedBy known
  symbolTypes : s.symbolTypes.Covers s'.symbolTypes
  expressionTypes : s.expressionTypes.Covers s'.expressionTypes

namespace Keeps

/-- Where nothing is said about symbols, everything bound stays. -/
theorem of_same (hscopes : s'.scopes = s.scopes) (hsymbols : s'.symbols = s.symbols)
    (hdeclarations : s'.declarations = s.declarations) : Keeps s s' := by
  have hsymbol : ∀ id, s'.symbol id = s.symbol id := fun id => by rw [symbol, symbol, hsymbols]
  exact {
    scopes := hscopes
    symbols := Nat.le_of_eq (by rw [hsymbols])
    kind := fun _ => by rw [hsymbol]
    origin := fun _ => by rw [hsymbol]
    head := fun _ _ => by rw [hsymbol]
    fresh := fun hid _ _ => by rwa [HasSymbol, hsymbols] at hid
    declarations := fun hget => by rwa [hdeclarations] }

theorem refl (s : Facts) : Keeps s s := of_same rfl rfl rfl

theorem hasSymbol (h : Keeps s s') {id : SymbolId} (hid : s.HasSymbol id) : s'.HasSymbol id :=
  Nat.lt_of_lt_of_le hid h.symbols

theorem trans (h : Keeps s s') (h' : Keeps s' s'') : Keeps s s'' where
  scopes := h'.scopes.trans h.scopes
  symbols := Nat.le_trans h.symbols h'.symbols
  kind hid := (h'.kind (h.hasSymbol hid)).trans (h.kind hid)
  origin hid := (h'.origin (h.hasSymbol hid)).trans (h.origin hid)
  head hid hkind := (h'.head (h.hasSymbol hid) (h.kind hid ▸ hkind)).trans (h.head hid hkind)
  fresh hid hkind horigin := by
    have hmid := h'.fresh hid hkind horigin
    exact h.fresh hmid (h'.kind hmid ▸ hkind) (h'.origin hmid ▸ horigin)
  declarations hget := h'.declarations (h.declarations hget)

end Keeps

namespace Gains

theorem refl (s : Facts) : Gains known s s := ⟨.refl s, rfl, rfl, id, id, .refl _, .refl _⟩

theorem trans (h : Gains known s s') (h' : Gains known s' s'') : Gains known s s'' where
  toKeeps := h.toKeeps.trans h'.toKeeps
  problems := h'.problems.trans h.problems
  writtenTypes := h'.writtenTypes.trans h.writtenTypes
  declared hs := h'.declared (h.declared hs)
  signed hs := h'.signed (h.signed hs)
  symbolTypes key hsome := h'.symbolTypes key (h.symbolTypes key hsome)
  expressionTypes key hsome := h'.expressionTypes key (h.expressionTypes key hsome)

end Gains

/-! ## Notes that say nothing about symbols -/

/-- What is known of the source and of what stands in it. -/
def core (s : Facts) :=
  (s.scopes, s.problems, s.writtenTypes, s.symbols, s.signatures, s.declarations, s.symbolTypes, s.expressionTypes)

theorem Gains.of_core (h : s'.core = s.core) : Gains known s s' := by
  simp only [core, Prod.mk.injEq] at h
  obtain ⟨hscopes, hproblems, hwritten, hsymbols, hsignatures, hdeclarations, hvalues, hexpressions⟩ := h
  have hsymbol : ∀ id, s'.symbol id = s.symbol id := fun id => by rw [symbol, symbol, hsymbols]
  have hsignature : ∀ id, s'.signature id = s.signature id := fun id => by rw [signature, signature, hsignatures]
  exact {
    toKeeps := .of_same hscopes hsymbols hdeclarations
    problems := hproblems
    writtenTypes := hwritten
    declared := fun hs id => by rw [hsymbol]; exact hs id
    signed := fun hs id => by rw [hsignature]; exact hs id
    symbolTypes := by rw [hvalues]; exact .refl _
    expressionTypes := by rw [hexpressions]; exact .refl _ }

section

variable {α β : Type} {note : α → Facts → β × Facts}

theorem each_core (h : ∀ item s, (note item s).2.core = s.core) : ∀ (items : List α) (s : Facts),
    (each note items s).2.core = s.core
  | [], _ => rfl
  | item :: rest, s => (each_core h rest (note item s).2).trans (h item s)

theorem each_gains : ∀ (items : List α), (∀ item ∈ items, ∀ s, Gains known s (note item s).2) → ∀ s : Facts,
    Gains known s (each note items s).2
  | [], _, s => .refl s
  | item :: rest, h, s => (h item List.mem_cons_self s).trans
      (each_gains rest (fun other hother => h other (List.mem_cons_of_mem _ hother)) (note item s).2)

end

theorem literalType_core (value : Literal) (s : Facts) : (s.literalType value).2.core = s.core := by
  unfold literalType
  split <;> rfl

theorem union_core (types : List TypeId) (s : Facts) : (s.union types).2.core = s.core := by
  unfold union
  dsimp only
  split
  · rfl
  · split
    · rfl
    · rfl
    · unfold unionType
      split <;> rfl

theorem paramType_core (param : SymbolId) (s : Facts) : (s.paramType param).2.core = s.core := by
  unfold paramType
  split <;> rfl

theorem shareSubstitution_core (params : List SymbolId) (types : List TypeId) (s : Facts) :
    (s.shareSubstitution params types).2.core = s.core := by
  unfold shareSubstitution
  dsimp only
  split <;> rfl

theorem reference_core (target : TypeId) (args : List TypeId) (s : Facts) :
    (s.reference target args).2.core = s.core := by
  unfold reference
  split
  · rfl
  · rename_i object _
    dsimp only
    split
    · rfl
    · have hown := each_core paramType_core object.typeParams s
      generalize each paramType object.typeParams s = own at hown ⊢
      split
      · exact hown
      · split <;> exact hown

/-! ## Symbols -/

theorem symbol_of_none {id : SymbolId} (h : ¬ s.HasSymbol id) : s.symbol id = default := by
  rw [symbol, Array.getD_eq_getD_getElem?, Array.getElem?_eq_none (Nat.not_lt.mp h)]
  rfl

theorem symbol_of_addSymbol (symbol : Symbol) (id : SymbolId) : (s.addSymbol symbol).2.symbol id =
    if id = (s.addSymbol symbol).1 then symbol else s.symbol id := by
  rw [Facts.symbol, Facts.symbol, Array.getD_eq_getD_getElem?, Array.getD_eq_getD_getElem?,
    show (s.addSymbol symbol).2.symbols = s.symbols.push symbol from rfl, Array.getElem?_push]
  by_cases hid : id.index = s.symbols.size
  · have hnew : id = (s.addSymbol symbol).1 := congrArg SymbolId.mk hid
    rw [if_pos hid, if_pos hnew]
    rfl
  · have hold : id ≠ (s.addSymbol symbol).1 := fun hnew => hid (congrArg SymbolId.index hnew)
    rw [if_neg hid, if_neg hold]

theorem addSymbol_gains {symbol : Symbol} (hknown : s.DeclaredBy known → ∀ node ∈ symbol.declarations, known node)
    (hkind : symbol.kind.isVariable = true → symbol.origin ≠ none) : Gains known s (s.addSymbol symbol).2 := by
  have hold : ∀ {id}, s.HasSymbol id → (s.addSymbol symbol).2.symbol id = s.symbol id := fun hid =>
    getD_push_of_lt _ _ hid
  refine { Gains.refl s with
    symbols := Nat.le_of_lt (lt_size_push _)
    kind := fun hid => by rw [hold hid]
    origin := fun hid => by rw [hold hid]
    head := fun hid _ => by rw [hold hid]
    fresh := fun {id} hid hvariable horigin => ?_
    declared := fun hs id node hnode => ?_ }
  · rw [symbol_of_addSymbol] at hvariable horigin
    split at hvariable
    · rw [if_pos ‹_›] at horigin
      exact absurd horigin (hkind hvariable)
    · rename_i hne
      rcases Nat.lt_succ_iff_lt_or_eq.mp (Nat.lt_of_lt_of_eq hid (Array.size_push _)) with hlt | heq
      · exact hlt
      · exact absurd (congrArg SymbolId.mk heq) hne
  · rw [symbol_of_addSymbol] at hnode
    split at hnode
    · exact hknown hs node hnode
    · exact hs id node hnode

/-- What kinds members have. -/
theorem addNamedMember_gains (name : String) {kind : SymbolKind} (hkind : kind.isVariable = false) (isOptional : Bool)
    {node : Node} (hnode : known node) (s : Facts) : Gains known s (s.addNamedMember name kind isOptional node).2 := by
  have hgains : Gains known s (s.addSymbol ⟨name, kind, [node], isOptional, none⟩).2 :=
    addSymbol_gains (fun _ => List.forall_mem_singleton.mpr hnode) fun hvariable => by
      rw [hkind] at hvariable
      cases hvariable
  exact { hgains with
    declarations := fun hget => Table.get?_insertIfNew_of_some _ hget }

/-- A method may get further declarations. -/
theorem addDeclaration_gains {id : SymbolId} {nodes : List Node} (hmethod : (s.symbol id).kind = .method)
    (hnodes : s.DeclaredBy known → ∀ node ∈ nodes, known node) : Gains known s (s.addDeclaration id nodes) where
  scopes := rfl
  problems := rfl
  writtenTypes := rfl
  symbols := Nat.le_of_eq Array.size_modify.symm
  kind hid := by
    rw [symbol_addDeclaration hid]
    split <;> rfl
  origin hid := by
    rw [symbol_addDeclaration hid]
    split <;> rfl
  head {other} hid hkind := by
    rw [symbol_addDeclaration hid, if_neg]
    rintro rfl
    exact hkind hmethod
  fresh hid _ _ := hasSymbol_addDeclaration.mp hid
  declared hs other node hnode := by
    by_cases hid : s.HasSymbol other
    · rw [symbol_addDeclaration hid] at hnode
      split at hnode
      · exact (List.mem_append.mp hnode).elim (hs other node) (hnodes hs node)
      · exact hs other node hnode
    · rw [symbol_of_none (mt hasSymbol_addDeclaration.mp hid)] at hnode
      cases hnode
  signed hs := hs
  declarations hget := hget
  symbolTypes := .refl _
  expressionTypes := .refl _

theorem pushMember_gains (members : List SymbolId) (id : SymbolId) (s : Facts) :
    Gains known s (s.pushMember members id).2 := by
  unfold pushMember
  split
  · rename_i method hfound
    have hmethod := List.find?_some hfound
    simp only [Bool.and_eq_true, beq_iff_eq] at hmethod
    exact addDeclaration_gains hmethod.1.2 fun hs => hs id
  · exact .refl s

theorem pushMembers_gains (members added : List SymbolId) (s : Facts) :
    Gains known s (s.pushMembers members added).2 := by
  induction added generalizing members s with
  | nil => exact .refl s
  | cons id rest ih => exact (pushMember_gains members id s).trans (ih _ _)

theorem declareMember_gains {kind : SymbolKind} (hkind : kind.isVariable = false) (isOptional : Bool) {node : Node}
    (hnode : known node) (table : MemberTable) (s : Facts) :
    Gains known s (s.declareMember kind isOptional node table).2 :=
  (addNamedMember_gains _ hkind isOptional hnode s).trans (pushMember_gains _ _ _)

theorem copySymbol_gains (substitution : SubstitutionId) (id : SymbolId) (s : Facts) :
    Gains known s (s.copySymbol substitution id).2 := by
  unfold copySymbol
  split
  · exact .refl s
  · have hgains : Gains known s (s.addSymbol { s.symbol id with origin := some (id, substitution) }).2 :=
      addSymbol_gains (fun hs => hs id) fun _ => Option.some_ne_none _
    exact hgains.trans (.of_core rfl)

/-! ## Signatures -/

theorem signature_of_none {id : SignatureId} (h : ¬ s.HasSignature id) : s.signature id = default := by
  rw [signature, Array.getD_eq_getD_getElem?, Array.getElem?_eq_none (Nat.not_lt.mp h)]
  rfl

theorem signature_of_addSignature (signature : Signature) (id : SignatureId) :
    (s.addSignature signature).2.signature id = if id = (s.addSignature signature).1 then signature else s.signature id := by
  rw [Facts.signature, Facts.signature, Array.getD_eq_getD_getElem?, Array.getD_eq_getD_getElem?,
    show (s.addSignature signature).2.signatures = s.signatures.push signature from rfl, Array.getElem?_push]
  by_cases hid : id.index = s.signatures.size
  · have hnew : id = (s.addSignature signature).1 := congrArg SignatureId.mk hid
    rw [if_pos hid, if_pos hnew]
    rfl
  · have hold : id ≠ (s.addSignature signature).1 := fun hnew => hid (congrArg SignatureId.index hnew)
    rw [if_neg hid, if_neg hold]

theorem Gains.addSignature {signature : Signature} (h : Gains known s s')
    (hnode : s.SignedBy known → ∀ node ∈ signature.declaration, known node) :
    Gains known s (s'.addSignature signature).2 :=
  { h with
    signed := fun hs id node hin => by
      rw [signature_of_addSignature] at hin
      split at hin
      · exact hnode hs node hin
      · exact h.signed hs id node hin }

theorem signatureOf_gains {node : Node} (hnode : known node) (s : Facts) : Gains known s (s.signatureOf node).2 := by
  unfold signatureOf
  split
  · exact .refl s
  · refine ((Gains.refl s).addSignature fun _ other hother => ?_).trans (.of_core rfl)
    cases hother
    exact hnode

theorem copySignature_gains (substitution : SubstitutionId) (id : SignatureId) (s : Facts) :
    Gains known s (s.copySignature substitution id).2 := by
  unfold copySignature
  split
  · exact .refl s
  · have hparams : Gains known s (each (copySymbol substitution) (s.signature id).params s).2 :=
      each_gains _ (fun param _ s => copySymbol_gains substitution param s) s
    dsimp only
    generalize each (copySymbol substitution) (s.signature id).params s = result at hparams ⊢
    obtain ⟨params, after⟩ := result
    have hcopy : Gains known s (after.addSignature { s.signature id with
        typeParams :=
          (s.signature id).typeParams.filter fun param => !(s.substitution substitution).params.contains param
        params := params
        returns := none
        origin := some (id, substitution) }).2 := hparams.addSignature fun hs => hs id
    exact hcopy.trans (.of_core rfl)

theorem modifySignature_gains (id : SignatureId) {change : Signature → Signature}
    (h : ∀ signature, (change signature).declaration = signature.declaration) (s : Facts) :
    Gains known s (s.modifySignature id change) :=
  { Gains.refl s with
    signed := fun hs other node hnode => by
      by_cases hin : s.HasSignature other
      · rw [signature_modifySignature hin] at hnode
        split at hnode
        · rw [h] at hnode
          exact hs other node hnode
        · exact hs other node hnode
      · have hout : ¬ (s.modifySignature id change).HasSignature other := by
          rwa [HasSignature, modifySignature, Array.size_modify]
        rw [signature_of_none hout] at hnode
        cases hnode }

/-! ## Values -/

theorem keepValue_gains (symbol : SymbolId) (type : TypeId) (s : Facts) :
    Gains known s { s with symbolTypes := (s.symbolTypes.keepFirst symbol type).2 } :=
  { Gains.refl s with symbolTypes := .keepFirst symbol type }

theorem keepExpression_gains (id : NodeId) (type : TypeId) (s : Facts) :
    Gains known s { s with expressionTypes := (s.expressionTypes.keepFirst id type).2 } :=
  { Gains.refl s with expressionTypes := .keepFirst id type }

/-! ## What was bound -/

theorem problems_report (node : Node) (span : Text.Span) (problem : Problem TypeId) (s : Facts) :
    ∃ problems, s.report node span problem = { s with problems } := by
  unfold report
  cases node.source with
  | program => exact ⟨_, rfl⟩
  | prelude => exact ⟨s.problems, rfl⟩

/-- What has become of facts while a program is checked: what was bound is so still, and the declarations are known. -/
structure Since (known : Node → Prop) (bound s : Facts) : Prop where
  keeps : bound.Keeps s
  declared : s.DeclaredBy known
  signed : s.SignedBy known

/-- The declarations in closed facts are known. -/
theorem Closed.since (h : s.Closed known) : Since known s s where
  keeps := .refl s
  declared id node hnode := by
    by_cases hid : s.HasSymbol id
    · exact ((h.symbol id hid).declarations node hnode).known
    · rw [symbol_of_none hid] at hnode
      cases hnode
  signed id node hnode := by
    by_cases hid : s.HasSignature id
    · exact ((h.signature id hid).declaration node hnode).known
    · rw [signature_of_none hid] at hnode
      cases hnode

namespace Since

variable {bound : Facts}

theorem gains (h : Since known bound s) (hgains : Gains known s s') : Since known bound s' :=
  ⟨h.keeps.trans hgains.toKeeps, hgains.declared h.declared, hgains.signed h.signed⟩

/-- Nothing is said about symbols and signatures. -/
theorem same (h : Since known bound s) (hscopes : s'.scopes = s.scopes) (hsymbols : s'.symbols = s.symbols)
    (hdeclarations : s'.declarations = s.declarations) (hsignatures : s'.signatures = s.signatures) :
    Since known bound s' where
  keeps := h.keeps.trans (.of_same hscopes hsymbols hdeclarations)
  declared id := by
    rw [symbol, hsymbols]
    exact h.declared id
  signed id := by
    rw [signature, hsignatures]
    exact h.signed id

theorem report (h : Since known bound s) (node : Node) (span : Text.Span) (problem : Problem TypeId) :
    Since known bound (s.report node span problem) := by
  obtain ⟨problems, hreport⟩ := problems_report node span problem s
  rw [hreport]
  exact h.same rfl rfl rfl rfl

end Since

end Facts

end RouteTypes
