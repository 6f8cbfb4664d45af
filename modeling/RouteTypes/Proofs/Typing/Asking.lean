-- Questions in step: where the same questions about types have the same answers in both checks, what is worked out
-- from the answers is the same too. Of a record the second check alone is asked.
import RouteTypes.Proofs.Typing.Lockstep

namespace RouteTypes

open List Check

/-- The same question in both checks. -/
inductive QueriesMatch (P : Pairing) (w : Sync) : Query → Query → Prop
  | valueOf {id id' : SymbolId} (h : w.SameSymbol id id') : QueriesMatch P w (.valueOf id) (.valueOf id')
  | declared {id id' : SymbolId} (h : w.SameSymbol id id') : QueriesMatch P w (.declared id) (.declared id')
  | written {node node' : Node} (h : P.Alike node node') : QueriesMatch P w (.written node) (.written node')
  | expression {node node' : Node} (h : P.Alike node node') : QueriesMatch P w (.expression node) (.expression node')
  | returnOf (id : SignatureId) : QueriesMatch P w (.returnOf id) (.returnOf id)
  | substituted {type type' : TypeId} (h : w.SameType type type') (substitution : SubstitutionId) :
      QueriesMatch P w (.substituted type substitution) (.substituted type' substitution)
  | members {type type' : TypeId} (h : w.SameType type type') : QueriesMatch P w (.members type) (.members type')

/-- From facts in step, the second check does this alone: it has a result, and the facts stay in step. -/
def Aside (P : Pairing) (w : Sync) {α : Type} (check' : Check α) : Prop :=
  ∀ (pending' : Pending) (f f' : Facts), InStep P w f f' →
    ∃ out' w', check' pending' f' = some out' ∧ w ≤ w' ∧ InStep P w' f out'.2

namespace Aside

variable {P : Pairing} {w : Sync} {α β : Type}

protected theorem pure (a : α) : Aside P w (pure a : Check α) :=
  fun _ _ f' hf => ⟨(a, f'), w, rfl, le_rfl, hf⟩

protected theorem bind {check' : Check α} {next' : α → Check β} (h : Aside P w check')
    (hnext : ∀ {w'} a, w ≤ w' → Aside P w' (next' a)) : Aside P w (check' >>= next') := by
  intro pending' f f' hf
  obtain ⟨⟨a, g'⟩, w', hcheck, hle, hg⟩ := h pending' f f' hf
  obtain ⟨out', w'', hrest, hle', hg'⟩ := hnext a hle pending' f g' hg
  exact ⟨out', w'', Option.bind_eq_some_iff.mpr ⟨_, hcheck, hrest⟩, hle.trans hle', hg'⟩

protected theorem get {next' : Facts → Check α} (h : ∀ {f f'}, InStep P w f f' → Aside P w (next' f')) :
    Aside P w (get >>= next') :=
  fun pending' f f' hf => h hf pending' f f' hf

protected theorem read {next' : Pending → Check α} (h : ∀ pending', Aside P w (next' pending')) :
    Aside P w (read >>= next') :=
  fun pending' f f' hf => h pending' pending' f f' hf

protected theorem withReader {change' : Pending → Pending} {check' : Check α} (h : Aside P w check') :
    Aside P w (withReader change' check') :=
  fun pending' f f' hf => h (change' pending') f f' hf

protected theorem modifyGet {note' : Facts → α × Facts}
    (h : ∀ {f f'}, InStep P w f f' → ∃ w', w ≤ w' ∧ InStep P w' f (note' f').2) : Aside P w (modifyGet note') := by
  intro _ f f' hf
  obtain ⟨w', hle, hstep⟩ := h hf
  exact ⟨note' f', w', rfl, hle, hstep⟩

/-- Behind two checks in step, the second may do more alone. -/
theorem behind {check check' other' : Check PUnit} (h : Follows P w Follows.Nothing check check')
    (hother : ∀ {w'}, w ≤ w' → Aside P w' other') :
    Follows P w Follows.Nothing check (check' >>= fun _ => other') := by
  intro pending pending' hpending f f' hf out hout
  obtain ⟨⟨_, g'⟩, hcheck, w', hle, hg, -⟩ := h _ _ hpending _ _ hf _ hout
  obtain ⟨out'', w'', hrest, hle', hg'⟩ := hother hle pending' _ _ hg
  exact ⟨out'', Option.bind_eq_some_iff.mpr ⟨_, hcheck, hrest⟩, w'', hle.trans hle', hg', trivial⟩

end Aside

/-- Two ways to answer questions that give the same answers; the second one has an answer for every record. -/
structure Asks (P : Pairing) (ask ask' : Ask) : Prop where
  same : ∀ {w : Sync} {query query' : Query}, QueriesMatch P w query query' →
    Follows P w Sync.SameType (ask query) (ask' query')
  record : ∀ {w : Sync} {record : Node}, P.Record record → Aside P w (ask' (.expression record))

namespace Asks

variable {P : Pairing} {w : Sync} {ask ask' : Ask} (hask : Asks P ask ask')

include hask

/-! ## Questions -/

theorem valueOf {id id' : SymbolId} (h : w.SameSymbol id id') :
    Follows P w Sync.SameType (ask (.valueOf id)) (ask' (.valueOf id')) :=
  hask.same (.valueOf h)

theorem declared {id id' : SymbolId} (h : w.SameSymbol id id') :
    Follows P w Sync.SameType (ask (.declared id)) (ask' (.declared id')) :=
  hask.same (.declared h)

theorem written {node node' : Node} (h : P.Alike node node') :
    Follows P w Sync.SameType (ask (.written node)) (ask' (.written node')) :=
  hask.same (.written h)

theorem expression {node node' : Node} (h : P.Alike node node') :
    Follows P w Sync.SameType (ask (.expression node)) (ask' (.expression node')) :=
  hask.same (.expression h)

theorem returnOf (id : SignatureId) : Follows P w Sync.SameType (ask (.returnOf id)) (ask' (.returnOf id)) :=
  hask.same (.returnOf id)

theorem substituted {type type' : TypeId} (h : w.SameType type type') (substitution : SubstitutionId) :
    Follows P w Sync.SameType (ask (.substituted type substitution)) (ask' (.substituted type' substitution)) :=
  hask.same (.substituted h substitution)

theorem members {type type' : TypeId} (h : w.SameType type type') :
    Follows P w Sync.SameType (ask (.members type)) (ask' (.members type')) :=
  hask.same (.members h)

/-! ## What is often asked -/

theorem expressionType {node node' : Option Node} (h : Option.Rel P.Alike node node') :
    Follows P w Sync.SameType (expressionType ask node) (expressionType ask' node') :=
  h.elim (fun _ _ hnode => hask.expression hnode) (.pure w.sameType_any)

theorem writtenType {node node' : Option Node} (h : Option.Rel P.Alike node node') :
    Follows P w Sync.SameType (writtenType ask node) (writtenType ask' node') :=
  h.elim (fun _ _ hnode => hask.written hnode) (.pure w.sameType_any)

theorem ascribedOr {node node' : Node} (h : P.Alike node node') {other other' : Check TypeId}
    (hother : Follows P w Sync.SameType other other') :
    Follows P w Sync.SameType (ascribedOr ask node other) (ascribedOr ask' node' other') := by
  unfold Check.ascribedOr
  exact h.ascribed?.elim (fun _ _ htype => hask.written htype) hother

theorem typeNamedBy {node node' : Option Node} (h : Option.Rel P.Alike node node') :
    Follows P w Sync.SameType (typeNamedBy ask node) (typeNamedBy ask' node') :=
  .get fun hf => (h.bind fun _ _ hnode => hf.declared? hnode.twin).elim (fun _ _ hid => hask.declared hid)
    (.pure w.sameType_any)

theorem membersOf {type type' : TypeId} (h : w.SameType type type') :
    Follows P w (fun w => Forall₂ w.SameSymbol) (membersOf ask type) (membersOf ask' type') :=
  .bind (hask.members h) fun _ htype => .get fun hf => .pure (hf.membersOf htype)

/-- The same signatures. -/
theorem callsOf {type type' : TypeId} (h : w.SameType type type') :
    Follows P w (fun _ => (· = ·)) (callsOf ask type) (callsOf ask' type') :=
  .bind (hask.members h) fun _ htype => .get fun hf =>
    .pure (congrArg (·.getD []) ((hf.object? htype).map_eq fun _ _ hobject => hobject.calls).symm)

theorem applied {generic generic' : Option SymbolId} (h : Option.Rel w.SameSymbol generic generic')
    {arg arg' : TypeId} (harg : w.SameType arg arg') :
    Follows P w Sync.SameType (applied ask generic arg) (applied ask' generic' arg') :=
  h.elim (fun _ _ hid => .bind (hask.declared hid) fun hle htype =>
    .modifyGet fun hf => hf.reference htype (.cons (harg.mono hle) .nil)) (.pure w.sameType_any)

theorem arrayOf {element element' : TypeId} (h : w.SameType element element') :
    Follows P w Sync.SameType (arrayOf ask element) (arrayOf ask' element') :=
  .get fun hf => hask.applied hf.arraySymbol h

theorem promiseOf {type type' : TypeId} (h : w.SameType type type') :
    Follows P w Sync.SameType (promiseOf ask type) (promiseOf ask' type') :=
  .get fun hf => hask.applied hf.promiseSymbol h

/-! ## Substitution -/

theorem substituteInObject {type type' : TypeId} (htype : w.SameType type type') {object object' : ObjectType}
    (hobject : ObjectsMatch w object object') (substitution : SubstitutionId) :
    Follows P w Sync.SameType (substituteInObject ask type object substitution)
      (substituteInObject ask' type' object' substitution) := by
  unfold Check.substituteInObject
  rw [hobject.kind, hobject.calls, hobject.constructs]
  refine .bind (.modifyGet fun hf => hf.addType (.object (.bare _ hobject.symbol))) fun hle₁ hcopy => ?_
  refine .bind (.modify fun hf => hf.setSubstituted (htype.mono hle₁) substitution hcopy) fun hle₂ _ => ?_
  have hobject := hobject.mono (hle₁.trans hle₂)
  refine .bind (.modifyGet fun hf => hf.copySymbols substitution hobject.members) fun hle₃ hmembers => ?_
  refine .bind (.modifyGet fun hf => hf.copySignatures substitution _) fun hle₄ hcalls => ?_
  refine .bind (.modifyGet fun hf => hf.copySignatures substitution _) fun hle₅ hconstructs => ?_
  have hobject := hobject.mono (hle₃.trans (hle₄.trans hle₅))
  refine .bind (.optionMapM hobject.stringIndex fun hindex => hask.substituted hindex substitution)
    fun hle₆ hindex => ?_
  have hcopy := hcopy.mono (hle₂.trans (hle₃.trans (hle₄.trans (hle₅.trans hle₆))))
  refine .bind (.modify fun hf => hf.modifyObject hcopy fun known known' hknown => { hknown with
    members := sameSymbols_mono hmembers (hle₄.trans (hle₅.trans hle₆))
    calls := hcalls.symm
    constructs := hconstructs.symm
    stringIndex := hindex
    typeParams := (hobject.mono hle₆).typeParams }) fun hle₇ _ => ?_
  exact .pure (hcopy.mono hle₇)

theorem substitute {type type' : TypeId} (htype : w.SameType type type') (substitution : SubstitutionId) :
    Follows P w Sync.SameType (substitute ask type substitution) (substitute ask' type' substitution) := by
  refine .get fun {f f'} hf => ?_
  have hdata := hf.typeData htype
  generalize f.typeData type = data at hdata ⊢
  generalize f'.typeData type' = data' at hdata ⊢
  cases hdata with
  | param hparam => exact .get fun hf => .pure (((hf.substitution substitution).get? hparam).getD htype)
  | union hmembers =>
    exact .bind (.mapM kept_type kept_type hmembers fun _ hmember => hask.substituted hmember substitution)
      fun _ hmembers => .modifyGet fun hf => hf.union hmembers
  | @object object object' hobject =>
    dsimp only
    rw [hobject.kind]
    cases object.kind with
    | reference =>
      refine .bind (.mapM kept_type kept_type hobject.typeArguments fun _ harg => hask.substituted harg substitution)
        fun hle hargs => ?_
      refine hobject.target.elim (fun target target' htarget => ?_) (.pure (htype.mono hle))
      exact .ite (hargs.eq_iff Sync.SameType.eq_iff (hobject.mono hle).typeArguments).symm (.pure (htype.mono hle))
        (.modifyGet fun hf => hf.reference (htarget.mono hle) hargs)
    | classType | interface =>
      dsimp only
      refine .ite (by rw [hobject.typeParams.isEmpty_eq]) (.pure htype) ?_
      refine .bind (.mapM kept_symbol kept_type hobject.typeParams fun _ hparam =>
        .bind (.modifyGet fun hf => hf.paramType hparam) fun _ hown => hask.substituted hown substitution)
        fun hle hargs => .modifyGet fun hf => hf.reference (htype.mono hle) hargs
    | anonymous | constructor => exact hask.substituteInObject htype hobject substitution
  | _ => exact .pure htype

theorem substitutedOnce {type type' : TypeId} (htype : w.SameType type type') (substitution : SubstitutionId) :
    Follows P w Sync.SameType (Check.substituted ask type substitution) (Check.substituted ask' type' substitution) := by
  refine .get fun hf => ?_
  have hkey : Both w.SameType (· = ·) (type, substitution) (type', substitution) := ⟨htype, rfl⟩
  refine (hf.substitutedTypes.get? w.substitutedKeys hkey).elim (fun _ _ hknown => .pure hknown) ?_
  refine .bind (hask.substitute htype substitution) fun hle hresult => ?_
  exact .bind (.modify fun hf => hf.setSubstituted (htype.mono hle) substitution hresult) fun hle' _ =>
    .pure (hresult.mono hle')

theorem fillMembers {type type' : TypeId} (htype : w.SameType type type') :
    Follows P w Sync.SameType (fillMembers ask type) (fillMembers ask' type') := by
  refine .get fun {f f'} hf => ?_
  refine (hf.object? htype).elim (fun object object' hobject => ?_) (.pure htype)
  obtain ⟨kind, symbol, members, calls, constructs, index, typeParams, target, args, hasMembers⟩ := object
  obtain ⟨kind', symbol', members', calls', constructs', index', typeParams', target', args', hasMembers'⟩ := object'
  obtain rfl : hasMembers' = hasMembers := hobject.hasMembers
  have hargs : Forall₂ w.SameType args args' := hobject.typeArguments
  cases hasMembers' with
  | true => exact Option.Rel.elim (a := target) (b := target') hobject.target (fun _ _ _ => .pure htype) (.pure htype)
  | false =>
    refine Option.Rel.elim (a := target) (b := target') hobject.target (fun target target' htarget => ?_) (.pure htype)
    refine .bind (.modify fun hf => hf.modifyObject htype fun _ _ hknown => { hknown with hasMembers := rfl })
      fun hle₁ _ => .get fun hf => ?_
    have hparams := ((hf.object? (htarget.mono hle₁)).map fun _ _ hobject => hobject.typeParams).getD .nil
    refine .bind (.modifyGet fun hf => hf.shareSubstitution hparams (sameTypes_mono hargs hle₁))
      fun {w₂ substitution _} hle₂ hsame => .get fun hf => ?_
    obtain rfl := hsame
    have htarget := htarget.mono (hle₁.trans hle₂)
    refine .bind (.modifyGet fun hf' => hf'.copySymbols substitution (hf.membersOf htarget)) fun hle₃ hmembers =>
      .get fun hf => ?_
    refine .bind (.optionMapM (hf.stringIndexOf (htarget.mono hle₃)) fun hindex =>
      hask.substituted hindex substitution) fun hle₄ hindex => ?_
    have htype := htype.mono (hle₁.trans (hle₂.trans (hle₃.trans hle₄)))
    exact .bind (.modify fun hf => hf.modifyObject htype fun _ _ hknown => { hknown with
      members := sameSymbols_mono hmembers hle₄
      stringIndex := hindex }) fun hle₅ _ => .pure (htype.mono hle₅)

/-! ## Written types -/

theorem indexMember {node node' : Node} (hnode : P.Alike node node') {table table' : MemberTable}
    (htable : MembersMatch w table table') :
    Follows P w MembersMatch (indexMember ask node table) (indexMember ask' node' table') := by
  unfold Check.indexMember
  exact hnode.ascribed?.elim (fun _ _ hascribed => .bind (hask.written hascribed) fun hle hindex =>
    .pure { htable.mono hle with stringIndex := .some hindex }) (.pure htable)

theorem typeMember {node node' : Node} (hnode : P.Alike node node') {table table' : MemberTable}
    (htable : MembersMatch w table table') :
    Follows P w MembersMatch (typeMember ask table node) (typeMember ask' table' node') := by
  unfold Check.typeMember
  rw [hnode.kind, hnode.isOptional]
  split
  · exact .modifyGet fun hf => hf.declareMember _ _ hnode htable
  · exact .modifyGet fun hf => hf.declareMember _ _ hnode htable
  · exact hask.indexMember hnode htable
  · exact .pure htable

theorem objectType {node node' : Node} (hnode : P.Alike node node') :
    Follows P w Sync.SameType (objectType ask node) (objectType ask' node') :=
  .bind (.foldlM (kept_const P.Alike) hnode.typeMembers (fun _ hmember => hask.typeMember hmember)
    (.empty w)) fun _ htable => .modifyGet fun hf => hf.addType (.object
      { ObjectsMatch.bare .anonymous .none with members := htable.members, stringIndex := htable.stringIndex })

omit hask in
theorem checkArgCount {node node' : Node} (hnode : node'.source = node.source) (name : String)
    (span span' : Text.Span) {params params' : List SymbolId} (hparams : Forall₂ w.SameSymbol params params')
    (found : Nat) : Follows P w Follows.Nothing (checkArgCount node name span params found)
      (checkArgCount node' name span' params' found) := by
  refine .get fun {f f'} hf => ?_
  have hrequired : params'.countP (isRequired f') = params.countP (isRequired f) :=
    hparams.countP_eq fun param param' hparam => by
      unfold isRequired
      exact (hf.symbol hparam).declarations.head?.elim (fun _ _ hnode => congrArg not (hnode.hasToken rfl)) rfl
  dsimp only
  rw [hrequired, hparams.length_eq]
  exact .ite Iff.rfl (.modify fun hf => hf.report hnode _ _ _ _) (.pure trivial)

theorem defaultOf {param param' : SymbolId} (hparam : w.SameSymbol param param') :
    Follows P w Sync.SameType (defaultOf ask param) (defaultOf ask' param') :=
  .get fun hf => hask.writtenType ((hf.symbol hparam).declarations.head?.bind fun _ _ hnode => hnode.defaultType?)

theorem fillArgs {params params' : List SymbolId} (hparams : Forall₂ w.SameSymbol params params')
    {args args' : List TypeId} (hargs : Forall₂ w.SameType args args') :
    Follows P w (fun w => Forall₂ w.SameType) (fillArgs ask params args) (fillArgs ask' params' args') := by
  unfold Check.fillArgs
  rw [← hargs.length_eq, ← hparams.length_eq]
  exact .bind (.mapM kept_symbol kept_type (forall₂_drop _ hparams) fun _ hparam => hask.defaultOf hparam)
    fun hle hdefaults => .pure (.append (forall₂_take _ (sameTypes_mono hargs hle)) hdefaults)

theorem aliasWith {symbol symbol' : SymbolId} (hsymbol : w.SameSymbol symbol symbol') {params params' : List SymbolId}
    (hparams : Forall₂ w.SameSymbol params params') {args args' : List TypeId}
    (hargs : Forall₂ w.SameType args args') :
    Follows P w Sync.SameType (aliasWith ask symbol params args) (aliasWith ask' symbol' params' args') := by
  refine .get fun hf => ?_
  have hkey : Both w.SameSymbol (Forall₂ w.SameType) (symbol, args) (symbol', args') := ⟨hsymbol, hargs⟩
  refine (hf.aliasInstances.get? w.aliasKeys hkey).elim (fun _ _ hknown => .pure hknown) ?_
  refine .bind (hask.declared hsymbol) fun hle₁ hgeneric => ?_
  refine .bind (.modifyGet fun hf => hf.shareSubstitution (sameSymbols_mono hparams hle₁) (sameTypes_mono hargs hle₁))
    fun {_ substitution _} hle₂ hsame => ?_
  obtain rfl := hsame
  refine .bind (hask.substituted (hgeneric.mono hle₂) substitution) fun {w₃ _ _} hle₃ htype => ?_
  have hle := hle₁.trans (hle₂.trans hle₃)
  have hkey : Both w₃.SameSymbol (Forall₂ w₃.SameType) (symbol, args) (symbol', args') :=
    ⟨hsymbol.mono hle, sameTypes_mono hargs hle⟩
  exact .bind (.modify fun hf => { hf with aliasInstances := hf.aliasInstances.insert w₃.aliasKeys hkey htype })
    fun hle₄ _ => .pure (htype.mono hle₄)

theorem namedType {node node' : Node} (hnode : node'.source = node.source) (name : String) (span span' : Text.Span)
    {symbol symbol' : SymbolId} (hsymbol : w.SameSymbol symbol symbol') {args args' : List TypeId}
    (hargs : Forall₂ w.SameType args args') :
    Follows P w Sync.SameType (namedType ask node name span symbol args)
      (namedType ask' node' name span' symbol' args') := by
  have hobject : Follows P w Sync.SameType (do
      let generic ← ask (.declared symbol)
      let params := (← get).declaredTypeParams symbol
      Check.checkArgCount node name span params args.length
      if params.isEmpty then return generic
      else modifyGet (Facts.reference generic (← Check.fillArgs ask params args))) (do
      let generic ← ask' (.declared symbol')
      let params := (← get).declaredTypeParams symbol'
      Check.checkArgCount node' name span' params args'.length
      if params.isEmpty then return generic
      else modifyGet (Facts.reference generic (← Check.fillArgs ask' params args'))) := by
    rw [← hargs.length_eq]
    refine .bind (hask.declared hsymbol) fun hle₁ hgeneric => .get fun hf => ?_
    have hparams := hf.declaredTypeParams (hsymbol.mono hle₁)
    refine .bind (checkArgCount hnode name span span' hparams _) fun hle₂ _ => ?_
    refine .ite (by rw [hparams.isEmpty_eq]) (.pure (hgeneric.mono hle₂)) ?_
    exact .bind (hask.fillArgs (sameSymbols_mono hparams hle₂) (sameTypes_mono hargs (hle₁.trans hle₂)))
      fun hle₃ hargs => .modifyGet fun hf => hf.reference (hgeneric.mono (hle₂.trans hle₃)) hargs
  refine .get fun hf => ?_
  rw [(hf.symbol hsymbol).kind]
  split
  · exact hask.declared hsymbol
  · exact hobject
  · exact hobject
  · rw [← hargs.length_eq]
    refine .get fun hf => ?_
    have hparams := hf.declaredTypeParams hsymbol
    refine .bind (checkArgCount hnode name span span' hparams _) fun hle₁ _ => ?_
    refine .ite (by rw [hparams.isEmpty_eq]) (hask.declared (hsymbol.mono hle₁)) ?_
    have hparams := sameSymbols_mono hparams hle₁
    exact .bind (hask.fillArgs hparams (sameTypes_mono hargs hle₁)) fun hle₂ hargs =>
      hask.aliasWith (hsymbol.mono (hle₁.trans hle₂)) (sameSymbols_mono hparams hle₂) hargs
  · exact .pure w.sameType_any

theorem referredType {node node' : Node} (hnode : P.Alike node node') :
    Follows P w Sync.SameType (referredType ask node) (referredType ask' node') := by
  unfold Check.referredType
  rw [hnode.nameRef?.map_eq fun _ _ href => href.refText, hnode.typeArgs.isEmpty_eq]
  dsimp only
  generalize hname : (node.nameRef?.map (·.refText)).getD "" = name
  generalize hword : (if node.typeArgs.isEmpty then TypeId.ofWord? name else none) = word
  cases word with
  | some primitive =>
    have hprimitive : TypeId.ofWord? name = some primitive := by
      split at hword
      · exact hword
      · cases hword
    exact .pure (w.sameType_word hprimitive)
  | none =>
    refine .get fun hf => (hf.lookup hnode.twin .type _).elim (fun symbol symbol' hsymbol => ?_) ?_
    · exact .bind (.mapM (kept_const P.Alike) kept_type hnode.typeArgs fun _ harg => hask.written harg)
        fun hle hargs => hask.namedType hnode.source _ _ _ (hsymbol.mono hle) hargs
    · exact .reported hnode.source

omit hask in
theorem constantType {node node' : Node} (hnode : P.Alike node node') :
    Follows P w Sync.SameType (constantType node) (constantType node') := by
  unfold Check.constantType
  refine (Option.Rel.of_map_eq hnode.firstToken?).elim (fun found found' htoken => ?_) (.pure w.sameType_any)
  dsimp only
  rw [htoken]
  split
  · exact .modifyGet fun hf => hf.literalType _
  · exact .modifyGet fun hf => hf.literalType _
  · exact .modifyGet fun hf => hf.literalType _
  · exact .modifyGet fun hf => hf.literalType _
  · exact .pure w.sameType_any

omit hask in
theorem functionType {declarations declarations' : List Node} (h : Forall₂ P.Alike declarations declarations') :
    Follows P w Sync.SameType (functionType declarations) (functionType declarations') :=
  .bind (.modifyGet fun hf => hf.signaturesOf h) fun _ hcalls => .modifyGet fun hf => hf.addType (.object
    { ObjectsMatch.bare .anonymous .none with calls := hcalls.symm })

theorem readType {node node' : Node} (hnode : P.Alike node node') :
    Follows P w Sync.SameType (readType ask node) (readType ask' node') := by
  unfold Check.readType
  rw [hnode.kind]
  split
  · exact hask.referredType hnode
  · exact .bind (hask.writtenType hnode.type?) fun _ helement => hask.arrayOf helement
  · exact .bind (.mapM (kept_const P.Alike) kept_type hnode.types fun _ hmember => hask.written hmember)
      fun _ hmembers => .modifyGet fun hf => hf.union hmembers
  · exact hask.objectType hnode
  · exact functionType (.cons hnode .nil)
  · exact hask.writtenType hnode.type?
  · exact hask.typeNamedBy
      (hnode.find?_outwards (p := fun kind => kind == .classDecl || kind == .interfaceDecl) rfl)
  · exact constantType hnode
  · rw [hnode.keyword?]
    split
    · exact .pure w.sameType_void
    · exact .pure w.sameType_null
    · exact .pure w.sameType_any
  · exact .pure w.sameType_any

theorem writtenOnce {node node' : Node} (hnode : P.Alike node node') :
    Follows P w Sync.SameType (Check.written ask node) (Check.written ask' node') := by
  refine .get fun hf => ?_
  refine (hf.writtenTypes.get? P.nodeKeys hnode.twin.sameId).elim (fun _ _ hknown => .pure hknown) ?_
  refine .bind (hask.readType hnode) fun _ htype => ?_
  exact .bind (.modify fun hf => { hf with
    writtenTypes := hf.writtenTypes.insert P.nodeKeys hnode.twin.sameId htype }) fun hle _ => .pure (htype.mono hle)

/-! ## Declared types -/

theorem instanceMember {node node' : Node} (hnode : P.Alike node node') {table table' : MemberTable}
    (htable : MembersMatch w table table') :
    Follows P w MembersMatch (instanceMember ask table node) (instanceMember ask' table' node') := by
  unfold Check.instanceMember
  rw [hnode.kind, hnode.isStatic, hnode.isOptional]
  split
  · exact .ite Iff.rfl (.pure htable) (.modifyGet fun hf => hf.declareMember _ _ hnode htable)
  · exact .ite Iff.rfl (.pure htable) (.modifyGet fun hf => hf.declareMember _ _ hnode htable)
  · refine .foldlM (kept_const P.Alike) (hnode.params.filter fun _ _ hparam => hparam.isParameterProperty)
      (fun _ hparam htable => ?_) htable
    rw [hparam.isOptional]
    exact .modifyGet fun hf => hf.declareMember _ _ hparam htable
  · exact hask.indexMember hnode htable
  · exact .pure htable

theorem interfaceBody {node node' : Node} (hnode : P.Alike node node') {table table' : MemberTable}
    (htable : MembersMatch w table table') :
    Follows P w MembersMatch (interfaceBody ask table node) (interfaceBody ask' table' node') := by
  unfold Check.interfaceBody
  refine hnode.typeLiteral?.elim (fun body body' hbody => ?_) (.pure htable)
  refine .bind (hask.written hbody) fun hle₁ htype => .bind (hask.membersOf htype) fun hle₂ hadded => ?_
  have htable := htable.mono (hle₁.trans hle₂)
  exact .bind (.modifyGet fun hf => hf.pushMembers htable.members hadded) fun hle₃ hmembers => .get fun hf =>
    .pure ⟨hmembers, (htable.mono hle₃).stringIndex.or (hf.stringIndexOf (htype.mono (hle₂.trans hle₃)))⟩

theorem inheritFrom {base base' : Node} (hbase : P.Alike base base') {table table' : MemberTable}
    (htable : MembersMatch w table table') :
    Follows P w MembersMatch (inheritFrom ask table base) (inheritFrom ask' table' base') :=
  .bind (hask.written hbase) fun hle₁ htype => .bind (hask.membersOf htype) fun hle₂ hinherited => .get fun hf =>
    have htable := htable.mono (hle₁.trans hle₂)
    .pure ⟨hf.inheritMembers hinherited htable.members, htable.stringIndex.or (hf.stringIndexOf (htype.mono hle₂))⟩

theorem classTable {declarations declarations' : List Node} (h : Forall₂ P.Alike declarations declarations') :
    Follows P w MembersMatch (classTable ask declarations) (classTable ask' declarations') := by
  refine .bind (.foldlM (kept_const P.Alike) (h.flatMap fun _ _ hnode => hnode.classMembers)
    (fun _ hmember => hask.instanceMember hmember) (.empty w)) fun _ htable => ?_
  exact (h.findSome? fun _ _ hnode => hnode.extended.head?).elim (fun _ _ hbase => hask.inheritFrom hbase htable)
    (.pure htable)

theorem interfaceTable {declarations declarations' : List Node} (h : Forall₂ P.Alike declarations declarations') :
    Follows P w MembersMatch (interfaceTable ask declarations) (interfaceTable ask' declarations') :=
  .bind (.foldlM (kept_const P.Alike) h (fun _ hnode => hask.interfaceBody hnode) (.empty w)) fun _ htable =>
    .foldlM (kept_const P.Alike) (h.flatMap fun _ _ hnode => hnode.extended) (fun _ hbase => hask.inheritFrom hbase)
      htable

omit hask in
theorem setDeclaredType {symbol symbol' : SymbolId} (hsymbol : w.SameSymbol symbol symbol') {type type' : TypeId}
    (htype : w.SameType type type') :
    Follows P w Follows.Nothing (setDeclaredType symbol type) (setDeclaredType symbol' type') :=
  .modify fun hf => { hf with declaredTypes := hf.declaredTypes.insert w.symbolKeys' hsymbol htype }

omit hask in
theorem declareObject {symbol symbol' : SymbolId} (hsymbol : w.SameSymbol symbol symbol') (kind : ObjectKind)
    {table table' : List Node → Check MemberTable}
    (htable : ∀ {w : Sync} {declarations declarations' : List Node}, Forall₂ P.Alike declarations declarations' →
      Follows P w MembersMatch (table declarations) (table' declarations')) :
    Follows P w Sync.SameType (declareObject symbol kind table) (declareObject symbol' kind table') := by
  refine .get fun hf => ?_
  have hparams := hf.declaredTypeParams hsymbol
  refine .bind (.modifyGet fun hf => hf.addType (.object
    { ObjectsMatch.bare kind (.some hsymbol) with typeParams := hparams })) fun hle₁ htype => ?_
  refine .bind (setDeclaredType (hsymbol.mono hle₁) htype) fun hle₂ _ => .get fun hf => ?_
  refine .bind (htable (hf.symbol (hsymbol.mono (hle₁.trans hle₂))).declarations) fun hle₃ hfilled => ?_
  have htype := htype.mono (hle₂.trans hle₃)
  exact .bind (.modify fun hf => hf.modifyObject htype fun _ _ hknown => { hknown with
    members := hfilled.members
    stringIndex := hfilled.stringIndex }) fun hle₄ _ => .pure (htype.mono hle₄)

theorem aliasType {symbol symbol' : SymbolId} (hsymbol : w.SameSymbol symbol symbol') :
    Follows P w Sync.SameType (aliasType ask symbol) (aliasType ask' symbol') := by
  refine .read fun hpending => ?_
  refine .ite (by rw [hpending.aliases.contains_eq Sync.SameSymbol.eq_iff hsymbol]) (.pure w.sameType_any) ?_
  refine .get fun hf => .bind (.withReader (fun hpending => { hpending with aliases := .cons hsymbol hpending.aliases })
    (hask.writtenType ((hf.symbol hsymbol).declarations.head?.bind fun _ _ hnode => hnode.type?))) fun hle htype => ?_
  refine .modifyGet fun {f f'} hf => ?_
  obtain ⟨hfirst, htable⟩ := hf.declaredTypes.keepFirst (Sync.symbolKeys' _) (hsymbol.mono hle) htype
  exact .here { hf with declaredTypes := htable } hfirst

theorem declaredOnce {symbol symbol' : SymbolId} (hsymbol : w.SameSymbol symbol symbol') :
    Follows P w Sync.SameType (Check.declared ask symbol) (Check.declared ask' symbol') := by
  refine .get fun hf => ?_
  refine (hf.declaredTypes.get? w.symbolKeys' hsymbol).elim (fun _ _ hknown => .pure hknown) (.get fun hf => ?_)
  rw [(hf.symbol hsymbol).kind]
  split
  · refine .bind (.modifyGet fun hf => hf.paramType hsymbol) fun hle htype => ?_
    exact .bind (setDeclaredType (hsymbol.mono hle) htype) fun hle' _ => .pure (htype.mono hle')
  · exact declareObject hsymbol _ hask.classTable
  · exact declareObject hsymbol _ hask.interfaceTable
  · exact hask.aliasType hsymbol
  · exact .pure w.sameType_any

end Asks

end RouteTypes
