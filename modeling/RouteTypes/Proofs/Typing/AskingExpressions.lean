-- Questions about expressions in step, and all questions together. The second call may have a record among its
-- arguments that the first does not have: it is asked for its type, and nothing else comes of it.
import RouteTypes.Proofs.Typing.AskingValues

namespace RouteTypes

open List Check

namespace Asks

variable {P : Pairing} {w : Sync} {ask ask' : Ask} (hask : Asks P ask ask')

include hask

/-! ## Items -/

omit hask in
theorem spreadOrItem? {item item' : Node} (h : P.Alike item item') :
    Option.Rel P.Alike (spreadOrItem? item) (spreadOrItem? item') := by
  unfold Check.spreadOrItem?
  rw [h.kind]
  split
  · exact h.expression?
  · exact .some h

theorem elementType {item item' : Node} (h : P.Alike item item') :
    Follows P w Sync.SameType (elementType ask item) (elementType ask' item') := by
  unfold Check.elementType
  refine .ite (by rw [h.kind]) (.bind (hask.expressionType h.expression?) fun {w' _ _} _ htype => .get fun hf => ?_)
    (hask.expression h)
  exact .pure ((hf.arrayElement? htype).getD w'.sameType_any)

theorem arrayLiteral {node node' : Node} (hnode : P.Alike node node') :
    Follows P w Sync.SameType (arrayLiteral ask node) (arrayLiteral ask' node') := by
  refine .bind (.mapM (kept_const P.Alike) kept_type hnode.elements fun _ hitem => hask.elementType hitem)
    fun {w' _ _} _ htypes => ?_
  dsimp only
  refine .ite (by rw [htypes.isEmpty_eq]) ?_ ?_
  · exact .bind (.pure w'.sameType_any) fun _ helement => hask.arrayOf helement
  · exact .bind (.modifyGet fun hf => hf.union htypes) fun _ helement => hask.arrayOf helement

theorem literalMember {node node' : Node} (hnode : P.Alike node node') {members members' : List SymbolId}
    (hmembers : Forall₂ w.SameSymbol members members') :
    Follows P w (fun w => Forall₂ w.SameSymbol) (literalMember ask members node) (literalMember ask' members' node') := by
  unfold Check.literalMember
  rw [hnode.kind]
  split
  · exact .bind (hask.expressionType hnode.expression?) fun hle htype => .bind (hask.membersOf htype)
      fun hle' hadded => .get fun hf => .pure (hf.setMembers (sameSymbols_mono hmembers (hle.trans hle')) hadded)
  · rw [hnode.nameRef?.map_eq fun _ _ href => href.refText]
    exact .bind (.modifyGet fun hf => hf.addNamedMember _ _ _ hnode) fun hle hsymbol => .get fun hf =>
      .pure (hf.setMember (sameSymbols_mono hmembers hle) hsymbol)
  · exact .bind (.modifyGet fun hf => hf.addMember _ _ hnode) fun hle hsymbol => .get fun hf =>
      .pure (hf.setMember (sameSymbols_mono hmembers hle) hsymbol)

theorem objectLiteral {node node' : Node} (hnode : P.Alike node node') :
    Follows P w Sync.SameType (objectLiteral ask node) (objectLiteral ask' node') :=
  .bind (.foldlM (kept_const P.Alike) hnode.objectMembers (fun _ hmember => hask.literalMember hmember) .nil)
    fun _ hmembers => .modifyGet fun hf => hf.addType (.object
      { ObjectsMatch.bare .anonymous .none with members := hmembers })

/-! ## Names -/

omit hask in
theorem resolveTo {node node' : Node} (hnode : P.Alike node node') {symbol symbol' : SymbolId}
    (hsymbol : w.SameSymbol symbol symbol') :
    Follows P w Follows.Nothing (resolveTo node symbol) (resolveTo node' symbol') :=
  .modify fun hf => { hf with resolutions := hf.resolutions.insert P.nodeKeys hnode.twin.sameId hsymbol }

theorem nameType {node node' : Node} (hnode : P.Alike node node') :
    Follows P w Sync.SameType (nameType ask node) (nameType ask' node') := by
  unfold Check.nameType
  rw [hnode.refText]
  refine .get fun hf => (hf.lookup hnode.twin .value _).elim (fun _ _ hsymbol => ?_) ?_
  · exact .bind (resolveTo hnode hsymbol) fun hle _ => hask.valueOf (hsymbol.mono hle)
  · dsimp only
    split
    · exact .pure w.sameType_undefined
    · exact .pure w.sameType_number
    · exact .pure w.sameType_number
    · exact .reported hnode.source

omit hask in
theorem thisOwner? {node node' : Node} (hnode : P.Alike node node') :
    Option.Rel P.Alike (thisOwner? node) (thisOwner? node') :=
  (hnode.find?_around (p := fun kind => kind == .functionExpr || kind == .functionDecl || kind == .classDecl)
    rfl).filter (fun _ _ houter => by rw [houter.kind]) fun _ _ houter _ => houter

theorem propertyType {node node' : Node} (hnode : P.Alike node node') :
    Follows P w Sync.SameType (propertyType ask node) (propertyType ask' node') := by
  refine .bind (hask.expressionType hnode.expression?) fun {w' _ _} _ hreceiver => ?_
  rw [hnode.memberName?]
  cases node.memberName? with
  | none => exact .pure w'.sameType_any
  | some name => exact hask.accessedType hnode.source _ _ hreceiver name fun _ hmember => resolveTo hnode hmember

theorem indexedType {node node' : Node} (hnode : P.Alike node node') :
    Follows P w Sync.SameType (indexedType ask node) (indexedType ask' node') := by
  refine .bind (hask.expressionType (hnode.expressionAt? 0)) fun _ hreceiver => ?_
  refine .bind (hask.expressionType (hnode.expressionAt? 1)) fun {w' _ _} hle _ => ?_
  have hreceiver := hreceiver.mono hle
  refine .ite (by rw [hreceiver.beq_eq w'.sameType_string]) (.pure w'.sameType_string) (.get fun hf => ?_)
  refine (hf.arrayElement? hreceiver).elim (fun _ _ helement => .pure helement) ?_
  exact .bind (hask.members hreceiver) fun {w'' _ _} _ htype => .get fun hf =>
    .pure ((hf.stringIndexOf htype).getD w''.sameType_any)

/-! ## Calls -/

theorem checkArgs {node node' : Node} (hnode : P.Alike node node') :
    Follows P w Follows.Nothing (checkArgs ask node.args) (checkArgs ask' node'.args) := by
  obtain ⟨own, put, hargs, hown, hput⟩ := hnode.args
  have hfollows : Follows P w Follows.Nothing (Check.checkArgs ask node.args) (Check.checkArgs ask' own) :=
    .forM (kept_const P.Alike) hown fun _ harg =>
      .bind (hask.expressionType (spreadOrItem? harg)) fun _ _ => .pure trivial
  rcases hput with rfl | ⟨record, rfl, hrecord⟩
  · rw [hargs, List.append_nil]
    exact hfollows
  · have happend : Check.checkArgs ask' (own ++ [record]) =
        Check.checkArgs ask' own >>= fun _ => Check.checkArgs ask' [record] := by
      simp only [Check.checkArgs, List.forM_eq_forM, List.forM_append]
    have hitem : Check.spreadOrItem? record = some record := by
      rw [Check.spreadOrItem?, hrecord.kind]
      rfl
    rw [hargs, happend]
    refine Aside.behind hfollows fun _ => ?_
    have hone : Check.checkArgs ask' [record] =
        (ask' (.expression record) >>= fun _ => pure ()) >>= fun _ => (pure ⟨⟩ : Check PUnit) := by
      show ((Check.expressionType ask' (Check.spreadOrItem? record) >>= fun _ => pure ()) >>=
        fun _ => (pure ⟨⟩ : Check PUnit)) = _
      rw [hitem]
      rfl
    rw [hone]
    exact .bind (.bind (hask.record hrecord) fun _ _ => .pure _) fun _ _ => .pure _

omit hask in
theorem padded {types types' : List TypeId} (h : Forall₂ w.SameType types types') (length : Nat) :
    Forall₂ w.SameType (padded types length) (padded types' length) := by
  rw [Check.padded, Check.padded, h.length_eq]
  exact (forall₂_take _ h).append (forall₂_same.mpr fun _ hany => List.eq_of_mem_replicate hany ▸ w.sameType_any)

theorem withTypeArgs (signature : SignatureId) {args args' : List Node} (hargs : Forall₂ P.Alike args args') :
    Follows P w (fun _ => (· = ·)) (withTypeArgs ask signature args) (withTypeArgs ask' signature args') := by
  refine .get fun hf => ?_
  have hparams := (hf.signature signature).typeParams
  dsimp only
  rw [hparams.isEmpty_eq, ← hparams.length_eq]
  refine .ite Iff.rfl (.pure rfl) ?_
  refine .bind (.mapM (kept_const P.Alike) kept_type hargs fun _ harg => hask.written harg) fun hle htypes => ?_
  refine .bind (.modifyGet fun hf => hf.shareSubstitution (sameSymbols_mono hparams hle) (padded htypes _))
    fun {_ substitution _} _ hsame => ?_
  obtain rfl := hsame
  exact .modifyGet fun hf => hf.copySignature substitution signature

theorem giveType {param param' : Node} (hparam : P.Alike param param') {expected expected' : SymbolId}
    (hexpected : w.SameSymbol expected expected') :
    Follows P w Follows.Nothing (giveType ask param expected) (giveType ask' param' expected') := by
  unfold Check.giveType
  refine .ite (by rw [hparam.ascription?.isSome_eq, hparam.expression?.isSome_eq]) (.pure trivial) (.get fun hf => ?_)
  refine .ite (by rw [hf.contextual.contains_eq P.nodeKeys hparam.twin.sameId]) (.pure trivial) ?_
  exact .bind (hask.valueOf hexpected) fun _ htype => .modify fun hf => { hf with
    contextual := hf.contextual.insert P.nodeKeys hparam.twin.sameId htype }

theorem giveTypes {arg arg' : Node} (harg : P.Alike arg arg') {param param' : SymbolId}
    (hparam : w.SameSymbol param param') :
    Follows P w Follows.Nothing (giveTypes ask arg param) (giveTypes ask' arg' param') := by
  have hfunction := harg.withoutParens
  unfold Check.giveTypes
  refine .ite (by rw [hfunction.kind]) (.bind (hask.valueOf hparam) fun _ htype => ?_) (.pure trivial)
  refine .bind (hask.callsOf htype) fun {_ calls _} _ hcalls => ?_
  obtain rfl := hcalls
  cases calls with
  | nil => exact .pure trivial
  | cons callback _ =>
    refine .get fun hf => ?_
    have hparams := (hfunction.childrenOf (p := (· == .paramList)) rfl).flatMap fun _ _ hlist => hlist.paramsOf
    have hpairs := hparams.zip (hf.signature callback).params
    exact .forM (Kept.both (kept_const P.Alike) kept_symbol) hpairs fun _ hpair => hask.giveType hpair.1 hpair.2

omit hask in
/-- Nothing but a function is given types. -/
theorem giveTypes_record {record : Node} (hrecord : P.Record record) (param : SymbolId) :
    Check.giveTypes ask' record param = pure ⟨⟩ := by
  have hparens : record.withoutParens = record := by
    rcases record with ⟨source, kind, span, parts, parent⟩
    obtain rfl : kind = .objectLiteral := hrecord.kind
    rfl
  rw [Check.giveTypes, hparens]
  dsimp only
  rw [hrecord.kind]
  rfl

/-- A record behind the arguments takes nothing from the parameter that it stands for. -/
theorem giveAll {put : List Node} (hput : put = [] ∨ ∃ record, put = [record] ∧ P.Record record) :
    ∀ {w : Sync} {args own : List Node} {params params' : List SymbolId}, Forall₂ P.Alike args own →
      Forall₂ w.SameSymbol params params' → Follows P w Follows.Nothing
        ((args.zip params).forM fun (arg, param) => Check.giveTypes ask arg param)
        (((own ++ put).zip params').forM fun (arg, param) => Check.giveTypes ask' arg param)
  | w, [], _, _, params', .nil, _ => by
    rcases hput with rfl | ⟨record, rfl, hrecord⟩
    · exact .pure trivial
    · cases params' with
      | nil => exact .pure trivial
      | cons param rest =>
        have hnothing : (([] ++ [record]).zip (param :: rest)).forM (fun (arg, param) => Check.giveTypes ask' arg param) =
            (pure ⟨⟩ : Check PUnit) := by
          show (Check.giveTypes ask' record param >>= fun _ => (pure ⟨⟩ : Check PUnit)) = _
          rw [giveTypes_record hrecord]
          rfl
        rw [hnothing]
        exact .pure trivial
  | _, _ :: _, _ :: _, _, _, .cons _ _, .nil => .pure trivial
  | _, _ :: _, _ :: _, _, _, .cons harg hargs, .cons hparam hparams =>
    .bind (hask.giveTypes harg hparam) fun hle _ => giveAll hput hargs (sameSymbols_mono hparams hle)

theorem callWith {node node' : Node} (hnode : P.Alike node node') (signature : SignatureId) {typeArgs typeArgs' : List Node}
    (htypeArgs : Forall₂ P.Alike typeArgs typeArgs') :
    Follows P w Sync.SameType (callWith ask signature typeArgs node.args)
      (callWith ask' signature typeArgs' node'.args) := by
  refine .bind (hask.withTypeArgs signature htypeArgs) fun {_ signature _} _ hsame => ?_
  obtain rfl := hsame
  refine .get fun hf => ?_
  obtain ⟨own, put, hargs, hown, hput⟩ := hnode.args
  refine .bind (hargs ▸ hask.giveAll hput hown (hf.signature signature).params) fun _ _ => ?_
  exact .bind (hask.checkArgs hnode) fun _ _ => hask.returnOf signature

theorem callType {node node' : Node} (hnode : P.Alike node node') :
    Follows P w Sync.SameType (callType ask node) (callType ask' node') := by
  refine .bind (hask.expressionType hnode.expression?) fun _ hcallee => ?_
  refine .bind (hask.callsOf hcallee) fun {_ calls _} hle₁ hcalls => ?_
  obtain rfl := hcalls
  cases calls with
  | cons signature _ => exact hask.callWith hnode signature hnode.typeArgs
  | nil =>
    refine .bind (hask.checkArgs hnode) fun hle₂ _ => .get fun {f f'} hf => ?_
    have hdata := hf.typeData (hcallee.mono (hle₁.trans hle₂))
    revert hdata
    generalize f.typeData _ = data
    generalize f'.typeData _ = data'
    intro hdata
    cases hdata with
    | any | unknown | param => exact .pure (Sync.sameType_any _)
    | _ => exact .reported hnode.source

omit hask in
theorem constructedByName? {f f' : Facts} (hf : InStep P w f f') {callee callee' : Option Node}
    (h : Option.Rel P.Alike callee callee') :
    Option.Rel w.SameSymbol (constructedByName? f callee) (constructedByName? f' callee') := by
  refine (h.filter (fun _ _ hnode => by rw [hnode.kind]) fun _ _ hnode _ => hnode).bind fun ref ref' href => ?_
  rw [href.refText]
  refine (hf.lookup href.twin .type _).bind fun symbol symbol' hsymbol => ?_
  dsimp only
  rw [(hf.symbol hsymbol).kind]
  split
  · exact .some hsymbol
  · exact .none

theorem newType {node node' : Node} (hnode : P.Alike node node') :
    Follows P w Sync.SameType (newType ask node) (newType ask' node') := by
  refine .bind (hask.expressionType hnode.expression?) fun hle₁ hcallee => .get fun {f f'} hf => ?_
  dsimp only
  rw [(hf.object? hcallee).map_eq fun _ _ hobject => hobject.constructs]
  cases ((f.object? _).map (·.constructs)).getD [] with
  | cons signature _ => exact hask.callWith hnode signature hnode.typeArgs
  | nil =>
    refine .bind (hask.checkArgs hnode) fun {w₂ _ _} hle₂ _ => .get fun hf => ?_
    refine (constructedByName? hf hnode.expression?).elim (fun symbol symbol' hsymbol => ?_) ?_
    · refine .bind (hask.declared hsymbol) fun hle₃ hgeneric => .get fun hf => ?_
      have hparams := hf.declaredTypeParams (hsymbol.mono hle₃)
      refine .bind (.mapM (kept_const P.Alike) kept_type hnode.typeArgs fun _ harg => hask.written harg)
        fun hle₄ htypes => .modifyGet fun hf => ?_
      exact hparams.length_eq ▸ hf.reference (hgeneric.mono hle₄) (padded htypes _)
    · exact .ite (by rw [bne, bne, (hcallee.mono hle₂).beq_eq w₂.sameType_any]) (.reported hnode.source)
        (.pure w₂.sameType_any)

/-! ## Operators -/

omit hask in
theorem sumType {left left' right right' : TypeId} (hleft : w.SameType left left') (hright : w.SameType right right') :
    w.SameType (sumType left right) (sumType left' right') := by
  unfold Check.sumType
  rw [hleft.beq_eq w.sameType_string, hright.beq_eq w.sameType_string, hleft.beq_eq w.sameType_number,
    hright.beq_eq w.sameType_number]
  split
  · exact w.sameType_string
  · split
    · exact w.sameType_number
    · exact w.sameType_any

omit hask in
theorem binaryType (operator : Option TokenKind) {left left' right right' : TypeId} (hleft : w.SameType left left')
    (hright : w.SameType right right') :
    Follows P w Sync.SameType (binaryType operator left right) (binaryType operator left' right') := by
  have hunion : Follows P w Sync.SameType (modifyGet (Facts.union [left, right]))
      (modifyGet (Facts.union [left', right'])) :=
    .modifyGet fun hf => hf.union (.cons hleft (.cons hright .nil))
  unfold Check.binaryType
  split <;> first
    | exact .pure (sumType hleft hright)
    | exact .pure w.sameType_number
    | exact .pure w.sameType_boolean
    | exact .pure hright
    | exact hunion
    | exact .pure w.sameType_any

omit hask in
theorem unaryType (w : Sync) (operator : Option TokenKind) : w.SameType (unaryType operator) (unaryType operator) := by
  unfold Check.unaryType
  split <;> exact w.sameType_primitive (by decide)

omit hask in
theorem constantValueType (w : Sync) {node node' : Node} (hnode : P.Alike node node') :
    w.SameType (constantValueType node) (constantValueType node') := by
  unfold Check.constantValueType
  rw [hnode.constant?]
  split <;> exact w.sameType_primitive (by decide)

/-! ## Expressions -/

theorem readExpression {node node' : Node} (hnode : P.Alike node node') :
    Follows P w Sync.SameType (readExpression ask node) (readExpression ask' node') := by
  have hfirst : Follows P w Sync.SameType (Check.expressionType ask node.expression?)
      (Check.expressionType ask' node'.expression?) :=
    hask.expressionType hnode.expression?
  have hat : ∀ {w : Sync} (n : Nat), Follows P w Sync.SameType (Check.expressionType ask (node.expressionAt? n))
      (Check.expressionType ask' (node'.expressionAt? n)) := fun n => hask.expressionType (hnode.expressionAt? n)
  unfold Check.readExpression
  rw [hnode.kind]
  split
  · exact .pure (constantValueType w hnode)
  · exact hask.nameType hnode
  · exact hask.typeNamedBy (thisOwner? hnode)
  · exact hfirst
  · exact hask.objectLiteral hnode
  · exact hask.arrayLiteral hnode
  · exact functionType (.cons hnode .nil)
  · exact functionType (.cons hnode .nil)
  · exact hask.callType hnode
  · exact hask.newType hnode
  · exact hask.propertyType hnode
  · exact hask.indexedType hnode
  · exact .bind hfirst fun {w' _ _} _ _ => .pure (hnode.operator? ▸ unaryType w' _)
  · exact .bind (hat 0) fun _ hleft => .bind (hat 1) fun hle hright =>
      hnode.operator? ▸ binaryType _ (hleft.mono hle) hright
  · exact .bind (hat 0) fun _ _ => .bind (hat 1) fun _ hyes => .bind (hat 2) fun hle hno =>
      .modifyGet fun hf => hf.union (.cons (hyes.mono hle) (.cons hno .nil))
  · exact .bind (hat 0) fun _ _ => hat 1
  · exact .bind hfirst fun _ _ => hask.writtenType hnode.type?
  · exact .pure w.sameType_any

theorem expressionOnce {node node' : Node} (hnode : P.Alike node node') :
    Follows P w Sync.SameType (Check.expression ask node) (Check.expression ask' node') := by
  refine .get fun hf => ?_
  refine (hf.expressionTypes.get? P.nodeKeys hnode.twin.sameId).elim (fun _ _ hknown => .pure hknown) ?_
  refine .bind (hask.readExpression hnode) fun _ htype => .modifyGet fun hf => ?_
  obtain ⟨hfirst, htable⟩ := hf.expressionTypes.keepFirst P.nodeKeys hnode.twin.sameId htype
  exact .here { hf with expressionTypes := htable } hfirst

end Asks

end RouteTypes
