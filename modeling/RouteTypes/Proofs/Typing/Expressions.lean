-- Questions about expressions, and all questions together. An access notes the type of its receiver first
-- and then the member of that type. Looking at the receiver may lead back to the access, which is then
-- looked at twice; both times find the same member, since what is noted for the receiver stays.
import RouteTypes.Proofs.Typing.Values

namespace RouteTypes

open Facts (quiet noting Finds)

variable {known : Node → Prop} {opened : List NodeId} {s : Facts}

namespace Check

section

variable {ask : Ask} (hask : Answers known ask)

include hask

/-! ## Parts of expressions -/

section

variable (hnodes : Node.Closed known) {node : Node} (hnode : known node) (hkind : node.kind.hasHead = false)

include hnodes hnode hkind

theorem partType_obeys : Obeys (noting known opened) s (expressionType ask node.expression?)
    fun type s => s.HasType type :=
  expressionType_obeys hask fun _ he => .child hnodes hnode hkind (List.mem_of_find?_eq_some he)

theorem partAt_obeys (n : Nat) : Obeys (noting known opened) s (expressionType ask (node.expressionAt? n))
    fun type s => s.HasType type :=
  expressionType_obeys hask fun _ he =>
    .child hnodes hnode hkind (List.mem_of_mem_filter (List.mem_of_getElem? he))

end

variable (hnodes : Node.Closed known)

include hnodes

/-- An item of an array or an argument may be asked for without its dots. -/
theorem spreadOrItem_obeys {item : Node} (hitem : Askable known opened s item) :
    Obeys (noting known opened) s (expressionType ask (spreadOrItem? item)) fun type s =>
      s.HasType type ∧ ∀ e ∈ spreadOrItem? item, s.expressionTypes.get? e.id = some type := by
  refine expressionType_noticed hask fun e he => ?_
  unfold spreadOrItem? at he
  split at he
  · rename_i hkind
    exact .child hnodes hitem.known (by rw [beq_iff_eq.mp hkind]; rfl) (List.mem_of_find?_eq_some he)
  · cases he
    exact hitem

theorem elementType_obeys {item : Node} (hitem : Askable known opened s item) :
    Obeys (noting known opened) s (elementType ask item) fun type s => s.HasType type := by
  unfold elementType
  split
  · rename_i hkind
    refine .bind (partType_obeys hask hnodes hitem.known (by rw [beq_iff_eq.mp hkind]; rfl))
      fun type s₁ _ _ _ => .get fun hs => .pure fun _ => ?_
    cases helement : s₁.arrayElement? type with
    | none => exact hs.1.hasType_any
    | some element => exact hs.1.arrayElement? helement
  · exact (hask.expression hitem).mono fun _ _ _ _ h => h.1

theorem arrayLiteral_obeys {node : Node} (hnode : known node) (hkind : node.kind.hasHead = false) :
    Obeys (noting known opened) s (arrayLiteral ask node) fun type s => s.HasType type := by
  refine .bind (.mapM Facts.noting_stable_hasType node.elements fun item hitem s' _ _ =>
    elementType_obeys hask hnodes (.child hnodes hnode hkind (List.mem_of_mem_filter hitem)))
    fun types s₁ _ _ htypes => ?_
  dsimp only
  split
  · exact .bind .any fun element s₂ _ _ helement => .quietly (arrayOf_obeys hask.toAnswersTypes helement)
  · exact .bind (.quietly (.notes fun hs => Facts.union_notes hs htypes)) fun element s₂ _ _ helement =>
      .quietly (arrayOf_obeys hask.toAnswersTypes helement)

/-- What is added to the members of an object literal is a member. -/
theorem literalMember_obeys {node : Node} (hnode : known node) (hkind : node.kind.isObjectMember = true)
    {members : List SymbolId} (hmembers : ∀ id ∈ members, s.HasMember id) :
    Obeys (noting known opened) s (literalMember ask members node)
      fun members s => ∀ id ∈ members, s.HasMember id := by
  have hother : ∀ {other : NodeKind}, other.isObjectMember = false → node.kind ≠ other := fun hno heq => by
    rw [heq, hno] at hkind
    cases hkind
  have hhead : node.kind.hasHead = false :=
    Bool.or_eq_false_iff.mpr ⟨beq_false_of_ne (hother rfl), beq_false_of_ne (hother rfl)⟩
  have hdeclares : DeclaresMember known node := .ofKind hnode (by
    simp only [hhead, beq_false_of_ne (hother (rfl : NodeKind.isObjectMember .param = false)),
      beq_false_of_ne (hother (rfl : NodeKind.isObjectMember .varDeclarator = false)),
      beq_false_of_ne (hother (rfl : NodeKind.isObjectMember .bindingElement = false)),
      beq_false_of_ne (hother (rfl : NodeKind.isObjectMember .typeParam = false)), Bool.or_self])
  have hadd : ∀ name, Obeys (noting known opened) s (do
      let symbol ← modifyGet (Facts.addNamedMember name .property false node)
      return (← get).setMember members symbol) fun members s => ∀ id ∈ members, s.HasMember id := by
    intro name
    refine .quietly (.bind (.notes fun hs => Facts.addNamedMember_notes hs name false (.ofProperty (hother rfl)) hdeclares)
      fun symbol s₁ _ hstep hsymbol => .get fun _ => .pure fun _ id hid => ?_)
    rcases Facts.mem_setMember hid with hid | rfl
    · exact hstep.hasMember (hmembers id hid)
    · exact hsymbol.1
  unfold literalMember
  split
  · refine .bind (partType_obeys hask hnodes hnode hhead) fun type s₁ _ hstep₁ htype => ?_
    refine .bind (.quietly (membersOf_obeys hask.toAnswersTypes htype)) fun added s₂ hs₂ hstep₂ hadded => ?_
    refine .get fun _ => .pure fun _ id hid => ?_
    rcases Facts.mem_foldl_setMember hid with hid | hid
    · exact (hstep₁.trans hstep₂).hasMember (hmembers id hid)
    · rw [hadded.1] at hid
      exact hs₂.1.membersOf type id hid
  · exact hadd _
  · exact hadd _

theorem objectLiteral_obeys {node : Node} (hnode : known node) :
    Obeys (noting known opened) s (objectLiteral ask node) fun type s => s.HasType type := by
  have hmembers : Obeys (noting known opened) s (node.objectMembers.foldlM (literalMember ask) [])
      fun members s => ∀ id ∈ members, s.HasMember id :=
    .foldlM _ (fun member hmember members _ _ _ hmembers =>
      literalMember_obeys hask hnodes (hnodes.childrenOf hnode member hmember) (List.mem_filter.mp hmember).2
        hmembers) fun _ id hid => absurd hid List.not_mem_nil
  refine .bind hmembers fun members s₁ _ _ hmembers => .quietly (.notes fun hs => ?_)
  have hobject : ObjectType.Closed s₁ { ObjectType.bare .anonymous none with members } :=
    { ObjectType.Closed.bare .anonymous none (by decide) (fun id hid => by cases hid) with
      members := hmembers }
  exact (Facts.addType_notes hs (.object _) rfl hobject).mono fun _ _ _ h => h.1

/-! ## Names and elements -/

omit hnodes in
/-- A name refers to what it stands for, needs no declaration, or is reported. -/
theorem nameType_obeys {node : Node} (hnode : known node) (hopened : node.id ∈ opened)
    (hkind : node.kind = .nameRef) :
    Obeys (noting known opened) s (nameType ask node) fun type s => s.HasType type ∧ s.IsNamed node := by
  refine .get fun hs => ?_
  split
  · rename_i symbol hsymbol
    -- A name is no access.
    have hsees : s.SeesAccess known node (some symbol) := fun e name haccess => by
      have hother := haccess.kind
      rw [hkind] at hother
      cases hother
    refine .bind (resolveTo_obeys hnode hopened (hs.1.lookup hsymbol) ⟨hsees, fun _ => hsymbol⟩) fun _ s₁ _ hstep hgot => ?_
    refine (hask.valueOf (hstep.hasSymbol (hs.1.lookup hsymbol))).mono fun type s₂ _ hstep' htype => ⟨htype, ?_, ?_⟩
    · exact fun _ => hstep'.resolutions (by rw [hgot]; rfl)
    · intro hnone
      cases hsymbol.symm.trans ((Facts.lookup_eq (hstep.trans hstep').scopes node .value _).symm.trans hnone)
  · rename_i hnone
    have hpredefined : ∀ {type : TypeId}, type.index < TypeData.primitives.length → Facts.isPredefined node.refText = true →
        Obeys (noting known opened) s (pure type) fun type s => s.HasType type ∧ s.IsNamed node := fun htype hname =>
      .pure fun hs => ⟨hs.1.hasType_primitive htype, fun hsome => (by rw [hnone] at hsome; cases hsome),
        fun _ => .inl hname⟩
    split
    · exact hpredefined (by decide) (by rw [‹node.refText = _›]; rfl)
    · exact hpredefined (by decide) (by rw [‹node.refText = _›]; rfl)
    · exact hpredefined (by decide) (by rw [‹node.refText = _›]; rfl)
    · have hlacks : s.Lacks known node := ⟨hnode, hkind, hnone, by simp_all [Facts.isPredefined]⟩
      have hreport : Obeys (quiet known) s (report node node.span (.unresolvedName node.refText)) fun _ s =>
          node.source = .program → ⟨node.span, .unresolvedName node.refText⟩ ∈ s.problems := by
        refine .modify fun hs => ?_
        have hproblem : (Problem.unresolvedName node.refText : Problem TypeId).Closed s := trivial
        have hnoted := Facts.report_noted hs node node.span hproblem fun name hname => by
          cases hname
          exact ⟨hlacks, rfl, rfl⟩
        refine ⟨hnoted.closed, hnoted.quiet, fun hsource => ?_⟩
        rw [Facts.report, hsource]
        exact List.mem_cons_self
      refine .bind (.quietly hreport) fun _ s₁ _ hstep hreported => .pure fun hs => ⟨hs.1.hasType_any, fun hsome => ?_,
        fun _ => .inr hreported⟩
      rw [Facts.lookup_eq hstep.scopes, hnone] at hsome
      cases hsome

theorem indexedType_obeys {node : Node} (hnode : known node) (hkind : node.kind.hasHead = false) :
    Obeys (noting known opened) s (indexedType ask node) fun type s => s.HasType type := by
  refine .bind (partAt_obeys hask hnodes hnode hkind 0) fun receiver s₁ _ _ hreceiver => ?_
  refine .bind (partAt_obeys hask hnodes hnode hkind 1) fun _ s₂ _ hstep₂ _ => ?_
  split
  · exact .primitive (by decide)
  · refine .get fun hs₂ => ?_
    split
    · rename_i element helement
      exact .pure fun _ => hs₂.1.arrayElement? helement
    · refine .bind (.quietly (hask.members (hstep₂.hasType hreceiver))) fun filled s₃ _ _ _ => ?_
      refine .get fun hs₃ => .pure fun _ => ?_
      cases hindex : s₃.stringIndexOf filled with
      | none => exact hs₃.1.hasType_any
      | some index => exact hs₃.1.stringIndexOf filled index hindex

/-! ## Calls -/

omit hask hnodes in
theorem askable_args (hnodes : Node.Closed known) {node : Node} (hnode : known node) :
    ∀ item ∈ node.args, Askable known opened s item := by
  intro item hitem
  unfold Node.args at hitem
  cases hlist : node.argList? with
  | none =>
    rw [hlist] at hitem
    cases hitem
  | some list =>
    rw [hlist] at hitem
    have hkind : list.kind = .argList := by simpa using List.find?_some hlist
    exact .child hnodes (hnodes.child? hnode list hlist) (by rw [hkind]; rfl) (List.mem_of_mem_filter hitem)

theorem checkArgs_obeys {args : List Node} (hargs : ∀ {s}, ∀ item ∈ args, Askable known opened s item) :
    Obeys (noting known opened) s (checkArgs ask args) fun _ s => s.NoticedAll args :=
  .forEach (fun _ _ _ hle h e he => (h e he).later hle) args fun item hitem _ _ _ =>
    .bind (spreadOrItem_obeys hask hnodes (hargs item hitem)) fun type _ _ _ h => .pure fun _ e he =>
      ⟨type, h.2 e he⟩

omit hask hnodes in
theorem hasType_padded (hs : s.Closed known) {types : List TypeId} (htypes : ∀ type ∈ types, s.HasType type)
    (length : Nat) : ∀ type ∈ padded types length, s.HasType type := by
  intro type htype
  rcases List.mem_append.mp htype with htype | htype
  · exact htypes type (List.mem_of_mem_take htype)
  · rw [List.eq_of_mem_replicate htype]
    exact hs.hasType_any

omit hask hnodes in
theorem length_padded (types : List TypeId) (length : Nat) : (padded types length).length = length := by
  rw [padded, List.length_append, List.length_take, List.length_replicate]
  omega

omit hnodes in
theorem withTypeArgs_obeys {signature : SignatureId} (hsignature : s.HasSignature signature) {args : List Node}
    (hargs : ∀ arg ∈ args, known arg) :
    Obeys (quiet known) s (withTypeArgs ask signature args) fun id s => s.HasSignature id := by
  refine .get fun hs => ?_
  dsimp only
  split
  · exact .pure fun _ => hsignature
  · refine .bind (writtenAll_obeys hask.toAnswersTypes hargs) fun types s₁ _ hstep₁ htypes => ?_
    have hparams := (hs.signature signature hsignature).typeParams
    refine .bind (.notes fun hs => Facts.shareSubstitution_notes hs
      (fun param hparam => hstep₁.hasSymbol (hparams param hparam)) (hasType_padded hs htypes _)
      fun _ => (length_padded _ _).symm) fun substitution s₂ _ hstep₂ hsubstitution => .notes fun hs => ?_
    exact Facts.copySignature_notes hs hsubstitution ((hstep₁.trans hstep₂).hasSignature hsignature)

omit hnodes in
theorem giveType_obeys (param : Node) {expected : SymbolId} (hexpected : s.HasSymbol expected) :
    Obeys (noting known opened) s (giveType ask param expected) fun _ _ => True := by
  unfold giveType
  split
  · exact .pure fun _ => trivial
  · refine .get fun _ => ?_
    split
    · exact .pure fun _ => trivial
    · refine .bind (hask.valueOf hexpected) fun type s₁ _ _ htype => .quietly (.noted fun hs => ?_)
      exact (Facts.Noted.refl hs).then_same { Facts.Quiet.refl _ with } fun hcovers =>
        { hcovers with contextual := hcovers.contextual.insert htype }

omit hnodes in
theorem giveTypes_obeys (arg : Node) {param : SymbolId} (hparam : s.HasSymbol param) :
    Obeys (noting known opened) s (giveTypes ask arg param) fun _ _ => True := by
  unfold giveTypes
  dsimp only
  split
  · refine .bind (hask.valueOf hparam) fun expected s₁ _ _ hexpected => ?_
    refine .bind (.quietly (callsOf_obeys hask.toAnswersTypes hexpected)) fun calls s₂ _ _ hcalls => ?_
    split
    · exact .pure fun _ => trivial
    · rename_i callback rest
      refine .get fun hs => .forM _ fun pair hpair s₃ _ hstep₃ => ?_
      have hcallback := hs.1.signature callback (hcalls callback List.mem_cons_self)
      exact giveType_obeys hask pair.1
        (hstep₃.hasSymbol (hcallback.params pair.2 (List.of_mem_zip hpair).2))
  · exact .pure fun _ => trivial

theorem callWith_obeys {signature : SignatureId} (hsignature : s.HasSignature signature)
    {typeArgs args : List Node} (htypeArgs : ∀ arg ∈ typeArgs, known arg)
    (hargs : ∀ {s}, ∀ item ∈ args, Askable known opened s item) :
    Obeys (noting known opened) s (callWith ask signature typeArgs args) fun type s =>
      s.HasType type ∧ s.NoticedAll args := by
  refine .bind (.quietly (withTypeArgs_obeys hask hsignature htypeArgs)) fun id s₁ _ _ hid => .get fun hs₁ => ?_
  have hparams := (hs₁.1.signature id hid).params
  refine .bind (.forM _ fun pair hpair s' _ hstep => giveTypes_obeys hask pair.1
    (hstep.hasSymbol (hparams pair.2 (List.of_mem_zip hpair).2))) fun _ s₂ _ hstep₂ _ => ?_
  refine .bind (checkArgs_obeys hask hnodes hargs) fun _ s₃ _ hstep₃ hnoticed => ?_
  exact (hask.returnOf ((hstep₂.trans hstep₃).hasSignature hid)).mono fun _ _ _ hstep h => ⟨h, hnoticed.later hstep⟩

theorem callType_obeys {node : Node} (hnode : known node) (hopened : node.id ∈ opened) :
    Obeys (noting known opened) s (callType ask node) fun type s => s.HasType type ∧ s.NoticedAll node.args := by
  refine .bind (expressionType_obeys hask fun e he => .below hnodes hnode hopened (List.mem_of_find?_eq_some he))
    fun callee s₁ _ _ hcallee => ?_
  refine .bind (.quietly (callsOf_obeys hask.toAnswersTypes hcallee)) fun calls s₂ _ hstep₂ hcalls => ?_
  split
  · rename_i signature rest
    exact callWith_obeys hask hnodes (hcalls signature List.mem_cons_self)
      (hnodes.map_childrenOf hnode) (askable_args hnodes hnode)
  · refine .bind (checkArgs_obeys hask hnodes (askable_args hnodes hnode)) fun _ s₃ _ hstep₃ hnoticed =>
      .get fun _ => ?_
    have hany : Obeys (noting known opened) s₃ (pure TypeId.any) fun type s =>
        s.HasType type ∧ s.NoticedAll node.args := .pure fun hs => ⟨hs.1.hasType_any, hnoticed⟩
    split
    · exact hany
    · exact hany
    · exact hany
    · have hproblem : (Problem.notCallable callee).Closed s₃ := (hstep₂.trans hstep₃).hasType hcallee
      exact .bind (.quietly (report_obeys node _ hproblem fun _ heq => by cases heq)) fun _ _ _ hstep _ =>
        .pure fun hs => ⟨hs.1.hasType_any, hnoticed.later hstep⟩

omit hask hnodes in
theorem kind_constructedByName? (hs : s.Closed known) {callee : Option Node} {symbol : SymbolId}
    (h : constructedByName? s callee = some symbol) :
    s.HasSymbol symbol ∧ ((s.symbol symbol).kind = .classDecl ∨ (s.symbol symbol).kind = .interface) := by
  obtain ⟨ref, -, h⟩ := Option.bind_eq_some_iff.mp h
  obtain ⟨found, hfound, h⟩ := Option.bind_eq_some_iff.mp h
  dsimp only at h
  split at h
  · rename_i hkind
    cases h
    exact ⟨hs.lookup hfound, hkind⟩
  · cases h

theorem newType_obeys {node : Node} (hnode : known node) (hkind : node.kind.hasHead = false) :
    Obeys (noting known opened) s (newType ask node) fun type s => s.HasType type := by
  have hargs : ∀ {s}, ∀ item ∈ node.args, Askable known opened s item := askable_args hnodes hnode
  have htypeArgs : ∀ arg ∈ node.typeArgs, known arg := hnodes.map_childrenOf hnode
  refine .bind (partType_obeys hask hnodes hnode hkind) fun callee s₁ _ _ hcallee => .get fun hs₁ => ?_
  split
  · rename_i signature rest hconstructs
    have hsignature := hs₁.1.constructsOf callee signature (by rw [hconstructs]; exact List.mem_cons_self)
    exact (callWith_obeys hask hnodes hsignature htypeArgs hargs).mono fun _ _ _ _ h => h.1
  · refine .bind (checkArgs_obeys hask hnodes hargs) fun _ s₂ _ hstep₂ _ => .get fun hs₂ => ?_
    split
    · rename_i symbol hsymbol
      obtain ⟨hhas, hkind⟩ := kind_constructedByName? hs₂.1 hsymbol
      refine .quietly (.bind (hask.declared hhas) fun generic s₃ _ hstep₃ hgeneric => .get fun hs₃ => ?_)
      have hsuits := hgeneric.suits hs₃ (hstep₃.kind hhas ▸ hkind)
      refine .bind (writtenAll_obeys hask.toAnswersTypes htypeArgs) fun types s₄ _ hstep₄ htypes => ?_
      refine .notes fun hs => Facts.reference_notes hs (hstep₄.hasType hgeneric.has) (hasType_padded hs htypes _) ?_
      rw [length_padded]
      exact hsuits.mono hs₃ hgeneric.has hstep₄.toGrows
    · dsimp only
      split
      · have hproblem : (Problem.notConstructable callee).Closed s₂ := hstep₂.hasType hcallee
        exact .bind (.quietly (report_obeys node _ hproblem fun _ heq => by cases heq)) fun _ _ _ _ _ => .any
      · exact .any

/-! ## Operators -/

omit hask hnodes in
theorem binaryType_obeys (operator : Option TokenKind) {left right : TypeId} (hleft : s.HasType left)
    (hright : s.HasType right) :
    Obeys (quiet known) s (binaryType operator left right) fun type s => s.HasType type := by
  have hprimitive : ∀ {type : TypeId}, type.index < TypeData.primitives.length →
      Obeys (quiet known) s (pure type) fun type s => s.HasType type := fun htype =>
    .answer fun hs => hs.hasType_primitive htype
  unfold binaryType
  split
  · unfold sumType
    split
    · exact hprimitive (by decide)
    · split <;> exact hprimitive (by decide)
  all_goals first
    | exact hprimitive (by decide)
    | exact .answer fun _ => hright
    | skip
  all_goals
    refine .notes fun hs => Facts.union_notes hs fun type htype => ?_
    rcases List.mem_pair.mp htype with rfl | rfl
    · exact hleft
    · exact hright

/-- Expressions that are neither names nor accesses, calls or functions have types. -/
theorem otherExpression_obeys {node : Node} (hnode : known node) (hkind : node.kind.hasHead = false)
    (hname : node.kind ≠ .nameRef) (harrow : node.kind ≠ .arrowFunction) (hfunction : node.kind ≠ .functionExpr) :
    Obeys (noting known opened) s (readExpression ask node) fun type s => s.HasType type := by
  have hpart : ∀ {s}, Obeys (noting known opened) s (expressionType ask node.expression?)
      fun type s => s.HasType type := partType_obeys hask hnodes hnode hkind
  have hpartAt : ∀ {s} n, Obeys (noting known opened) s (expressionType ask (node.expressionAt? n))
      fun type s => s.HasType type := partAt_obeys hask hnodes hnode hkind
  have hhead : ∀ {kind : NodeKind}, node.kind = kind → kind.hasHead = true → False := fun heq hhead => by
    rw [← heq, hkind] at hhead
    cases hhead
  unfold readExpression
  split
  · unfold constantValueType
    split <;> exact .primitive (by decide)
  · exact absurd ‹_› hname
  · exact .quietly (typeNamedBy_obeys hask.toAnswersTypes _)
  · exact hpart
  · exact objectLiteral_obeys hask hnodes hnode
  · exact arrayLiteral_obeys hask hnodes hnode hkind
  · exact absurd ‹_› harrow
  · exact absurd ‹_› hfunction
  · exact (hhead ‹_› rfl).elim
  · exact newType_obeys hask hnodes hnode hkind
  · exact (hhead ‹_› rfl).elim
  · exact indexedType_obeys hask hnodes hnode hkind
  · refine .bind hpart fun _ _ _ _ _ => ?_
    unfold unaryType
    split <;> exact .primitive (by decide)
  · refine .bind (hpartAt 0) fun left s₁ _ _ hleft => .bind (hpartAt 1) fun right s₂ _ hstep₂ hright => ?_
    exact .quietly (binaryType_obeys _ (hstep₂.hasType hleft) hright)
  · refine .bind (hpartAt 0) fun _ _ _ _ _ => .bind (hpartAt 1) fun yes s₂ _ _ hyes => ?_
    refine .bind (hpartAt 2) fun no s₃ _ hstep₃ hno => .quietly (.notes fun hs => ?_)
    refine Facts.union_notes hs fun type htype => ?_
    rcases List.mem_pair.mp htype with rfl | rfl
    · exact hstep₃.hasType hyes
    · exact hno
  · exact .bind (hpartAt 0) fun _ _ _ _ _ => hpartAt 1
  · exact .bind hpart fun _ _ _ _ _ => .quietly
      (writtenType_obeys hask.toAnswersTypes fun type htype => hnodes.child? hnode type htype)
  · exact .any

/-! ## Accesses -/

theorem propertyType_obeys {node : Node} (hnode : known node) (hopened : node.id ∈ opened)
    (hkind : node.kind = .propertyAccess) :
    Obeys (noting known opened) s (propertyType ask node) fun type s =>
      s.HasType type ∧ s.SeesAccess known node (s.resolutions.get? node.id) := by
  refine .bind (expressionType_noticed hask fun e he =>
    .below hnodes hnode hopened (List.mem_of_find?_eq_some he)) fun receiver s₁ _ _ hreceiver => ?_
  obtain ⟨htype, hnoted⟩ := hreceiver
  split
  · rename_i hnone
    refine .pure fun hs => ⟨hs.1.hasType_any, fun e name haccess => ?_⟩
    have hname := haccess.name
    rw [hnone] at hname
    cases hname
  · rename_i name hsome
    have hname : ∀ {e own}, IsAccess known node e own → own = name := fun haccess =>
      Option.some_inj.mp (haccess.name.symm.trans hsome)
    have hsees : ∀ {s' member}, s₁.Later known s' → Finds s' receiver name member →
        s'.SeesAccess known node member := fun hstep hfinds e own haccess =>
      ⟨receiver, hstep.expressionTypes (hnoted e haccess.receiver), by rw [hname haccess]; exact hfinds⟩
    -- If nothing is noted in the end, then there is no such member.
    have haccessed : Obeys (noting known opened) s₁
        (accessedType ask node ((node.memberToken?.map (·.span)).getD node.span) receiver name (resolveTo node))
        fun type s => s.HasType type ∧ (s.resolutions.get? node.id = none → Finds s receiver name none) := by
      refine accessedType_obeys hask node _ htype name
        (fun hs hstep hpost hget => (hpost (by rw [← hstep.resolutions]; exact hget)).mono hs hstep.toGrows)
        (fun {s' member} hstep hmember hfinds => ?_) fun _ _ hfinds _ => hfinds
      have hright : s'.Resolves known node member := ⟨hsees hstep hfinds, fun hname => by rw [hkind] at hname; cases hname⟩
      refine (resolveTo_obeys hnode hopened hmember hright).mono fun _ s'' _ _ hget hnone => ?_
      rw [hget] at hnone
      cases hnone
    refine haccessed.mono fun type s₂ hs₂ hstep h => ⟨h.1, fun e own haccess => ?_⟩
    cases hsymbol : s₂.resolutions.get? node.id with
    | none => exact hsees hstep (h.2 hsymbol) e own haccess
    | some symbol => exact (hs₂.2.resolved haccess.toIsUnique hsymbol).1.access e own haccess

/-! ## Expressions -/

omit hask hnodes in
/-- What is noted along with the type depends on the kind of the expression. -/
theorem sees_of_kind {node : Node} {kind : NodeKind} (hkind : node.kind = kind) {type : TypeId}
    (hname : kind = .nameRef → s.IsNamed node)
    (haccess : kind = .propertyAccess → s.SeesAccess known node (s.resolutions.get? node.id))
    (hfunction : kind = .arrowFunction ∨ kind = .functionExpr → s.IsFunction node type)
    (harguments : kind = .callExpr → s.NoticedAll node.args) : s.Sees known node type where
  name heq := hname (hkind ▸ heq)
  access e name h := haccess (hkind ▸ h.kind) e name h
  function heq := hfunction (hkind ▸ heq)
  arguments heq := harguments (hkind ▸ heq)

theorem readExpression_obeys {node : Node} (hnode : known node) (hopened : node.id ∈ opened) :
    Obeys (noting known opened) s (readExpression ask node) fun type s =>
      s.HasType type ∧ s.Sees known node type := by
  cases hkind : node.kind with
  | propertyAccess =>
    unfold readExpression
    rw [hkind]
    exact (propertyType_obeys hask hnodes hnode hopened hkind).mono fun type s₁ _ _ h =>
      ⟨h.1, sees_of_kind hkind nofun (fun _ => h.2) nofun nofun⟩
  | callExpr =>
    unfold readExpression
    rw [hkind]
    exact (callType_obeys hask hnodes hnode hopened).mono fun type s₁ _ _ h =>
      ⟨h.1, sees_of_kind hkind nofun nofun nofun fun _ => h.2⟩
  | arrowFunction =>
    unfold readExpression
    rw [hkind]
    have hdeclares : Declares known node := .ofKind hnode (by rw [hkind]; rfl)
    exact .quietly ((functionType_one_obeys hdeclares).mono fun type s₁ _ _ h =>
      ⟨h.1, sees_of_kind hkind nofun nofun (fun _ => h.2) nofun⟩)
  | functionExpr =>
    unfold readExpression
    rw [hkind]
    have hdeclares : Declares known node := .ofKind hnode (by rw [hkind]; rfl)
    exact .quietly ((functionType_one_obeys hdeclares).mono fun type s₁ _ _ h =>
      ⟨h.1, sees_of_kind hkind nofun nofun (fun _ => h.2) nofun⟩)
  | nameRef =>
    unfold readExpression
    rw [hkind]
    exact (nameType_obeys hask hnode hopened hkind).mono fun type s₁ _ _ h =>
      ⟨h.1, sees_of_kind hkind (fun _ => h.2) nofun nofun nofun⟩
  | _ =>
    refine (otherExpression_obeys hask hnodes hnode ?_ ?_ ?_ ?_).mono fun type s₁ _ _ h =>
      ⟨h, sees_of_kind hkind nofun nofun nofun nofun⟩
    all_goals rw [hkind]; decide

omit hask hnodes in
/-- Noting a type for an expression that was looked at ends that. Its type may be known by then from
looking at it again on the way; that one stays. -/
theorem expressionType_closes {node : Node} (hnode : Askable known opened s node)
    {type : TypeId} (hs : s.Closed known) (haccesses : s.Accesses known (node.id :: opened))
    (htype : s.HasType type) (hsees : s.Sees known node type) :
    (noting known opened).holds { s with expressionTypes := (s.expressionTypes.keepFirst node.id type).2 } ∧
      s.Later known { s with expressionTypes := (s.expressionTypes.keepFirst node.id type).2 } ∧
        s.HasType (s.expressionTypes.keepFirst node.id type).1 := by
  let s' : Facts := { s with expressionTypes := (s.expressionTypes.keepFirst node.id type).2 }
  have hlater : s.Later known s' := { Facts.Later.refl s with
    expressionTypes := fun hget => Table.get?_keepFirst_of_some _ hget }
  have hown : s'.Noticed node := ⟨_, Table.get?_keepFirst_self node.id type s.expressionTypes⟩
  -- What was still being looked at is looked at by others, or was this expression.
  have hopened : ∀ {id : NodeId} {other : Node}, other.id = id → id ∈ node.id :: opened ∨ s.Noticed other →
      id ∈ opened ∨ s'.Noticed other := by
    rintro id other rfl (hin | hnoticed)
    · rcases List.mem_cons.mp hin with hsame | hin
      · exact .inr (by rw [Facts.Noticed, hsame]; exact hown)
      · exact .inl hin
    · exact .inr (hnoticed.later hlater)
  obtain ⟨hkept, hall⟩ : s.HasType (s.expressionTypes.keepFirst node.id type).1 ∧ _ :=
    hs.expressionTypes.keepFirst htype
  refine ⟨⟨{ hs.mono hlater.toExtends with expressionTypes := hall }, ?_, ?_, ?_,
    haccesses.bound_later hs hlater, haccesses.valued_later hs hlater rfl, haccesses.returned_later hs hlater⟩, hlater,
    hkept⟩
  · intro other found hin hfound
    rcases Table.of_get?_keepFirst hfound with ⟨hid, rfl⟩ | hfound
    · obtain rfl := hin.eq_of_id hnode.known hid
      exact hsees.mono hs hlater rfl
    · exact (haccesses.found hin hfound).mono hs hlater rfl
  · intro other symbol hin hsymbol
    obtain ⟨hright, hlooked⟩ := haccesses.resolved_later hs hlater hin hsymbol
    refine ⟨hright, ?_⟩
    rcases hlooked with hlooked | hlooked
    · exact hopened rfl (.inl hlooked)
    · exact .inr hlooked
  · rintro outer e hhead ⟨found, hfound⟩
    rcases Table.of_get?_keepFirst hfound with ⟨hid, -⟩ | hfound
    · have hsame := hhead.unique.eq_of_id hnode.known hid
      exact (hnode.outer (hsame ▸ hhead.parent) hhead.kind).imp_right (·.later hlater)
    · exact hopened rfl (haccesses.asked hhead ⟨found, hfound⟩)

theorem expression_obeys {node : Node} (hnode : Askable known opened s node) :
    Obeys (noting known opened) s (expression ask node) fun type s =>
      s.HasType type ∧ s.expressionTypes.get? node.id = some type := by
  refine .get fun hs => ?_
  split
  · rename_i type htype
    exact .pure fun _ => ⟨hs.1.expressionTypes _ type htype, htype⟩
  · -- While it is looked at, the expression is opened.
    intro pending answer s₂ hrun _
    obtain ⟨⟨type, s₁⟩, hread, hnote⟩ := Option.bind_eq_some_iff.mp hrun
    have hopen : (noting known (node.id :: opened)).holds s :=
      ⟨hs.1, { hs.2 with
        resolved := fun hin hsymbol =>
          (hs.2.resolved hin hsymbol).imp_right (·.imp_left (List.mem_cons_of_mem _))
        asked := fun hhead hnoticed => (hs.2.asked hhead hnoticed).imp_left (List.mem_cons_of_mem _) }⟩
    obtain ⟨hs₁, hstep, htype, hsees⟩ :=
      readExpression_obeys hask hnodes hnode.known List.mem_cons_self pending type s₁ hread hopen
    obtain ⟨hholds, hlater, hkept⟩ := expressionType_closes
      ⟨hnode.known, fun houter hkind => (hnode.outer houter hkind).imp_right (·.later hstep)⟩ hs₁.1 hs₁.2 htype hsees
    cases hnote
    exact ⟨hholds, hstep.trans hlater, hlater.hasType hkept, Table.get?_keepFirst_self _ _ _⟩

/-! ## All questions -/

theorem Answers.answerWith : Answers known (answerWith ask) where
  toAnswersTypes := hask.toAnswersTypes.answerWith hnodes
  valueOf hsymbol := valueOf_obeys hask hnodes hsymbol
  expression hnode := expression_obeys hask hnodes hnode
  returnOf hsignature := returnOf_obeys hask hnodes hsignature

end

/-- However deeply questions may lead to questions, all are answered so. -/
theorem answer_values (hnodes : Node.Closed known) : ∀ depth, Answers known (answer depth)
  | 0 => { toAnswersTypes := answer_types hnodes 0
           valueOf := fun _ => .tooDeep
           expression := fun _ => .tooDeep
           returnOf := fun _ => .tooDeep }
  | depth + 1 => (answer_values hnodes depth).answerWith hnodes

end Check

end RouteTypes
