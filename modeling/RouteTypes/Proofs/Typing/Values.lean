-- Questions about values: the types of symbols, of expressions, and of what calls give. They lead to each
-- other and to themselves, and yet keep what is noted for member accesses right, whichever comes first.
import RouteTypes.Proofs.Typing.Accesses

namespace RouteTypes

open Facts (quiet noting Finds)

variable {known : Node → Prop} {opened : List NodeId} {s : Facts}

/-- The member that is found, if one is. -/
def Access.member? : Access → Option SymbolId
  | .found member _ => member
  | .unchecked | .missing => none

/-- The type that is found is there, and so is the member. -/
structure Access.Closed (s : Facts) (access : Access) : Prop where
  type : ∀ type ∈ access.type?, s.HasType type
  member : ∀ member ∈ access.member?, s.HasSymbol member

/-- The type is there, and it is that of no member. -/
theorem Access.Closed.unnamed {access : Access} (htype : ∀ type ∈ access.type?, s.HasType type)
    (hnone : access.member? = none) : access.Closed s :=
  ⟨htype, fun member hmember => by rw [hnone] at hmember; cases hmember⟩

namespace Check

/-! ## The questions -/

/-- An expression that may be asked for: if an access or a call is about it, then that is being looked at, or
was. -/
structure Askable (known : Node → Prop) (opened : List NodeId) (s : Facts) (node : Node) : Prop where
  known : known node
  outer : ∀ {outer}, node.parent = some outer → outer.kind.hasHead = true → outer.id ∈ opened ∨ s.Noticed outer

/-- How questions are answered. -/
structure Answers (known : Node → Prop) (ask : Ask) : Prop extends AnswersTypes known ask where
  valueOf : ∀ {opened s symbol}, s.HasSymbol symbol →
    Obeys (noting known opened) s (ask (.valueOf symbol)) fun type s => s.HasType type
  expression : ∀ {opened s node}, Askable known opened s node →
    Obeys (noting known opened) s (ask (.expression node)) fun type s =>
      s.HasType type ∧ s.expressionTypes.get? node.id = some type
  returnOf : ∀ {opened s signature}, s.HasSignature signature →
    Obeys (noting known opened) s (ask (.returnOf signature)) fun type s => s.HasType type

/-- What is below a node that is no access and no call may be asked for. -/
theorem Askable.child (hnodes : Node.Closed known) {node child : Node} (hnode : known node)
    (hkind : node.kind.hasHead = false) (hchild : child ∈ node.children) :
    Askable known opened s child where
  known := hnodes.child hnode hchild
  outer houter hhead := by
    rw [Node.parent_of_mem_children hchild, Option.some_inj] at houter
    rw [← houter, hkind] at hhead
    cases hhead

/-- What is below a node that is being looked at may be asked for. -/
theorem Askable.below (hnodes : Node.Closed known) {node child : Node} (hnode : known node)
    (hopened : node.id ∈ opened) (hchild : child ∈ node.children) : Askable known opened s child where
  known := hnodes.child hnode hchild
  outer houter _ := by
    rw [Node.parent_of_mem_children hchild, Option.some_inj] at houter
    exact .inl (houter ▸ hopened)

theorem Obeys.any : Obeys (noting known opened) s (pure TypeId.any) fun type s => s.HasType type :=
  .pure fun hs => hs.1.hasType_any

theorem Obeys.primitive {type : TypeId} (htype : type.index < TypeData.primitives.length) :
    Obeys (noting known opened) s (pure type) fun type s => s.HasType type :=
  .pure fun hs => hs.1.hasType_primitive htype

section

variable {ask : Ask} (hask : Answers known ask)

include hask

/-- The type of an expression that is there is noted. -/
theorem expressionType_noticed {node : Option Node} (hnode : ∀ e ∈ node, Askable known opened s e) :
    Obeys (noting known opened) s (expressionType ask node) fun type s =>
      s.HasType type ∧ ∀ e ∈ node, s.expressionTypes.get? e.id = some type := by
  unfold expressionType ifThere
  cases node with
  | none => exact .mono .any fun _ _ _ _ h => ⟨h, fun _ he => by cases he⟩
  | some e => exact (hask.expression (hnode e rfl)).mono fun _ _ _ _ h => ⟨h.1, fun _ he => by cases he; exact h.2⟩

theorem expressionType_obeys {node : Option Node} (hnode : ∀ e ∈ node, Askable known opened s e) :
    Obeys (noting known opened) s (expressionType ask node) fun type s => s.HasType type :=
  (expressionType_noticed hask hnode).mono fun _ _ _ _ h => h.1

theorem ascribedOr_obeys (hnodes : Node.Closed known) {node : Node} (hnode : known node)
    {other : Check TypeId}
    (hother : Obeys (noting known opened) s other fun type s => s.HasType type) :
    Obeys (noting known opened) s (ascribedOr ask node other) fun type s => s.HasType type := by
  unfold ascribedOr
  split
  · rename_i type htype
    exact .quietly (writtenAt_obeys hask.toAnswersTypes (hnodes.ascribed? hnode type htype))
  · exact hother

/-! ## Members -/

/-- What a look-up in an object type finds is the member of that name, whose type is worked out. -/
theorem memberOfObject_obeys {object : TypeId} (hobject : s.HasType object) (name : String) :
    Obeys (noting known opened) s (memberOfObject ask object name) fun access s =>
      access.Closed s ∧ s.HasType object ∧
        ∀ type, s.typeData object = .object type → s.Holds object name access.member? := by
  refine .bind (.quietly (membersOf_obeys hask.toAnswersTypes hobject)) fun members s₁ hs₁ _ hmembers => ?_
  obtain ⟨rfl, hin, hfilled⟩ := hmembers
  have hholds : ∀ type, s₁.typeData object = .object type →
      s₁.Holds object name (s₁.memberNamed? (s₁.membersOf object) name) := fun type htype =>
    ⟨type, htype, hfilled type htype, by rw [Facts.membersOf, Facts.object?, htype]; rfl⟩
  refine .get fun _ => ?_
  split
  · rename_i member hmember
    have hhas := hs₁.1.membersOf object member (List.mem_of_find?_eq_some hmember)
    refine .bind (hask.valueOf hhas.has) fun type s₂ _ hstep htype => .pure fun _ => ?_
    refine ⟨⟨fun _ hfound => by cases hfound; exact htype, fun _ hfound => by
      cases hfound
      exact hstep.hasSymbol hhas.has⟩, hstep.hasType hin, fun after hafter => ?_⟩
    obtain ⟨before, hbefore⟩ := hstep.object_of hin hafter
    exact (hmember ▸ hholds before hbefore).mono hs₁.1 hstep.toGrows
  · rename_i hnone
    rw [hnone] at hholds
    split
    · rename_i index hindex
      refine .pure fun _ => ⟨.unnamed (fun _ hfound => ?_) rfl, hin, hholds⟩
      cases hfound
      exact hs₁.1.stringIndexOf object index hindex
    · exact .pure fun _ => ⟨.unnamed (fun _ hfound => by cases hfound) rfl, hin, hholds⟩

omit hask in
/-- A text has the members of the interface `String`, once its declaration has been looked at. -/
theorem finds_text {s s₁ s₂ : Facts} {type object : TypeId} {name : String} {member : Option SymbolId}
    {string : SymbolId} (hs : s.Closed known) (htype : s.HasType type) (htext : (s.typeData type).isText = true)
    (hstring : s.stringSymbol = some string) (hle₁ : s.Grows known s₁) (hdenotes : s₁.Denotes string object)
    (hle₂ : s₁.Grows known s₂) (hfound : ∀ type, s₂.typeData object = .object type → s₂.Holds object name member) :
    s₂.Finds type name member := by
  have hother : ∀ object, s.typeData type ≠ .object object := fun object heq => by
    rw [heq] at htext
    cases htext
  have hle := hle₁.trans hle₂
  have hsame := hle.typeData_eq htype hother
  refine ⟨hle.hasType htype, fun object heq => absurd (hsame ▸ heq) (hother object), fun _ string' hstring' hkind => ?_,
    fun hnone => ?_⟩
  · rw [hle.stringSymbol, hstring] at hstring'
    cases hstring'
    have hkind₁ : (s₁.symbol string).kind = .classDecl ∨ (s₁.symbol string).kind = .interface := by
      rwa [← hle₂.kind (hle₁.hasSymbol (hs.stringSymbol string hstring))]
    refine ⟨object, hle₂.declaredTypes (hdenotes.noted hkind₁), ?_⟩
    have hdeclarer := (hle₂.declarer hdenotes.has).trans (hdenotes.declarer hkind₁)
    obtain ⟨after, hafter, -⟩ := Option.bind_eq_some_iff.mp hdeclarer
    exact hfound after (Facts.object?_eq_some hafter).2
  · rw [hsame, htext] at hnone
    cases hnone

omit hask in
/-- Neither a text nor an object type: nothing is found. -/
theorem finds_none {s s' : Facts} {type : TypeId} (htype : s.HasType type) (htext : (s.typeData type).isText = false)
    (hother : ∀ object, s.typeData type ≠ .object object) (hle : s.Grows known s') (name : String) :
    s'.Finds type name none := by
  have hsame := hle.typeData_eq htype hother
  exact ⟨hle.hasType htype, fun object heq => absurd (hsame ▸ heq) (hother object),
    fun hsome => (by rw [hsame, htext] at hsome; cases hsome), fun _ _ => rfl⟩

/-- A member of a text is one of the objects that the prelude declares for texts. -/
theorem memberOfText_obeys {type : TypeId} (htype : s.HasType type) (htext : (s.typeData type).isText = true)
    (name : String) :
    Obeys (noting known opened) s (do
      match (← get).stringSymbol with
      | some string => memberOfObject ask (← ask (.declared string)) name
      | none => return .unchecked) fun access s =>
        access.Closed s ∧ Finds s type name access.member? := by
  refine .get fun hs => ?_
  split
  · rename_i string hstring
    refine .bind (.quietly (hask.declared (hs.1.stringSymbol string hstring))) fun object s₁ _ hstep₁ hobject => ?_
    exact (memberOfObject_obeys hask hobject.has name).mono fun _ s₂ _ hstep₂ hfound =>
      ⟨hfound.1, finds_text hs.1 htype htext hstring hstep₁.toGrows hobject hstep₂.toGrows hfound.2.2⟩
  · rename_i hnone
    refine .pure fun hs => ⟨.unnamed (fun _ hfound => by cases hfound; exact hs.1.hasType_any) rfl, htype,
      fun object heq => (by rw [heq] at htext; cases htext), fun _ string hstring => ?_,
      fun hother => (by rw [htext] at hother; cases hother)⟩
    rw [hnone] at hstring
    cases hstring

theorem memberOfOne_obeys {type : TypeId} (htype : s.HasType type) (name : String) :
    Obeys (noting known opened) s (memberOfOne ask type name) fun access s =>
      access.Closed s ∧ Finds s type name access.member? := by
  refine .get fun hs => ?_
  split
  · rename_i hdata
    exact memberOfText_obeys hask htype (by rw [hdata]; rfl) name
  · rename_i hdata
    exact memberOfText_obeys hask htype (by rw [hdata]; rfl) name
  · rename_i before hdata
    refine (memberOfObject_obeys hask htype name).mono fun access s₁ hs₁ hstep hfound => ⟨hfound.1, ?_⟩
    obtain ⟨after, hafter⟩ : ∃ after, s₁.typeData type = .object after := by
      rcases hstep.typeData htype with hsame | ⟨_, members, index, -, -, hfilled⟩
      · exact ⟨before, hsame.trans hdata⟩
      · exact ⟨_, hfilled⟩
    exact ⟨hfound.2.1, hfound.2.2, fun htext => (by rw [hafter] at htext; cases htext),
      fun _ hother => absurd hafter (hother after)⟩
  · rename_i hstring hliteral hobject
    have htext : (s.typeData type).isText = false := by
      cases hdata : s.typeData type with
      | string => exact absurd hdata hstring
      | literal value =>
        cases value with
        | string text => exact absurd hdata (hliteral text)
        | _ => rfl
      | _ => rfl
    have hrefl : s.Grows known s := .refl s
    exact .pure fun hs => ⟨.unnamed (fun _ hfound => by cases hfound; exact hs.1.hasType_any) rfl,
      finds_none htype htext (fun object => hobject object) hrefl name⟩

theorem memberTypes_obeys (name : String) : ∀ {s : Facts} (types : List TypeId),
    (∀ type ∈ types, s.HasType type) →
      Obeys (noting known opened) s (memberTypes ask name types) fun members s =>
        ∀ types ∈ members, ∀ type ∈ types, s.HasType type
  | s, [], _ => .pure fun _ types htypes type htype => by
    cases htypes
    cases htype
  | s, type :: rest, htypes => by
    refine .bind (memberOfOne_obeys hask (htypes type List.mem_cons_self) name) fun access s₁ _ hstep₁ haccess => ?_
    split
    · exact .pure fun _ types htypes => by cases htypes
    · rename_i member hmember
      have hin := haccess.1.type member hmember
      refine .bind (memberTypes_obeys name rest fun type htype =>
        hstep₁.hasType (htypes type (List.mem_cons_of_mem _ htype))) fun others s₂ _ hstep₂ hothers => ?_
      refine .pure fun _ types hmap type htype => ?_
      obtain ⟨own, hown, rfl⟩ := Option.map_eq_some_iff.mp hmap
      rcases List.mem_cons.mp htype with rfl | htype
      · exact hstep₂.hasType hin
      · exact hothers own hown type htype

theorem memberOf_obeys {type : TypeId} (htype : s.HasType type) (name : String) :
    Obeys (noting known opened) s (memberOf ask type name) fun access s =>
      access.Closed s ∧ Finds s type name access.member? := by
  refine .get fun hs => ?_
  split
  · rename_i members hdata
    have hmembers := hs.1.typeData type htype
    rw [hdata] at hmembers
    have hfinds : ∀ {s'}, s.Grows known s' → Finds s' type name none := fun hle =>
      finds_none htype (by rw [hdata]; rfl) (fun object hobject => by rw [hdata] at hobject; cases hobject) hle name
    refine .bind (memberTypes_obeys hask name members hmembers) fun found s₁ _ hstep₁ hfound => ?_
    split
    · rename_i types
      refine .bind (.quietly (.notes fun hs => Facts.union_notes hs (hfound types rfl)))
        fun union s₂ _ hstep₂ hunion => .pure fun _ => ?_
      exact ⟨.unnamed (fun _ hfound => by cases hfound; exact hunion) rfl, hfinds (hstep₁.trans hstep₂).toGrows⟩
    · exact .pure fun _ => ⟨.unnamed (fun _ hfound => by cases hfound) rfl, hfinds hstep₁.toGrows⟩
  · exact memberOfOne_obeys hask htype name

/-- A member is looked up, and something is noted for it. -/
theorem accessedType_obeys (node : Node) (span : Text.Span) {type : TypeId} (htype : s.HasType type)
    (name : String) {use : SymbolId → Check Unit} {post : Facts → Prop}
    (hstable : ∀ {s' s''}, s'.Closed known → s'.Quiet known s'' → post s' → post s'')
    (huse : ∀ {s' member}, (noting known opened).step s s' → s'.HasSymbol member → Finds s' type name (some member) →
      Obeys (noting known opened) s' (use member) fun _ => post)
    (hnone : ∀ {s'}, (noting known opened).holds s' → (noting known opened).step s s' →
      Finds s' type name none → post s') :
    Obeys (noting known opened) s (accessedType ask node span type name use) fun type s =>
      s.HasType type ∧ post s := by
  refine .bind (memberOf_obeys hask htype name) fun access s₁ hs₁ hstep₁ haccess => ?_
  obtain ⟨hclosed, hfinds⟩ := haccess
  split
  · rename_i member found
    have hfound := hclosed.type found rfl
    cases member with
    | none => exact .pure fun _ => ⟨hfound, hnone hs₁ hstep₁ hfinds⟩
    | some member =>
      exact .bind (huse hstep₁ (hclosed.member member rfl) hfinds) fun _ s₂ _ hstep₂ hpost =>
        .pure fun _ => ⟨hstep₂.hasType hfound, hpost⟩
  · exact .pure fun _ => ⟨hclosed.type .any rfl, hnone hs₁ hstep₁ hfinds⟩
  · have hproblem : (Problem.unknownProperty type name).Closed s₁ := hstep₁.hasType htype
    refine .quietly (.bind (report_obeys node span hproblem fun _ heq => by cases heq)
      fun _ s₂ _ hstep₂ _ => .pure fun hs₂ => ?_)
    exact ⟨hs₂.hasType_any, hstable hs₁.1 hstep₂ (hnone hs₁ hstep₁ hfinds)⟩

/-! ## Symbols -/

section

variable (hnodes : Node.Closed known)

include hnodes

theorem childExpression_obeys {node : Node} (hnode : Declares known node) :
    Obeys (noting known opened) s (expressionType ask node.expression?) fun type s => s.HasType type :=
  expressionType_obeys hask fun _ he =>
    .child hnodes hnode.known hnode.kind (List.mem_of_find?_eq_some he)

/-- The type of a declarator is noted where it comes from. -/
theorem initializedType_obeys {node : Node} (hnode : Declares known node) :
    Obeys (noting known opened) s (initializedType ask node) fun type s =>
      s.HasType type ∧ (node.hasValue = true → s.initialType? node = some type) := by
  unfold initializedType ascribedOr
  split
  · rename_i written hwritten
    refine .quietly ((hask.written (hnodes.ascribed? hnode.known written hwritten)).mono
      fun type s₁ _ _ h => ⟨h.1, fun _ => ?_⟩)
    rw [Facts.initialType?, hwritten]
    exact h.2
  · rename_i hnone
    unfold expressionType ifThere
    cases hvalue : node.expression? with
    | none => exact .mono .any fun _ _ _ _ h => ⟨h, fun hsome => by
        rw [Node.hasValue, hnone, hvalue] at hsome
        cases hsome⟩
    | some value =>
      refine (hask.expression (.child hnodes hnode.known hnode.kind (List.mem_of_find?_eq_some hvalue))).mono
        fun type s₁ _ _ h => ⟨h.1, fun _ => ?_⟩
      rw [Facts.initialType?, hnone, hvalue]
      exact h.2

theorem paramValueType_obeys {node : Node} (hnode : Declares known node) :
    Obeys (noting known opened) s (paramValueType ask node) fun type s => s.HasType type := by
  refine ascribedOr_obeys hask hnodes hnode.known ?_
  split
  · rename_i value hvalue
    exact (hask.expression (.child hnodes hnode.known hnode.kind (List.mem_of_find?_eq_some hvalue))).mono
      fun _ _ _ _ h => h.1
  · refine .get fun hs => ?_
    split
    · rename_i type htype
      exact .pure fun _ => hs.1.contextual _ type htype
    · split
      · exact .quietly (arrayOf_obeys hask.toAnswersTypes hs.1.hasType_any)
      · exact .any

/-- A variable that takes an element out of a value stands for the member that it reads. -/
theorem boundType_obeys {symbol : SymbolId} (hsymbol : s.HasSymbol symbol) {node : Node} (hnode : known node)
    (hkind : node.kind = .bindingElement) (hhead : (s.symbol symbol).declarations.head? = some node) :
    Obeys (noting known opened) s (boundType ask symbol node) fun type s => s.HasType type ∧ s.Bound symbol := by
  -- Any other element that the variable would take is this one.
  have hbound : ∀ {s'}, s.Extends known s' → (∀ declarator, node.boundDeclarator? = some declarator →
      declarator.hasValue = true → s'.Reads node declarator (s'.boundMembers.get? symbol)) → s'.Bound symbol := by
    intro s' hle h _ _ element declarator hdestructures hvalue
    obtain rfl : node = element := Option.some_inj.mp
      ((hhead.symm.trans (hle.head hsymbol).symm).trans hdestructures.head)
    exact h declarator hdestructures.declarator hvalue
  unfold boundType
  split
  · rename_i hnone
    exact .mono .any fun _ _ _ hstep h => ⟨h, hbound hstep.toExtends fun declarator hsome => by
      cases hnone.symm.trans hsome⟩
  · rename_i declarator hdeclarator
    obtain ⟨pattern, hpattern, hparent⟩ := Option.bind_eq_some_iff.mp hdeclarator
    obtain ⟨hpattern, -⟩ := Option.filter_eq_some_iff.mp hpattern
    obtain ⟨hparent, hdeclares⟩ := Option.filter_eq_some_iff.mp hparent
    have hdeclares : Declares known declarator :=
      .ofKind (hnodes.parent (hnodes.parent hnode hpattern) hparent) (by rw [beq_iff_eq.mp hdeclares]; rfl)
    have honly : ∀ {s'}, s.Extends known s' →
        (declarator.hasValue = true → s'.Reads node declarator (s'.boundMembers.get? symbol)) → s'.Bound symbol :=
      fun hle h => hbound hle fun other hother =>
        (Option.some_inj.mp (hdeclarator.symm.trans hother) : declarator = other) ▸ h
    split
    · rename_i hempty
      refine .mono .any fun _ _ _ hstep h => ⟨h, honly hstep.toExtends fun hvalue => ?_⟩
      rw [Node.hasValue, Bool.or_eq_true] at hvalue
      rw [Bool.and_eq_true, Option.isNone_iff_eq_none, Option.isNone_iff_eq_none] at hempty
      rw [hempty.1, hempty.2] at hvalue
      rcases hvalue with hvalue | hvalue <;> cases hvalue
    · rename_i hsome
      have hvalue : declarator.hasValue = true := by
        cases hascribed : declarator.ascribed? <;> cases hexpression : declarator.expression? <;>
          simp_all [Node.hasValue]
      refine .bind (initializedType_obeys hask hnodes hdeclares) fun type s₁ _ hstep₁ htype => ?_
      have hreads : ∀ {s' member}, (noting known opened).step s₁ s' → Finds s' type node.boundProperty member →
          s'.Reads node declarator member := fun hstep hfinds =>
        ⟨type, hstep.initialType? (htype.2 hvalue), hfinds⟩
      have hdestructures : ∀ {s'}, (noting known opened).step s₁ s' → s'.Destructures symbol node declarator :=
        fun hstep => ⟨(hstep₁.trans hstep).hasSymbol hsymbol, ((hstep₁.trans hstep).head hsymbol).trans hhead, hkind,
          hdeclarator⟩
      refine Obeys.mono (accessedType_obeys hask node _ htype.1 _ (fun hs' hquiet h => ?_) (fun hstep hmember hfinds =>
        bindMember_obeys hmember (hdestructures hstep) (hreads hstep hfinds)) (fun {s'} hs' hstep hfinds => ?_))
        fun _ _ _ hstep h => ⟨h.1, honly (hstep₁.trans hstep).toExtends fun _ => h.2⟩
      · rw [hquiet.boundMembers]
        exact h.mono hs' hquiet.later
      · -- Nothing is found now; but if something was found before, then it is what was noted.
        cases hmember : s'.boundMembers.get? symbol with
        | none => exact hreads hstep hfinds
        | some member =>
          obtain ⟨element, declarator', hbefore, hread⟩ := hs'.2.bound hmember
          obtain rfl : node = element := Option.some_inj.mp ((hdestructures hstep).head.symm.trans hbefore.head)
          obtain rfl : declarator = declarator' := Option.some_inj.mp (hdeclarator.symm.trans hbefore.declarator)
          exact hread

omit hask hnodes in
/-- A method of the class itself is declared when the class is looked at as a value. -/
theorem staticMember_obeys {node : Node} (hnode : known node) {members : List SymbolId}
    (hmembers : ∀ id ∈ members, s.HasMember id) :
    Obeys (quiet known) s (staticMember members node) fun members s => (∀ id ∈ members, s.HasMember id) ∧
      (node.kind = .methodDecl → node.isStatic = true → (s.declared? node).isSome = true) := by
  have hadd : DeclaresMember known node → ∀ {kind : SymbolKind}, kind.OfMember node →
      ∀ isOptional, Obeys (quiet known) s (do
        let symbol ← modifyGet (Facts.addMember kind isOptional node)
        modifyGet (Facts.pushMember members symbol)) fun members s => (∀ id ∈ members, s.HasMember id) ∧
          (node.kind = .methodDecl → node.isStatic = true → (s.declared? node).isSome = true) := by
    intro hdeclares kind hkind isOptional
    refine .bind (.notes fun hs => Facts.addNamedMember_notes hs _ isOptional hkind hdeclares)
      fun symbol s₁ _ hstep hsymbol => .notes fun hs => ?_
    exact (Facts.pushMember_notes hs (fun id hid => hstep.hasMember (hmembers id hid)) hsymbol.1).mono
      fun _ _ hstep' h => ⟨h, fun _ _ => hstep'.isSome_declared? hsymbol.2⟩
  have hnot : (node.kind = .methodDecl → node.isStatic = true → False) →
      Obeys (quiet known) s (pure members) fun members s => (∀ id ∈ members, s.HasMember id) ∧
        (node.kind = .methodDecl → node.isStatic = true → (s.declared? node).isSome = true) := fun hnone =>
    .pure fun _ => ⟨hmembers, fun hkind hstatic => (hnone hkind hstatic).elim⟩
  unfold staticMember
  dsimp only
  split
  · rename_i hkind
    split
    · exact hadd (.ofKind hnode (by rw [hkind]; rfl)) (.ofProperty (by rw [hkind]; decide)) _
    · exact hnot fun hmethod => by rw [hkind] at hmethod; cases hmethod
  · rename_i hkind
    split
    · exact hadd (.ofKind hnode (by rw [hkind]; rfl)) (.ofMethod node) _
    · exact hnot fun _ hstatic => absurd hstatic ‹_›
  · exact hnot fun hmethod => absurd hmethod ‹_›

/-- A class as a value: its instances are known by then, and its own methods are declared. -/
theorem classValueType_obeys {symbol : SymbolId} (hsymbol : s.HasSymbol symbol)
    (hclass : (s.symbol symbol).kind = .classDecl) {node : Node} (hnode : known node) :
    Obeys (quiet known) s (classValueType ask symbol node) fun type s => s.HasType type ∧
      (s.declaredTypes.get? symbol).isSome = true ∧ ∀ member ∈ node.classMembers, member.kind = .methodDecl →
        member.isStatic = true → (s.declared? member).isSome = true := by
  refine .bind (hask.declared hsymbol) fun instances s₁ _ hstep₁ hinstances => .get fun hs₁ => ?_
  have hparams := hs₁.typeParamsOf instances
  have hnoted := hinstances.noted (.inl ((hstep₁.kind hsymbol).trans hclass))
  have hmembers : Obeys (quiet known) s₁ (node.classMembers.foldlM staticMember [])
      fun members s => (∀ id ∈ members, s.HasMember id) ∧ ∀ member ∈ node.classMembers, member.kind = .methodDecl →
        member.isStatic = true → (s.declared? member).isSome = true :=
    .foldlM_done (fun _ s s' (hstep : s.Quiet known s') hdone hmethod hstatic =>
      hstep.isSome_declared? (hdone hmethod hstatic)) _ (fun member hmember members _ _ _ hmembers =>
      staticMember_obeys (hnodes.map_childrenOf hnode member hmember) hmembers)
      fun _ id hid => absurd hid List.not_mem_nil
  refine .bind hmembers fun members s₂ _ hstep₂ ⟨hmembers, hmethods⟩ => ?_
  -- What `new` gives is noted with the signature, whether it is written down or not.
  have hmade : ∀ {construct s₃}, s₂.Quiet known s₃ → s₃.HasSignature construct →
      (∀ declaration ∈ (s₃.signature construct).declaration, declaration.kind = .constructorDecl) →
      Obeys (quiet known) s₃ (do
        modify (Facts.modifySignature construct fun known =>
          { known with
            typeParams := ((s₁.object? instances).map (·.typeParams)).getD []
            instanceOf := some symbol })
        modifyGet (Facts.addType (.object
          { ObjectType.bare .constructor (some symbol) with members, constructs := [construct] })))
      fun type s => s.HasType type ∧ (s.declaredTypes.get? symbol).isSome = true ∧ ∀ member ∈ node.classMembers,
        member.kind = .methodDecl → member.isStatic = true → (s.declared? member).isSome = true := by
    intro construct s₃ hstep₃ hconstruct hkind
    have hstep := hstep₂.trans hstep₃
    refine .bind (.noted fun hs => Facts.modifySignature_noted (fun old hold =>
      { hold with
        typeParams := fun id hid => hstep.hasSymbol (hparams id hid)
        instanceOf := fun id hid => by cases hid; exact (hstep₁.trans hstep).hasSymbol hsymbol }) (fun _ => rfl)
      ⟨rfl, rfl, .inr hkind⟩ hs fun _ => rfl)
      fun _ s₄ _ hstep₄ _ => .notes fun hs => ?_
    have hobject : ObjectType.Closed s₄ { ObjectType.bare .constructor (some symbol) with
        members, constructs := [construct] } :=
      { ObjectType.Closed.bare .constructor (some symbol) (by decide) fun id hid => by
          cases hid
          exact (hstep₁.trans (hstep.trans hstep₄)).hasSymbol hsymbol with
        members := fun id hid => (hstep₃.trans hstep₄).hasMember (hmembers id hid)
        constructs := fun id hid => List.mem_singleton.mp hid ▸ hstep₄.hasSignature hconstruct }
    refine (Facts.addType_notes hs (.object _) rfl hobject).mono fun _ s₅ hstep₅ h => ⟨h.1, ?_, fun member hmember hmethod
      hstatic => (hstep₃.trans (hstep₄.trans hstep₅)).isSome_declared? (hmethods member hmember hmethod hstatic)⟩
    exact Option.isSome_iff_exists.mpr ⟨instances, (hstep.trans (hstep₄.trans hstep₅)).declaredTypes hnoted⟩
  dsimp only
  split
  · rename_i constructor hfind
    have hkind : constructor.kind = .constructorDecl := by simpa using List.find?_some hfind
    have hdeclares : Declares known constructor :=
      .ofKind (hnodes.map_childrenOf hnode constructor (List.mem_of_find?_eq_some hfind)) (by rw [hkind]; rfl)
    refine .bind (.notes fun hs => Facts.signatureOf_notes hs hdeclares) fun construct s₃ hs₃ hstep₃ h =>
      hmade hstep₃ h.1 fun declaration hdeclaration => ?_
    -- The signature may be that of another constructor in the same place.
    obtain ⟨other, -, hid, hother, -⟩ := hs₃.written h.2
    obtain rfl := Option.some_inj.mp (hother.symm.trans hdeclaration)
    exact (NodeId.mk.inj hid).2.1.trans hkind
  · exact .bind (.notes fun hs => Facts.addSignature_notes hs .default) fun _ _ _ hstep₃ h =>
      hmade hstep₃ h.1 fun declaration hdeclaration => by rw [h.2] at hdeclaration; cases hdeclaration

omit hask hnodes in
/-- What is no variable, or is declared by no element of a pattern, takes no element out of a value. -/
theorem bound_other {s s' : Facts} {id : SymbolId} {node : Node} (hid : s.HasSymbol id)
    (hhead : (s.symbol id).declarations.head? = some node)
    (hother : (∃ isConst, (s.symbol id).kind = .variable isConst) → node.kind ≠ .bindingElement)
    (hle : s.Extends known s') : s'.Bound id := by
  intro _ hkind element _ hdestructures _
  rw [hle.kind hid] at hkind
  obtain rfl : node = element := Option.some_inj.mp ((hhead.symm.trans (hle.head hid).symm).trans hdestructures.head)
  exact absurd hdestructures.kind (hother hkind)

omit hask hnodes in
/-- What is neither a function nor a class has nothing to settle. -/
theorem settled_other {s s' : Facts} {id : SymbolId} (hid : s.HasSymbol id) (hplain : (s.symbol id).kind.isSettled = false)
    (hle : s.Extends known s') : s'.Settled known id := by
  have hother : ∀ {kind : SymbolKind}, kind.isSettled = true → (s'.symbol id).kind ≠ kind := fun hyes heq => by
    rw [← heq, hle.kind hid, hplain] at hyes
    cases hyes
  exact ⟨fun hkind => (hkind.elim (hother rfl) (hother rfl)).elim, fun hkind => (hother rfl hkind).elim⟩

omit hask hnodes in
/-- The type of a function has the signatures of all its declarations. -/
theorem functionSettled_obeys {id : SymbolId} (hs : s.Closed known) (hid : s.HasSymbol id)
    (hclass : (s.symbol id).kind ≠ .classDecl) :
    Obeys (quiet known) s (functionType (s.symbol id).declarations) fun type s =>
      s.HasType type ∧ s.Settled known id := by
  refine (functionType_obeys (hs.symbol id hid).declarations).mono fun type s' _ hstep h => ⟨h.1, fun _ node hnode
    hdeclared => ?_, fun hkind => absurd (hstep.kind hid ▸ hkind) hclass⟩
  obtain ⟨-, calls, hcalls, -⟩ := h
  obtain ⟨-, own, hown, hsame⟩ := hs.declarations ((hstep.fresh hdeclared).resolve_right fun hnone => hnone hid)
  obtain rfl := hnode.eq_of_id ((hs.symbol id hid).declarations own hown).known hsame
  obtain ⟨call, -, hcall⟩ := List.mem_map.mp (hcalls ▸ List.mem_map_of_mem hown)
  exact Option.isSome_iff_exists.mpr ⟨call, hcall.symm⟩

theorem declaredValueType_obeys (hs : s.Closed known) {id : SymbolId} (hid : s.HasSymbol id) {node : Node}
    (hhead : (s.symbol id).declarations.head? = some node) :
    Obeys (noting known opened) s (declaredValueType ask id (s.symbol id) node) fun type s =>
      s.HasType type ∧ s.Values known id := by
  have hnode := hs.declarations_head? hid node hhead
  -- Only functions and classes have something to settle, and only elements of patterns are bound.
  have hsettled : ∀ {check : Check TypeId}, (s.symbol id).kind.isSettled = false →
      Obeys (noting known opened) s check (fun type s => s.HasType type ∧ s.Bound id) →
        Obeys (noting known opened) s check fun type s => s.HasType type ∧ s.Values known id :=
    fun hplain hcheck => hcheck.mono fun _ _ _ hstep h =>
      ⟨h.1, h.2, fun _ => settled_other hid hplain hstep.toExtends⟩
  have hbound : ∀ {check : Check TypeId}, ((∃ isConst, (s.symbol id).kind = .variable isConst) →
      node.kind ≠ .bindingElement) → Obeys (noting known opened) s check (fun type s => s.HasType type) →
        Obeys (noting known opened) s check fun type s => s.HasType type ∧ s.Bound id := fun hnone hcheck =>
    hcheck.mono fun _ _ _ hstep h => ⟨h, bound_other hid hhead hnone hstep.toExtends⟩
  have hfunction : (s.symbol id).kind = .function ∨ (s.symbol id).kind = .method → Obeys (noting known opened) s
      (functionType (s.symbol id).declarations) fun type s => s.HasType type ∧ s.Values known id := fun hkind => by
    refine .quietly ((functionSettled_obeys hs hid ?_).mono fun type s' _ hstep h => ⟨h.1, ?_, fun _ => h.2⟩)
    · rcases hkind with hkind | hkind <;> rw [hkind] <;> decide
    · refine bound_other hid hhead (fun ⟨isConst, hvariable⟩ => ?_) hstep.toExtends
      rcases hkind with hkind | hkind <;> rw [hkind] at hvariable <;> cases hvariable
  unfold declaredValueType
  split
  · rename_i hkind
    refine hsettled (by rw [hkind]; rfl) ?_
    split
    · exact boundType_obeys hask hnodes hid hnode.known (beq_iff_eq.mp ‹_›) hhead
    · rename_i hne
      exact hbound (fun _ heq => hne (beq_iff_eq.mpr heq))
        ((initializedType_obeys hask hnodes hnode).mono fun _ _ _ _ h => h.1)
  · rename_i hkind
    exact hsettled (by rw [hkind]; rfl)
      (hbound (fun ⟨_, h⟩ => by rw [hkind] at h; cases h) (paramValueType_obeys hask hnodes hnode))
  · exact hfunction (.inl ‹_›)
  · exact hfunction (.inr ‹_›)
  · rename_i hkind
    refine .quietly ((classValueType_obeys hask hnodes hid hkind hnode.known).mono fun type s' _ hstep h =>
      ⟨h.1, bound_other hid hhead (fun ⟨_, hvariable⟩ => by rw [hkind] at hvariable; cases hvariable) hstep.toExtends,
        fun _ => ⟨fun hother => ?_, fun _ => ⟨h.2.1, fun first hfirst => ?_⟩⟩⟩)
    · rw [hstep.kind hid, hkind] at hother
      rcases hother with hother | hother <;> cases hother
    · rw [hstep.head hid, hhead] at hfirst
      obtain rfl := Option.some_inj.mp hfirst
      exact h.2.2
  · rename_i hkind
    refine hsettled (by rw [hkind]; rfl)
      (hbound (fun ⟨_, h⟩ => by rw [hkind] at h; cases h) ?_)
    split
    · exact childExpression_obeys hask hnodes hnode
    · exact childExpression_obeys hask hnodes hnode
    · exact paramValueType_obeys hask hnodes hnode
    · exact (initializedType_obeys hask hnodes hnode).mono fun _ _ _ _ h => h.1
  all_goals
    rename_i hkind
    exact hsettled (by rw [hkind]; rfl)
      (hbound (fun ⟨_, h⟩ => by rw [hkind] at h; cases h) .any)

theorem valueType_obeys {id : SymbolId} (hid : s.HasSymbol id) :
    Obeys (noting known opened) s (valueType ask id) fun type s => s.HasType type ∧ s.Values known id := by
  refine .get fun hs => ?_
  have hsymbol := hs.1.symbol id hid
  dsimp only
  split
  · rename_i origin substitution hcopy
    obtain ⟨horigin, hsubstitution⟩ := hsymbol.origin hcopy
    refine .bind (hask.valueOf horigin) fun generic s₁ _ hstep hgeneric => ?_
    refine (Obeys.quietly (hask.substituted hgeneric (hstep.hasSubstitution hsubstitution))).mono
      fun type s₂ _ hstep' htype => ?_
    obtain ⟨more, hsame⟩ := (hstep.trans hstep').symbol hid
    have hcopied : (s₂.symbol id).origin ≠ none := by
      rw [hsame, show (s.symbol id).origin = _ from hcopy]
      exact Option.some_ne_none _
    exact ⟨htype, fun hnone => absurd hnone hcopied, fun hnone => absurd hnone hcopied⟩
  · unfold ifThere
    split
    · rename_i node hnode
      exact declaredValueType_obeys hask hnodes hs.1 hid hnode
    · rename_i hnone
      exact absurd (List.head?_eq_none_iff.mp hnone) hsymbol.nonempty

theorem valueOf_obeys {id : SymbolId} (hid : s.HasSymbol id) :
    Obeys (noting known opened) s (valueOf ask id) fun type s => s.HasType type := by
  refine .get fun hs => ?_
  split
  · rename_i type htype
    exact .pure fun _ => hs.1.symbolTypes _ type htype
  · refine .read fun pending => ?_
    split
    · exact .any
    · refine .bind (.withReader (valueType_obeys hask hnodes hid)) fun type s₁ _ hstep htype => ?_
      exact (keepValue_obeys (hstep.hasSymbol hid) htype.1 htype.2).mono fun _ _ _ _ h => h.1

/-! ## Calls -/

theorem returnedType_obeys {node : Node} (hnode : Declares known node) :
    Obeys (noting known opened) s (returnedType ask node) fun type s => s.givenType? node = some type := by
  unfold returnedType
  split
  · rename_i value hvalue
    refine (hask.expression (.child hnodes hnode.known hnode.kind (List.mem_of_find?_eq_some hvalue))).mono
      fun _ _ _ _ h => ?_
    rw [Facts.givenType?, hvalue]
    exact h.2
  · rename_i hnone
    exact .pure fun _ => by rw [Facts.givenType?, hnone]

theorem inferredReturn_obeys {node : Node} (hnode : Declares known node) :
    Obeys (noting known opened) s (inferredReturn ask node) fun type s =>
      s.HasType type ∧ ∀ body ∈ node.block?, s.Gives body type := by
  unfold inferredReturn
  split
  · rename_i body hbody
    have hreturns := hnodes.returns (hnodes.child? hnode.known body hbody)
    have hbody : ∀ {s : Facts} {type}, s.Gives body type → ∀ own ∈ node.block?, s.Gives own type :=
      fun h own hown => by rwa [Option.some_inj.mp (hown.symm.trans hbody : some own = some body)]
    split
    · rename_i hempty
      have hempty : body.returns = [] := List.isEmpty_iff.mp hempty
      exact .pure fun hs => ⟨hs.1.hasType_primitive (by decide), hbody ⟨fun _ => rfl, fun hsome => absurd hempty hsome⟩⟩
    · rename_i hsome
      have hsome : body.returns ≠ [] := fun hnil => hsome (List.isEmpty_iff.mpr hnil)
      refine .bind (.mapM_map Facts.givenType? (fun hstep hget => Facts.givenType?_later hget hstep) body.returns
        fun found hfound _ _ _ => returnedType_obeys hask hnodes
          (.ofKind (hreturns found hfound).1 (by rw [(hreturns found hfound).2]; rfl)))
        fun types s₁ hs₁ _ htypes => .quietly (.notes fun hs => ?_)
      have hhas := Facts.hasType_of_givenTypes htypes hs
      refine (Facts.union_unites hs hhas).mono fun type s₂ hstep h => ⟨h.1, hbody ⟨fun hnil => absurd hnil hsome,
        fun _ => ⟨types, Facts.givenTypes_later htypes hstep.later, h.2⟩⟩⟩
  · rename_i hnone
    have hbody : ∀ {s : Facts} {type}, ∀ body ∈ node.block?, s.Gives body type := fun body hbody => by
      cases hnone.symm.trans hbody
    split
    · refine (expressionType_obeys hask fun body hbody => ?_).mono fun _ _ _ _ h => ⟨h, hbody⟩
      obtain ⟨hlast, -⟩ := Option.filter_eq_some_iff.mp hbody
      exact .child hnodes hnode.known hnode.kind (List.mem_of_getLast? hlast)
    · exact .mono .any fun _ _ _ _ h => ⟨h, hbody⟩

theorem declaredReturn_obeys {node : Node} (hnode : Declares known node) :
    Obeys (noting known opened) s (declaredReturn ask node) fun type s =>
      s.HasType type ∧ (node.kind.isFunction = true → s.Infers node type) := by
  have hother : ∀ {check : Check TypeId}, node.kind.isFunction = false →
      Obeys (noting known opened) s check (fun type s => s.HasType type) →
        Obeys (noting known opened) s check fun type s =>
          s.HasType type ∧ (node.kind.isFunction = true → s.Infers node type) := fun hno h =>
    h.mono fun _ _ _ _ htype => ⟨htype, fun hyes => by rw [hno] at hyes; cases hyes⟩
  unfold declaredReturn
  split
  · rename_i hkind
    exact hother (by rw [hkind]; rfl)
      (.quietly (writtenType_obeys hask.toAnswersTypes fun type htype => hnodes.child? hnode.known type htype))
  · rename_i hkind
    exact hother (by rw [hkind]; rfl) (.primitive (by decide))
  · unfold ascribedOr
    split
    · rename_i written hwritten
      refine (Obeys.quietly (writtenAt_obeys hask.toAnswersTypes (hnodes.ascribed? hnode.known written hwritten))).mono
        fun _ _ _ _ h => ⟨h, fun _ body _ hnone => ?_⟩
      cases hnone.symm.trans hwritten
    · refine .bind (inferredReturn_obeys hask hnodes hnode) fun type s₁ hs₁ _ htype => ?_
      split
      · rename_i hasync
        refine .quietly ((promiseOf_obeys hask.toAnswersTypes htype.1).mono fun promise s₂ _ hstep h =>
          ⟨h.1, fun _ body hbody _ => ⟨type, (htype.2 body hbody).mono hs₁.1 hstep.later, ?_⟩⟩)
        rw [if_pos hasync]
        exact h.2
      · exact .pure fun _ => ⟨htype.1, fun _ body hbody _ => ⟨type, htype.2 body hbody, if_neg ‹_› ▸ rfl⟩⟩

theorem returnType_obeys {id : SignatureId} (hid : s.HasSignature id) :
    Obeys (noting known opened) s (returnType ask id) fun type s => s.HasType type ∧
      ∀ node, node.kind.isFunction = true → (s.signature id).declaration = some node →
        (s.signature id).origin = none → (s.signature id).instanceOf = none → s.Infers node type := by
  refine .get fun hs => ?_
  have hsignature := hs.1.signature id hid
  dsimp only
  split
  · rename_i origin substitution _ hcopy
    obtain ⟨horigin, hsubstitution⟩ := hsignature.origin hcopy
    refine .bind (hask.returnOf horigin) fun generic s₁ _ hstep hgeneric => ?_
    refine (Obeys.quietly (hask.substituted hgeneric (hstep.hasSubstitution hsubstitution))).mono
      fun _ _ _ hstep' h => ⟨h, fun node _ _ hnone => ?_⟩
    rw [((hstep.trans hstep').signature hid).origin] at hnone
    cases hcopy.symm.trans hnone
  · rename_i made _ hmade
    refine (Obeys.quietly (declaredAt_obeys hask.toAnswersTypes (hsignature.instanceOf made hmade))).mono
      fun _ s' _ hstep h => ⟨h, fun node hkind hdeclaration _ hnone => ?_⟩
    have hkeeps := hstep.signature hid
    rcases hkeeps.instanceOf with hsame | hall
    · cases (hmade.symm.trans hsame.symm).trans hnone
    · rw [hall node (hkeeps.declaration.symm.trans hdeclaration)] at hkind
      cases hkind
  · unfold ifThere
    split
    · rename_i node hnode
      refine (declaredReturn_obeys hask hnodes (hsignature.declaration node hnode)).mono fun type s' _ hstep h =>
        ⟨h.1, fun other hkind hdeclaration _ _ => ?_⟩
      rw [(hstep.signature hid).declaration] at hdeclaration
      obtain rfl : node = other := Option.some_inj.mp (Eq.trans (Eq.symm hnode) hdeclaration)
      exact h.2 hkind
    · rename_i hnone
      refine .mono .any fun type s' _ hstep h => ⟨h, fun other _ hdeclaration _ _ => ?_⟩
      rw [(hstep.signature hid).declaration] at hdeclaration
      cases Eq.trans (Eq.symm hnone) hdeclaration

theorem returnOf_obeys {id : SignatureId} (hid : s.HasSignature id) :
    Obeys (noting known opened) s (returnOf ask id) fun type s => s.HasType type := by
  refine .get fun hs => ?_
  split
  · rename_i type htype
    exact .pure fun _ => (hs.1.signature id hid).returns type htype
  · refine .read fun pending => ?_
    split
    · exact .any
    · refine .bind (.withReader (returnType_obeys hask hnodes hid)) fun type s₁ _ hstep htype => ?_
      exact (keepReturn_obeys (hstep.hasSignature hid) htype.1 htype.2).mono fun _ _ _ _ h => h.1

end

end

end Check

end RouteTypes
